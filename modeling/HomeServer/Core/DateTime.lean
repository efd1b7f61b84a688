import HomeServer.Core.Errors
import HomeServer.Lib.Calendar
import HomeServer.Lib.FixedWidth

/-! `datetime`: the fields of a clock with an optional offset from UTC, the instant they denote,
and the text `_format_ts` stores of it. -/
namespace HomeServer
open Lib Calendar FixedWidth

/-- A naive `datetime`. `MAXYEAR` is 9999. -/
structure WallClock where
  date : Date
  hour : ℕ
  minute : ℕ
  second : ℕ
  microsecond : ℕ
  date_valid : date.Valid
  year_le : date.year ≤ 9999
  hour_lt : hour < 24
  minute_lt : minute < 60
  second_lt : second < 60
  microsecond_lt : microsecond < 1000000

/-- `utcoffset()` in microseconds, strictly less than a day; `none` where `tzinfo` is `None`. -/
structure DateTime extends WallClock where
  utcoffset : Option ℤ
  utcoffset_lt : ∀ o ∈ utcoffset, -86400000000 < o ∧ o < 86400000000

namespace WallClock

def timeOfDay (c : WallClock) : ℕ := c.hour * 3600 + c.minute * 60 + c.second

def seconds (c : WallClock) : ℕ := c.date.toOrdinal * 86400 + c.timeOfDay

def micros (c : WallClock) : ℤ := c.seconds * 1000000 + c.microsecond

/-- `_MAXORDINAL`, the last day of year 9999. -/
def maxOrdinal : ℕ := 3652059

theorem timeOfDay_lt (c : WallClock) : c.timeOfDay < 86400 := by
  have hhour := c.hour_lt
  have hminute := c.minute_lt
  have hsecond := c.second_lt
  unfold timeOfDay
  omega

theorem year_le_of_toOrdinal {d : Date} (h : d.Valid) (hle : d.toOrdinal ≤ maxOrdinal) :
    d.year ≤ 9999 := by
  by_contra hyear
  have hbefore : daysBeforeYear 10000 ≤ daysBeforeYear d.year := by
    rcases Nat.lt_or_ge 10000 d.year with hlt | hge
    · exact le_trans (Nat.le_add_right _ _) (daysBeforeYear_le (by omega) hlt)
    · rw [show d.year = 10000 by omega]
  have hday := h.day.1
  have hlast : daysBeforeYear 10000 = maxOrdinal := by decide
  unfold Date.toOrdinal at hle
  omega

/-- The fields of a number of microseconds, where there is a date for them. -/
def ofMicros (t : ℤ) : Option WallClock :=
  let day := (t / 86400000000).toNat
  let rest := (t % 86400000000).toNat
  if h : 0 < t / 86400000000 ∧ t / 86400000000 ≤ maxOrdinal then
    some
      { date := .ofOrdinal day
        hour := rest / 3600000000
        minute := rest / 60000000 % 60
        second := rest / 1000000 % 60
        microsecond := rest % 1000000
        date_valid := (Date.ofOrdinal_spec (by omega)).1
        year_le := by
          have hspec := Date.ofOrdinal_spec (n := day) (by omega)
          exact year_le_of_toOrdinal hspec.1 (by rw [hspec.2]; omega)
        hour_lt := by omega
        minute_lt := Nat.mod_lt _ (by decide)
        second_lt := Nat.mod_lt _ (by decide)
        microsecond_lt := Nat.mod_lt _ (by decide) }
  else none

theorem micros_ofMicros {t : ℤ} {c : WallClock} (h : ofMicros t = some c) : c.micros = t := by
  unfold ofMicros at h
  dsimp only at h
  split at h
  · rename_i hday
    obtain rfl := Option.some.inj h
    have hordinal := (Date.ofOrdinal_spec (n := (t / 86400000000).toNat) (by omega)).2
    unfold micros seconds timeOfDay
    dsimp only
    rw [hordinal]
    omega
  · cases h

/-- `strftime("%Y-%m-%d %H:%M:%S")`. The year is not padded. -/
def strftime (c : WallClock) : String :=
  .ofList (Nat.toDigits 10 c.date.year ++ '-' :: (digits 2 c.date.month ++ '-' ::
    (digits 2 c.date.day ++ ' ' :: (digits 2 c.hour ++ ':' :: (digits 2 c.minute ++ ':' ::
      digits 2 c.second)))))

/-- The fields of the texts that pad the year, with what stands between day and time. -/
def fields (c : WallClock) (separator : Char) : List Char :=
  digits 4 c.date.year ++ '-' :: (digits 2 c.date.month ++ '-' :: (digits 2 c.date.day ++
    separator :: (digits 2 c.hour ++ ':' :: (digits 2 c.minute ++ ':' :: digits 2 c.second))))

/-- The seconds since the start of day zero that such fields denote, and the text after them. -/
def readFields (separator : Char) (s : List Char) : Option (ℕ × List Char) := do
  let (year, s) ← readNumber 4 s
  let s ← expect '-' s
  let (month, s) ← readNumber 2 s
  let s ← expect '-' s
  let (day, s) ← readNumber 2 s
  let s ← expect separator s
  let (hour, s) ← readNumber 2 s
  let s ← expect ':' s
  let (minute, s) ← readNumber 2 s
  let s ← expect ':' s
  let (second, s) ← readNumber 2 s
  let date : Date := ⟨year, month, day⟩
  if 1 ≤ year ∧ (1 ≤ month ∧ month ≤ 12) ∧ (1 ≤ day ∧ day ≤ daysInMonth (isLeap year) month) ∧
      hour < 24 ∧ minute < 60 ∧ second < 60 then
    some (date.toOrdinal * 86400 + (hour * 3600 + minute * 60 + second), s)
  else none

section Order
variable {c d : WallClock}

theorem field_widths (c : WallClock) :
    (c.date.year < 10 ^ 4 ∧ c.date.month < 10 ^ 2 ∧ c.date.day < 10 ^ 2) ∧
      c.hour < 10 ^ 2 ∧ c.minute < 10 ^ 2 ∧ c.second < 10 ^ 2 := by
  have hyear := c.year_le
  have hmonth := c.date_valid.month
  have hday := c.date_valid.day
  have hlast := daysInMonth_le (isLeap c.date.year) c.date.month
  have hhour := c.hour_lt
  have hminute := c.minute_lt
  have hsecond := c.second_lt
  omega

/-- The fields are read back. -/
theorem readFields_fields (c : WallClock) (separator : Char) (s : List Char) :
    readFields separator (c.fields separator ++ s) = some (c.seconds, s) := by
  obtain ⟨⟨hyear, hmonth, hday⟩, hhour, hminute, hsecond⟩ := c.field_widths
  have hvalid : 1 ≤ c.date.year ∧ (1 ≤ c.date.month ∧ c.date.month ≤ 12) ∧
      (1 ≤ c.date.day ∧ c.date.day ≤ daysInMonth (isLeap c.date.year) c.date.month) ∧
      c.hour < 24 ∧ c.minute < 60 ∧ c.second < 60 :=
    ⟨c.date_valid.year, c.date_valid.month, c.date_valid.day, c.hour_lt, c.minute_lt, c.second_lt⟩
  unfold readFields fields
  simp only [List.append_assoc, List.cons_append, readNumber_digits hyear,
    readNumber_digits hmonth, readNumber_digits hday, readNumber_digits hhour,
    readNumber_digits hminute, readNumber_digits hsecond, expect_cons,
    Option.bind_eq_bind, Option.bind_some, if_pos hvalid]
  rfl

/-- The first field in which two clocks differ decides which is earlier. -/
def Earlier (c d : WallClock) : Prop :=
  c.date.year < d.date.year ∨ c.date.year = d.date.year ∧
    (c.date.month < d.date.month ∨ c.date.month = d.date.month ∧
      (c.date.day < d.date.day ∨ c.date.day = d.date.day ∧
        (c.hour < d.hour ∨ c.hour = d.hour ∧
          (c.minute < d.minute ∨ c.minute = d.minute ∧ c.second < d.second))))

theorem toList_strftime (hc : 1000 ≤ c.date.year) :
    c.strftime.toList = digits 4 c.date.year ++ '-' :: (digits 2 c.date.month ++ '-' ::
      (digits 2 c.date.day ++ ' ' :: (digits 2 c.hour ++ ':' :: (digits 2 c.minute ++ ':' ::
        digits 2 c.second)))) := by
  have hyear := c.year_le
  unfold strftime
  rw [String.toList_ofList, toDigits_eq_digits (w := 3) (by omega) (by omega)]

/-- The texts compare like the fields: each has a width of its own. -/
theorem strftime_lt_iff_earlier (hc : 1000 ≤ c.date.year) (hd : 1000 ≤ d.date.year) :
    c.strftime < d.strftime ↔ Earlier c d := by
  obtain ⟨⟨hyear, hmonth, hday⟩, hhour, hminute, hsecond⟩ := c.field_widths
  obtain ⟨⟨hyear', hmonth', hday'⟩, hhour', hminute', hsecond'⟩ := d.field_widths
  rw [String.lt_iff_toList_lt, toList_strftime hc, toList_strftime hd,
    digits_append_lt_iff hyear hyear', List.cons_lt_cons_self,
    digits_append_lt_iff hmonth hmonth', List.cons_lt_cons_self,
    digits_append_lt_iff hday hday', List.cons_lt_cons_self,
    digits_append_lt_iff hhour hhour', List.cons_lt_cons_self,
    digits_append_lt_iff hminute hminute', List.cons_lt_cons_self,
    digits_lt_iff hsecond hsecond']
  rfl

theorem seconds_lt_of_earlier (h : Earlier c d) : c.seconds < d.seconds := by
  have hc := c.timeOfDay_lt
  have hordinal := Date.toOrdinal_lt c.date_valid d.date_valid
  unfold seconds
  by_cases hdate : c.date = d.date
  · have htime : c.timeOfDay < d.timeOfDay := by
      have hminute := c.minute_lt
      have hsecond := c.second_lt
      unfold Earlier at h
      rw [hdate] at h
      unfold timeOfDay
      omega
    rw [hdate]
    omega
  · have hlt : c.date.toOrdinal < d.date.toOrdinal := by
      apply hordinal
      unfold Earlier at h
      by_contra hnot
      have hyear : c.date.year = d.date.year := by omega
      have hmonth : c.date.month = d.date.month := by omega
      have hday : c.date.day = d.date.day := by omega
      exact hdate (Date.ext hyear hmonth hday)
    omega

theorem earlier_trichotomy (c d : WallClock) :
    Earlier c d ∨ c.seconds = d.seconds ∨ Earlier d c := by
  by_cases hcd : Earlier c d
  · exact Or.inl hcd
  · by_cases hdc : Earlier d c
    · exact Or.inr (Or.inr hdc)
    · unfold Earlier at hcd hdc
      have hdate : c.date = d.date := Date.ext (by omega) (by omega) (by omega)
      have htime : c.timeOfDay = d.timeOfDay := by
        unfold timeOfDay
        omega
      unfold seconds
      rw [hdate, htime]
      exact Or.inr (Or.inl rfl)

theorem earlier_iff : Earlier c d ↔ c.seconds < d.seconds := by
  constructor
  · exact seconds_lt_of_earlier
  · intro hlt
    rcases earlier_trichotomy c d with hcd | heq | hdc
    · exact hcd
    · omega
    · have hgt := seconds_lt_of_earlier hdc
      omega

theorem strftime_le_iff (hc : 1000 ≤ c.date.year) (hd : 1000 ≤ d.date.year) :
    c.strftime ≤ d.strftime ↔ c.seconds ≤ d.seconds := by
  rw [← not_lt, ← not_lt, strftime_lt_iff_earlier hd hc, earlier_iff]

theorem year_le_of_micros_le (h : c.micros ≤ d.micros) : c.date.year ≤ d.date.year := by
  by_contra hyear
  have hlt := seconds_lt_of_earlier (c := d) (d := c) (Or.inl (not_le.mp hyear))
  have hmicros := d.microsecond_lt
  unfold micros at h
  omega

end Order
end WallClock

def WallClock.naive (c : WallClock) : DateTime := ⟨c, none, by simp⟩

namespace DateTime

def instant (t : DateTime) : ℤ := t.micros - t.utcoffset.getD 0

/-- `astimezone(UTC)`, for a naive value the value itself. A date before year 1 or after 9999 is an
`OverflowError`. -/
def utc (t : DateTime) : Except Err WallClock :=
  match t.utcoffset with
  | none => .ok t.toWallClock
  | some offset =>
    match WallClock.ofMicros (t.micros - offset) with
    | some c => .ok c
    | none => .error .overflowError

def formatTs (t : DateTime) : Except Err String := t.utc.map WallClock.strftime

/-- The offset in `isoformat`, with its seconds and microseconds where there are any. -/
def formatOffset (offset : ℤ) : List Char :=
  let o := offset.natAbs
  (if offset < 0 then '-' else '+') :: (digits 2 (o / 3600000000) ++
    ':' :: (digits 2 (o / 60000000 % 60) ++
      if o % 60000000 = 0 then []
      else ':' :: (digits 2 (o / 1000000 % 60) ++
        if o % 1000000 = 0 then [] else '.' :: digits 6 (o % 1000000))))

/-- `isoformat(timespec="seconds")`. -/
def isoformat (t : DateTime) : String :=
  .ofList (t.fields 'T' ++ t.utcoffset.elim [] formatOffset)

/-- `t - timedelta(seconds=n)`, in the time zone of `t`. -/
def subSeconds (t : DateTime) (n : ℤ) : Except Err DateTime :=
  match WallClock.ofMicros (t.micros - n * 1000000) with
  | some c => .ok ⟨c, t.utcoffset, t.utcoffset_lt⟩
  | none => .error .overflowError

def FourDigitYear (t : DateTime) : Prop := ∃ c, t.utc = .ok c ∧ 1000 ≤ c.date.year

variable {t u : DateTime} {c : WallClock}

theorem micros_utc (h : t.utc = .ok c) : c.micros = t.instant := by
  unfold utc at h
  unfold instant
  split at h
  · rename_i hnaive
    obtain rfl := Except.ok.inj h
    rw [hnaive]
    simp
  · rename_i offset haware
    rw [haware]
    split at h
    · rename_i c' hc
      obtain rfl := Except.ok.inj h
      exact WallClock.micros_ofMicros hc
    · cases h

theorem instant_subSeconds {n : ℤ} (h : t.subSeconds n = .ok u) :
    u.instant = t.instant - n * 1000000 := by
  unfold subSeconds at h
  split at h
  · rename_i c hc
    cases h
    have hmicros := WallClock.micros_ofMicros hc
    unfold instant
    dsimp only
    omega
  · cases h

theorem formatTs_eq_ok {s : String} : t.formatTs = .ok s ↔ ∃ c, t.utc = .ok c ∧ s = c.strftime := by
  unfold formatTs
  cases t.utc with
  | error e => simp [Except.map]
  | ok c => simp [Except.map, eq_comm]

/-- Later instants have later texts, or the same one within a second. -/
theorem formatTs_mono {s s' : String} (ht : t.FourDigitYear) (h : t.instant ≤ u.instant)
    (hs : t.formatTs = .ok s) (hs' : u.formatTs = .ok s') : s ≤ s' := by
  obtain ⟨c, hc, hyear⟩ := ht
  obtain ⟨c', hc', rfl⟩ := formatTs_eq_ok.mp hs
  obtain ⟨d, hd, rfl⟩ := formatTs_eq_ok.mp hs'
  rw [hc] at hc'
  obtain rfl := Except.ok.inj hc'
  have hmicros : c.micros ≤ d.micros := by rwa [micros_utc hc, micros_utc hd]
  have hyears := WallClock.year_le_of_micros_le hmicros
  have hfirst := c.microsecond_lt
  have hsecond := d.microsecond_lt
  apply (WallClock.strftime_le_iff hyear (by omega)).mpr
  unfold WallClock.micros at hmicros
  omega

theorem exists_formatTs (ht : t.FourDigitYear) : ∃ s, t.formatTs = .ok s := by
  obtain ⟨c, hc, -⟩ := ht
  exact ⟨_, formatTs_eq_ok.mpr ⟨c, hc, rfl⟩⟩

end DateTime
end HomeServer
