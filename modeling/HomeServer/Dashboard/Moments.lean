import HomeServer.Dashboard.Page
import HomeServer.Db.Timestamps
import HomeServer.Lib.Trimming
import HomeServer.Services.ChannelService

/-! The texts of a moment that reach the browser, the one that is stored and the one of the live
feed: `tsToMs` reads both as the millisecond they were written for, so that the page keeps of the
live feed what the server would select for the same window. -/
namespace HomeServer.Dashboard.Moments
open Lib Calendar FixedWidth Db.ReadingTexts

/-- The minutes of a zone as `HH:mm`. -/
def readOffset (s : List Char) : Option ℤ := do
  let (hour, s) ← readNumber 2 s
  let s ← expect ':' s
  let (minute, s) ← readNumber 2 s
  if s = [] ∧ hour < 24 ∧ minute < 60 then some (hour * 60 + minute) else none

def readZone : List Char → Option ℤ
  | ['Z'] => some 0
  | '+' :: s => readOffset s
  | '-' :: s => (readOffset s).map fun minutes => -minutes
  | _ => none

/-- The milliseconds of `YYYY-MM-DDTHH:mm:ss` with a zone. -/
def readIso (s : List Char) : Option ℤ := do
  let (seconds, s) ← WallClock.readFields 'T' s
  let zone ← readZone s
  some (1000 * (seconds - epoch - 60 * zone))

/-- `new Date(iso).getTime()`, `none` where it is NaN. Every other text is up to the browser. -/
def getTime (other : String → Option ℤ) (iso : String) : Option ℤ :=
  (readIso iso.toList).orElse fun _ => other iso

/-- An empty text and one that is no date are the moment zero. -/
def tsToMs (other : String → Option ℤ) (ts : String) : ℤ :=
  if ts = "" then 0
  else
    let iso := if 'T' ∈ ts.toList then ts
      else .ofList (ts.toList.replace ' ' 'T') ++ "Z"
    (getTime other iso).getD 0

section Texts
variable {c : WallClock} {s : List Char}

theorem isDigit_of_mem_digits {w n : ℕ} {c : Char} (h : c ∈ digits w n) : c.isDigit = true := by
  induction w generalizing n with
  | zero => cases h
  | succ w ih =>
    unfold digits at h
    rcases List.mem_append.mp h with hmem | hmem
    · exact ih hmem
    · rw [List.mem_singleton.mp hmem]
      exact (digitChar_spec (Nat.mod_lt n (by decide))).1

theorem not_mem_digits {w n : ℕ} {c : Char} (h : c.isDigit = false) : c ∉ digits w n := by
  intro hmem
  rw [isDigit_of_mem_digits hmem] at h
  cases h

theorem readIso_fields {zone : ℤ} (hzone : readZone s = some zone) :
    readIso (c.fields 'T' ++ s) = some (1000 * (timestamp c - 60 * zone)) := by
  unfold readIso
  rw [WallClock.readFields_fields]
  simp only [Option.bind_eq_bind, Option.bind_some, hzone]
  rfl

/-- An offset of whole minutes is read back. -/
theorem readZone_formatOffset {offset : ℤ} (hminutes : (60000000 : ℤ) ∣ offset)
    (hlow : -86400000000 < offset) (hhigh : offset < 86400000000) :
    readZone (DateTime.formatOffset offset) = some (offset / 60000000) := by
  obtain ⟨zone, rfl⟩ := hminutes
  have hhour : (60000000 * zone).natAbs / 3600000000 < 10 ^ 2 := by omega
  have hminute : (60000000 * zone).natAbs / 60000000 % 60 < 10 ^ 2 := by omega
  have hwhole : (60000000 * zone).natAbs % 60000000 = 0 := by omega
  have hbounds : (60000000 * zone).natAbs / 3600000000 < 24 ∧
      (60000000 * zone).natAbs / 60000000 % 60 < 60 := by omega
  have hread : readOffset (digits 2 ((60000000 * zone).natAbs / 3600000000) ++
      ':' :: (digits 2 ((60000000 * zone).natAbs / 60000000 % 60) ++ [])) =
        some |zone| := by
    simp only [readOffset, readNumber_digits hhour, readNumber_digits hminute, expect_cons,
      Option.bind_eq_bind, Option.bind_some, hbounds, and_self, if_true, Option.some.injEq]
    rw [Int.abs_eq_natAbs]
    omega
  unfold DateTime.formatOffset
  dsimp only
  rw [if_pos hwhole, Int.mul_ediv_cancel_left _ (by decide)]
  split_ifs with hneg
  · have habs : |zone| = -zone := abs_of_neg (by omega)
    calc readZone ('-' :: _) = (readOffset _).map fun minutes => -minutes := rfl
      _ = some zone := by rw [hread, habs, Option.map_some, neg_neg]
  · have habs : |zone| = zone := abs_of_nonneg (by omega)
    calc readZone ('+' :: _) = readOffset _ := rfl
      _ = some zone := by rw [hread, habs]

theorem mem_fields (separator : Char) : separator ∈ c.fields separator := by
  unfold WallClock.fields
  simp

theorem not_mem_fields : 'T' ∉ c.fields ' ' := by
  have hdigit : 'T'.isDigit = false := by decide
  unfold WallClock.fields
  simp [not_mem_digits hdigit]

theorem replace_fields : (c.fields ' ').replace ' ' 'T' = c.fields 'T' := by
  have hdigit : ' '.isDigit = false := by decide
  have hday : ' ' ∉ digits 4 c.date.year ++ '-' :: (digits 2 c.date.month ++
      '-' :: digits 2 c.date.day) := by
    simp [not_mem_digits hdigit]
  have hsplit : ∀ separator, c.fields separator = (digits 4 c.date.year ++
      '-' :: (digits 2 c.date.month ++ '-' :: digits 2 c.date.day)) ++ separator ::
        (digits 2 c.hour ++ ':' :: (digits 2 c.minute ++ ':' :: digits 2 c.second)) := by
    simp [WallClock.fields]
  rw [hsplit, hsplit, List.replace_append_right hday, List.replace_cons_self]

variable (other : String → Option ℤ)

theorem ne_empty_of_mem {ts : String} {d : Char} (h : d ∈ ts.toList) : ts ≠ "" := by
  rintro rfl
  cases h

/-- The text of a row is read as the second it was written for. -/
theorem tsToMs_strftime (hc : 1000 ≤ c.date.year) :
    tsToMs other c.strftime = 1000 * timestamp c := by
  have htext : c.strftime.toList = c.fields ' ' := WallClock.toList_strftime hc
  have hne : c.strftime ≠ "" := by
    have hspace := mem_fields (c := c) ' '
    rw [← htext] at hspace
    exact ne_empty_of_mem hspace
  have hletter : 'T' ∉ c.strftime.toList := by
    rw [htext]
    exact not_mem_fields
  have hiso : (String.ofList (c.strftime.toList.replace ' ' 'T') ++ "Z").toList =
      c.fields 'T' ++ ['Z'] := by
    rw [htext, replace_fields, String.toList_append, String.toList_ofList]
    rfl
  have hread : readIso (c.fields 'T' ++ ['Z']) = some (1000 * (timestamp c - 60 * 0)) :=
    readIso_fields rfl
  unfold tsToMs getTime
  rw [if_neg hne, if_neg hletter]
  dsimp only
  rw [hiso, hread, mul_zero, sub_zero]
  rfl

/-- The text of the live feed is read as the second it was written in. -/
theorem tsToMs_isoformat {t : DateTime} {offset : ℤ} (hoffset : t.utcoffset = some offset)
    (hminutes : (60000000 : ℤ) ∣ offset) :
    tsToMs other t.isoformat = 1000 * secondOf t := by
  obtain ⟨hlow, hhigh⟩ := t.utcoffset_lt offset hoffset
  have htext : t.isoformat.toList = t.fields 'T' ++ DateTime.formatOffset offset := by
    unfold DateTime.isoformat
    rw [String.toList_ofList, hoffset]
    rfl
  have hletter : 'T' ∈ t.isoformat.toList := by
    rw [htext]
    exact List.mem_append_left _ (mem_fields 'T')
  have hread := readIso_fields (c := t.toWallClock) (readZone_formatOffset hminutes hlow hhigh)
  have hsecond : timestamp t.toWallClock - 60 * (offset / 60000000) = secondOf t := by
    have hmicro := t.microsecond_lt
    unfold timestamp secondOf DateTime.instant WallClock.micros
    rw [hoffset, Option.getD_some]
    omega
  unfold tsToMs getTime
  rw [if_neg (ne_empty_of_mem hletter), if_pos hletter]
  dsimp only
  rw [htext, hread, hsecond]
  rfl

/-- The text of a row and the text of the live feed are read as moments in the order in which they
were written, and as one moment where they were written in one second. -/
theorem texts_agree {stored live : DateTime} {text : String} {offset : ℤ}
    (hyear : stored.FourDigitYear) (htext : stored.formatTs = .ok text)
    (hoffset : live.utcoffset = some offset) (hminutes : (60000000 : ℤ) ∣ offset) :
    tsToMs other text = 1000 * secondOf stored ∧
      tsToMs other live.isoformat = 1000 * secondOf live ∧
      (tsToMs other text ≤ tsToMs other live.isoformat ↔
        stored.instant / 1000000 ≤ live.instant / 1000000) := by
  obtain ⟨c, hc, hfour⟩ := hyear
  obtain ⟨c', hc', rfl⟩ := DateTime.formatTs_eq_ok.mp htext
  rw [hc] at hc'
  obtain rfl := Except.ok.inj hc'
  have hstored := tsToMs_strftime other hfour
  have hlive := tsToMs_isoformat other hoffset hminutes
  rw [timestamp_utc hc] at hstored
  refine ⟨hstored, hlive, ?_⟩
  rw [hstored, hlive]
  unfold secondOf
  omega

end Texts

/-- A moment of that noon by a clock with an offset. -/
def noonAt (second microsecond : ℕ) (hs : second < 60) (hm : microsecond < 1000000) (offset : ℤ)
    (ho : -86400000000 < offset ∧ offset < 86400000000) : DateTime where
  toWallClock := noon second microsecond hs hm
  utcoffset := some offset
  utcoffset_lt := by
    rintro o ⟨⟩
    exact ho

example : (noonAt 1 5 (by decide) (by decide) 28800000000 (by decide)).isoformat =
    "2026-05-27T12:00:01+08:00" := by decide

/-- The row of a reading at noon, and noon in Taipei, eight hours before. -/
theorem texts_agree_noon :
    tsToMs (fun _ => none) "2026-05-27 12:00:01" =
        1000 * secondOf (noon 1 5 (by decide) (by decide)).naive ∧
      tsToMs (fun _ => none)
          (noonAt 1 7 (by decide) (by decide) 28800000000 (by decide)).isoformat =
        1000 * secondOf (noonAt 1 7 (by decide) (by decide) 28800000000 (by decide)) ∧
      (tsToMs (fun _ => none) "2026-05-27 12:00:01" ≤ tsToMs (fun _ => none)
          (noonAt 1 7 (by decide) (by decide) 28800000000 (by decide)).isoformat ↔
        (noon 1 5 (by decide) (by decide)).naive.instant / 1000000 ≤
          (noonAt 1 7 (by decide) (by decide) 28800000000 (by decide)).instant / 1000000) := by
  have htext : (noon 1 5 (by decide) (by decide)).naive.formatTs = .ok "2026-05-27 12:00:01" := by
    have hstrftime : (noon 1 5 (by decide) (by decide)).strftime = "2026-05-27 12:00:01" := by
      decide
    rw [← hstrftime]
    rfl
  exact texts_agree _ (noon_fourDigitYear 1 5 (by decide) (by decide)) htext rfl ⟨480, rfl⟩

/-- The key of a window, in the query and in both tables of windows. -/
def key : Window → String
  | .minute => "1m"
  | .tenMinutes => "10m"
  | .hour => "1h"
  | .day => "1d"
  | .week => "1w"

/-- A reading that is pushed with the UTC text of a moment and stored in the same second. -/
structure Recorded where
  live : DateTime
  stored : WallClock
  value : PyFloat
  utc : live.utcoffset = some 0
  four_digits : 1000 ≤ stored.date.year
  same_second : timestamp stored = secondOf live

def Recorded.point (r : Recorded) : Point := ⟨secondOf r.live, r.value⟩

def dateNow (now : DateTime) : ℤ := now.instant / 1000 - 1000 * epoch

theorem Recorded.tsToMs_label (other : String → Option ℤ) (r : Recorded) :
    Dashboard.tsToMs r.point.label = tsToMs other r.live.isoformat :=
  (tsToMs_isoformat other r.utc ⟨0, rfl⟩).symm

theorem windowMs_eq {w : Window} {windowSeconds bucketSeconds : ℤ}
    (h : Services.ChannelService.observationWindows.lookup (key w) =
      some (windowSeconds, bucketSeconds)) : windowMs w = 1000 * windowSeconds := by
  cases w <;> cases h <;> rfl

section Window
variable {now since : DateTime} {w : Window} {windowSeconds bucketSeconds : ℤ} {sinceText : String}

/-- The page keeps a point exactly if the server selects its row, but for the second that the
window begins in: of that second the server selects all, the page only what lies on its start. -/
theorem kept_iff (hspec : Services.ChannelService.observationWindows.lookup (key w) =
      some (windowSeconds, bucketSeconds))
    (hsince : now.subSeconds windowSeconds = .ok since) (hyear : since.FourDigitYear)
    (htext : since.formatTs = .ok sinceText) (r : Recorded) :
    ¬Dashboard.tsToMs r.point.label < dateNow now - windowMs w ↔
      sinceText ≤ r.stored.strftime ∧
        (secondOf r.live ≠ secondOf since ∨ now.instant % 1000000 < 1000) := by
  obtain ⟨c, hc, hfour⟩ := hyear
  obtain ⟨c', hc', rfl⟩ := DateTime.formatTs_eq_ok.mp htext
  rw [hc] at hc'
  obtain rfl := Except.ok.inj hc'
  have htime := timestamp_utc hc
  have hinstant := DateTime.instant_subSeconds hsince
  have hsame := r.same_second
  have hserved : c.strftime ≤ r.stored.strftime ↔ secondOf since ≤ secondOf r.live := by
    rw [WallClock.strftime_le_iff hfour r.four_digits, ← htime, ← hsame]
    unfold timestamp
    omega
  rw [hserved, windowMs_eq hspec]
  unfold Dashboard.tsToMs Recorded.point dateNow
  unfold secondOf at hserved ⊢
  dsimp only
  omega

/-- Trimming at a moment leaves of the live feed what a request at that moment selects of the same
readings, but for the second that the window begins in. -/
theorem trim_eq_selected (hspec : Services.ChannelService.observationWindows.lookup (key w) =
      some (windowSeconds, bucketSeconds))
    (hsince : now.subSeconds windowSeconds = .ok since) (hyear : since.FourDigitYear)
    (htext : since.formatTs = .ok sinceText) {feed : List Recorded}
    (hordered : feed.Pairwise fun r s => secondOf r.live ≤ secondOf s.live) :
    Page.trim (some w) (dateNow now) (feed.map Recorded.point) =
      (feed.filter fun r => sinceText ≤ r.stored.strftime ∧
        (secondOf r.live ≠ secondOf since ∨ now.instant % 1000000 < 1000)).map
          Recorded.point := by
  have hdropped : (feed.map Recorded.point).Pairwise fun p q =>
      decide (Dashboard.tsToMs q.label < dateNow now - windowMs w) = true →
        decide (Dashboard.tsToMs p.label < dateNow now - windowMs w) = true := by
    rw [List.pairwise_map]
    refine hordered.imp fun {r s} hle => ?_
    rw [decide_eq_true_eq, decide_eq_true_eq]
    unfold Dashboard.tsToMs Recorded.point
    dsimp only
    omega
  unfold Page.trim
  dsimp only
  rw [Trimming.dropWhile_eq_filter hdropped, List.filter_map]
  congr 1
  apply List.filter_congr
  intro r _
  rw [Function.comp_apply, ← decide_not, decide_eq_decide]
  exact kept_iff hspec hsince hyear htext r

theorem exists_subSeconds_utc {n : ℤ} {c : WallClock} (hutc : now.utcoffset = some 0)
    (hc : WallClock.ofMicros (now.micros - n * 1000000) = some c) (hyear : 1000 ≤ c.date.year) :
    ∃ since, now.subSeconds n = .ok since ∧ since.FourDigitYear := by
  have hmicros := WallClock.micros_ofMicros hc
  refine ⟨⟨c, now.utcoffset, now.utcoffset_lt⟩, ?_, c, ?_, hyear⟩
  · unfold DateTime.subSeconds
    rw [hc]
  · unfold DateTime.utc
    dsimp only
    rw [hutc, hmicros]
    dsimp only
    rw [sub_zero, hc]

end Window

/-- A reading of that noon. -/
def recordedAt (second : ℕ) (hs : second < 60) : Recorded where
  live := noonAt second 7 hs (by decide) 0 (by decide)
  stored := noon second 7 hs (by decide)
  value := .finite 20
  utc := rfl
  four_digits := by
    change 1000 ≤ 2026
    decide
  same_second := by
    unfold timestamp secondOf DateTime.instant WallClock.micros noonAt
    dsimp only
    rw [Option.getD_some]
    have hmicro : (noon second 7 hs (by decide)).microsecond = 7 := rfl
    rw [hmicro]
    omega

/-- Half a minute past a minute after noon. -/
def halfPast (minute : ℕ) (hm : minute < 60) : DateTime :=
  { noonAt 30 500000 (by decide) (by decide) 0 (by decide) with minute, minute_lt := hm }

/-- A minute is over for the first of two readings. -/
theorem trim_eq_selected_minute :
    Page.trim (some .minute) (dateNow (halfPast 1 (by decide)))
        ([recordedAt 0 (by decide), recordedAt 59 (by decide)].map Recorded.point) =
      [(recordedAt 59 (by decide)).point] := by
  have hdate : (WallClock.ofMicros ((halfPast 1 (by decide)).micros - 60 * 1000000)).map
      (fun c => c.date.year) = some 2026 := by
    decide +kernel
  obtain ⟨c, hc, hc'⟩ := Option.map_eq_some_iff.mp hdate
  obtain ⟨since, hsince, hyear⟩ := exists_subSeconds_utc rfl hc (by omega)
  have htext : since.formatTs = .ok "2026-05-27 12:00:30" := by
    have hboth : ((halfPast 1 (by decide)).subSeconds 60).bind DateTime.formatTs =
        .ok "2026-05-27 12:00:30" := by
      decide +kernel
    rwa [hsince] at hboth
  have hspec : Services.ChannelService.observationWindows.lookup (key .minute) =
      some (60, 1) := rfl
  have hordered : [recordedAt 0 (by decide), recordedAt 59 (by decide)].Pairwise
      fun r s => secondOf r.live ≤ secondOf s.live := by
    simp
    decide
  have hsecond : secondOf (recordedAt 59 (by decide)).live ≠ secondOf since := by
    have hinstant := DateTime.instant_subSeconds hsince
    have hlive : secondOf (recordedAt 59 (by decide)).live =
        (halfPast 1 (by decide)).instant / 1000000 - 31 - epoch := by
      decide +kernel
    rw [hlive]
    unfold secondOf
    omega
  have hdropped : ¬"2026-05-27 12:00:30" ≤ (recordedAt 0 (by decide)).stored.strftime := by
    decide +kernel
  have hkept : "2026-05-27 12:00:30" ≤ (recordedAt 59 (by decide)).stored.strftime := by
    decide +kernel
  rw [trim_eq_selected hspec hsince hyear htext hordered,
    List.filter_cons_of_neg (by simp [hdropped, -not_le]),
    List.filter_cons_of_pos (by simp [hkept, hsecond]), List.filter_nil]
  rfl

end HomeServer.Dashboard.Moments
