import HomeServer.Db.ReadingTexts
import HomeServer.Db.Tables

/-! The `readings` rows with a number of seconds for their time stand for the rows with its text:
inserts, time ranges and deletions do the same to both. -/
namespace HomeServer.Db.ReadingTexts
open Lib

def epoch : ℤ := 719163 * 86400

example : (⟨1970, 1, 1⟩ : Calendar.Date).toOrdinal = 719163 := by decide

/-- The second that a clock shows, counted from the epoch. -/
def timestamp (c : WallClock) : ℤ := c.seconds - epoch

/-- `CAST(strftime('%s', …) AS INTEGER)`, `none` where it is NULL. What SQLite makes of a text that
is not of the form of `_TS_FMT` is up to it. -/
def unixSeconds (other : String → Option ℤ) (text : String) : Option ℤ :=
  match WallClock.readFields ' ' text.toList with
  | some (seconds, []) => some (seconds - epoch)
  | _ => other text

def secondOf (time : DateTime) : ℤ := time.instant / 1000000 - epoch

def Denotes (text : String) (t : ℤ) : Prop :=
  ∃ c : WallClock, 1000 ≤ c.date.year ∧ text = c.strftime ∧ t = timestamp c

structure Stored (s : StoredReading) (r : Reading) : Prop where
  id : s.id = r.id
  channelId : s.channelId = r.channelId
  value : s.value = r.value
  time : Denotes s.recordedAt r.recordedAt

structure Stores (t : Table) (db : Database) : Prop where
  channels : ∀ i, i ∈ t.channels ↔ ∃ c ∈ db.channels, c.id = i
  nextId : t.nextId = db.nextReading
  rows : List.Forall₂ Stored t.rows db.readings

section Bounds

theorem timestamp_utc {time : DateTime} {c : WallClock} (h : time.utc = .ok c) :
    timestamp c = secondOf time := by
  have hmicros := DateTime.micros_utc h
  have hmicro := c.microsecond_lt
  unfold WallClock.micros at hmicros
  unfold timestamp secondOf
  omega

section Denoted
variable {text text' : String} {t t' : ℤ}

theorem denotes_formatTs {time : DateTime} (h : time.FourDigitYear) :
    ∃ text, time.formatTs = .ok text ∧ Denotes text (secondOf time) := by
  obtain ⟨c, hc, hyear⟩ := h
  exact ⟨_, DateTime.formatTs_eq_ok.mpr ⟨c, hc, rfl⟩, c, hyear, rfl, (timestamp_utc hc).symm⟩

theorem Denotes.le_iff (h : Denotes text t) (h' : Denotes text' t') : text ≤ text' ↔ t ≤ t' := by
  obtain ⟨c, hc, rfl, rfl⟩ := h
  obtain ⟨d, hd, rfl, rfl⟩ := h'
  rw [WallClock.strftime_le_iff hc hd]
  unfold timestamp
  omega

theorem Denotes.lt_iff (h : Denotes text t) (h' : Denotes text' t') : text < text' ↔ t < t' := by
  rw [← not_le, h'.le_iff h, not_le]

theorem Denotes.eq_iff (h : Denotes text t) (h' : Denotes text' t') : text = text' ↔ t = t' := by
  rw [le_antisymm_iff, h.le_iff h', h'.le_iff h, ← le_antisymm_iff]

theorem Denotes.unixSeconds (h : Denotes text t) (other : String → Option ℤ) :
    unixSeconds other text = some t := by
  obtain ⟨c, hc, rfl, rfl⟩ := h
  have htext : c.strftime.toList = c.fields ' ' ++ [] :=
    (WallClock.toList_strftime hc).trans (List.append_nil _).symm
  unfold ReadingTexts.unixSeconds
  rw [htext, WallClock.readFields_fields]
  rfl

end Denoted

theorem Stored.before_iff {s s' : StoredReading} {r r' : Reading} (h : Stored s r)
    (h' : Stored s' r') : Before s s' ↔ Readings.Before r r' := by
  unfold Before Readings.Before
  rw [h.time.lt_iff h'.time, h.time.eq_iff h'.time, h.id, h'.id]

end Bounds

section Refinement
variable {t t' : Table} {db db' : Database}

/-- The text of a bound, and the second it stands for. -/
theorem formatBound_secondOf {bound : Option DateTime}
    (h : ∀ time ∈ bound, time.FourDigitYear) :
    ∃ text, formatBound bound = .ok text ∧ ∀ s r, Stored s r →
      (text.all (fun s' => s' ≤ s.recordedAt) =
        (bound.map secondOf).all fun t => t ≤ r.recordedAt) ∧
      text.all (fun s' => s.recordedAt < s') =
        (bound.map secondOf).all fun t => r.recordedAt < t := by
  cases bound with
  | none => exact ⟨none, rfl, fun s r _ => ⟨rfl, rfl⟩⟩
  | some time =>
    obtain ⟨text, htext, htime⟩ := denotes_formatTs (h time rfl)
    refine ⟨_, formatBound_some htext, ?_⟩
    intro s r hstored
    rw [Option.map_some]
    constructor
    · rw [Option.all_some, Option.all_some, decide_eq_decide]
      exact htime.le_iff hstored.time
    · rw [Option.all_some, Option.all_some, decide_eq_decide]
      exact hstored.time.lt_iff htime

theorem Stores.ofChannel (h : Stores t db) (i : ℕ) :
    List.Forall₂ Stored (ofChannel t i) (Readings.ofChannel db i) := by
  apply List.rel_filter _ h.rows
  intro a b hab
  simp [hab.channelId]

/-- The rows of a time range are the same rows in the same order. -/
theorem listByChannel_refines (h : Stores t db) (i : ℕ) {since til : Option DateTime}
    (hsince : ∀ time ∈ since, time.FourDigitYear) (htil : ∀ time ∈ til, time.FourDigitYear)
    (limit : Option ℕ) :
    ∃ rows, listByChannel t i since til limit = .ok rows ∧ List.Forall₂ Stored rows
      (Readings.listByChannel db i (since.map secondOf) (til.map secondOf) limit) := by
  obtain ⟨s, hs, hlower⟩ := formatBound_secondOf hsince
  obtain ⟨u, hu, hupper⟩ := formatBound_secondOf htil
  have hrows : List.Forall₂ Stored (select t i s u)
      (Readings.orderBy ((Readings.ofChannel db i).filter fun r =>
        ((since.map secondOf).all fun t => t ≤ r.recordedAt) ∧
          (til.map secondOf).all fun t => r.recordedAt < t)) := by
    apply Grouping.forall₂_insertionSort fun a b hab a' b' hab' => hab.before_iff hab'
    apply List.rel_filter _ (h.ofChannel i)
    intro a b hab
    dsimp only
    rw [(hlower a b hab).1, (hupper a b hab).2]
  unfold listByChannel Readings.listByChannel
  rw [hs, hu]
  cases limit with
  | none => exact ⟨_, rfl, hrows⟩
  | some n => exact ⟨_, rfl, List.forall₂_take n hrows⟩

/-- An insert fails on both or stores the same row in both. -/
theorem insert_refines (h : Stores t db) (i : ℕ) (value : PyFloat) {recordedAt : Option DateTime}
    {now : WallClock} (htime : (recordedAt.getD now.naive).FourDigitYear) :
    (insert t i value recordedAt now = .error .integrityError ∧
      Readings.insert db i value (secondOf (recordedAt.getD now.naive)) =
        .error .integrityError) ∨
    ∃ t' db', insert t i value recordedAt now = .ok (t.nextId, t') ∧
      Readings.insert db i value (secondOf (recordedAt.getD now.naive)) = .ok db' ∧
      Stores t' db' := by
  obtain ⟨text, htext, hdenotes⟩ := denotes_formatTs htime
  rw [← textOf_eq] at htext
  have hchannel : (db.channels.any fun c => c.id = i) = true ↔ i ∈ t.channels := by
    rw [h.channels]
    simp
  unfold insert Readings.insert
  rw [htext]
  by_cases hnan : value = .nan
  · left
    exact ⟨if_pos (Or.inl hnan), if_pos hnan⟩
  · rw [if_neg hnan]
    by_cases hi : i ∈ t.channels
    · right
      rw [if_pos (hchannel.mpr hi)]
      refine ⟨_, _, if_neg (not_or.mpr ⟨hnan, not_not.mpr hi⟩), rfl, ?_⟩
      constructor
      · exact h.channels
      · exact congrArg (· + 1) h.nextId
      · apply List.rel_append h.rows
        exact .cons ⟨h.nextId, rfl, rfl, hdenotes⟩ .nil
    · left
      exact ⟨if_pos (Or.inr hi), if_neg fun hany => hi (hchannel.mp hany)⟩

/-- A deletion takes the same rows of both. -/
theorem deleteOlderThan_refines (h : Stores t db) (i : ℕ) {before : DateTime}
    (hbefore : before.FourDigitYear) :
    ∃ n t', deleteOlderThan t i before = .ok (n, t') ∧
      Stores t' (Readings.deleteOlderThan db i (secondOf before)) := by
  obtain ⟨text, htext, htime⟩ := denotes_formatTs hbefore
  unfold deleteOlderThan
  rw [htext]
  refine ⟨_, _, rfl, h.channels, h.nextId, ?_⟩
  apply List.rel_filter _ h.rows
  intro a b hab
  have hlt := hab.time.lt_iff htime
  simp [olderThan, hab.channelId, hlt, -String.lt_iff_ltb]

theorem latest_refines (h : Stores t db) (i : ℕ) (p : PyFloat → Bool) :
    Option.Rel Stored (latest t i p)
      (Readings.orderBy ((Readings.ofChannel db i).filter fun r => p r.value)).getLast? := by
  have hchosen : List.Forall₂ Stored ((ofChannel t i).filter fun r => p r.value)
      ((Readings.ofChannel db i).filter fun r => p r.value) := by
    apply List.rel_filter _ (h.ofChannel i)
    intro a b hab
    simp [hab.value]
  have hsorted : List.Forall₂ Stored
      (((ofChannel t i).filter fun r => p r.value).insertionSort Before)
      (Readings.orderBy ((Readings.ofChannel db i).filter fun r => p r.value)) :=
    Grouping.forall₂_insertionSort (fun a b hab a' b' hab' => hab.before_iff hab') hchosen
  exact Grouping.rel_getLast? hsorted

theorem latestByChannel_refines (h : Stores t db) (i : ℕ) :
    Option.Rel Stored (latestByChannel t i) (Readings.latestByChannel db i) := by
  have hlatest := latest_refines h i fun _ => true
  rwa [List.filter_eq_self.mpr fun _ _ => rfl] at hlatest

theorem latestAtOrAbove_refines (h : Stores t db) (i : ℕ) (threshold : ℚ) :
    Option.Rel Stored (latestAtOrAbove t i threshold) (Readings.latestAtOrAbove db i threshold) :=
  latest_refines h i fun v => v.atLeast threshold

theorem createChannel_refines (h : Stores t db) {deviceId i : ℕ} {name : String}
    {type : ChannelType} {charUuid : Uuid} {dataFormat : String} {unit : Option String}
    (hc : Channels.create db deviceId name type charUuid dataFormat unit = .ok (i, db')) :
    Stores { t with channels := t.channels ++ [i] } db' := by
  obtain ⟨-, -, rfl, rfl⟩ := Channels.create_ok hc
  refine ⟨fun j => ?_, h.nextId, h.rows⟩
  have hj := h.channels j
  simp only [List.mem_append, List.mem_singleton, hj, or_and_right, exists_or, exists_eq_left]
  rw [eq_comm (a := j)]

/-- A channel takes its readings with it. -/
theorem deleteChannel_refines (h : Stores t db) {i : ℕ} (hc : Channels.delete db i = .ok db') :
    Stores (withoutChannels t (· = i)) db' := by
  obtain rfl := Channels.delete_ok hc
  refine ⟨fun j => ?_, h.nextId, ?_⟩
  · have hj := h.channels j
    simp only [withoutChannels, List.mem_filter, hj]
    constructor
    · rintro ⟨⟨c, hc, rfl⟩, hne⟩
      exact ⟨c, ⟨hc, by simpa using hne⟩, rfl⟩
    · rintro ⟨c, ⟨hc, hne⟩, rfl⟩
      exact ⟨⟨c, hc, rfl⟩, by simpa using hne⟩
  · apply List.rel_filter _ h.rows
    intro a b hab
    simp [hab.channelId]

/-- A device takes its channels with it, and their readings. -/
theorem deleteDevice_refines (h : Stores t db) (hv : db.Valid) {deviceId : ℕ}
    (hd : Devices.delete db deviceId = .ok db') :
    Stores (withoutChannels t fun i => db.channels.any fun c => c.deviceId = deviceId ∧ c.id = i)
      db' := by
  obtain rfl := Devices.delete_ok hd
  refine ⟨fun j => ?_, h.nextId, ?_⟩
  · have hj := h.channels j
    simp only [withoutChannels, List.mem_filter, hj]
    constructor
    · rintro ⟨⟨c, hc, rfl⟩, hne⟩
      have hother := List.any_eq_false.mp (Bool.not_eq_true' _ ▸ hne) c hc
      exact ⟨c, ⟨hc, by simpa using hother⟩, rfl⟩
    · rintro ⟨c, ⟨hc, hne⟩, rfl⟩
      refine ⟨⟨c, hc, rfl⟩, ?_⟩
      rw [Bool.not_eq_true', List.any_eq_false]
      intro c' hc' hboth
      obtain ⟨hdevice, hid⟩ := of_decide_eq_true hboth
      obtain rfl := List.inj_on_of_nodup_map hv.channelIds hc' hc hid
      exact of_decide_eq_true hne hdevice
  · apply List.rel_filter _ h.rows
    intro a b hab
    simp [hab.channelId]

end Refinement
end HomeServer.Db.ReadingTexts
