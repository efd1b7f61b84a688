import HomeServer.Core.DateTime
import HomeServer.Lib.Grouping

/-! The `readings` table with its timestamps as the texts that are stored and compared, and the
laws of the time ranges it is read and deleted by. -/
namespace HomeServer.Db.ReadingTexts
open Lib

structure StoredReading where
  id : ℕ
  channelId : ℕ
  value : PyFloat
  recordedAt : String
  deriving DecidableEq

/-- The rows in the order of their ids, and the ids of the channels they may refer to. -/
structure Table where
  channels : List ℕ
  rows : List StoredReading := []
  nextId : ℕ := 1

/-- Without a time the row gets `CURRENT_TIMESTAMP`, the clock of SQLite in UTC. -/
def textOf (now : WallClock) : Option DateTime → Except Err String
  | none => .ok now.strftime
  | some time => time.formatTs

def insert (t : Table) (channelId : ℕ) (value : PyFloat) (recordedAt : Option DateTime)
    (now : WallClock) : Except Err (ℕ × Table) := do
  let text ← textOf now recordedAt
  if value = .nan ∨ channelId ∉ t.channels then .error .integrityError
  else
    let row := { id := t.nextId, channelId, value, recordedAt := text }
    .ok (t.nextId, { t with rows := t.rows ++ [row], nextId := t.nextId + 1 })

def ofChannel (t : Table) (channelId : ℕ) : List StoredReading :=
  t.rows.filter fun r => r.channelId = channelId

/-- `ORDER BY recorded_at ASC, id ASC`. -/
def Before (r s : StoredReading) : Prop :=
  r.recordedAt < s.recordedAt ∨ r.recordedAt = s.recordedAt ∧ r.id ≤ s.id

instance : DecidableRel Before := fun r s =>
  inferInstanceAs (Decidable (r.recordedAt < s.recordedAt ∨ _))

def select (t : Table) (channelId : ℕ) (since til : Option String) : List StoredReading :=
  ((ofChannel t channelId).filter fun r =>
    (since.all fun s => s ≤ r.recordedAt) ∧ til.all fun s => r.recordedAt < s).insertionSort Before

def formatBound : Option DateTime → Except Err (Option String)
  | none => .ok none
  | some time => time.formatTs.map some

def listByChannel (t : Table) (channelId : ℕ) (since til : Option DateTime := none)
    (limit : Option ℕ := none) : Except Err (List StoredReading) := do
  let since ← formatBound since
  let til ← formatBound til
  let rows := select t channelId since til
  match limit with
  | none => .ok rows
  | some n => .ok (rows.take n)

def olderThan (channelId : ℕ) (text : String) (r : StoredReading) : Bool :=
  r.channelId = channelId ∧ r.recordedAt < text

/-- The number of rows deleted, and the table without them. -/
def deleteOlderThan (t : Table) (channelId : ℕ) (before : DateTime) :
    Except Err (ℕ × Table) := do
  let text ← before.formatTs
  .ok ((t.rows.filter (olderThan channelId text)).length,
    { t with rows := t.rows.filter fun r => !olderThan channelId text r })

/-- `ORDER BY recorded_at DESC, id DESC LIMIT 1` of the rows that are chosen. -/
def latest (t : Table) (channelId : ℕ) (p : PyFloat → Bool) : Option StoredReading :=
  (((ofChannel t channelId).filter fun r => p r.value).insertionSort Before).getLast?

def latestByChannel (t : Table) (channelId : ℕ) : Option StoredReading :=
  latest t channelId fun _ => true

def latestAtOrAbove (t : Table) (channelId : ℕ) (threshold : ℚ) : Option StoredReading :=
  latest t channelId fun v => v.atLeast threshold

def withoutChannels (t : Table) (gone : ℕ → Bool) : Table :=
  { t with
    channels := t.channels.filter fun i => !gone i
    rows := t.rows.filter fun r => !gone r.channelId }

/-- A table filled by inserts, with the time each id was recorded at. -/
inductive Written : Table → List (ℕ × DateTime) → Prop
  | empty (channels : List ℕ) : Written { channels } []
  | insert {t t' : Table} {log : List (ℕ × DateTime)} {channelId id : ℕ} {value : PyFloat}
      {recordedAt : Option DateTime} {now : WallClock} : Written t log →
      insert t channelId value recordedAt now = .ok (id, t') →
      Written t' (log ++ [(id, recordedAt.getD now.naive)])
  | delete {t t' : Table} {log : List (ℕ × DateTime)} {channelId n : ℕ} {before : DateTime} :
      Written t log → deleteOlderThan t channelId before = .ok (n, t') → Written t' log

theorem textOf_eq (now : WallClock) (recordedAt : Option DateTime) :
    textOf now recordedAt = (recordedAt.getD now.naive).formatTs := by
  cases recordedAt <;> rfl

/-- What an insert does: the row has a fresh id and the text of its time. -/
theorem insert_ok {t t' : Table} {channelId id : ℕ} {value : PyFloat}
    {recordedAt : Option DateTime} {now : WallClock}
    (h : insert t channelId value recordedAt now = .ok (id, t')) :
    ∃ text, (recordedAt.getD now.naive).formatTs = .ok text ∧ id = t.nextId ∧
      t' = { t with
        rows := t.rows ++ [{ id := t.nextId, channelId, value, recordedAt := text }]
        nextId := t.nextId + 1 } := by
  unfold insert at h
  rw [textOf_eq] at h
  cases htext : (recordedAt.getD now.naive).formatTs with
  | error e =>
    rw [htext] at h
    cases h
  | ok text =>
    rw [htext] at h
    change (if value = .nan ∨ channelId ∉ t.channels then _ else _) = _ at h
    split at h
    · cases h
    · cases h
      exact ⟨text, rfl, rfl, rfl⟩

theorem deleteOlderThan_ok {t t' : Table} {channelId n : ℕ} {before : DateTime}
    (h : deleteOlderThan t channelId before = .ok (n, t')) :
    ∃ text, before.formatTs = .ok text ∧
      n = (t.rows.filter (olderThan channelId text)).length ∧
      t' = { t with rows := t.rows.filter fun r => !olderThan channelId text r } := by
  unfold deleteOlderThan at h
  cases htext : before.formatTs with
  | error e =>
    rw [htext] at h
    cases h
  | ok text =>
    rw [htext] at h
    cases h
    exact ⟨text, rfl, rfl, rfl⟩

/-- Ids are unique, and each row has the text of the time that was recorded for its id. -/
structure Logged (t : Table) (log : List (ℕ × DateTime)) : Prop where
  ids : (t.rows.map StoredReading.id).Nodup
  fresh : ∀ r ∈ t.rows, r.id < t.nextId
  logged : ∀ p ∈ log, p.1 < t.nextId
  text : ∀ r ∈ t.rows, ∀ time, (r.id, time) ∈ log → time.formatTs = .ok r.recordedAt

theorem Logged.insert {t : Table} {log : List (ℕ × DateTime)} (h : Logged t log) {channelId : ℕ}
    {value : PyFloat} {time : DateTime} {text : String} (htext : time.formatTs = .ok text) :
    Logged { t with
      rows := t.rows ++ [{ id := t.nextId, channelId, value, recordedAt := text }]
      nextId := t.nextId + 1 } (log ++ [(t.nextId, time)]) where
  ids := by
    have hnew : ∀ r ∈ t.rows, r.id ≠ t.nextId := fun r hr => (h.fresh r hr).ne
    simpa [List.nodup_append] using ⟨h.ids, hnew⟩
  fresh := by
    intro r hr
    rcases List.mem_append.mp hr with hr | hr
    · exact (h.fresh r hr).trans (Nat.lt_succ_self _)
    · rw [List.mem_singleton.mp hr]
      exact Nat.lt_succ_self _
  logged := by
    intro p hp
    rcases List.mem_append.mp hp with hp | hp
    · exact (h.logged p hp).trans (Nat.lt_succ_self _)
    · rw [List.mem_singleton.mp hp]
      exact Nat.lt_succ_self _
  text := by
    intro r hr time' hlog
    rcases List.mem_append.mp hr with hr | hr
    · rcases List.mem_append.mp hlog with hlog | hlog
      · exact h.text r hr time' hlog
      · have hid : r.id = t.nextId := congrArg Prod.fst (List.mem_singleton.mp hlog)
        exact absurd hid (h.fresh r hr).ne
    · rw [List.mem_singleton.mp hr] at hlog ⊢
      rcases List.mem_append.mp hlog with hlog | hlog
      · exact absurd (h.logged _ hlog) (Nat.lt_irrefl _)
      · have htime : time' = time := congrArg Prod.snd (List.mem_singleton.mp hlog)
        rw [htime, htext]

theorem Logged.filter {t : Table} {log : List (ℕ × DateTime)} (h : Logged t log)
    (p : StoredReading → Bool) : Logged { t with rows := t.rows.filter p } log where
  ids := h.ids.sublist (List.filter_sublist.map _)
  fresh r hr := h.fresh r (List.mem_of_mem_filter hr)
  logged := h.logged
  text r hr := h.text r (List.mem_of_mem_filter hr)

theorem Written.logged {t : Table} {log : List (ℕ × DateTime)} (h : Written t log) :
    Logged t log := by
  induction h with
  | empty channels => constructor <;> simp
  | insert _ hinsert ih =>
    obtain ⟨text, htext, rfl, rfl⟩ := insert_ok hinsert
    exact ih.insert htext
  | delete _ hdelete ih =>
    obtain ⟨text, -, -, rfl⟩ := deleteOlderThan_ok hdelete
    exact ih.filter _

section Ranges
variable {t : Table} {log : List (ℕ × DateTime)} {i : ℕ}

instance : Std.Total Before where
  total r s := by
    unfold Before
    grind

instance : IsTrans StoredReading Before where
  trans r s u h h' := by
    unfold Before at h h' ⊢
    grind

theorem Logged.eq_of_before (h : Logged t log) {r s : StoredReading} (hr : r ∈ t.rows)
    (hs : s ∈ t.rows) (hrs : Before r s) (hsr : Before s r) : r = s := by
  have hid : r.id = s.id := by
    unfold Before at hrs hsr
    grind
  exact List.inj_on_of_nodup_map h.ids hr hs hid

/-- A text between the bounds parts the range. -/
theorem select_append (h : Logged t log) {since til : Option String} {text : String}
    (hsince : ∀ s ∈ since, s ≤ text) (htil : ∀ s ∈ til, text ≤ s) :
    select t i since (some text) ++ select t i (some text) til = select t i since til := by
  have hmem : ∀ r ∈ (ofChannel t i).filter fun r =>
      (since.all fun s => s ≤ r.recordedAt) ∧ til.all fun s => r.recordedAt < s,
      r ∈ t.rows := fun r hr => List.mem_of_mem_filter (List.mem_of_mem_filter hr)
  unfold select
  rw [← Grouping.insertionSort_split (fun r => decide (r.recordedAt < text))
    (fun r hr s hs => h.eq_of_before (hmem r hr) (hmem s hs))]
  · congr 2
    · rw [List.filter_filter]
      apply List.filter_congr
      intro r _
      by_cases hlt : r.recordedAt < text
      · have hall : til.all (fun s => r.recordedAt < s) = true := by
          cases til with
          | none => rfl
          | some s => exact decide_eq_true (hlt.trans_le (htil s rfl))
        simp only [hlt, hall, Option.all_some, decide_true, and_true, Bool.true_and]
      · simp only [hlt, Option.all_some, decide_false, Bool.false_eq_true, and_false,
          Bool.false_and]
    · rw [List.filter_filter]
      apply List.filter_congr
      intro r _
      by_cases hlt : r.recordedAt < text
      · have hnot : ¬text ≤ r.recordedAt := not_le.mpr hlt
        simp only [hlt, hnot, Option.all_some, decide_true, decide_false, Bool.not_true,
          Bool.false_eq_true, false_and, Bool.false_and]
      · have hle : text ≤ r.recordedAt := not_lt.mp hlt
        have hall : since.all (fun s => s ≤ r.recordedAt) = true := by
          cases since with
          | none => rfl
          | some s => exact decide_eq_true ((hsince s rfl).trans hle)
        simp only [hlt, hle, hall, Option.all_some, decide_true, decide_false, Bool.not_false,
          true_and, Bool.true_and]
  · intro r _ s _ hr hs
    have hlt : r.recordedAt < text := of_decide_eq_true hr
    have hge : text ≤ s.recordedAt := not_lt.mp (of_decide_eq_false hs)
    exact Or.inl (hlt.trans_le hge)

theorem listByChannel_eq {since til : Option DateTime} {s u : Option String}
    (hs : formatBound since = .ok s) (hu : formatBound til = .ok u) :
    listByChannel t i since til = .ok (select t i s u) := by
  unfold listByChannel
  rw [hs, hu]
  rfl

theorem formatBound_some {time : DateTime} {text : String} (h : time.formatTs = .ok text) :
    formatBound (some time) = .ok (some text) := by
  unfold formatBound
  dsimp only
  rw [h]
  rfl

theorem perm_select_old (t : Table) (i : ℕ) (text : String) :
    (select t i none (some text)).Perm (t.rows.filter (olderThan i text)) := by
  apply (List.perm_insertionSort Before _).trans
  unfold ofChannel
  rw [List.filter_filter]
  apply List.Perm.of_eq
  apply List.filter_congr
  intro r _
  by_cases hi : r.channelId = i <;> simp [olderThan, hi]

theorem select_deleted (t : Table) (i : ℕ) (text : String) :
    select { t with rows := t.rows.filter fun r => !olderThan i text r } i none none =
      select t i (some text) none := by
  unfold select ofChannel
  rw [List.filter_filter, List.filter_filter, List.filter_filter]
  congr 1
  apply List.filter_congr
  intro r _
  have hnot : decide (text ≤ r.recordedAt) = !decide (r.recordedAt < text) := by
    rw [← decide_not]
    exact decide_eq_decide.mpr not_lt.symm
  by_cases hi : r.channelId = i <;> simp [olderThan, hi, hnot, -String.lt_iff_ltb]

theorem ofChannel_deleted {j : ℕ} (t : Table) (hj : j ≠ i) (text : String) :
    ofChannel { t with rows := t.rows.filter fun r => !olderThan i text r } j =
      ofChannel t j := by
  unfold ofChannel
  rw [List.filter_filter]
  apply List.filter_congr
  intro r _
  by_cases hr : r.channelId = j
  · have hi : r.channelId ≠ i := hr ▸ hj
    simp [olderThan, hr, hj]
  · simp [hr]

/-- Ranges that meet are one range, a deletion takes one range and leaves the other, and a bound
drops no reading of its own instant or a later one. -/
structure RangesCompose (t : Table) (log : List (ℕ × DateTime)) (i : ℕ) (a b c : DateTime) :
    Prop where
  joined : ∃ early late, listByChannel t i (some a) (some b) = .ok early ∧
    listByChannel t i (some b) (some c) = .ok late ∧
    listByChannel t i (some a) (some c) = .ok (early ++ late)
  deleted : ∃ old left t', listByChannel t i none (some b) = .ok old ∧
    listByChannel t i (some b) none = .ok left ∧
    deleteOlderThan t i b = .ok (old.length, t') ∧ (old ++ t'.rows).Perm t.rows ∧
    listByChannel t' i = .ok left ∧ ∀ j ≠ i, ofChannel t' j = ofChannel t j
  kept : ∃ rows, listByChannel t i (some a) none = .ok rows ∧
    ∀ r ∈ ofChannel t i, ∀ time, (r.id, time) ∈ log → a.instant ≤ time.instant → r ∈ rows

theorem ranges_compose (h : Written t log) (i : ℕ) {a b c : DateTime} (ha : a.FourDigitYear)
    (hb : b.FourDigitYear) (hc : c.FourDigitYear) (hab : a.instant ≤ b.instant)
    (hbc : b.instant ≤ c.instant) : RangesCompose t log i a b c := by
  obtain ⟨sa, hsa⟩ := DateTime.exists_formatTs ha
  obtain ⟨sb, hsb⟩ := DateTime.exists_formatTs hb
  obtain ⟨sc, hsc⟩ := DateTime.exists_formatTs hc
  have hlogged := h.logged
  have hle : sa ≤ sb := DateTime.formatTs_mono ha hab hsa hsb
  have hle' : sb ≤ sc := DateTime.formatTs_mono hb hbc hsb hsc
  refine ⟨?_, ?_, ?_⟩
  · have happend : select t i (some sa) (some sb) ++ select t i (some sb) (some sc) =
        select t i (some sa) (some sc) :=
      select_append hlogged (by simpa using hle) (by simpa using hle')
    refine ⟨_, _, listByChannel_eq (formatBound_some hsa) (formatBound_some hsb),
      listByChannel_eq (formatBound_some hsb) (formatBound_some hsc), ?_⟩
    rw [happend]
    exact listByChannel_eq (formatBound_some hsa) (formatBound_some hsc)
  · have hold := perm_select_old t i sb
    refine ⟨_, _, { t with rows := t.rows.filter fun r => !olderThan i sb r },
      listByChannel_eq rfl (formatBound_some hsb), listByChannel_eq (formatBound_some hsb) rfl,
      ?_, ?_, ?_, fun j hj => ofChannel_deleted t hj sb⟩
    · rw [hold.length_eq]
      unfold deleteOlderThan
      rw [hsb]
      rfl
    · exact (hold.append_right _).trans (List.filter_append_perm _ _)
    · rw [listByChannel_eq rfl rfl, select_deleted]
  · refine ⟨_, listByChannel_eq (formatBound_some hsa) rfl, ?_⟩
    intro r hr time hlog hinstant
    have htext := hlogged.text r (List.mem_of_mem_filter hr) time hlog
    have hsince : sa ≤ r.recordedAt := DateTime.formatTs_mono ha hinstant hsa htext
    apply (List.mem_insertionSort Before).mpr
    apply List.mem_filter.mpr
    simp [hr, hsince]

end Ranges

/-- Noon of the 27th of May 2026, some microseconds into a second. -/
def noon (second microsecond : ℕ) (hs : second < 60) (hm : microsecond < 1000000) : WallClock where
  date := ⟨2026, 5, 27⟩
  hour := 12
  minute := 0
  second := second
  microsecond := microsecond
  date_valid := ⟨by decide, by decide, by decide⟩
  year_le := by decide
  hour_lt := by decide
  minute_lt := by decide
  second_lt := hs
  microsecond_lt := hm

theorem noon_fourDigitYear (second microsecond : ℕ) (hs : second < 60)
    (hm : microsecond < 1000000) : (noon second microsecond hs hm).naive.FourDigitYear :=
  ⟨_, rfl, by change 1000 ≤ 2026; decide⟩

example : (noon 1 5 (by decide) (by decide)).strftime = "2026-05-27 12:00:01" := by decide

def noonTable : Table where
  channels := [1]
  rows := [⟨1, 1, .finite 20, (noon 1 0 (by decide) (by decide)).strftime⟩]
  nextId := 2

theorem written_noonTable :
    Written noonTable [(1, (noon 1 0 (by decide) (by decide)).naive)] :=
  have hinsert : insert ⟨[1], [], 1⟩ 1 (.finite 20) none (noon 1 0 (by decide) (by decide)) =
      .ok (1, noonTable) := rfl
  .insert (.empty [1]) hinsert

/-- The bound that parts the range lies in the second of the reading. -/
theorem ranges_compose_noon :
    RangesCompose noonTable [(1, (noon 1 0 (by decide) (by decide)).naive)] 1
      (noon 0 0 (by decide) (by decide)).naive (noon 1 5 (by decide) (by decide)).naive
      (noon 1 7 (by decide) (by decide)).naive :=
  ranges_compose written_noonTable 1 (noon_fourDigitYear 0 0 (by decide) (by decide))
    (noon_fourDigitYear 1 5 (by decide) (by decide)) (noon_fourDigitYear 1 7 (by decide) (by decide))
    (by decide) (by decide)

end HomeServer.Db.ReadingTexts
