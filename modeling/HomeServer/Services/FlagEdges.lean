import HomeServer.Db.Latest
import HomeServer.Services.ChannelService

/-! The last time a flag became 1, against the last reading of 1 that `get_flag_state` returns:
they are the same reading when the last run of ones is a single one. -/
namespace HomeServer.Services.ChannelService
open HomeServer.Db Readings

section Rises
variable {α : Type*} {on : α → Bool} {rows before after : List α} {r : α}

def risesAfter (on : α → Bool) : Bool → List α → List α
  | _, [] => []
  | wasOn, r :: rs => (if on r && !wasOn then [r] else []) ++ risesAfter on (on r) rs

def rises (on : α → Bool) (rows : List α) : List α := risesAfter on false rows

/-- The entry before the last one that is on is off, or there is none. -/
def LastRunSingle (on : α → Bool) (rows : List α) : Prop :=
  ∀ before r after, rows = before ++ r :: after → on r = true → (∀ s ∈ after, on s = false) →
    ∀ s ∈ before.getLast?, on s = false

theorem risesAfter_append (wasOn : Bool) (xs ys : List α) :
    risesAfter on wasOn (xs ++ ys) =
      risesAfter on wasOn xs ++ risesAfter on ((xs.getLast?.map on).getD wasOn) ys := by
  induction xs generalizing wasOn with
  | nil => rfl
  | cons x xs ih =>
    have hlast : (((x :: xs).getLast?).map on).getD wasOn = (xs.getLast?.map on).getD (on x) := by
      rw [List.getLast?_cons]
      cases xs.getLast? <;> rfl
    rw [List.cons_append, risesAfter, risesAfter, ih, List.append_assoc, hlast]

theorem risesAfter_off (wasOn : Bool) (h : ∀ s ∈ rows, on s = false) :
    risesAfter on wasOn rows = [] := by
  induction rows generalizing wasOn with
  | nil => rfl
  | cons x xs ih =>
    obtain ⟨hx, hxs⟩ := List.forall_mem_cons.mp h
    rw [risesAfter, hx, ih false hxs]
    rfl

theorem mem_of_mem_risesAfter {wasOn : Bool} (h : r ∈ risesAfter on wasOn rows) : r ∈ rows := by
  induction rows generalizing wasOn with
  | nil => cases h
  | cons x xs ih =>
    rw [risesAfter] at h
    rcases List.mem_append.mp h with h | h
    · split at h
      · rw [List.mem_singleton.mp h]
        exact .head _
      · cases h
    · exact .tail _ (ih h)

theorem getLast?_filter_split (hr : on r = true) (hafter : ∀ s ∈ after, on s = false) :
    ((before ++ r :: after).filter on).getLast? = some r := by
  have hoff : after.filter on = [] := List.filter_eq_nil_iff.mpr (by simpa using hafter)
  rw [List.filter_append, List.filter_cons_of_pos hr, hoff]
  simp

theorem rises_split (hr : on r = true) (hafter : ∀ s ∈ after, on s = false) :
    rises on (before ++ r :: after) =
      rises on before ++ if (before.getLast?.map on).getD false then [] else [r] := by
  unfold rises
  rw [risesAfter_append, risesAfter, risesAfter_off _ hafter, hr]
  cases (before.getLast?.map on).getD false <;> rfl

/-- The last entry that is on, if there is one. -/
theorem exists_last_on (h : ∃ r ∈ rows, on r = true) :
    ∃ before r after, rows = before ++ r :: after ∧ on r = true ∧ ∀ s ∈ after, on s = false := by
  induction rows with
  | nil => simp at h
  | cons x xs ih =>
    by_cases hxs : ∃ r ∈ xs, on r = true
    · obtain ⟨before, r, after, rfl, hr, hafter⟩ := ih hxs
      exact ⟨x :: before, r, after, rfl, hr, hafter⟩
    · have hoff : ∀ s ∈ xs, on s = false := by simpa using hxs
      have hx : on x = true := by simpa [hxs] using h
      exact ⟨[], x, xs, rfl, hx, hoff⟩

theorem last_on_eq_last_rise_iff (hrows : rows.Nodup) :
    (rows.filter on).getLast? = (rises on rows).getLast? ↔ LastRunSingle on rows := by
  constructor
  · rintro heq before r after rfl hr hafter s hs
    rw [getLast?_filter_split hr hafter, rises_split hr hafter, hs] at heq
    by_contra hon
    have hon : on s = true := by simpa using hon
    simp only [Option.map_some, hon, Option.getD_some, if_true, List.append_nil] at heq
    have hmem : r ∈ before := mem_of_mem_risesAfter (List.mem_of_getLast? heq.symm)
    have hdisjoint := (List.nodup_append.mp hrows).2.2
    exact hdisjoint r hmem r (.head _) rfl
  · intro hsingle
    by_cases hany : ∃ r ∈ rows, on r = true
    · obtain ⟨before, r, after, rfl, hr, hafter⟩ := exists_last_on hany
      have hbefore := hsingle before r after rfl hr hafter
      have hoff : (before.getLast?.map on).getD false = false := by
        cases hlast : before.getLast? with
        | none => rfl
        | some s => exact hbefore s hlast
      rw [getLast?_filter_split hr hafter, rises_split hr hafter, hoff]
      simp
    · have hoff : ∀ s ∈ rows, on s = false := by simpa using hany
      unfold rises
      rw [risesAfter_off _ hoff, List.filter_eq_nil_iff.mpr (by simpa using hoff)]

end Rises

section Flag
variable {db : Database}

def readsOn (r : Reading) : Bool := r.value.atLeast flagOnThreshold

def inOrder (db : Database) (channelId : ℕ) : List Reading := orderBy (ofChannel db channelId)

/-- What `get_flag_state` is to return, read off the sequence of readings. -/
structure FlagHistory (db : Database) (channelId : ℕ) : Prop where
  latest : (getFlagState db channelId).1 = (inOrder db channelId).getLast?
  lastOn : (getFlagState db channelId).2 = (rises readsOn (inOrder db channelId)).getLast?
  none_iff : (getFlagState db channelId).2 = none ↔ ∀ r ∈ inOrder db channelId, readsOn r = false

theorem orderBy_filter (h : db.Valid) (channelId : ℕ) (p : Reading → Bool) :
    orderBy ((ofChannel db channelId).filter p) = (inOrder db channelId).filter p := by
  have hsource : ∀ {r}, r ∈ orderBy ((ofChannel db channelId).filter p) → r ∈ db.readings :=
    fun hr => List.mem_of_mem_filter (List.mem_of_mem_filter (mem_orderBy.mp hr))
  have hperm : (orderBy ((ofChannel db channelId).filter p)).Perm
      ((inOrder db channelId).filter p) :=
    (List.perm_insertionSort Before _).trans
      ((List.perm_insertionSort Before (ofChannel db channelId)).filter p).symm
  apply hperm.eq_of_pairwise _ (pairwise_orderBy _) ((pairwise_orderBy _).filter _)
  intro r s hr hs hrs hsr
  exact List.inj_on_of_nodup_map h.readingIds (hsource hr) (hsource (hperm.mem_iff.mpr hs))
    (hrs.id_eq hsr)

theorem getFlagState_lastOn (h : db.Valid) (channelId : ℕ) :
    (getFlagState db channelId).2 = ((inOrder db channelId).filter readsOn).getLast? := by
  rw [← orderBy_filter h]
  rfl

/-- The flag history is right exactly when the last run of ones is a single reading. -/
theorem flag_history_iff (h : db.Valid) (channelId : ℕ) :
    FlagHistory db channelId ↔ LastRunSingle readsOn (inOrder db channelId) := by
  have hrows : (inOrder db channelId).Nodup := nodup_orderBy h channelId
  rw [← last_on_eq_last_rise_iff hrows, ← getFlagState_lastOn h]
  constructor
  · exact FlagHistory.lastOn
  · intro hlast
    refine ⟨rfl, hlast, ?_⟩
    rw [getFlagState_lastOn h, List.getLast?_eq_none_iff, List.filter_eq_nil_iff]
    simp

end Flag

/-- A door that opened at 60 and reported again at 120 that it is open. -/
def openDoor : Database where
  devices := [⟨1, "A4:C1:38:00:00:2A", .publicAddr, "door", none, 1, none⟩]
  channels := [⟨1, 1, "open", .display, "2a6e", "uint8", some "0/1"⟩]
  readings := [⟨1, 1, .finite 0, 0⟩, ⟨2, 1, .finite 1, 60⟩, ⟨3, 1, .finite 1, 120⟩]
  nextDevice := 2
  nextChannel := 2
  nextReading := 4

theorem openDoor_valid : openDoor.Valid := by
  constructor <;> decide

/-- Its last two readings are a run. -/
theorem flag_history_iff_openDoor : ¬LastRunSingle readsOn (inOrder openDoor 1) := by
  have hlast : (getFlagState openDoor 1).2 ≠ (rises readsOn (inOrder openDoor 1)).getLast? := by
    decide +kernel
  intro hsingle
  exact hlast ((flag_history_iff openDoor_valid 1).mpr hsingle).lastOn

/-- The reading of 120 is returned, the flag became 1 at 60. -/
theorem flag_history_repeated : ¬∀ db : Database, db.Valid → ∀ i, FlagHistory db i := by
  intro hall
  have hlast := (hall openDoor openDoor_valid 1).lastOn
  revert hlast
  decide +kernel

end HomeServer.Services.ChannelService
