import Mathlib.Data.List.DropRight

/-! Lists trimmed at both ends, and lists cut at their first separator. -/
namespace HomeServer.Lib.Trimming
variable {α : Type*}

def trim (p : α → Bool) (l : List α) : List α := (l.dropWhile p).rdropWhile p

section Trim
variable {p : α → Bool} {l w : List α} {a : α}

theorem trim_append_left (hw : ∀ a ∈ w, p a = true) : trim p (w ++ l) = trim p l := by
  unfold trim
  rw [List.dropWhile_append_of_pos hw]

theorem trim_append_right (hw : ∀ a ∈ w, p a = true) : trim p (l ++ w) = trim p l := by
  have hend : ∀ l : List α, (l ++ w).rdropWhile p = l.rdropWhile p := by
    intro l
    unfold List.rdropWhile
    rw [List.reverse_append, List.dropWhile_append_of_pos fun a ha => hw a (List.mem_reverse.mp ha)]
  unfold trim
  rw [List.dropWhile_append]
  split_ifs with hempty
  · rw [List.isEmpty_iff] at hempty
    rw [List.dropWhile_eq_nil_iff.mpr hw, hempty]
  · exact hend _

theorem exists_trim (p : α → Bool) (l : List α) :
    ∃ w w', (∀ a ∈ w, p a = true) ∧ (∀ a ∈ w', p a = true) ∧ l = w ++ trim p l ++ w' := by
  refine ⟨l.takeWhile p, (l.dropWhile p).rtakeWhile p, fun a ha => List.mem_takeWhile_imp ha,
    fun a ha => List.mem_rtakeWhile_imp ha, ?_⟩
  rw [trim, List.append_assoc, List.rdropWhile_append_rtakeWhile, List.takeWhile_append_dropWhile]

theorem trim_trim (p : α → Bool) (l : List α) : trim p (trim p l) = trim p l := by
  obtain ⟨w, w', hw, hw', hl⟩ := exists_trim p l
  have hsame : trim p (w ++ trim p l ++ w') = trim p (trim p l) := by
    rw [trim_append_right hw', trim_append_left hw]
  rw [← hl] at hsame
  exact hsame.symm

theorem mem_trim (ha : ¬p a = true) : a ∈ trim p l ↔ a ∈ l := by
  obtain ⟨w, w', hw, hw', hl⟩ := exists_trim p l
  constructor
  · intro h
    rw [hl]
    exact List.mem_append_left _ (List.mem_append_right _ h)
  · intro h
    rw [hl] at h
    rcases List.mem_append.mp h with h | h
    · exact (List.mem_append.mp h).resolve_left fun hmem => ha (hw a hmem)
    · exact absurd (hw' a h) ha

theorem trim_eq_self (h : ∀ a ∈ l, ¬p a = true) : trim p l = l := by
  have hstart : l.dropWhile p = l :=
    List.dropWhile_eq_self_iff.mpr fun hl => h _ (List.getElem_mem hl)
  rw [trim, hstart]
  exact List.rdropWhile_eq_self_iff.mpr fun hl => h _ (List.getLast_mem hl)

theorem trim_cons (ha : ¬p a = true) : trim p (a :: l) = a :: l.rdropWhile p := by
  rw [trim, List.dropWhile_cons_of_neg ha, List.rdropWhile, List.reverse_cons,
    List.dropWhile_append]
  split_ifs with hempty
  · have hl : l.rdropWhile p = [] := by
      simpa [List.rdropWhile] using hempty
    simp [hl, ha]
  · simp [List.rdropWhile]

/-- Filtering away elements that trimming takes off anyway may come before it or after. -/
theorem trim_filter {q : α → Bool} (hq : ∀ a, ¬q a = true → p a = true) (l : List α) :
    trim p (l.filter q) = (trim p l).filter q := by
  have hsub : ∀ a, (!q a || p a) = p a := by
    intro a
    by_cases ha : q a = true
    · simp [ha]
    · simp [ha, hq a ha]
  have hleft : ∀ l : List α, (l.filter q).dropWhile p = (l.dropWhile p).filter q := by
    intro l
    rw [List.dropWhile_filter]
    simp only [hsub]
  rw [trim, trim, hleft, List.rdropWhile, ← List.filter_reverse, hleft, List.rdropWhile,
    List.filter_reverse]

/-- The first element of the kept kind is the same without the end that is taken off, where that
end has none like it. -/
theorem find?_rdropWhile (q : α → Bool) (l : List α) (ha : ¬p a = true) :
    (l.rdropWhile p).find? q = some a ↔ l.find? q = some a := by
  have hl : l.find? q = ((l.rdropWhile p).find? q).or ((l.rtakeWhile p).find? q) := by
    rw [← List.find?_append, List.rdropWhile_append_rtakeWhile]
  constructor
  · intro h
    rw [hl, h, Option.some_or]
  · intro h
    cases hfound : (l.rdropWhile p).find? q with
    | some b => rw [← h, hl, hfound, Option.some_or]
    | none =>
      rw [hl, hfound, Option.none_or] at h
      exact absurd (List.mem_rtakeWhile_imp (List.mem_of_find?_eq_some h)) ha

end Trim

/-- Dropping what no later element has again is filtering. -/
theorem dropWhile_eq_filter {p : α → Bool} {l : List α}
    (h : l.Pairwise fun a b => p b = true → p a = true) :
    l.dropWhile p = l.filter fun a => !p a := by
  induction l with
  | nil => rfl
  | cons a l ih =>
    obtain ⟨hfirst, hrest⟩ := List.pairwise_cons.mp h
    by_cases ha : p a = true
    · rw [List.dropWhile_cons_of_pos ha, List.filter_cons_of_neg (by simp [ha]), ih hrest]
    · have hall : ∀ b ∈ a :: l, (!p b) = true := by
        intro b hb
        rw [Bool.not_eq_true', ← Bool.not_eq_true]
        rcases List.mem_cons.mp hb with rfl | hmem
        · exact ha
        · exact mt (hfirst b hmem) ha
      rw [List.dropWhile_cons_of_neg ha, List.filter_eq_self.mpr hall]

section Cut
variable [DecidableEq α]

def before (s : α) (l : List α) : List α := l.takeWhile (· ≠ s)

def after (s : α) (l : List α) : List α := (l.dropWhile (· ≠ s)).tail

variable {s : α} {l r : List α} {p : α → Bool}

theorem before_append_cons (h : s ∉ l) : before s (l ++ s :: r) = l := by
  have hl : ∀ a ∈ l, decide (a ≠ s) = true := fun a ha =>
    decide_eq_true fun heq => h (heq ▸ ha)
  unfold before
  rw [List.takeWhile_append_of_pos hl, List.takeWhile_cons_of_neg (by simp), List.append_nil]

theorem after_append_cons (h : s ∉ l) : after s (l ++ s :: r) = r := by
  have hl : ∀ a ∈ l, decide (a ≠ s) = true := fun a ha =>
    decide_eq_true fun heq => h (heq ▸ ha)
  unfold after
  rw [List.dropWhile_append_of_pos hl, List.dropWhile_cons_of_neg (by simp), List.tail_cons]

/-- Cutting a trimmed list and trimming the parts is cutting the list and trimming the parts. -/
theorem trim_cut (hs : ¬p s = true) (h : s ∈ l) :
    trim p (before s (trim p l)) = trim p (before s l) ∧
      trim p (after s (trim p l)) = trim p (after s l) := by
  obtain ⟨w, w', hw, hw', hl⟩ := exists_trim p l
  obtain ⟨t, t', ht, hfirst⟩ := List.eq_append_cons_of_mem ((mem_trim hs).mpr h)
  have hparts : l = (w ++ t) ++ s :: (t' ++ w') := by
    rw [ht] at hl
    simpa using hl
  have hnew : s ∉ w ++ t := by
    intro hmem
    rcases List.mem_append.mp hmem with hmem | hmem
    · exact hs (hw s hmem)
    · exact hfirst hmem
  have hbefore : before s l = w ++ t := by
    rw [hparts]
    exact before_append_cons hnew
  have hafter : after s l = t' ++ w' := by
    rw [hparts]
    exact after_append_cons hnew
  rw [ht, before_append_cons hfirst, after_append_cons hfirst, hbefore, hafter,
    trim_append_left hw, trim_append_right hw']
  exact ⟨rfl, rfl⟩

end Cut
end HomeServer.Lib.Trimming
