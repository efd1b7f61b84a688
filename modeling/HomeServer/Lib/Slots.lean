import Mathlib.Data.List.Perm.Basic

/-! A list as a growing table of slots: a slot is read by its index, written in place, and new
slots come at the end, so an index once given keeps its meaning. -/
namespace HomeServer.Lib.Slots
variable {α : Type} {l : List α} {i j : ℕ} {a b : α}

theorem getElem?_set_some (h : l[i]? = some a) (j : ℕ) :
    (l.set i b)[j]? = if i = j then some b else l[j]? := by
  obtain ⟨hlt, -⟩ := List.getElem?_eq_some_iff.mp h
  rw [List.getElem?_set, if_pos hlt]

theorem getElem?_concat_of_some (h : l[i]? = some a) : (l ++ [b])[i]? = some a := by
  obtain ⟨hlt, -⟩ := List.getElem?_eq_some_iff.mp h
  rw [List.getElem?_append_left hlt]
  exact h

/-- A slot of the longer table is an old one, or the new one. -/
theorem getElem?_concat_some (h : (l ++ [b])[i]? = some a) :
    l[i]? = some a ∨ i = l.length ∧ a = b := by
  rw [List.getElem?_append] at h
  split at h
  · exact Or.inl h
  · rename_i hge
    obtain ⟨hlt, hget⟩ := List.getElem?_eq_some_iff.mp h
    rw [List.length_singleton] at hlt
    have hi : i = l.length := by omega
    refine Or.inr ⟨hi, ?_⟩
    rw [← hget]
    exact List.getElem_singleton ..

theorem countP_modify {p : α → Bool} {f : α → α} (h : ∀ x, p (f x) = p x) (l : List α) (i : ℕ) :
    (l.modify i f).countP p = l.countP p := by
  induction l generalizing i with
  | nil => simp
  | cons a l ih =>
    cases i with
    | zero => simp [List.modify_zero_cons, List.countP_cons, h]
    | succ i => simp [List.modify_succ_cons, List.countP_cons, ih]

theorem countP_set {p : α → Bool} (h : l[i]? = some a) :
    (l.set i b).countP p + (if p a then 1 else 0) = l.countP p + if p b then 1 else 0 := by
  obtain ⟨hlt, rfl⟩ := List.getElem?_eq_some_iff.mp h
  have hold := (List.getElem_cons_eraseIdx_perm hlt).countP_eq p
  have hnew := (List.set_perm_cons_eraseIdx hlt b).countP_eq p
  rw [List.countP_cons] at hold hnew
  omega

end HomeServer.Lib.Slots
