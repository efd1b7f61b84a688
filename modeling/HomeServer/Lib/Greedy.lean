import Mathlib.Data.List.Basic

/-! The greedy subsequence under a condition between an item and the one kept before it. -/
namespace HomeServer.Lib.Greedy
variable {α τ : Type} (far : τ → τ → Bool) (time : α → τ)

/-- Keep the first item, then each next one that is far from the last kept one. -/
def keep : Option τ → List α → List α
  | _, [] => []
  | last, x :: xs =>
    if last.all fun t => far t (time x) then x :: keep (some (time x)) xs else keep last xs

variable {far time}

theorem keep_cons_of_far {last : Option τ} {x : α} (h : (last.all fun t => far t (time x)) = true)
    (xs : List α) : keep far time last (x :: xs) = x :: keep far time (some (time x)) xs :=
  if_pos h

theorem keep_cons_of_near {last : Option τ} {x : α}
    (h : (last.all fun t => far t (time x)) = false) (xs : List α) :
    keep far time last (x :: xs) = keep far time last xs := by
  rw [keep, h, if_neg Bool.false_ne_true]

/-- What comes later is chosen by the last item kept so far. -/
theorem keep_append (last : Option τ) (xs ys : List α) :
    keep far time last (xs ++ ys) =
      keep far time last xs ++
        keep far time (((keep far time last xs).getLast?.map time).or last) ys := by
  induction xs generalizing last with
  | nil => rfl
  | cons x xs ih =>
    simp only [List.cons_append, keep]
    split
    · rw [ih, List.getLast?_cons, List.cons_append]
      cases (keep far time (some (time x)) xs).getLast? <;> rfl
    · rw [ih]

theorem keep_map {β : Type} (f : β → α) (last : Option τ) (xs : List β) :
    keep far time last (xs.map f) = (keep far (fun x => time (f x)) last xs).map f := by
  induction xs generalizing last with
  | nil => rfl
  | cons x xs ih =>
    simp only [List.map_cons, keep]
    split
    · rw [ih, List.map_cons]
    · rw [ih]

theorem keep_ne_nil {xs : List α} (h : xs ≠ []) : keep far time none xs ≠ [] := by
  cases xs with
  | nil => exact absurd rfl h
  | cons x xs => simp [keep]

/-- The last item is kept when it is far from the one kept before it. -/
theorem keep_concat_of_far {x : α} {xs : List α}
    (h : ((keep far time none xs).getLast?.all fun y => far (time y) (time x)) = true) :
    keep far time none (xs ++ [x]) = keep far time none xs ++ [x] := by
  rw [keep_append]
  apply congrArg (keep far time none xs ++ ·)
  apply keep_cons_of_far
  cases hlast : (keep far time none xs).getLast? with
  | none => rfl
  | some y =>
    rw [hlast] at h
    exact h

end HomeServer.Lib.Greedy
