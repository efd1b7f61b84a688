import Mathlib.Data.List.Count
import Mathlib.Logic.Function.Basic

/-! Calls numbered by counters that they may share: the numbers that one caller sees are
consecutive if nobody else uses its counter. -/
namespace HomeServer.Lib.Tally
variable {α κ : Type*} [BEq α] [LawfulBEq α] [DecidableEq κ]

def bump (n : κ → ℕ) (k : κ) : κ → ℕ := Function.update n k (n k + 1)

/-- Each call advances the counter of its caller, and is given what that counter shows then. -/
def numbered (c : α → κ) (n : κ → ℕ) : List α → List (α × ℕ)
  | [] => []
  | a :: calls => (a, n (c a) + 1) :: numbered c (bump n (c a)) calls

def ofCaller {β : Type*} (a : α) (calls : List (α × β)) : List β :=
  (calls.filter fun call => call.1 == a).map Prod.snd

variable {c : α → κ} {a b : α}

@[simp] theorem bump_same (n : κ → ℕ) (k : κ) : bump n k k = n k + 1 :=
  Function.update_self _ _ _

theorem bump_of_ne (n : κ → ℕ) {k k' : κ} (h : k' ≠ k) : bump n k k' = n k' :=
  Function.update_of_ne h _ _

@[simp] theorem ofCaller_cons_same {β : Type*} (x : β) (calls : List (α × β)) :
    ofCaller a ((a, x) :: calls) = x :: ofCaller a calls := by
  simp [ofCaller]

theorem ofCaller_cons_of_ne {β : Type*} (h : b ≠ a) (x : β) (calls : List (α × β)) :
    ofCaller a ((b, x) :: calls) = ofCaller a calls := by
  simp [ofCaller, h]

theorem ofCaller_map {β γ : Type*} (f : α → β → γ) (calls : List (α × β)) :
    ofCaller a (calls.map fun call => (call.1, f call.1 call.2)) =
      (ofCaller a calls).map (f a) := by
  induction calls with
  | nil => rfl
  | cons call calls ih =>
    obtain ⟨b, x⟩ := call
    rw [List.map_cons]
    by_cases hb : b = a
    · rw [hb, ofCaller_cons_same, ofCaller_cons_same, List.map_cons, ih]
    · rw [ofCaller_cons_of_ne hb, ofCaller_cons_of_ne hb, ih]

theorem length_ofCaller_numbered (c : α → κ) (n : κ → ℕ) (calls : List α) :
    (ofCaller a (numbered c n calls)).length = calls.count a := by
  induction calls generalizing n with
  | nil => rfl
  | cons b calls ih =>
    rw [numbered]
    by_cases hb : b = a
    · rw [hb, ofCaller_cons_same, List.length_cons, ih, List.count_cons_self]
    · rw [ofCaller_cons_of_ne hb, ih, List.count_cons_of_ne hb]

/-- A caller whose counter nobody else uses sees consecutive numbers. -/
theorem ofCaller_numbered {calls : List α} (h : ∀ b ∈ calls, c b = c a → b = a) (n : κ → ℕ) :
    ofCaller a (numbered c n calls) = List.range' (n (c a) + 1) (calls.count a) := by
  induction calls generalizing n with
  | nil => rfl
  | cons b calls ih =>
    have hrest := ih (fun b hb => h b (.tail _ hb)) (bump n (c b))
    rw [numbered]
    by_cases hb : b = a
    · rw [hb] at hrest ⊢
      rw [ofCaller_cons_same, hrest, bump_same, List.count_cons_self, List.range'_succ]
    · have hcounter : c a ≠ c b := fun heq => hb (h b (.head _) heq.symm)
      rw [ofCaller_cons_of_ne hb, hrest, bump_of_ne n hcounter, List.count_cons_of_ne hb]

theorem ofCaller_after_replicate (hb : b ≠ a) (hc : c b = c a) (n : κ → ℕ) (m : ℕ) :
    ofCaller a (numbered c n (List.replicate m b ++ [a])) = [n (c a) + m + 1] := by
  induction m generalizing n with
  | zero => simp [numbered, ofCaller]
  | succ m ih =>
    rw [List.replicate_succ, List.cons_append, numbered, ofCaller_cons_of_ne hb, ih, hc, bump_same]
    congr 1
    omega

end HomeServer.Lib.Tally
