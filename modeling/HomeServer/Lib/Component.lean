import Mathlib.Data.List.Basic

/-! Components that answer requests one after the other, and refinement between them. -/
namespace HomeServer.Lib

structure Component (σ ρ α : Type*) where
  init : σ
  respond : σ → ρ → α × σ

namespace Component
variable {σ τ ρ α : Type*}

def after (C : Component σ ρ α) : σ → List ρ → σ
  | s, [] => s
  | s, r :: rs => after C (C.respond s r).2 rs

def answers (C : Component σ ρ α) : σ → List ρ → List α
  | _, [] => []
  | s, r :: rs => (C.respond s r).1 :: answers C (C.respond s r).2 rs

/-- What can be seen of `C` is `A`: states that meet the invariant respond as their views do. -/
structure Refines (C : Component σ ρ α) (A : Component τ ρ α) (view : σ → τ) (inv : σ → Prop) :
    Prop where
  init : inv C.init
  init_view : view C.init = A.init
  respond : ∀ s r, inv s → inv (C.respond s r).2 ∧
    A.respond (view s) r = ((C.respond s r).1, view (C.respond s r).2)

theorem after_append (C : Component σ ρ α) (s : σ) (rs rs' : List ρ) :
    C.after s (rs ++ rs') = C.after (C.after s rs) rs' := by
  induction rs generalizing s with
  | nil => rfl
  | cons r rs ih => exact ih _

theorem invariant {C : Component σ ρ α} {inv : σ → Prop}
    (hstep : ∀ s r, inv s → inv (C.respond s r).2) {s : σ} (hs : inv s) (rs : List ρ) :
    inv (C.after s rs) := by
  induction rs generalizing s with
  | nil => exact hs
  | cons r rs ih => exact ih (hstep s r hs)

namespace Refines
variable {C : Component σ ρ α} {A : Component τ ρ α} {view : σ → τ} {inv : σ → Prop}

/-- A run of the one is a run of the other. -/
theorem run (h : Refines C A view inv) {s : σ} (hs : inv s) (rs : List ρ) :
    inv (C.after s rs) ∧ A.after (view s) rs = view (C.after s rs) ∧
      A.answers (view s) rs = C.answers s rs := by
  induction rs generalizing s with
  | nil => exact ⟨hs, rfl, rfl⟩
  | cons r rs ih =>
    obtain ⟨hinv, hrespond⟩ := h.respond s r hs
    obtain ⟨hafter, hview, hanswers⟩ := ih hinv
    refine ⟨hafter, ?_, ?_⟩
    · rw [after, hrespond]
      exact hview
    · rw [answers, hrespond, hanswers]
      rfl

end Refines
end Component
end HomeServer.Lib
