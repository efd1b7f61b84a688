import HomeServer.Lib.Transition
import Mathlib.Data.List.Perm.Basic

/-! Threads over a shared state. A thread is its local state; one step advances one thread
with an answer chosen by the environment. Invariants of a pool speak of the threads up to
order, so a step is seen as one thread in front of all others. -/
namespace HomeServer.Lib

structure Pool (σ π : Type) where
  shared : σ
  threads : List π

namespace Pool
variable {σ π α : Type}

def spawn (p : Pool σ π) (t : π) : Pool σ π := { p with threads := p.threads ++ [t] }

def step (advance : σ → π → α → Option (σ × π)) (p : Pool σ π) (i : ℕ) (a : α) :
    Option (Pool σ π) :=
  p.threads[i]?.bind fun t =>
    (advance p.shared t a).map fun r => { shared := r.1, threads := p.threads.set i r.2 }

theorem step_focus {advance : σ → π → α → Option (σ × π)} {p p' : Pool σ π} {i : ℕ} {a : α}
    (h : p.step advance i a = some p') :
    ∃ t t' rest, p.threads[i]? = some t ∧ advance p.shared t a = some (p'.shared, t') ∧
      p.threads.Perm (t :: rest) ∧ p'.threads.Perm (t' :: rest) := by
  obtain ⟨t, ht, h⟩ := Option.bind_eq_some_iff.mp h
  obtain ⟨⟨s, t'⟩, ha, rfl⟩ := Option.map_eq_some_iff.mp h
  obtain ⟨hlt, rfl⟩ := List.getElem?_eq_some_iff.mp ht
  exact ⟨_, t', p.threads.eraseIdx i, ht, ha, (List.getElem_cons_eraseIdx_perm hlt).symm,
    List.set_perm_cons_eraseIdx hlt t'⟩

theorem spawn_perm (p : Pool σ π) (t : π) : (p.spawn t).threads.Perm (t :: p.threads) :=
  List.perm_append_singleton t p.threads

/-- An invariant of the shared state and the threads that a new thread and every step of
one thread keep, and that does not depend on the order of the threads. -/
theorem step_invariant {advance : σ → π → α → Option (σ × π)} {I : σ → List π → Prop}
    (hperm : ∀ s l l', l.Perm l' → I s l → I s l') {p p' : Pool σ π} {i : ℕ} {a : α}
    (hstep : ∀ t t' s' rest, p.threads[i]? = some t → p.threads.Perm (t :: rest) →
      I p.shared (t :: rest) → advance p.shared t a = some (s', t') → I s' (t' :: rest))
    (hI : I p.shared p.threads) (h : p.step advance i a = some p') : I p'.shared p'.threads := by
  obtain ⟨t, t', rest, ht, ha, hp, hp'⟩ := step_focus h
  exact hperm _ _ _ hp'.symm (hstep t t' _ rest ht hp (hperm _ _ _ hp hI) ha)

end Pool
end HomeServer.Lib
