import HomeServer.Lib.Action
import Mathlib.Tactic.Common

/-! Programs made of statements that each take effect at once, and what is left of them when
the process is cut off after any number of statements. -/
namespace HomeServer.Lib

/-- `left` counts the statements until the process is cut off; `none` if it is not. -/
structure Session (σ : Type) where
  state : σ
  left : Option ℕ := none

inductive Stop (ε : Type)
  | cutOff
  | raised (e : ε)
  deriving DecidableEq

abbrev Program (σ ε α : Type) := Action (Session σ) (Stop ε) α

variable {σ ε α β : Type}

/-- One statement: it returns something and takes effect, if the process gets to it. -/
def statement (f : σ → α × σ) : Program σ ε α := do
  let s ← get
  match s.left with
  | some 0 => throw .cutOff
  | left =>
    set ({ state := (f s.state).2, left := left.map fun k => k - 1 } : Session σ)
    pure (f s.state).1

def raise (e : ε) : Program σ ε α := throw (.raised e)

def applyAll (ws : List (σ → σ)) (s : σ) : σ := ws.foldl (fun s w => w s) s

@[simp] theorem applyAll_nil (s : σ) : applyAll [] s = s := rfl

@[simp] theorem applyAll_cons (w : σ → σ) (ws : List (σ → σ)) (s : σ) :
    applyAll (w :: ws) s = applyAll ws (w s) := rfl

theorem applyAll_append (ws ws' : List (σ → σ)) (s : σ) :
    applyAll (ws ++ ws') s = applyAll ws' (applyAll ws s) := by
  unfold applyAll
  exact List.foldl_append

theorem applyAll_preserves {P : σ → Prop} {ws : List (σ → σ)}
    (hws : ∀ w ∈ ws, ∀ s, P s → P (w s)) {s : σ} (hs : P s) : P (applyAll ws s) := by
  induction ws generalizing s with
  | nil => exact hs
  | cons w ws ih =>
    have hw : P (w s) := hws w (.head _) s hs
    exact ih (fun w' hw' => hws w' (.tail _ hw')) hw

/-- Started in `s` the program executes statements with the effects `ws` and ends with `r`;
cut off before, it leaves the effects of those it got to. -/
structure Trace (m : Program σ ε α) (s : σ) (ws : List (σ → σ)) (r : Except ε α) : Prop where
  whole : m.exec ⟨s, none⟩ = (r.mapError .raised, ⟨applyAll ws s, none⟩)
  cut : ∀ k, m.exec ⟨s, some k⟩ =
    if k < ws.length then (.error .cutOff, ⟨applyAll (ws.take k) s, some 0⟩)
    else (r.mapError .raised, ⟨applyAll ws s, some (k - ws.length)⟩)

namespace Trace
variable {m : Program σ ε α} {f : α → Program σ ε β} {s : σ} {ws ws' : List (σ → σ)}

/-- Whenever it is cut off, the program leaves the effects of its first statements. -/
theorem state_cut {r : Except ε α} (h : Trace m s ws r) (k : ℕ) :
    (m.exec ⟨s, some k⟩).2.state = applyAll (ws.take k) s := by
  rw [h.cut]
  split
  · rfl
  · rename_i hk
    rw [List.take_of_length_le (by omega)]

theorem pure (a : α) (s : σ) : Trace (pure a : Program σ ε α) s [] (.ok a) := by
  refine ⟨rfl, fun k => ?_⟩
  rw [if_neg (by simp)]
  rfl

theorem statement (g : σ → α × σ) (s : σ) :
    Trace (statement g : Program σ ε α) s [fun s => (g s).2] (.ok (g s).1) := by
  refine ⟨rfl, fun k => ?_⟩
  cases k with
  | zero => rfl
  | succ k =>
    rw [if_neg (by simp)]
    rfl

theorem bind {r : Except ε β} {a : α} (h : Trace m s ws (.ok a))
    (h' : Trace (f a) (applyAll ws s) ws' r) : Trace (m >>= f) s (ws ++ ws') r := by
  constructor
  · rw [Action.exec_bind, h.whole]
    change (f a).exec _ = _
    rw [h'.whole, applyAll_append]
  · intro k
    rw [Action.exec_bind, h.cut]
    by_cases hk : k < ws.length
    · have hlen : k < (ws ++ ws').length := by
        rw [List.length_append]
        omega
      rw [if_pos hk, if_pos hlen, List.take_append_of_le_length (by omega)]
    · rw [if_neg hk]
      change (f a).exec _ = _
      rw [h'.cut, List.length_append]
      by_cases hk' : k - ws.length < ws'.length
      · rw [if_pos hk', if_pos (by omega), List.take_append, applyAll_append,
          List.take_of_length_le (by omega : ws.length ≤ k)]
      · rw [if_neg hk', if_neg (by omega), applyAll_append, Nat.sub_sub]

theorem forM {xs : List α} {f : α → Program σ ε PUnit} {effects : α → List (σ → σ)}
    (h : ∀ x ∈ xs, ∀ s, Trace (f x) s (effects x) (.ok ⟨⟩)) (s : σ) :
    Trace (forM xs f) s (xs.flatMap effects) (.ok ⟨⟩) := by
  induction xs generalizing s with
  | nil => exact .pure (⟨⟩ : PUnit) s
  | cons x xs ih =>
    have hx : Trace (f x) s (effects x) (.ok ⟨⟩) := h x (.head _) s
    have hxs := ih (fun y hy => h y (.tail _ hy)) (applyAll (effects x) s)
    rw [List.forM_cons, List.flatMap_cons]
    exact hx.bind hxs

end Trace
end HomeServer.Lib
