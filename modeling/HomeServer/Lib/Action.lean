import Mathlib.Data.List.Basic

/-! Programs that change a state and may raise, and the predicates that hold after them. An
exception keeps what was changed before it. -/
namespace HomeServer.Lib

abbrev Action (σ ε α : Type) := ExceptT ε (StateM σ) α

namespace Action
variable {σ ε α β : Type}

def exec (m : Action σ ε α) (s : σ) : Except ε α × σ := (ExceptT.run m).run s

/-- `Q` holds of the outcome and the state in which `m` ends when it is started in `s`. -/
def After (m : Action σ ε α) (Q : Except ε α → σ → Prop) (s : σ) : Prop :=
  Q (m.exec s).1 (m.exec s).2

/-- A condition on the rest of a program, passed over by an exception. -/
def Then (k : α → σ → Prop) (Q : Except ε β → σ → Prop) : Except ε α → σ → Prop
  | .ok a, s => k a s
  | .error e, s => Q (.error e) s

@[simp] theorem then_ok (k : α → σ → Prop) (Q : Except ε β → σ → Prop) (a : α) (s : σ) :
    Then k Q (.ok a) s ↔ k a s := Iff.rfl

@[simp] theorem then_error (k : α → σ → Prop) (Q : Except ε β → σ → Prop) (e : ε) (s : σ) :
    Then k Q (.error e : Except ε α) s ↔ Q (.error e) s := Iff.rfl

/-- A condition on a handler, passed over by a result. -/
def Else (k : ε → σ → Prop) (Q : Except ε α → σ → Prop) : Except ε α → σ → Prop
  | .ok a, s => Q (.ok a) s
  | .error e, s => k e s

@[simp] theorem else_ok (k : ε → σ → Prop) (Q : Except ε α → σ → Prop) (a : α) (s : σ) :
    Else k Q (.ok a) s ↔ Q (.ok a) s := Iff.rfl

@[simp] theorem else_error (k : ε → σ → Prop) (Q : Except ε α → σ → Prop) (e : ε) (s : σ) :
    Else k Q (.error e) s ↔ k e s := Iff.rfl

@[simp] theorem after_pure (a : α) (Q : Except ε α → σ → Prop) (s : σ) :
    After (pure a : Action σ ε α) Q s ↔ Q (.ok a) s := Iff.rfl

@[simp] theorem after_get (Q : Except ε σ → σ → Prop) (s : σ) :
    After (get : Action σ ε σ) Q s ↔ Q (.ok s) s := Iff.rfl

@[simp] theorem after_modify (f : σ → σ) (Q : Except ε PUnit → σ → Prop) (s : σ) :
    After (modify f : Action σ ε PUnit) Q s ↔ Q (.ok ⟨⟩) (f s) := Iff.rfl

theorem exec_bind (m : Action σ ε α) (f : α → Action σ ε β) (s : σ) :
    (m >>= f).exec s = match m.exec s with
      | (.ok a, s') => (f a).exec s'
      | (.error e, s') => (.error e, s') := by
  change (ExceptT.bindCont f (m.exec s).1) (m.exec s).2 = _
  cases h : m.exec s with
  | mk r s' => cases r <;> rfl

@[simp] theorem after_bind (m : Action σ ε α) (f : α → Action σ ε β)
    (Q : Except ε β → σ → Prop) (s : σ) :
    After (m >>= f) Q s ↔ After m (Then (fun a => After (f a) Q) Q) s := by
  unfold After
  rw [exec_bind]
  cases m.exec s with
  | mk r s' => cases r <;> rfl

theorem exec_bind_ok {m : Action σ ε α} {f : α → Action σ ε β} {b : β} {s s' : σ}
    (h : (m >>= f).exec s = (.ok b, s')) :
    ∃ a s₁, m.exec s = (.ok a, s₁) ∧ (f a).exec s₁ = (.ok b, s') := by
  rw [exec_bind] at h
  cases hm : m.exec s with
  | mk r s₁ =>
    rw [hm] at h
    cases r with
    | ok a => exact ⟨a, s₁, rfl, h⟩
    | error e => cases h

theorem exec_tryCatch (m : Action σ ε α) (h : ε → Action σ ε α) (s : σ) :
    (tryCatch m h).exec s = match m.exec s with
      | (.ok a, s') => (.ok a, s')
      | (.error e, s') => (h e).exec s' := by
  change ((fun r => match r with | .ok a => pure (.ok a) | .error e => (h e).run :
    Except ε α → StateM σ (Except ε α)) (m.exec s).1) (m.exec s).2 = _
  cases hm : m.exec s with
  | mk r s' => cases r <;> rfl

@[simp] theorem after_tryCatch (m : Action σ ε α) (h : ε → Action σ ε α)
    (Q : Except ε α → σ → Prop) (s : σ) :
    After (tryCatch m h) Q s ↔ After m (Else (fun e => After (h e) Q) Q) s := by
  unfold After
  rw [exec_tryCatch]
  cases m.exec s with
  | mk r s' => cases r <;> rfl

theorem after_ite {c : Prop} [Decidable c] (m m' : Action σ ε α) (Q : Except ε α → σ → Prop)
    (s : σ) : After (if c then m else m') Q s ↔ if c then After m Q s else After m' Q s := by
  by_cases h : c <;> simp [h]

theorem After.mono {m : Action σ ε α} {Q Q' : Except ε α → σ → Prop} {s : σ}
    (h : m.After Q s) (himp : ∀ r s', Q r s' → Q' r s') : m.After Q' s :=
  himp _ _ h

theorem After.bind {m : Action σ ε α} {f : α → Action σ ε β} {P : Except ε α → σ → Prop}
    {Q : Except ε β → σ → Prop} {s : σ} (h : m.After P s)
    (hok : ∀ a s', P (.ok a) s' → (f a).After Q s')
    (herr : ∀ e s', P (.error e) s' → Q (.error e) s') : (m >>= f).After Q s := by
  rw [after_bind]
  apply h.mono
  intro r s' hP
  cases r with
  | ok a => exact hok a s' hP
  | error e => exact herr e s' hP

theorem After.bind_pure {m : Action σ ε α} {I : σ → Prop} {s : σ} (h : m.After (fun _ => I) s)
    (g : α → β) : (m >>= fun a => pure (g a)).After (fun _ => I) s :=
  h.bind (fun _ _ hI => hI) fun _ _ hI => hI

theorem After.bind_ok {m : Action σ ε α} {f : α → Action σ ε β} {a : α} {P : σ → Prop}
    {Q : Except ε β → σ → Prop} {s : σ} (h : m.After (fun r s' => r = .ok a ∧ P s') s)
    (hok : ∀ s', P s' → (f a).After Q s') : (m >>= f).After Q s := by
  apply h.bind
  · rintro b s' ⟨hr, hP⟩
    cases hr
    exact hok s' hP
  · rintro e s' ⟨hr, -⟩
    cases hr

/-- The loop rule: `I` speaks of the items still to come. -/
theorem after_forM {f : α → Action σ ε PUnit} {Q : Except ε PUnit → σ → Prop}
    (I : List α → σ → Prop) (hdone : ∀ s, I [] s → Q (.ok ⟨⟩) s)
    (hstep : ∀ x xs s, I (x :: xs) s → (f x).After (Then (fun _ => I xs) Q) s) :
    ∀ (xs : List α) (s : σ), I xs s → After (forM xs f) Q s
  | [], s, h => hdone s h
  | x :: xs, s, h => by
    rw [List.forM_cons, after_bind]
    apply (hstep x xs s h).mono
    intro r s' hr
    cases r with
    | ok a => exact after_forM I hdone hstep xs s' hr
    | error e => exact hr

/-- A loop that returns has returned from each of its rounds. -/
theorem exec_forM_ok {f : α → Action σ ε PUnit} {xs : List α} {s s' : σ}
    (h : (forM xs f).exec s = (.ok ⟨⟩, s')) :
    ∀ x ∈ xs, ∃ s₁ s₂, (f x).exec s₁ = (.ok ⟨⟩, s₂) := by
  induction xs generalizing s with
  | nil => simp
  | cons x xs ih =>
    rw [List.forM_cons] at h
    obtain ⟨u, s₁, hx, hxs⟩ := exec_bind_ok h
    intro y hy
    rcases List.mem_cons.mp hy with rfl | hy
    · exact ⟨s, s₁, hx⟩
    · exact ih hxs y hy

/-- Whether it returns or raises, `m` leaves `I` as it found it. -/
def Preserves (I : σ → Prop) (m : Action σ ε α) : Prop := ∀ s, I s → m.After (fun _ => I) s

namespace Preserves
variable {I : σ → Prop}

theorem pure (a : α) : Preserves I (Pure.pure a : Action σ ε α) := fun _ hs => hs

theorem throw (e : ε) : Preserves I (MonadExcept.throw e : Action σ ε α) := fun _ hs => hs

theorem get : Preserves I (MonadState.get : Action σ ε σ) := fun _ hs => hs

theorem modify {f : σ → σ} (h : ∀ s, I s → I (f s)) :
    Preserves I (modify f : Action σ ε PUnit) := h

theorem bind {m : Action σ ε α} {f : α → Action σ ε β} (hm : Preserves I m)
    (hf : ∀ a, Preserves I (f a)) : Preserves I (m >>= f) := by
  intro s hs
  exact (hm s hs).bind (fun a s' hs' => hf a s' hs') fun _ _ hs' => hs'

theorem ite {c : Prop} [Decidable c] {m m' : Action σ ε α} (h : c → Preserves I m)
    (h' : ¬c → Preserves I m') : Preserves I (if c then m else m') := by
  split
  · exact h ‹_›
  · exact h' ‹_›

theorem tryCatch {m : Action σ ε α} {h : ε → Action σ ε α} (hm : Preserves I m)
    (hh : ∀ e, Preserves I (h e)) : Preserves I (MonadExcept.tryCatch m h) := by
  intro s hs
  rw [after_tryCatch]
  apply (hm s hs).mono
  intro r s' hs'
  cases r with
  | ok a => exact hs'
  | error e => exact hh e s' hs'

theorem forM {xs : List α} {f : α → Action σ ε PUnit} (h : ∀ x ∈ xs, Preserves I (f x)) :
    Preserves I (ForM.forM xs f) := by
  induction xs with
  | nil => exact fun _ hs => hs
  | cons x xs ih =>
    rw [List.forM_cons]
    exact (h x (.head _)).bind fun _ => ih fun y hy => h y (.tail _ hy)

end Preserves

end Action
end HomeServer.Lib
