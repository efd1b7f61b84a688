import Mathlib.Logic.Basic
import Mathlib.Data.List.Basic

/-! Guarded executable transition systems. A run is a sequence of enabled events;
a guarded run is one whose every event meets a condition on the state it fires in. -/
namespace HomeServer.Lib

/-- `step s e = none` when event `e` is not enabled in `s`. -/
structure System (σ ε : Type) where
  init : σ → Prop
  step : σ → ε → Option σ

namespace System
variable {σ ε : Type} (S : System σ ε)

/-- The states reached by runs whose every event meets `ok` in the state before it. -/
inductive Run (ok : σ → ε → Prop) : σ → Prop
  | init {s : σ} : S.init s → Run ok s
  | step {s s' : σ} (e : ε) : Run ok s → ok s e → S.step s e = some s' → Run ok s'

def Reachable : σ → Prop := S.Run fun _ _ => True

variable {S}

/-- An invariant may use the condition that every event of the run meets. -/
theorem Run.invariant {ok : σ → ε → Prop} {P : σ → Prop}
    (hinit : ∀ s, S.init s → P s)
    (hstep : ∀ s e s', P s → ok s e → S.step s e = some s' → P s')
    {s : σ} (h : S.Run ok s) : P s := by
  induction h with
  | init h0 => exact hinit _ h0
  | step e _ hok hs ih => exact hstep _ e _ ih hok hs

theorem Run.invariant_from {ok : σ → ε → Prop} {P : σ → Prop} (hinit : ∀ s, S.init s → P s)
    (hstep : ∀ s e s', S.Run ok s → P s → ok s e → S.step s e = some s' → P s')
    {s : σ} (h : S.Run ok s) : P s := by
  induction h with
  | init h0 => exact hinit _ h0
  | step e hr hok hs ih => exact hstep _ e _ hr ih hok hs

theorem Run.mono {ok ok' : σ → ε → Prop} (h : ∀ s e, ok s e → ok' s e) {s : σ}
    (hr : S.Run ok s) : S.Run ok' s := by
  induction hr with
  | init h0 => exact .init h0
  | step e _ hok hs ih => exact .step e ih (h _ _ hok) hs

theorem Run.reachable {ok : σ → ε → Prop} {s : σ} (h : S.Run ok s) : S.Reachable s :=
  h.mono fun _ _ _ => trivial

theorem Reachable.invariant {P : σ → Prop} (hinit : ∀ s, S.init s → P s)
    (hstep : ∀ s e s', P s → S.step s e = some s' → P s') {s : σ} (h : S.Reachable s) : P s :=
  Run.invariant hinit (fun s e s' hp _ hs => hstep s e s' hp hs) h

variable (S)

/-- Replay a list of events; `none` if one of them is disabled or fails the check. -/
def replay (ok : σ → ε → Bool) : σ → List ε → Option σ
  | s, [] => some s
  | s, e :: es => if ok s e then (S.step s e).bind fun s' => replay ok s' es else none

variable {S}

theorem replay_run {ok : σ → ε → Bool} {s s' : σ} {es : List ε}
    (hs : S.Run (fun s e => ok s e = true) s) (h : S.replay ok s es = some s') :
    S.Run (fun s e => ok s e = true) s' := by
  induction es generalizing s with
  | nil =>
    cases Option.some.inj h
    exact hs
  | cons e es ih =>
    simp only [replay] at h
    split_ifs at h with hok
    obtain ⟨t, ht, hes⟩ := Option.bind_eq_some_iff.mp h
    exact ih (.step e hs hok ht) hes

/-- A replay that ends in a state passing a test reaches such a state by a guarded run. -/
theorem exists_run_of_replay (ok : σ → ε → Bool) {s : σ} (h0 : S.init s) (es : List ε)
    {p : σ → Bool} (h : (S.replay ok s es).map p = some true) :
    ∃ s', S.Run (fun s e => ok s e = true) s' ∧ p s' = true := by
  obtain ⟨s', hs', hp⟩ := Option.map_eq_some_iff.mp h
  exact ⟨s', replay_run (.init h0) hs', hp⟩

/-- An event outside the condition that leaves a lasting defect shows at the end of the run. -/
theorem replay_or_lasting (ok : σ → ε → Bool) {bad : σ → Prop}
    (hbad : ∀ s e s', ok s e = false → S.step s e = some s' → bad s')
    (hlast : ∀ s e s', bad s → S.step s e = some s' → bad s')
    {s s' : σ} {es : List ε} (h : S.replay (fun _ _ => true) s es = some s') :
    S.replay ok s es = some s' ∨ bad s' := by
  have hkeep : ∀ (es : List ε) (t : σ), bad t → S.replay (fun _ _ => true) t es = some s' →
      bad s' := by
    intro es
    induction es with
    | nil => intro t ht h; exact Option.some.inj h ▸ ht
    | cons e es ih =>
      intro t ht h
      obtain ⟨u, hu, hes⟩ := Option.bind_eq_some_iff.mp h
      exact ih u (hlast t e u ht hu) hes
  induction es generalizing s with
  | nil => exact Or.inl h
  | cons e es ih =>
    obtain ⟨u, hu, hes⟩ := Option.bind_eq_some_iff.mp h
    by_cases hok : ok s e = true
    · rcases ih hes with hr | hb
      · left
        simp only [replay, hok, if_true, hu, Option.bind_some, hr]
      · exact Or.inr hb
    · exact Or.inr (hkeep es u (hbad s e u (by simpa using hok) hu) hes)

theorem exists_reachable_of_replay {s : σ} (h0 : S.init s) (es : List ε) {p : σ → Bool}
    (h : (S.replay (fun _ _ => true) s es).map p = some true) :
    ∃ s', S.Reachable s' ∧ p s' = true := by
  obtain ⟨s', hr, hp⟩ := exists_run_of_replay _ h0 es h
  exact ⟨s', hr.reachable, hp⟩

variable (S)

def visited : σ → List ε → List σ
  | s, [] => [s]
  | s, e :: es => s :: match S.step s e with
    | some s' => visited s' es
    | none => []

variable {S}

theorem mem_visited_self (s : σ) (es : List ε) : s ∈ S.visited s es := by
  cases es <;> exact .head _

theorem visited_cons {s s' : σ} {e : ε} (es : List ε) (h : S.step s e = some s') :
    S.visited s (e :: es) = s :: S.visited s' es := by
  simp only [visited, h]

theorem replay_weaken {ok : σ → ε → Bool} {s s' : σ} {es : List ε}
    (h : S.replay ok s es = some s') : S.replay (fun _ _ => true) s es = some s' := by
  induction es generalizing s with
  | nil => exact h
  | cons e es ih =>
    simp only [replay] at h ⊢
    split_ifs at h
    obtain ⟨t, ht, hes⟩ := Option.bind_eq_some_iff.mp h
    simp only [if_true, ht, Option.bind_some]
    exact ih hes

theorem replay_append (ok : σ → ε → Bool) (s : σ) (es fs : List ε) :
    S.replay ok s (es ++ fs) = (S.replay ok s es).bind fun t => S.replay ok t fs := by
  induction es generalizing s with
  | nil => rfl
  | cons e es ih =>
    simp only [List.cons_append, replay]
    split_ifs
    · cases S.step s e with
      | none => rfl
      | some t => exact ih t
    · rfl

theorem replay_concat {ok : σ → ε → Bool} {s t t' : σ} {es : List ε} {e : ε}
    (h : S.replay ok s es = some t) (hok : ok t e = true) (hs : S.step t e = some t') :
    S.replay ok s (es ++ [e]) = some t' := by
  rw [replay_append, h, Option.bind_some]
  simp only [replay, hok, if_true, hs, Option.bind_some]

theorem replay_split {ok : σ → ε → Bool} {s s' : σ} {es fs : List ε} {e : ε}
    (h : S.replay ok s (es ++ e :: fs) = some s') :
    ∃ t t', S.replay ok s es = some t ∧ ok t e = true ∧ S.step t e = some t' ∧
      S.replay ok t' fs = some s' := by
  rw [replay_append] at h
  obtain ⟨t, ht, hrest⟩ := Option.bind_eq_some_iff.mp h
  simp only [replay] at hrest
  split_ifs at hrest with hok
  obtain ⟨t', hs, hfs⟩ := Option.bind_eq_some_iff.mp hrest
  exact ⟨t, t', ht, hok, hs, hfs⟩

/-- A fact about a run and the state it ends in, event by event. -/
theorem replay_induction {ok : σ → ε → Bool} {s : σ} {P : List ε → σ → Prop} (hnil : P [] s)
    (hstep : ∀ es t e t', P es t → ok t e = true → S.step t e = some t' → P (es ++ [e]) t')
    {es : List ε} {s' : σ} (h : S.replay ok s es = some s') : P es s' := by
  have hfrom : ∀ (fs es : List ε) (t : σ), P es t → S.replay ok t fs = some s' →
      P (es ++ fs) s' := by
    intro fs
    induction fs with
    | nil =>
      intro es t ht h
      rw [List.append_nil, ← Option.some.inj h]
      exact ht
    | cons e fs ih =>
      intro es t ht h
      simp only [replay] at h
      split_ifs at h with hok
      obtain ⟨t', hs, hfs⟩ := Option.bind_eq_some_iff.mp h
      rw [List.append_cons]
      exact ih (es ++ [e]) t' (hstep es t e t' ht hok hs) hfs
  exact hfrom es [] s hnil h

theorem replay_invariant {ok : σ → ε → Bool} {P : σ → Prop}
    (hstep : ∀ s e s', P s → S.step s e = some s' → P s') {s s' : σ} {es : List ε} (hs : P s)
    (h : S.replay ok s es = some s') : P s' := by
  induction es generalizing s with
  | nil => exact Option.some.inj h ▸ hs
  | cons e es ih =>
    simp only [replay] at h
    split_ifs at h
    obtain ⟨t, ht, hes⟩ := Option.bind_eq_some_iff.mp h
    exact ih (hstep s e t hs ht) hes

theorem visited_invariant {P : σ → Prop} (hstep : ∀ s e s', P s → S.step s e = some s' → P s')
    {s : σ} (hs : P s) (es : List ε) : ∀ u ∈ S.visited s es, P u := by
  induction es generalizing s with
  | nil => exact fun u hu => List.mem_singleton.mp hu ▸ hs
  | cons e es ih =>
    intro u hu
    rcases List.mem_cons.mp hu with rfl | hu
    · exact hs
    · cases ht : S.step s e with
      | none => simp [ht] at hu
      | some t =>
        rw [ht] at hu
        exact ih (hstep s e t hs ht) u hu

/-- A run that leaves `P`, and not by the way that is never left again, passes through `Q`. -/
theorem exists_visited {ok : σ → ε → Bool} {P Q R : σ → Prop}
    (hstep : ∀ s e s', P s → S.step s e = some s' → P s' ∨ Q s' ∨ R s')
    (hlast : ∀ s e s', R s → S.step s e = some s' → R s') {s s' : σ} {es : List ε} (hs : P s)
    (h : S.replay ok s es = some s') (hP : ¬P s') (hR : ¬R s') : ∃ u ∈ S.visited s es, Q u := by
  induction es generalizing s with
  | nil => exact absurd (Option.some.inj h ▸ hs) hP
  | cons e es ih =>
    simp only [replay] at h
    split_ifs at h
    obtain ⟨t, ht, hes⟩ := Option.bind_eq_some_iff.mp h
    rw [visited_cons es ht]
    rcases hstep s e t hs ht with hp | hq | hr
    · obtain ⟨u, hu, hq⟩ := ih hp hes
      exact ⟨u, .tail _ hu, hq⟩
    · exact ⟨t, .tail _ (mem_visited_self t es), hq⟩
    · exact absurd (replay_invariant hlast hr hes) hR

/-- A condition that keeps `P` along a run, and without which an event breaks `P` at once, is
exact. -/
theorem visited_iff_replay {ok : σ → ε → Bool} {I P : σ → Prop}
    (hP : ∀ s, I s → P s)
    (hok : ∀ s e s', I s → ok s e = true → S.step s e = some s' → I s')
    (hbad : ∀ s e s', I s → ok s e = false → S.step s e = some s' → ¬P s')
    {s s' : σ} {es : List ε} (hs : I s)
    (h : S.replay (fun _ _ => true) s es = some s') :
    (∀ u ∈ S.visited s es, P u) ↔ S.replay ok s es = some s' := by
  induction es generalizing s with
  | nil =>
    refine ⟨fun _ => h, fun _ u hu => ?_⟩
    rw [List.mem_singleton.mp hu]
    exact hP s hs
  | cons e es ih =>
    obtain ⟨t, ht, hes⟩ := Option.bind_eq_some_iff.mp h
    rw [visited_cons es ht, List.forall_mem_cons]
    by_cases he : ok s e = true
    · rw [ih (hok s e t hs he ht) hes]
      simp only [replay, he, if_true, ht, Option.bind_some]
      exact ⟨And.right, fun hr => ⟨hP s hs, hr⟩⟩
    · have he : ok s e = false := by simpa using he
      simp only [replay, he, Bool.false_eq_true, if_false, reduceCtorEq, iff_false]
      intro hall
      exact hbad s e t hs he ht (hall.2 t (mem_visited_self t es))

end System
end HomeServer.Lib
