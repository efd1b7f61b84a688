import HomeServer.Core.Periodic
import HomeServer.Lib.Slots
import HomeServer.Lib.Transition

/-! A `PeriodicWorker` under `start` and `stop` calls of one thread, with ticks of any duration:
its loops never tick at the same time, nor after `stop`, as long as no `join` gives up on a loop
that is in its tick. -/
namespace HomeServer.Core
open HomeServer.Lib

/-- Where the `_run` of a thread is: in `stop.wait`, in the tick, or returned. -/
inductive LoopPc
  | waiting
  | ticking
  | ended
  deriving DecidableEq

/-- Where the thread that calls `start` and `stop` is: between two calls, or in the `join`. -/
inductive ControlPc
  | idle
  | joining (t : ℕ)
  deriving DecidableEq

/-- The worker is object 0; `loops` has the threads that it has started. -/
structure PeriodicRun where
  workers : Workers
  loops : List LoopPc := []
  control : ControlPc := .idle

/-- Of a loop: the wait is over without or with the stop event, the tick is over. -/
inductive PeriodicEvent
  | start
  | stop
  | joined
  | joinTimedOut
  | elapsed (t : ℕ)
  | stopped (t : ℕ)
  | tickEnded (t : ℕ)

namespace PeriodicRun

/-- The thread of the last `start`, until a `stop` has given it up. -/
def thread (s : PeriodicRun) : Option ℕ := (s.workers.get 0).thread

/-- The last two lines of `stop`. -/
def forget (s : PeriodicRun) : PeriodicRun :=
  { s with
    workers := s.workers.set 0 { s.workers.get 0 with thread := none, stop := none }
    control := .idle }

def setLoop (s : PeriodicRun) (t : ℕ) (pc : LoopPc) : PeriodicRun :=
  { s with loops := s.loops.set t pc }

def step (s : PeriodicRun) : PeriodicEvent → Option PeriodicRun
  | .start =>
    if s.control = .idle then
      if s.thread.isSome then some s
      else some { s with workers := s.workers.spawn 0, loops := s.loops ++ [.waiting] }
    else none
  | .stop =>
    if s.control = .idle then
      match s.thread with
      | none => some s.forget
      | some t => some { s with workers := s.workers.setEvent t, control := .joining t }
    else none
  | .joined =>
    match s.control with
    | .joining t => if s.loops[t]? = some .ended then some s.forget else none
    | .idle => none
  | .joinTimedOut =>
    match s.control with
    | .joining t => if s.loops[t]? = some .ended then none else some s.forget
    | .idle => none
  | .elapsed t =>
    if s.loops[t]? = some .waiting ∧ s.workers.stopped[t]? = some false then
      some (s.setLoop t .ticking)
    else none
  | .stopped t =>
    if s.loops[t]? = some .waiting ∧ s.workers.stopped[t]? = some true then
      some (s.setLoop t .ended)
    else none
  | .tickEnded t =>
    if s.loops[t]? = some .ticking then some (s.setLoop t .waiting) else none

def Ticks (s : PeriodicRun) (t : ℕ) : Prop := s.loops[t]? = some LoopPc.ticking

instance (s : PeriodicRun) (t : ℕ) : Decidable (s.Ticks t) :=
  inferInstanceAs (Decidable (_ = _))

/-- At most one loop is in its tick, and none is after `stop` has returned. -/
structure Alone (s : PeriodicRun) : Prop where
  one : ∀ t u, s.Ticks t → s.Ticks u → t = u
  stopped : s.control = .idle → s.thread = none → ∀ t, ¬s.Ticks t

end PeriodicRun

/-- One worker, not started yet. -/
def periodic : System PeriodicRun PeriodicEvent where
  init s := ∃ intervalS, s = { workers := ({} : Workers).create intervalS }
  step := PeriodicRun.step

/-- A `join` gives up only on a loop that is not in its tick. -/
def joinsIdle (s : PeriodicRun) : PeriodicEvent → Bool
  | .joinTimedOut =>
    match s.control with
    | .joining t => s.loops[t]? ≠ some LoopPc.ticking
    | .idle => true
  | _ => true

namespace PeriodicRun

/-- A loop that ticks, or may tick again, is the thread of the worker. -/
structure Kept (s : PeriodicRun) : Prop where
  object : 0 < s.workers.objects.length
  loops : s.loops.length = s.workers.stopped.length
  thread : ∀ t, s.thread = some t → t < s.workers.stopped.length
  running : ∀ t, s.workers.stopped[t]? = some false → s.thread = some t
  ticking : ∀ t, s.Ticks t → s.thread = some t
  joining : ∀ t, s.control = .joining t → s.thread = some t ∧ s.workers.stopped[t]? = some true

variable {s s' : PeriodicRun} {t : ℕ}

theorem Kept.alone (h : s.Kept) : s.Alone := by
  constructor
  · intro t u ht hu
    exact Option.some.inj ((h.ticking t ht).symm.trans (h.ticking u hu))
  · intro _ hnone t ht
    rw [h.ticking t ht] at hnone
    cases hnone

theorem thread_forget (h : s.Kept) : s.forget.thread = none := by
  simp [thread, forget, Workers.get, Workers.set, h.object]

/-- `stop` forgets its thread when no loop may tick any more. -/
theorem Kept.forget (h : s.Kept) (hrunning : ∀ t : ℕ, s.workers.stopped[t]? ≠ some false)
    (hticking : ∀ t, ¬s.Ticks t) : s.forget.Kept := by
  have hnone := thread_forget h
  constructor
  · simpa [PeriodicRun.forget, Workers.set] using h.object
  · exact h.loops
  · intro t ht
    rw [hnone] at ht
    cases ht
  · exact fun t ht => absurd ht (hrunning t)
  · exact fun t ht => absurd ht (hticking t)
  · exact fun t ht => nomatch ht

theorem Kept.start (h : s.Kept) (hidle : s.control = .idle) (hnone : s.thread = none) :
    Kept { s with workers := s.workers.spawn 0, loops := s.loops ++ [.waiting] } := by
  have hthread : ((s.workers.spawn 0).get 0).thread = some s.workers.stopped.length := by
    simp [Workers.spawn, Workers.get, h.object]
  constructor
  · simpa [Workers.spawn] using h.object
  · simp [Workers.spawn, h.loops]
  · intro t ht
    obtain rfl := Option.some.inj (hthread.symm.trans ht)
    simp [Workers.spawn]
  · intro t ht
    rcases Slots.getElem?_concat_some ht with hold | ⟨rfl, -⟩
    · rw [h.running t hold] at hnone
      cases hnone
    · exact hthread
  · intro t ht
    rcases Slots.getElem?_concat_some ht with hold | ⟨-, hnew⟩
    · rw [h.ticking t hold] at hnone
      cases hnone
    · cases hnew
  · intro t ht
    rw [hidle] at ht
    cases ht

/-- `stop` sets the event of its thread. -/
theorem Kept.setEvent (h : s.Kept) (ht : s.thread = some t) :
    Kept { s with workers := s.workers.setEvent t, control := .joining t } := by
  have hlt := h.thread t ht
  constructor
  · exact h.object
  · simpa [Workers.setEvent] using h.loops
  · intro u hu
    simpa [Workers.setEvent] using h.thread u hu
  · intro u hu
    by_cases hut : t = u
    · subst hut
      simp [Workers.setEvent, hlt] at hu
    · simp only [Workers.setEvent, List.getElem?_set_ne hut] at hu
      exact h.running u hu
  · exact h.ticking
  · intro u hu
    cases hu
    exact ⟨ht, by simp [Workers.setEvent, hlt]⟩

theorem Kept.setLoop (h : s.Kept) {pc : LoopPc} (hpc : pc = .ticking → s.thread = some t) :
    (s.setLoop t pc).Kept := by
  refine ⟨h.object, by simpa [PeriodicRun.setLoop] using h.loops, h.thread, h.running,
    fun u hu => ?_, h.joining⟩
  have hu : (s.loops.set t pc)[u]? = some LoopPc.ticking := hu
  by_cases hut : t = u
  · subst hut
    obtain ⟨hlt, hget⟩ := List.getElem?_eq_some_iff.mp hu
    rw [List.getElem_set_self] at hget
    exact hpc hget
  · rw [List.getElem?_set_ne hut] at hu
    exact h.ticking u hu

theorem Kept.join (h : s.Kept) (hjoin : s.control = .joining t) (hticks : ¬s.Ticks t) :
    s.forget.Kept := by
  obtain ⟨hthread, hstopped⟩ := h.joining t hjoin
  refine h.forget (fun u hu => ?_) fun u hu => ?_
  · obtain rfl := Option.some.inj (hthread.symm.trans (h.running u hu))
    rw [hstopped] at hu
    cases hu
  · obtain rfl := Option.some.inj (hthread.symm.trans (h.ticking u hu))
    exact hticks hu

theorem step_kept {e : PeriodicEvent} (h : s.Kept) (hok : joinsIdle s e = true)
    (hs : s.step e = some s') : s'.Kept := by
  cases e with
  | start =>
    simp only [step] at hs
    split_ifs at hs with hidle hthread <;> cases hs
    · exact h
    · exact h.start hidle (by simpa using hthread)
  | stop =>
    simp only [step] at hs
    split_ifs at hs with hidle
    split at hs <;> cases hs
    · rename_i hnone
      refine h.forget (fun t ht => ?_) fun t ht => ?_
      · rw [h.running t ht] at hnone
        cases hnone
      · rw [h.ticking t ht] at hnone
        cases hnone
    · rename_i t ht
      exact h.setEvent ht
  | joined =>
    simp only [step] at hs
    split at hs
    · rename_i t hjoin
      split_ifs at hs with hended
      cases hs
      refine h.join hjoin fun hticks => ?_
      rw [Ticks, hended] at hticks
      cases hticks
    · cases hs
  | joinTimedOut =>
    simp only [step] at hs
    split at hs
    · rename_i t hjoin
      split_ifs at hs
      cases hs
      refine h.join hjoin fun hticks => ?_
      simp only [joinsIdle, hjoin, decide_eq_true_eq] at hok
      exact hok hticks
    · cases hs
  | elapsed t =>
    simp only [step] at hs
    split_ifs at hs with hwaiting
    cases hs
    exact h.setLoop fun _ => h.running t hwaiting.2
  | stopped t =>
    simp only [step] at hs
    split_ifs at hs
    cases hs
    exact h.setLoop fun hpc => nomatch hpc
  | tickEnded t =>
    simp only [step] at hs
    split_ifs at hs
    cases hs
    exact h.setLoop fun hpc => nomatch hpc

/-- A `join` that gives up on a tick leaves it behind. -/
theorem not_alone {e : PeriodicEvent} (h : s.Kept) (hok : joinsIdle s e = false)
    (hs : s.step e = some s') : ¬s'.Alone := by
  cases e with
  | joinTimedOut =>
    cases hjoin : s.control with
    | idle => simp [joinsIdle, hjoin] at hok
    | joining t =>
      have hticks : s.Ticks t := by simpa [joinsIdle, hjoin, Ticks] using hok
      simp only [step, hjoin] at hs
      split_ifs at hs
      cases hs
      exact fun halone => halone.stopped rfl (thread_forget h) t hticks
  | start | stop | joined | elapsed | stopped | tickEnded => cases hok

end PeriodicRun

theorem periodic_kept {s : PeriodicRun} (h : periodic.init s) : s.Kept := by
  obtain ⟨intervalS, rfl⟩ := h
  refine ⟨by simp [Workers.create], rfl, fun t ht => ?_, fun t ht => ?_, fun t ht => ?_,
    fun t ht => ?_⟩
  · cases ht
  · cases ht
  · cases ht
  · cases ht

/-- In every state of a run at most one tick is executing, and none once `stop` has returned,
exactly when each `join` of the run gave up on a loop that was not in its tick, if it did. -/
theorem never_overlaps {s s' : PeriodicRun} {es : List PeriodicEvent} (h0 : periodic.init s)
    (h : periodic.replay (fun _ _ => true) s es = some s') :
    (∀ u ∈ periodic.visited s es, u.Alone) ↔ periodic.replay joinsIdle s es = some s' :=
  System.visited_iff_replay (I := PeriodicRun.Kept) (fun _ => PeriodicRun.Kept.alone)
    (fun _ _ _ => PeriodicRun.step_kept) (fun _ _ _ => PeriodicRun.not_alone)
    (periodic_kept h0) h

/-- Started, stopped after two ticks and started again. -/
def restarted : List PeriodicEvent :=
  [.start, .elapsed 0, .tickEnded 0, .elapsed 0, .stop, .tickEnded 0, .stopped 0, .joined, .start,
    .elapsed 1]

theorem never_overlaps_restarted :
    (periodic.replay joinsIdle { workers := ({} : Workers).create 1 } restarted).isSome = true ∧
    ∀ u ∈ periodic.visited { workers := ({} : Workers).create 1 } restarted, u.Alone := by
  have hsome : (periodic.replay joinsIdle { workers := ({} : Workers).create 1 }
      restarted).isSome = true := by decide +kernel
  refine ⟨hsome, ?_⟩
  obtain ⟨s', h⟩ := Option.isSome_iff_exists.mp hsome
  exact (never_overlaps ⟨1, rfl⟩ (System.replay_weaken h)).mpr h

def gaveUp : List PeriodicEvent := [.start, .elapsed 0, .stop, .joinTimedOut]

theorem ticks_overlap :
    (¬∀ s, periodic.Reachable s → ∀ t u, s.Ticks t → s.Ticks u → t = u) ∧
    ¬∀ s, periodic.Reachable s → s.control = .idle → s.thread = none → ∀ t, ¬s.Ticks t := by
  have h0 : periodic.init { workers := ({} : Workers).create 1 } := ⟨1, rfl⟩
  constructor
  · intro hall
    obtain ⟨s, hs, hticks⟩ := System.exists_reachable_of_replay h0
      (gaveUp ++ [.start, .elapsed 1])
      (p := fun s => decide (s.Ticks 0) && decide (s.Ticks 1)) (by decide +kernel)
    simp only [Bool.and_eq_true, decide_eq_true_eq] at hticks
    have heq := hall s hs 0 1 hticks.1 hticks.2
    omega
  · intro hall
    obtain ⟨s, hs, hticks⟩ := System.exists_reachable_of_replay h0 gaveUp
      (p := fun s => decide (s.control = .idle) && decide (s.thread = none) &&
        decide (s.Ticks 0)) (by decide +kernel)
    simp only [Bool.and_eq_true, decide_eq_true_eq] at hticks
    exact hall s hs hticks.1.1 hticks.1.2 0 hticks.2

end HomeServer.Core
