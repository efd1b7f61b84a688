import HomeServer.Ble.Worker
import HomeServer.Lib.Transition
import Mathlib.Data.List.Nodup

/-! Commands submitted to one worker by any number of threads. A `submit` call creates its
future and then puts the command, so a call in progress is a command not yet on the queue. -/
namespace HomeServer.Ble
open HomeServer.Db HomeServer.Lib

structure Submissions where
  worker : Worker
  inProgress : List Cmd := []
  submitted : List FutureId := []
  nextFuture : FutureId := 0

inductive SubmissionsEvent
  | submit (op : Op)
  | put (call : ℕ)
  | worker (e : WorkerEvent)

namespace Submissions

def step (s : Submissions) : SubmissionsEvent → Option Submissions
  | .submit op => some { s with
      inProgress := s.inProgress ++ [⟨op, s.nextFuture⟩]
      submitted := s.submitted ++ [s.nextFuture]
      nextFuture := s.nextFuture + 1 }
  | .put call => s.inProgress[call]?.map fun cmd => { s with
      worker := s.worker.put cmd
      inProgress := s.inProgress.eraseIdx call }
  | .worker e => (s.worker.step e).map fun worker => { s with worker }

def system : System Submissions SubmissionsEvent where
  init s := ∃ address addrType, s = { worker := { address, addrType } }
  step := step

def pastQueue (w : Worker) : Bool :=
  match w.phase with
  | .clearing | .closing | .ended => true
  | _ => false

/-- The worker leaves by a path that does not drain only when nothing is queued, and
nothing is put after the worker's last look at its queue. -/
def drainsOrEmpty (s : Submissions) : SubmissionsEvent → Bool
  | .worker (.connectFailed _) | .worker (.pollRaised _) => s.worker.queue.isEmpty
  | .worker .head => !s.worker.stopEvent || s.worker.queue.isEmpty
  | .put _ => !pastQueue s.worker
  | _ => true

def completed (s : Submissions) (f : FutureId) : Bool := (s.worker.done.map Prod.fst).contains f

/-- Commands that nothing will ever take from the queue. -/
def Stranded (s : Submissions) : Prop := pastQueue s.worker = true ∧ s.worker.queue ≠ []

theorem pastQueue_moves {w w' : Worker} {e : WorkerEvent} (h : w.Moves e w')
    (hp : pastQueue w = true) : pastQueue w' = true ∧ w'.queue = w.queue := by
  cases h with
  | clear | hangUp => exact ⟨rfl, rfl⟩
  | acquire hw | connectOk hw | connectFailed hw | announce hw | leave hw | poll hw | take hw
  | perform _ hw | complete _ _ hw | pollReturned hw | pollDisconnected hw | pollRaised hw
  | drained hw | drainOne hw => simp [pastQueue, hw] at hp

theorem stranded_step {s s' : Submissions} {e : SubmissionsEvent} (h : Stranded s)
    (hs : s.step e = some s') : Stranded s' := by
  obtain ⟨hp, hq⟩ := h
  cases e with
  | submit op =>
    cases Option.some.inj hs
    exact ⟨hp, hq⟩
  | put call =>
    obtain ⟨cmd, -, rfl⟩ := Option.map_eq_some_iff.mp hs
    exact ⟨hp, by simp [Worker.put]⟩
  | worker e =>
    obtain ⟨w, hw, rfl⟩ := Option.map_eq_some_iff.mp hs
    obtain ⟨hp', hq'⟩ := pastQueue_moves (Worker.step_moves hw) hp
    exact ⟨hp', hq' ▸ hq⟩

theorem stranded_of_violation {s s' : Submissions} {e : SubmissionsEvent}
    (hok : s.drainsOrEmpty e = false) (hs : s.step e = some s') : Stranded s' := by
  cases e with
  | submit op => cases hok
  | put call =>
    obtain ⟨cmd, -, rfl⟩ := Option.map_eq_some_iff.mp hs
    have hp : pastQueue s.worker = true := by simpa [drainsOrEmpty] using hok
    exact ⟨hp, by simp [Worker.put]⟩
  | worker e =>
    obtain ⟨w, hw, rfl⟩ := Option.map_eq_some_iff.mp hs
    cases Worker.step_moves hw with
    | connectFailed hp e => exact ⟨rfl, by simpa [drainsOrEmpty] using hok⟩
    | pollRaised hp e => exact ⟨rfl, by simpa [drainsOrEmpty] using hok⟩
    | leave hp hstop => exact ⟨rfl, by simpa [drainsOrEmpty, hstop] using hok⟩
    | poll hp hstop | take hp hstop => simp [drainsOrEmpty, hstop] at hok
    | acquire | connectOk | announce | perform | complete | pollReturned | pollDisconnected
    | drained | drainOne | clear | hangUp => cases hok

/-- Bookkeeping of futures: each is with the worker or with a call in progress, once. -/
structure Accounted (s : Submissions) : Prop where
  submitted : ∀ f, f ∈ s.submitted ↔ f ∈ s.worker.futures ++ s.inProgress.map Cmd.future
  nodup : (s.worker.futures ++ s.inProgress.map Cmd.future).Nodup
  fresh : ∀ f ∈ s.worker.futures ++ s.inProgress.map Cmd.future, f < s.nextFuture

theorem accounted_init {s : Submissions} (h : system.init s) : Accounted s := by
  obtain ⟨address, addrType, rfl⟩ := h
  have hnone : Worker.futures { address, addrType } = [] := rfl
  exact ⟨by simp [hnone], by simp [hnone], by simp [hnone]⟩

theorem accounted_step {s s' : Submissions} {e : SubmissionsEvent} (h : Accounted s)
    (hs : s.step e = some s') : Accounted s' := by
  obtain ⟨hsub, hnodup, hfresh⟩ := h
  cases e with
  | submit op =>
    cases Option.some.inj hs
    have hnew : s.nextFuture ∉ s.worker.futures ++ s.inProgress.map Cmd.future := fun hm =>
      lt_irrefl _ (hfresh _ hm)
    have happ : s.worker.futures ++ (s.inProgress ++ [Cmd.mk op s.nextFuture]).map Cmd.future =
        (s.worker.futures ++ s.inProgress.map Cmd.future) ++ [s.nextFuture] := by simp
    refine ⟨?_, ?_, ?_⟩ <;> dsimp only <;> rw [happ]
    · intro f
      rw [List.mem_append, hsub f, ← List.mem_append]
    · exact List.nodup_append.mpr ⟨hnodup, List.nodup_singleton _, fun f hf g hg hfg =>
        hnew (List.mem_singleton.mp hg ▸ hfg ▸ hf)⟩
    · intro f hf
      rcases List.mem_append.mp hf with hf | hf
      · exact Nat.lt_succ_of_lt (hfresh f hf)
      · exact List.mem_singleton.mp hf ▸ Nat.lt_succ_self _
  | put call =>
    obtain ⟨cmd, hcmd, rfl⟩ := Option.map_eq_some_iff.mp hs
    have hperm : ((s.worker.put cmd).futures ++ (s.inProgress.eraseIdx call).map Cmd.future).Perm
        (s.worker.futures ++ s.inProgress.map Cmd.future) := by
      rw [Worker.futures_put, List.append_assoc]
      apply List.Perm.append_left _
      obtain ⟨hlt, rfl⟩ := List.getElem?_eq_some_iff.mp hcmd
      exact (List.getElem_cons_eraseIdx_perm hlt).map Cmd.future
    exact ⟨fun f => (hsub f).trans hperm.mem_iff.symm, hperm.nodup_iff.mpr hnodup,
      fun f hf => hfresh f (hperm.mem_iff.mp hf)⟩
  | worker e =>
    obtain ⟨w, hw, rfl⟩ := Option.map_eq_some_iff.mp hs
    have hf := Worker.step_futures hw
    exact ⟨by simpa only [hf] using hsub, by simpa only [hf] using hnodup,
      by simpa only [hf] using hfresh⟩

/-- Under the condition, a worker past its last look at the queue leaves nothing there. -/
theorem queue_empty_step {s s' : Submissions} {e : SubmissionsEvent}
    (h : pastQueue s.worker = true → s.worker.queue = []) (hok : s.drainsOrEmpty e = true)
    (hs : s.step e = some s') : pastQueue s'.worker = true → s'.worker.queue = [] := by
  cases e with
  | submit op =>
    cases Option.some.inj hs
    exact h
  | put call =>
    obtain ⟨cmd, -, rfl⟩ := Option.map_eq_some_iff.mp hs
    intro hp
    have hnot : pastQueue s.worker = false := by simpa [drainsOrEmpty] using hok
    exact absurd (hnot.symm.trans hp) (by decide)
  | worker e =>
    obtain ⟨w, hw, rfl⟩ := Option.map_eq_some_iff.mp hs
    intro hp
    cases Worker.step_moves hw with
    | connectFailed hp e => simpa [drainsOrEmpty] using hok
    | pollRaised hp e => simpa [drainsOrEmpty] using hok
    | leave hp hstop => simpa [drainsOrEmpty, hstop] using hok
    | drained hp hq => exact hq
    | clear hph | hangUp hph => exact h (by simp [pastQueue, hph])
    | acquire | connectOk | announce | poll | take | perform | complete | pollReturned
    | pollDisconnected => cases hp
    | drainOne hph => simp [pastQueue, hph] at hp

theorem completed_iff_queue_empty {s : Submissions} (h : Accounted s)
    (hend : s.worker.phase = .ended) (hidle : s.inProgress = []) :
    (∀ f ∈ s.submitted, s.completed f = true) ↔ s.worker.queue = [] := by
  have hfut : s.worker.futures = s.worker.done.map Prod.fst ++ s.worker.queue.map Cmd.future := by
    simp [Worker.futures, Worker.inHand, hend]
  constructor
  · intro hall
    by_contra hq
    obtain ⟨cmd, rest, hcons⟩ := List.exists_cons_of_ne_nil hq
    have hmem : cmd.future ∈ s.submitted := by
      rw [h.submitted, hfut, hcons]
      simp
    have hdone : cmd.future ∈ s.worker.done.map Prod.fst := by
      simpa [completed] using hall _ hmem
    have hdisj := (List.nodup_append.mp (hfut ▸ (List.nodup_append.mp h.nodup).1)).2.2
    exact hdisj _ hdone cmd.future (by rw [hcons]; simp) rfl
  · intro hq f hf
    have : f ∈ s.worker.done.map Prod.fst := by
      simpa [hfut, hq, hidle] using (h.submitted f).mp hf
    simpa [completed] using this

/-- When the thread has ended and no `submit` is in progress, every command has a completed
future exactly when the whole run kept to `drainsOrEmpty`. -/
theorem no_lost_command_iff {s₀ s : Submissions} (es : List SubmissionsEvent)
    (h0 : system.init s₀) (hrun : system.replay (fun _ _ => true) s₀ es = some s)
    (hend : s.worker.phase = .ended) (hidle : s.inProgress = []) :
    (∀ f ∈ s.submitted, s.completed f = true) ↔
      system.replay (fun s e => s.drainsOrEmpty e) s₀ es = some s := by
  have hacc : Accounted s := (System.replay_run (.init h0) hrun).invariant
    (fun _ => accounted_init) fun _ _ _ ha _ hs => accounted_step ha hs
  rw [completed_iff_queue_empty hacc hend hidle]
  have hpast : pastQueue s.worker = true := by simp [pastQueue, hend]
  constructor
  · intro hq
    rcases System.replay_or_lasting (fun s e => s.drainsOrEmpty e)
      (fun _ _ _ => stranded_of_violation) (fun _ _ _ => stranded_step) hrun with hr | hb
    · exact hr
    · exact absurd hq hb.2
  · intro hr
    refine (System.replay_run (.init h0) hr).invariant
      (P := fun s => pastQueue s.worker = true → s.worker.queue = []) ?_
      (fun _ _ _ hp hok hs => queue_empty_step hp hok hs) hpast
    rintro s ⟨address, addrType, rfl⟩ hp
    rfl

def started : Submissions := { worker := { address := "AA:BB:CC:DD:EE:FF", addrType := .publicAddr } }

def answeredRun : List SubmissionsEvent :=
  [.worker .acquire, .submit (.read "uuid-temp"), .put 0, .worker .connectOk, .worker .announce,
    .worker .head, .worker (.perform ⟨.ok [3], .ok [42]⟩), .worker .complete,
    .submit .shutdown, .put 0, .worker .head, .worker (.perform ⟨.ok [], .ok []⟩),
    .worker .complete, .worker .head, .worker .clear, .worker .hangUp]

theorem answeredRun_completed :
    ∃ s, system.replay (fun s e => s.drainsOrEmpty e) started answeredRun = some s ∧
      s.submitted = [0, 1] ∧ ∀ f ∈ s.submitted, s.completed f = true := by
  have hinit : system.init started := ⟨_, _, rfl⟩
  exact ⟨_, rfl, rfl, (no_lost_command_iff answeredRun hinit rfl rfl rfl).mpr rfl⟩

def writeBehindShutdown : List SubmissionsEvent :=
  [.worker .acquire, .worker .connectOk, .worker .announce, .submit .shutdown, .put 0,
    .submit (.write "uuid-led" [1]), .put 0, .worker .head,
    .worker (.perform ⟨.ok [], .ok []⟩), .worker .complete, .worker .head, .worker .clear,
    .worker .hangUp]

theorem command_lost : ¬ ∀ s, system.Reachable s → s.worker.phase = .ended → s.inProgress = [] →
    ∀ f ∈ s.submitted, s.completed f = true := by
  intro hall
  obtain ⟨s, hr, hp⟩ := System.exists_reachable_of_replay (S := system) (s := started)
    ⟨_, _, rfl⟩ writeBehindShutdown
    (p := fun s => decide (s.worker.phase = .ended) && s.inProgress.isEmpty &&
      s.submitted.any fun f => !s.completed f) (by decide)
  simp only [Bool.and_eq_true, decide_eq_true_eq, List.isEmpty_iff, List.any_eq_true,
    Bool.not_eq_true'] at hp
  obtain ⟨⟨hend, hidle⟩, f, hf, hlost⟩ := hp
  exact absurd ((hall s hr hend hidle f hf).symm.trans hlost) (by decide)

end Submissions
end HomeServer.Ble
