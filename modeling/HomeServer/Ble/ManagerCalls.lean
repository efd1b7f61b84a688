import HomeServer.Ble.Manager
import HomeServer.Lib.Pool

/-! Calls of the manager by any number of threads over workers that go on by themselves. A call
begins with its access to the dict; each wait is a step of its own. -/
namespace HomeServer.Ble
open HomeServer.Db HomeServer.Lib

/-- Where a call is; `linked` is the normal return of a `connect` that used worker `i`. -/
inductive CallPc
  | waiting (i : ℕ)
  | linked (i : ℕ)
  | shutdown (i : ℕ)
  | await (i : ℕ) (future : FutureId)
  | join (i : ℕ) (raised : Option Err)
  | finished (raised : Option Err)
  deriving DecidableEq

/-- How a wait ends. -/
inductive Wait
  | returns
  | timesOut

namespace CallPc

def advance (m : BluepyManager) : CallPc → Wait → Option (BluepyManager × CallPc)
  -- wait_until_connected
  | .waiting i, .returns => ((m.started[i]?).bind Worker.connectFuture).map fun
    | .ok () => (m, .linked i)
    | .error e => (m, .finished (some e))
  | .waiting i, .timesOut =>
    if ((m.started[i]?).bind Worker.connectFuture).isNone then
      some (m, .finished (some .timeoutError))
    else none
  -- disconnect, after the pop
  | .shutdown i, .returns =>
    some ((m.submit i .shutdown).2, .await i (m.submit i .shutdown).1)
  | .await i future, .returns => (m.result i future).map fun
    | .ok _ => (m, .join i none)
    | .error e => (m, .join i (some e))
  | .await i future, .timesOut =>
    if (m.result i future).isNone then some (m, .join i (some .timeoutError)) else none
  | .join i raised, .returns =>
    if (m.started[i]?).any Worker.isAlive then none else some (m, .finished raised)
  | .join i raised, .timesOut =>
    if (m.started[i]?).any Worker.isAlive then some (m, .finished raised) else none
  | _, _ => none

end CallPc

inductive CallEvent
  | connect (address : Address) (addrType : AddrType)
  | ensureConnecting (address : Address) (addrType : AddrType)
  | disconnect (address : Address)
  | call (k : ℕ) (wait : Wait)
  | worker (i : ℕ) (e : WorkerEvent)
  | submit (i : ℕ) (op : Op)

abbrev ManagerCalls := Pool BluepyManager CallPc

/-- Other calls may `submit` any command but a shutdown. -/
def managerCalls : System ManagerCalls CallEvent where
  init p := p = ⟨{}, []⟩
  step p
    | .connect address addrType =>
      let (i, shared) := p.shared.ensureWorker address addrType
      some ({ p with shared }.spawn (.waiting i))
    | .ensureConnecting address addrType =>
      some { p with shared := (p.shared.ensureWorker address addrType).2 }
    | .disconnect address =>
      let (worker, shared) := p.shared.pop address
      some ({ p with shared }.spawn (worker.elim (.finished none) .shutdown))
    | .call k wait => p.step CallPc.advance k wait
    | .worker i e => (p.shared.stepWorker i e).map fun shared => { p with shared }
    | .submit i op =>
      if op = .shutdown then none else some { p with shared := (p.shared.submit i op).2 }

/-- Of the steps of a call after its first one, only the shutdown touches the manager. -/
theorem CallPc.advance_manager {m m' : BluepyManager} {pc pc' : CallPc} {wait : Wait}
    (h : pc.advance m wait = some (m', pc')) : m' = m ∨ ∃ i, m' = (m.submit i .shutdown).2 := by
  cases pc with
  | shutdown i =>
    cases wait <;> cases h
    exact Or.inr ⟨i, rfl⟩
  | waiting i =>
    cases wait <;> simp only [advance] at h
    · obtain ⟨outcome, -, h⟩ := Option.map_eq_some_iff.mp h
      cases outcome <;> cases h <;> exact Or.inl rfl
    · split at h <;> cases h
      exact Or.inl rfl
  | await i future =>
    cases wait <;> simp only [advance] at h
    · obtain ⟨outcome, -, h⟩ := Option.map_eq_some_iff.mp h
      cases outcome <;> cases h <;> exact Or.inl rfl
    · split at h <;> cases h
      exact Or.inl rfl
  | join i raised =>
    cases wait <;> simp only [advance] at h
    all_goals
      split at h <;> cases h
      exact Or.inl rfl
  | linked | finished => cases wait <;> cases h

/-- A new worker is started only when no other one for the address is up or may come up. -/
def startsAlone (p : ManagerCalls) : CallEvent → Bool
  | .connect address _ | .ensureConnecting address _ =>
    (p.shared.entry address).any Worker.isAlive ||
      p.shared.started.all fun w => w.address ≠ address || !w.active
  | _ => true

def Worker.owns (w : Worker) : Bool := w.connected || decide (w.phase = .connecting)

def OneActive (m : BluepyManager) : Prop :=
  ∀ (i j : ℕ) (w v : Worker), m.started[i]? = some w → m.started[j]? = some v →
    w.address = v.address → w.active = true → v.active = true → i = j

section Steps
variable {m m' : BluepyManager} {a : Address} {addrType : AddrType}

theorem OneActive.evolves (h : OneActive m) (he : m.Evolves m') : OneActive m' := by
  intro i j w' v' hw' hv' haddr hactive hactive'
  obtain ⟨w, hw, hwaddr, hwactive, -⟩ := he.worker i w' hw'
  obtain ⟨v, hv, hvaddr, hvactive, -⟩ := he.worker j v' hv'
  have hsame : w.address = v.address := hwaddr.symm.trans (haddr.trans hvaddr)
  exact h i j w v hw hv hsame (hwactive hactive) (hvactive hactive')

theorem OneActive.start (h : OneActive m)
    (halone : ∀ w ∈ m.started, w.address = a → w.active = false) :
    OneActive (m.start a addrType) := by
  have hold : ∀ (j : ℕ) (v : Worker), m.started[j]? = some v → v.address = a →
      v.active = true → False := by
    intro j v hv haddr hactive
    rw [halone v (List.mem_of_getElem? hv) haddr] at hactive
    cases hactive
  intro i j w v hw hv haddr hactive hactive'
  change (m.started ++ [_])[i]? = some w at hw
  change (m.started ++ [_])[j]? = some v at hv
  rcases Slots.getElem?_concat_some hw with hw | ⟨rfl, rfl⟩ <;>
    rcases Slots.getElem?_concat_some hv with hv | ⟨rfl, rfl⟩
  · exact h i j w v hw hv haddr hactive hactive'
  · exact (hold i w hw haddr hactive).elim
  · exact (hold j v hv haddr.symm hactive').elim
  · rfl

theorem OneActive.ensureWorker (h : OneActive m)
    (halone : (m.entry a).any Worker.isAlive = true ∨
      ∀ w ∈ m.started, w.address = a → w.active = false) :
    OneActive (m.ensureWorker a addrType).2 := by
  rcases m.ensureWorker_cases a addrType with ⟨heq, -⟩ | ⟨heq, hdead⟩
  · rw [heq]
    exact h
  · rw [heq]
    rw [hdead] at halone
    exact h.start (halone.resolve_left Bool.false_ne_true)

theorem step_oneActive {p p' : ManagerCalls} {e : CallEvent} (h : OneActive p.shared)
    (hok : startsAlone p e = true) (hs : managerCalls.step p e = some p') :
    OneActive p'.shared := by
  have halone : ∀ a, ((p.shared.entry a).any Worker.isAlive ||
      p.shared.started.all fun w => w.address ≠ a || !w.active) = true →
      (p.shared.entry a).any Worker.isAlive = true ∨
        ∀ w ∈ p.shared.started, w.address = a → w.active = false := by
    intro a hok
    rcases Bool.or_eq_true_iff.mp hok with halive | hall
    · exact Or.inl halive
    · exact Or.inr fun w hw haddr => by simpa [haddr] using List.all_eq_true.mp hall w hw
  cases e with
  | connect a addrType | ensureConnecting a addrType =>
    cases Option.some.inj hs
    exact h.ensureWorker (halone a hok)
  | disconnect a =>
    cases Option.some.inj hs
    exact h
  | call k wait =>
    obtain ⟨pc, pc', rest, -, ha, -, -⟩ := Pool.step_focus hs
    rcases CallPc.advance_manager ha with hsame | ⟨i, hsubmit⟩
    · exact hsame ▸ h
    · exact hsubmit ▸ h.evolves (p.shared.submit_evolves i .shutdown)
  | worker i e =>
    obtain ⟨m, hm, rfl⟩ := Option.map_eq_some_iff.mp hs
    exact h.evolves (BluepyManager.stepWorker_evolves hm)
  | submit i op =>
    change (if op = .shutdown then none else some _) = some p' at hs
    split_ifs at hs
    cases hs
    exact h.evolves (p.shared.submit_evolves i op)

end Steps

/-- At most one worker for an address is inside its connect call or connected. -/
theorem one_owner {p : ManagerCalls}
    (h : managerCalls.Run (fun p e => startsAlone p e = true) p) (i j : ℕ) (w v : Worker)
    (hw : p.shared.started[i]? = some w) (hv : p.shared.started[j]? = some v)
    (haddr : w.address = v.address) (howns : w.owns = true) (howns' : v.owns = true) : i = j := by
  have hone : OneActive p.shared := by
    refine h.invariant (P := fun p => OneActive p.shared) ?_ fun _ _ _ => step_oneActive
    rintro p rfl i j w v hw
    cases hw
  have hactive : ∀ x : Worker, x.owns = true → x.active = true := by
    intro x hx
    simp only [Worker.owns, Worker.active, Bool.or_eq_true] at hx ⊢
    tauto
  exact hone i j w v hw hv haddr (hactive w howns) (hactive v howns')

def fanAddress : Address := "A4:C1:38:00:00:07"

def fanDisconnecting : List CallEvent :=
  [.connect fanAddress .publicAddr, .worker 0 .acquire, .worker 0 .connectOk,
    .worker 0 .announce, .call 0 .returns, .disconnect fanAddress, .call 1 .returns]

def fanReconnected : List CallEvent :=
  fanDisconnecting ++ [.worker 0 .head, .worker 0 (.perform ⟨.ok [], .ok []⟩),
    .worker 0 .complete, .call 1 .returns, .worker 0 .head, .worker 0 .clear, .worker 0 .hangUp,
    .call 1 .returns, .connect fanAddress .publicAddr, .worker 1 .acquire]

theorem one_owner_fan : ∃ p : ManagerCalls, p.shared.started.length = 2 ∧
    (p.shared.started[1]?).any Worker.owns = true ∧
    ∀ w, p.shared.started[0]? = some w → w.address = fanAddress → w.owns = false := by
  obtain ⟨p, hrun, hp⟩ := System.exists_run_of_replay (S := managerCalls) startsAlone
    (s := ⟨{}, []⟩) rfl fanReconnected
    (p := fun p => decide (p.shared.started.length = 2) &&
      (p.shared.started[1]?).any fun w => w.owns && decide (w.address = fanAddress))
    (by decide +kernel)
  simp only [Bool.and_eq_true, decide_eq_true_eq, Option.any_eq_true] at hp
  obtain ⟨hlen, v, hv, howns, haddr⟩ := hp
  refine ⟨p, hlen, by rw [hv, Option.any_some, howns], fun w hw hwaddr => ?_⟩
  by_contra hnot
  have hsame := one_owner hrun 0 1 w v hw hv (hwaddr.trans haddr.symm) (by simpa using hnot) howns
  omega

/-- The next `connect` comes after the pop and before the shutdown: the first worker is still
connected while the second one connects. -/
theorem two_owners : ¬∀ p, managerCalls.Reachable p → ∀ (i j : ℕ) (w v : Worker),
    p.shared.started[i]? = some w → p.shared.started[j]? = some v → w.address = v.address →
    w.owns = true → v.owns = true → i = j := by
  intro hall
  obtain ⟨p, hrun, hp⟩ := System.exists_reachable_of_replay (S := managerCalls)
    (s := ⟨{}, []⟩) rfl
    (fanDisconnecting ++ [.connect fanAddress .publicAddr, .worker 1 .acquire])
    (p := fun p => (p.shared.started[0]?).any fun w : Worker =>
      (p.shared.started[1]?).any fun v : Worker =>
        decide (w.address = v.address) && w.owns && v.owns) (by decide +kernel)
  simp only [Option.any_eq_true, Bool.and_eq_true, decide_eq_true_eq] at hp
  obtain ⟨w, hw, v, hv, ⟨haddr, howns⟩, howns'⟩ := hp
  have hsame := hall p hrun 0 1 w v hw hv haddr howns howns'
  omega

end HomeServer.Ble
