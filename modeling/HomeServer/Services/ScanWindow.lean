import HomeServer.Core.Periodic
import HomeServer.Core.Errors
import HomeServer.Lib.Pool

/-! `scan_window` and the reconnect monitor it stops and restarts. Several uses share
`_monitor_worker` and the worker objects without a lock, so every read and write of an
attribute is a step of its own. -/
namespace HomeServer.Services
open HomeServer.Core HomeServer.Lib

/-- The attributes of `BleRuntime` that the uses share. -/
structure MonitorAttrs where
  monitorWorker : Option ℕ := none
  monitorIntervalS : ℚ := 1
  workers : Workers := {}

/-- Where one use of `scan_window` is. `wasRunning` is its local `was_running`, `o` the worker
object that `monitor_stop` or `monitor_start` read, `raised` whether the body raised. -/
inductive ScanPc
  | readWasRunning
  | stopCheck (wasRunning : Bool)
  | stopRead (wasRunning : Bool)
  | stopEventCheck (wasRunning : Bool) (o : ℕ)
  | stopEventSet (wasRunning : Bool) (o : ℕ)
  | threadCheck (wasRunning : Bool) (o : ℕ)
  | threadJoin (wasRunning : Bool) (o : ℕ)
  | clearThread (wasRunning : Bool) (o : ℕ)
  | clearStop (wasRunning : Bool) (o : ℕ)
  | clearMonitor (wasRunning : Bool)
  | openConn (wasRunning : Bool)
  | listDevices (wasRunning : Bool)
  | checkLink (wasRunning : Bool) (addresses : List Address)
  | disconnect (wasRunning : Bool) (rest : List Address)
  | body (wasRunning : Bool)
  | startCheck (raised : Bool)
  | startCreate (raised : Bool)
  | startRead (raised : Bool)
  | spawnCheck (raised : Bool) (o : ℕ)
  | spawn (raised : Bool) (o : ℕ)
  | exited (raised : Bool)
  deriving DecidableEq

/-- How the call made by a step ends; only the calls outside this class have a choice. -/
inductive Answer
  | returns
  | raises
  | devices (addresses : List Address)
  | linked (up : Bool)

/-- One step of `scan_window`. An attribute read as `None` where the code calls a method on it
raises `AttributeError`; before the `try` block that leaves the window at once. -/
def ScanPc.advance (m : MonitorAttrs) : ScanPc → Answer → Option (MonitorAttrs × ScanPc)
  | .readWasRunning, .returns => some (m, .stopCheck m.monitorWorker.isSome)
  -- monitor_stop
  | .stopCheck was, .returns =>
    some (m, if m.monitorWorker.isSome then .stopRead was else .openConn was)
  | .stopRead was, .returns =>
    match m.monitorWorker with
    | none => some (m, .exited true)
    | some o => some (m, .stopEventCheck was o)
  | .stopEventCheck was o, .returns =>
    some (m, if (m.workers.get o).stop.isSome then .stopEventSet was o else .threadCheck was o)
  | .stopEventSet was o, .returns =>
    match (m.workers.get o).stop with
    | none => some (m, .exited true)
    | some t => some ({ m with workers := m.workers.setEvent t }, .threadCheck was o)
  | .threadCheck was o, .returns =>
    some (m, if (m.workers.get o).thread.isSome then .threadJoin was o else .clearThread was o)
  | .threadJoin was o, .returns =>
    match (m.workers.get o).thread with
    | none => some (m, .exited true)
    | some _ => some (m, .clearThread was o)
  | .clearThread was o, .returns =>
    some ({ m with workers := m.workers.set o { m.workers.get o with thread := none } },
      .clearStop was o)
  | .clearStop was o, .returns =>
    some ({ m with workers := m.workers.set o { m.workers.get o with stop := none } },
      .clearMonitor was)
  | .clearMonitor was, .returns => some ({ m with monitorWorker := none }, .openConn was)
  -- _disconnect_all
  | .openConn was, .returns => some (m, .listDevices was)
  | .openConn _, .raises => some (m, .exited true)
  | .listDevices was, .devices addresses => some (m, .checkLink was addresses)
  | .listDevices _, .raises => some (m, .exited true)
  | .checkLink was [], .returns => some (m, .body was)
  | .checkLink was (_ :: rest), .linked up =>
    some (m, if up then .disconnect was rest else .checkLink was rest)
  | .disconnect was rest, .returns => some (m, .checkLink was rest)
  | .disconnect _ _, .raises => some (m, .exited true)
  -- the body of the with statement, then the finally block
  | .body was, .returns => some (m, if was then .startCheck false else .exited false)
  | .body was, .raises => some (m, if was then .startCheck true else .exited true)
  -- monitor_start
  | .startCheck raised, .returns =>
    some (m, if m.monitorWorker.isSome then .exited raised else .startCreate raised)
  | .startCreate raised, .returns =>
    some ({ m with
      monitorWorker := some m.workers.objects.length
      workers := m.workers.create m.monitorIntervalS }, .startRead raised)
  | .startRead raised, .returns =>
    match m.monitorWorker with
    | none => some (m, .exited true)
    | some o => some (m, .spawnCheck raised o)
  | .spawnCheck raised o, .returns =>
    some (m, if (m.workers.get o).thread.isSome then .exited raised else .spawn raised o)
  | .spawn raised o, .returns =>
    some ({ m with workers := m.workers.spawn o }, .exited raised)
  | _, _ => none

inductive ScanEvent
  | enter
  | use (i : ℕ) (answer : Answer)

abbrev Scans := Pool MonitorAttrs ScanPc

/-- The monitor runs: the attribute names a worker whose thread is the only one running. -/
def MonitorAttrs.On (m : MonitorAttrs) : Prop :=
  ∃ o t, m.monitorWorker = some o ∧ o < m.workers.objects.length ∧
    (m.workers.get o).thread = some t ∧ (m.workers.get o).stop = some t ∧
    m.workers.stopped[t]? = some false ∧ m.workers.running = 1

def MonitorAttrs.Off (m : MonitorAttrs) : Prop := m.monitorWorker = none ∧ m.workers.running = 0

def scans (running : Bool) : System Scans ScanEvent where
  init p := p.threads = [] ∧ if running then p.shared.On else p.shared.Off
  step p
    | .enter => some (p.spawn .readWasRunning)
    | .use i answer => p.step ScanPc.advance i answer

namespace ScanPc

def stopping : ScanPc → Bool
  | .stopCheck _ | .stopRead _ | .stopEventCheck _ _ | .stopEventSet _ _ | .threadCheck _ _
  | .threadJoin _ _ | .clearThread _ _ | .clearStop _ _ | .clearMonitor _ => true
  | _ => false

def starting : ScanPc → Bool
  | .startCreate _ | .startRead _ | .spawnCheck _ _ | .spawn _ _ => true
  | _ => false

end ScanPc

/-- No call of `_disconnect_all` raises in a use that found the monitor running, and no use
restarts the monitor while another is stopping or restarting it. -/
def restarts (p : Scans) : ScanEvent → Bool
  | .enter => true
  | .use i answer =>
    match p.threads[i]?, answer with
    | some (.openConn true), .raises | some (.listDevices true), .raises
    | some (.disconnect true _), .raises => false
    | some .readWasRunning, _ => !p.threads.any ScanPc.starting
    | some (.startCheck _), _ => !p.threads.any fun pc => pc.stopping || pc.starting
    | _, _ => true

namespace ScanPc

def clearing : ScanPc → Bool
  | .threadCheck _ _ | .threadJoin _ _ | .clearThread _ _ | .clearStop _ _ | .clearMonitor _ => true
  | _ => false

def pastJoin : ScanPc → Bool
  | .clearStop _ _ | .clearMonitor _ => true
  | _ => false

def owes : ScanPc → Bool
  | .openConn was | .listDevices was | .checkLink was _ | .disconnect was _ | .body was => was
  | .startCheck _ => true
  | _ => false

/-- Only a use that found the monitor running goes through `monitor_stop`, and the object
it works on is the current one as long as there is one. -/
def StopOk (m : MonitorAttrs) : ScanPc → Prop
  | .stopCheck was => was = true ∨ m.monitorWorker = none
  | .stopRead was | .clearMonitor was => was = true
  | .stopEventCheck was o | .stopEventSet was o | .threadCheck was o | .threadJoin was o
  | .clearThread was o | .clearStop was o =>
    was = true ∧ (m.monitorWorker = none ∨ m.monitorWorker = some o)
  | _ => True

/-- The object named by the attribute is new and not started. -/
def StartOk (m : MonitorAttrs) : ScanPc → Prop
  | .startCreate _ => m.monitorWorker = none
  | .startRead _ => ∃ o, m.monitorWorker = some o ∧ o < m.workers.objects.length ∧
      (m.workers.get o).thread = none
  | .spawnCheck _ o | .spawn _ o => m.monitorWorker = some o ∧ o < m.workers.objects.length ∧
      (m.workers.get o).thread = none
  | _ => True

section Points
variable {pc : ScanPc}

theorem clearing_of_pastJoin (h : pc.pastJoin = true) : pc.clearing = true := by
  cases pc <;> first | rfl | cases h

theorem stopping_of_clearing (h : pc.clearing = true) : pc.stopping = true := by
  cases pc <;> first | rfl | cases h

theorem clearing_of_not_stopping (h : pc.stopping = false) : pc.clearing = false := by
  rw [Bool.eq_false_iff]
  intro hc
  rw [stopping_of_clearing hc] at h
  cases h

theorem owes_of_clearing (h : pc.clearing = true) : pc.owes = false := by
  cases pc <;> first | rfl | cases h

theorem stopping_of_starting (h : pc.starting = true) : pc.stopping = false := by
  cases pc <;> first | rfl | cases h

theorem StartOk.of_not_starting {m : MonitorAttrs} (h : pc.starting = false) : pc.StartOk m := by
  cases pc <;> trivial

theorem StopOk.of_not_stopping {m : MonitorAttrs} (h : pc.stopping = false) : pc.StopOk m := by
  cases pc <;> trivial

end Points
end ScanPc

open ScanPc

/-- What holds of a monitor that was running at first: it runs, or one use is taking it
down, or it is down and a use owes the restart, or that restart is under way. -/
inductive Health (m : MonitorAttrs) (l : List ScanPc) : Prop
  | on (hon : m.On) (hq : ∀ pc ∈ l, pc.clearing = false ∧ pc.starting = false)
  | stopping (o : ℕ) (ho : m.monitorWorker = some o) (hr : m.workers.running = 0)
      (hq : ∀ pc ∈ l, pc.starting = false) (hc : ∃ pc ∈ l, pc.clearing = true)
      (ht : (m.workers.get o).thread = none → ∃ pc ∈ l, pc.pastJoin = true)
      (hs : (m.workers.get o).stop = none → .clearMonitor true ∈ l)
  | owed (hoff : m.Off) (hq : ∀ pc ∈ l, pc.starting = false) (hc : ∃ pc ∈ l, pc.owes = true)
  | restarting (hr : m.workers.running = 0) (hone : l.countP starting = 1)
      (hq : ∀ pc ∈ l, pc.stopping = false) (hs : ∀ pc ∈ l, pc.StartOk m)

structure Kept (m : MonitorAttrs) (l : List ScanPc) : Prop where
  stopOk : ∀ pc ∈ l, pc.StopOk m
  health : Health m l

theorem Kept.perm {m : MonitorAttrs} {l l' : List ScanPc} (hp : l.Perm l') (h : Kept m l) :
    Kept m l' := by
  have hall : ∀ {P : ScanPc → Prop}, (∀ pc ∈ l, P pc) → ∀ pc ∈ l', P pc := fun h pc hpc =>
    h pc (hp.mem_iff.mpr hpc)
  have hex : ∀ {P : ScanPc → Prop}, (∃ pc ∈ l, P pc) → ∃ pc ∈ l', P pc := fun ⟨pc, hpc, h⟩ =>
    ⟨pc, hp.mem_iff.mp hpc, h⟩
  refine ⟨hall h.stopOk, ?_⟩
  cases h.health with
  | on hon hq => exact .on hon (hall hq)
  | stopping o ho hr hq hc ht hs =>
    exact .stopping o ho hr (hall hq) (hex hc) (fun h => hex (ht h))
      (fun h => hp.mem_iff.mp (hs h))
  | owed hoff hq hc => exact .owed hoff (hall hq) (hex hc)
  | restarting hr hone hq hs => exact .restarting hr (hp.countP_eq _ ▸ hone) (hall hq) (hall hs)

private theorem exists_rest {P : ScanPc → Prop} {pc : ScanPc} {rest : List ScanPc}
    (h : ∃ x ∈ pc :: rest, P x) (hpc : ¬P pc) : ∃ x ∈ rest, P x := by
  obtain ⟨x, hx, hP⟩ := h
  rcases List.mem_cons.mp hx with rfl | hx
  · exact absurd hP hpc
  · exact ⟨x, hx, hP⟩

/-- A step that changes no attribute, by a use that is not clearing the monitor before or
after it, and keeps what that use owes. -/
theorem Health.swap {m : MonitorAttrs} {pc pc' : ScanPc} {rest : List ScanPc}
    (h : Health m (pc :: rest)) (hclear : pc.clearing = false) (hclear' : pc'.clearing = false)
    (hstart : pc.starting = false) (hstart' : pc'.starting = false)
    (hstop : pc'.stopping = true → pc.stopping = true ∨ ∀ x ∈ rest, x.starting = false)
    (howes : pc.owes = true → pc'.owes = true) : Health m (pc' :: rest) := by
  have hpast : pc.pastJoin = false := by
    rw [Bool.eq_false_iff]
    intro hp
    rw [clearing_of_pastJoin hp] at hclear
    cases hclear
  have hmon : pc ≠ .clearMonitor true := by
    rintro rfl
    cases hclear
  cases h with
  | on hon hq =>
    obtain ⟨-, hrest⟩ := List.forall_mem_cons.mp hq
    exact .on hon (List.forall_mem_cons.mpr ⟨⟨hclear', hstart'⟩, hrest⟩)
  | stopping o ho hr hq hc ht hs =>
    obtain ⟨-, hrest⟩ := List.forall_mem_cons.mp hq
    refine .stopping o ho hr (List.forall_mem_cons.mpr ⟨hstart', hrest⟩) ?_ ?_ ?_
    · exact (exists_rest hc (by simp [hclear])).imp fun x hx => ⟨.tail _ hx.1, hx.2⟩
    · intro h
      exact (exists_rest (ht h) (by simp [hpast])).imp fun x hx => ⟨.tail _ hx.1, hx.2⟩
    · intro h
      exact .tail _ ((List.mem_cons.mp (hs h)).resolve_left hmon.symm)
  | owed hoff hq hc =>
    obtain ⟨-, hrest⟩ := List.forall_mem_cons.mp hq
    refine .owed hoff (List.forall_mem_cons.mpr ⟨hstart', hrest⟩) ?_
    by_cases h : pc.owes = true
    · exact ⟨pc', .head _, howes h⟩
    · exact (exists_rest hc h).imp fun x hx => ⟨.tail _ hx.1, hx.2⟩
  | restarting hr hone hq hs =>
    obtain ⟨hpc, hrest⟩ := List.forall_mem_cons.mp hq
    obtain ⟨-, hsrest⟩ := List.forall_mem_cons.mp hs
    have hone' : rest.countP starting = 1 := by
      rwa [List.countP_cons_of_neg (by simp [hstart])] at hone
    have hstop' : pc'.stopping = false := by
      rw [Bool.eq_false_iff]
      intro hc
      rcases hstop hc with h | h
      · rw [hpc] at h
        cases h
      · have hzero : rest.countP starting = 0 := List.countP_eq_zero.mpr (by simpa using h)
        omega
    refine .restarting hr ?_ ?_ ?_
    · rwa [List.countP_cons_of_neg (by simp [hstart'])]
    · exact List.forall_mem_cons.mpr ⟨hstop', hrest⟩
    · exact List.forall_mem_cons.mpr ⟨.of_not_starting hstart', hsrest⟩

theorem ScanPc.StopOk.mono {m m' : MonitorAttrs} {pc : ScanPc} (h : pc.StopOk m)
    (hm : m'.monitorWorker = m.monitorWorker ∨ m'.monitorWorker = none) : pc.StopOk m' := by
  cases pc <;> simp only [StopOk] at h ⊢ <;> rcases hm with hm | hm <;> simp_all

/-- In a stopped or stopping monitor a clearing use is the only one that matters. -/
theorem Health.clearing_cases {m : MonitorAttrs} {pc : ScanPc} {rest : List ScanPc}
    (h : Health m (pc :: rest)) (hc : pc.clearing = true) :
    (∀ x ∈ rest, x.starting = false) ∧ m.workers.running = 0 ∧
      ((m.monitorWorker = none ∧ ∃ x ∈ rest, x.owes = true) ∨
        ∃ o, m.monitorWorker = some o ∧
          ((m.workers.get o).thread = none → ∃ x ∈ pc :: rest, x.pastJoin = true) ∧
          ((m.workers.get o).stop = none → .clearMonitor true ∈ pc :: rest)) := by
  have hstop := stopping_of_clearing hc
  have howes := owes_of_clearing hc
  cases h with
  | on hon hq => simp_all
  | stopping o ho hr hq _ ht hs => exact ⟨by simp_all, hr, Or.inr ⟨o, ho, ht, hs⟩⟩
  | owed hoff hq he =>
    exact ⟨by simp_all, hoff.2, Or.inl ⟨hoff.1, exists_rest he (by simp [howes])⟩⟩
  | restarting hr hone hq hs => simp_all

private theorem clearing_frame {m m' : MonitorAttrs} {pc pc' : ScanPc} {a : Answer}
    (hc : pc.clearing = true) (ha : pc.advance m a = some (m', pc')) :
    (m'.monitorWorker = m.monitorWorker ∨ m'.monitorWorker = none) ∧
      m'.workers.running = m.workers.running ∧ pc'.starting = false := by
  cases pc with
  | threadCheck was o =>
    cases a <;> cases ha
    exact ⟨Or.inl rfl, rfl, by split <;> rfl⟩
  | threadJoin was o =>
    cases a <;> simp only [advance, reduceCtorEq] at ha
    split at ha <;> cases ha <;> exact ⟨Or.inl rfl, rfl, rfl⟩
  | clearThread was o | clearStop was o =>
    cases a <;> cases ha
    exact ⟨Or.inl rfl, rfl, rfl⟩
  | clearMonitor was =>
    cases a <;> cases ha
    exact ⟨Or.inr rfl, rfl, rfl⟩
  | _ => cases hc

/-- The steps of `monitor_stop` once the stop event is set. A use that raises here found the
thread cleared, so another use is past its join and will clear the attribute. -/
theorem Health.clear {m m' : MonitorAttrs} {pc pc' : ScanPc} {rest : List ScanPc} {a : Answer}
    (h : Health m (pc :: rest)) (hc : pc.clearing = true) (hok : pc.StopOk m)
    (ha : pc.advance m a = some (m', pc')) : Health m' (pc' :: rest) := by
  obtain ⟨hq, hr, hcase⟩ := h.clearing_cases hc
  obtain ⟨hm', hr', hstart'⟩ := clearing_frame hc ha
  have hq' : ∀ x ∈ pc' :: rest, x.starting = false := by simpa [hstart'] using hq
  have hstop := hr'.trans hr
  rcases hcase with ⟨hm, he⟩ | ⟨o', ho', ht, hs⟩
  · have hoff : m'.Off := ⟨by rcases hm' with h | h <;> simp [h, hm], hstop⟩
    exact .owed hoff hq' (he.imp fun x hx => ⟨.tail _ hx.1, hx.2⟩)
  cases pc with
  | threadCheck was o =>
    cases a <;> cases ha
    refine .stopping o' ho' hr hq' ⟨_, .head _, by split <;> rfl⟩ ?_ ?_
    · intro hn
      exact (exists_rest (ht hn) (by simp [pastJoin])).imp fun x hx => ⟨.tail _ hx.1, hx.2⟩
    · exact fun hn => .tail _ ((List.mem_cons.mp (hs hn)).resolve_left (by simp))
  | threadJoin was o =>
    have heq : o' = o := by simpa [StopOk, ho'] using hok.2
    have hs' : (m.workers.get o').stop = none → .clearMonitor true ∈ rest := fun hn =>
      (List.mem_cons.mp (hs hn)).resolve_left (by simp)
    have ht' : (m.workers.get o').thread = none → ∃ x ∈ rest, x.pastJoin = true := fun hn =>
      exists_rest (ht hn) (by simp [pastJoin])
    cases a <;> simp only [advance, reduceCtorEq] at ha
    split at ha <;> rename_i hthread <;> cases ha
    · obtain ⟨x, hx, hp⟩ := ht' (heq ▸ hthread)
      have hxc : x.clearing = true := clearing_of_pastJoin hp
      exact .stopping o' ho' hr hq' ⟨x, .tail _ hx, hxc⟩ (fun _ => ⟨x, .tail _ hx, hp⟩)
        (fun hn => .tail _ (hs' hn))
    · exact .stopping o' ho' hr hq' ⟨_, .head _, rfl⟩
        (fun hn => (ht' hn).imp fun x hx => ⟨.tail _ hx.1, hx.2⟩) (fun hn => .tail _ (hs' hn))
  | clearThread was o =>
    have heq : o' = o := by simpa [StopOk, ho'] using hok.2
    cases a <;> cases ha
    refine .stopping o' ho' hstop hq' ⟨_, .head _, rfl⟩ (fun _ => ⟨_, .head _, rfl⟩) ?_
    intro hn
    have hn' : (m.workers.get o').stop = none := by
      subst heq
      by_cases hlt : o' < m.workers.objects.length
      · simpa [Workers.get, Workers.set, hlt] using hn
      · simp [Workers.get, not_lt.mp hlt]
    exact .tail _ ((List.mem_cons.mp (hs hn')).resolve_left (by simp))
  | clearStop was o =>
    obtain rfl : was = true := hok.1
    cases a <;> cases ha
    exact .stopping o' ho' hstop hq' ⟨_, .head _, rfl⟩ (fun _ => ⟨_, .head _, rfl⟩)
      (fun _ => .head _)
  | clearMonitor was =>
    obtain rfl : was = true := hok
    cases a <;> cases ha
    exact .owed ⟨rfl, hstop⟩ hq' ⟨_, .head _, rfl⟩
  | _ => cases hc

/-- `self._stop.set()`: the running thread, if there still is one, is told to stop. -/
theorem Health.set {m m' : MonitorAttrs} {was : Bool} {o : ℕ} {pc' : ScanPc} {rest : List ScanPc}
    {a : Answer} (h : Health m (.stopEventSet was o :: rest))
    (hok : (ScanPc.stopEventSet was o).StopOk m)
    (ha : (ScanPc.stopEventSet was o).advance m a = some (m', pc')) : Health m' (pc' :: rest) := by
  cases a <;> simp only [advance, reduceCtorEq] at ha
  split at ha <;> rename_i hevent <;> cases ha
  · exact h.swap rfl rfl rfl rfl (fun h => nomatch h) (fun h => nomatch h)
  rename_i t
  have hget : ∀ i, (m.workers.setEvent t).get i = m.workers.get i := fun _ => rfl
  cases h with
  | on hon hq =>
    obtain ⟨o', t', ho', hlt, hthread, hstop, hfalse, hone⟩ := hon
    have heq : o' = o := by simpa [StopOk, ho'] using hok.2
    subst heq
    obtain rfl : t' = t := Option.some.inj (hstop.symm.trans hevent)
    have hzero : (m.workers.setEvent t').running = 0 := by
      have := Workers.running_setEvent hfalse
      omega
    exact .stopping o' ho' hzero (List.forall_mem_cons.mpr ⟨rfl, fun x hx => (hq x (.tail _ hx)).2⟩)
      ⟨_, .head _, rfl⟩ (by simp [hget, hthread]) (by simp [hget, hstop])
  | stopping o' ho' hr hq hc ht hs =>
    have hzero := Nat.le_zero.mp (hr ▸ m.workers.running_setEvent_le t)
    refine .stopping o' ho' hzero (by simpa [starting] using hq) ⟨_, .head _, rfl⟩ ?_ ?_
    · intro hn
      exact (exists_rest (ht hn) (by simp [pastJoin])).imp fun x hx => ⟨.tail _ hx.1, hx.2⟩
    · exact fun hn => .tail _ ((List.mem_cons.mp (hs hn)).resolve_left (by simp))
  | owed hoff hq hc =>
    have hzero := Nat.le_zero.mp (hoff.2 ▸ m.workers.running_setEvent_le t)
    exact .owed ⟨hoff.1, hzero⟩ (by simpa [starting] using hq)
      ((exists_rest hc (by simp [owes])).imp fun x hx => ⟨.tail _ hx.1, hx.2⟩)
  | restarting hr hone hq hs => exact absurd (hq _ (.head _)) (by simp [ScanPc.stopping])

/-- The steps of `monitor_start` past its check, which no other use stops or repeats. -/
theorem Health.start {m m' : MonitorAttrs} {pc pc' : ScanPc} {rest : List ScanPc} {a : Answer}
    (h : Health m (pc :: rest)) (hstart : pc.starting = true)
    (ha : pc.advance m a = some (m', pc')) : Health m' (pc' :: rest) := by
  cases h with
  | on hon hq => exact absurd (hq pc (.head _)).2 (by simp [hstart])
  | stopping o ho hr hq => exact absurd (hq pc (.head _)) (by simp [hstart])
  | owed hoff hq => exact absurd (hq pc (.head _)) (by simp [hstart])
  | restarting hr hone hq hs =>
    have hrest : ∀ x ∈ rest, x.starting = false := by
      simpa [List.countP_cons, hstart, List.countP_eq_zero] using hone
    have hstop : ∀ x ∈ rest, x.stopping = false := fun x hx => hq x (.tail _ hx)
    have hzero : rest.countP ScanPc.starting = 0 :=
      List.countP_eq_zero.mpr fun x hx => by simp [hrest x hx]
    have hgo : ∀ {m' : MonitorAttrs} {pc' : ScanPc}, m'.workers.running = 0 →
        pc'.starting = true → pc'.StartOk m' → Health m' (pc' :: rest) := by
      intro m' pc' hr' hstart' hok
      refine .restarting hr' (by simp [hstart', hzero]) ?_ ?_
      · exact List.forall_mem_cons.mpr ⟨stopping_of_starting hstart', hstop⟩
      · exact List.forall_mem_cons.mpr ⟨hok, fun x hx => .of_not_starting (hrest x hx)⟩
    have hok := hs pc (.head _)
    cases pc with
    | startCreate raised =>
      cases a <;> cases ha
      refine hgo hr rfl ⟨_, rfl, by simp [Workers.create], ?_⟩
      rw [Workers.get_create_length]
    | startRead raised =>
      obtain ⟨o, ho, hlt, hnone⟩ := hok
      cases a <;> simp only [advance, ho, reduceCtorEq] at ha
      cases ha
      exact hgo hr rfl ⟨ho, hlt, hnone⟩
    | spawnCheck raised o =>
      cases a <;> simp only [advance, hok.2.2, reduceCtorEq] at ha
      cases ha
      exact hgo hr rfl hok
    | spawn raised o =>
      obtain ⟨ho, hlt, -⟩ := hok
      cases a <;> cases ha
      refine .on ⟨o, m.workers.stopped.length, ho, ?_, ?_, ?_, ?_, ?_⟩ ?_
      · simpa [Workers.spawn] using hlt
      · simp [Workers.spawn, Workers.get, hlt]
      · simp [Workers.spawn, Workers.get, hlt]
      · simp [Workers.spawn]
      · simp [hr]
      · exact List.forall_mem_cons.mpr ⟨⟨rfl, rfl⟩, fun x hx =>
          ⟨clearing_of_not_stopping (hstop x hx), hrest x hx⟩⟩
    | _ => cases hstart

/-- What the condition says of the stepping use and the others. -/
def ScanPc.Careful (pc : ScanPc) (a : Answer) (rest : List ScanPc) : Prop :=
  match pc, a with
  | .openConn true, .raises | .listDevices true, .raises | .disconnect true _, .raises => False
  | .readWasRunning, _ => ∀ x ∈ rest, x.starting = false
  | .startCheck _, _ => ∀ x ∈ rest, x.stopping = false ∧ x.starting = false
  | _, _ => True

theorem careful_of_restarts {p : Scans} {i : ℕ} {a : Answer} {pc : ScanPc} {rest : List ScanPc}
    (hok : restarts p (.use i a) = true) (hi : p.threads[i]? = some pc)
    (hp : p.threads.Perm (pc :: rest)) : pc.Careful a rest := by
  have hmem : ∀ x ∈ rest, x ∈ p.threads := fun x hx => hp.mem_iff.mpr (.tail _ hx)
  simp only [restarts, hi] at hok
  unfold Careful
  split <;> simp_all

theorem Health.startCheck {m m' : MonitorAttrs} {raised : Bool} {pc' : ScanPc}
    {rest : List ScanPc} {a : Answer} (h : Health m (.startCheck raised :: rest))
    (hother : ∀ x ∈ rest, x.stopping = false ∧ x.starting = false)
    (ha : (ScanPc.startCheck raised).advance m a = some (m', pc')) : Health m' (pc' :: rest) := by
  have hclear : ∀ x ∈ rest, x.clearing = false := fun x hx =>
    clearing_of_not_stopping (hother x hx).1
  cases a <;> cases ha
  cases h with
  | on hon hq =>
    obtain ⟨o, t, ho, hrun⟩ := hon
    have hpc : (if m.monitorWorker.isSome then exited raised else startCreate raised) =
        exited raised := by simp [ho]
    rw [hpc]
    exact .on ⟨o, t, ho, hrun⟩ (List.forall_mem_cons.mpr ⟨⟨rfl, rfl⟩, fun x hx => hq x (.tail _ hx)⟩)
  | stopping o ho hr hq hc =>
    obtain ⟨x, hx, hxc⟩ := exists_rest hc (by simp [clearing])
    exact absurd (hclear x hx) (by simp [hxc])
  | owed hoff hq hc =>
    have hpc : (if m.monitorWorker.isSome then exited raised else startCreate raised) =
        startCreate raised := by simp [hoff.1]
    have hzero : rest.countP ScanPc.starting = 0 :=
      List.countP_eq_zero.mpr fun x hx => by simp [(hother x hx).2]
    rw [hpc]
    refine .restarting hoff.2 ?_ ?_ ?_
    · rw [List.countP_cons_of_pos rfl, hzero]
    · exact List.forall_mem_cons.mpr ⟨rfl, fun x hx => (hother x hx).1⟩
    · exact List.forall_mem_cons.mpr ⟨hoff.1, fun x hx => .of_not_starting (hother x hx).2⟩
  | restarting hr hone hq hs =>
    have hzero : rest.countP ScanPc.starting = 0 :=
      List.countP_eq_zero.mpr fun x hx => by simp [(hother x hx).2]
    exact absurd hone (by simp [ScanPc.starting, hzero])

/-- Finding the event already cleared, the use goes on to the thread. -/
theorem Health.eventCheck {m m' : MonitorAttrs} {was : Bool} {o : ℕ} {pc' : ScanPc}
    {rest : List ScanPc} {a : Answer} (h : Health m (.stopEventCheck was o :: rest))
    (hok : (ScanPc.stopEventCheck was o).StopOk m)
    (ha : (ScanPc.stopEventCheck was o).advance m a = some (m', pc')) :
    Health m' (pc' :: rest) := by
  cases a <;> cases ha
  split
  · exact h.swap rfl rfl rfl rfl (fun _ => Or.inl rfl) (fun h => nomatch h)
  rename_i hnone
  have hrest : ∀ {l : List ScanPc}, (∀ x ∈ stopEventCheck was o :: l, x.starting = false) →
      ∀ x ∈ threadCheck was o :: l, x.starting = false := fun hq =>
    List.forall_mem_cons.mpr ⟨rfl, fun x hx => hq x (.tail _ hx)⟩
  cases h with
  | on hon hq =>
    obtain ⟨o', t, ho', -, -, hstop, -⟩ := hon
    have heq : o' = o := by simpa [StopOk, ho'] using hok.2
    exact absurd (heq ▸ hstop) (by simpa using fun h => hnone (by simp [h]))
  | stopping o' ho' hr hq hc ht hs =>
    refine .stopping o' ho' hr (hrest hq) ⟨_, .head _, rfl⟩ ?_ ?_
    · intro hn
      exact (exists_rest (ht hn) (by simp [pastJoin])).imp fun x hx => ⟨.tail _ hx.1, hx.2⟩
    · exact fun hn => .tail _ ((List.mem_cons.mp (hs hn)).resolve_left (by simp))
  | owed hoff hq hc =>
    exact .owed hoff (hrest hq)
      ((exists_rest hc (by simp [owes])).imp fun x hx => ⟨.tail _ hx.1, hx.2⟩)
  | restarting hr hone hq hs => exact absurd (hq _ (.head _)) (by simp [ScanPc.stopping])

theorem Health.advance {m m' : MonitorAttrs} {pc pc' : ScanPc} {rest : List ScanPc} {a : Answer}
    (h : Health m (pc :: rest)) (hok : pc.StopOk m) (hcare : pc.Careful a rest)
    (ha : pc.advance m a = some (m', pc')) : Health m' (pc' :: rest) := by
  by_cases hc : pc.clearing = true
  · exact h.clear hc hok ha
  by_cases hs : pc.starting = true
  · exact h.start hs ha
  have hc : pc.clearing = false := by simpa using hc
  have hs : pc.starting = false := by simpa using hs
  cases pc with
  | stopEventSet was o => exact h.set hok ha
  | startCheck raised => exact h.startCheck hcare ha
  | readWasRunning =>
    cases a <;> cases ha
    exact h.swap hc rfl hs rfl (fun _ => Or.inr hcare) (fun h => nomatch h)
  | stopCheck was =>
    cases a <;> cases ha
    split
    · exact h.swap hc rfl hs rfl (fun _ => Or.inl rfl) (fun h => nomatch h)
    · exact h.swap hc rfl hs rfl (fun h => nomatch h) (fun h => nomatch h)
  | stopRead was =>
    cases a <;> simp only [ScanPc.advance, reduceCtorEq] at ha
    split at ha <;> cases ha
    · exact h.swap hc rfl hs rfl (fun h => nomatch h) (fun h => nomatch h)
    · exact h.swap hc rfl hs rfl (fun _ => Or.inl rfl) (fun h => nomatch h)
  | stopEventCheck was o => exact h.eventCheck hok ha
  | openConn was | listDevices was | disconnect was rest' =>
    cases a <;> cases ha
    all_goals first
      | exact h.swap hc rfl hs rfl (fun h => nomatch h) (fun h => h)
      | (cases was
         · exact h.swap hc rfl hs rfl (fun h => nomatch h) (fun h => nomatch h)
         · exact hcare.elim)
  | checkLink was addresses =>
    cases addresses <;> cases a <;> cases ha
    · exact h.swap hc rfl hs rfl (fun h => nomatch h) (fun h => h)
    · split <;> exact h.swap hc rfl hs rfl (fun h => nomatch h) (fun h => h)
  | body was =>
    cases a <;> cases ha
    all_goals
      cases was
      · exact h.swap hc rfl hs rfl (fun h => nomatch h) (fun h => nomatch h)
      · exact h.swap hc rfl hs rfl (fun h => nomatch h) (fun _ => rfl)
  | exited raised => cases a <;> cases ha
  | threadCheck | threadJoin | clearThread | clearStop | clearMonitor => cases hc
  | startCreate | startRead | spawnCheck | spawn => cases hs

/-- The stepping use keeps to the object it read, and the others lose nothing: only a restart
names a new object, and then no use is stopping. -/
theorem Kept.advance_stopOk {m m' : MonitorAttrs} {pc pc' : ScanPc} {rest : List ScanPc}
    {a : Answer} (h : Kept m (pc :: rest)) (ha : pc.advance m a = some (m', pc')) :
    ∀ x ∈ pc' :: rest, x.StopOk m' := by
  have hok := h.stopOk pc (.head _)
  have hrest : ∀ x ∈ rest, x.StopOk m := fun x hx => h.stopOk x (.tail _ hx)
  have hsame : m'.monitorWorker = m.monitorWorker ∨ m'.monitorWorker = none → pc'.StopOk m' →
      ∀ x ∈ pc' :: rest, x.StopOk m' := fun hm hpc =>
    List.forall_mem_cons.mpr ⟨hpc, fun x hx => (hrest x hx).mono hm⟩
  cases pc with
  | stopCheck was =>
    cases a <;> cases ha
    refine hsame (Or.inl rfl) ?_
    split
    · rename_i hsome
      exact hok.resolve_right (by simpa [Option.isSome_iff_ne_none] using hsome)
    · trivial
  | stopRead was =>
    cases a <;> simp only [ScanPc.advance, reduceCtorEq] at ha
    split at ha <;> rename_i hm <;> cases ha
    · exact hsame (Or.inl rfl) trivial
    · exact hsame (Or.inl rfl) ⟨hok, Or.inr hm⟩
  | stopEventCheck was o | threadCheck was o =>
    cases a <;> cases ha
    exact hsame (Or.inl rfl) (by split <;> exact hok)
  | stopEventSet was o | threadJoin was o =>
    cases a <;> simp only [ScanPc.advance, reduceCtorEq] at ha
    split at ha <;> cases ha
    · exact hsame (Or.inl rfl) trivial
    · exact hsame (Or.inl rfl) hok
  | clearThread was o =>
    cases a <;> cases ha
    exact hsame (Or.inl rfl) hok
  | clearStop was o =>
    cases a <;> cases ha
    exact hsame (Or.inl rfl) hok.1
  | clearMonitor was =>
    cases a <;> cases ha
    exact hsame (Or.inr rfl) trivial
  | startCreate raised =>
    have hstop : ∀ x ∈ rest, x.stopping = false := by
      cases h.health with
      | on _ hq => exact absurd (hq _ (.head _)).2 (by simp [starting])
      | stopping _ _ _ hq | owed _ hq => exact absurd (hq _ (.head _)) (by simp [starting])
      | restarting _ _ hq => exact fun x hx => hq x (.tail _ hx)
    cases a <;> cases ha
    exact List.forall_mem_cons.mpr ⟨trivial, fun x hx => .of_not_stopping (hstop x hx)⟩
  | readWasRunning =>
    cases a <;> cases ha
    refine hsame (Or.inl rfl) ?_
    cases hm : m.monitorWorker
    · exact Or.inr hm
    · exact Or.inl rfl
  | openConn | listDevices | disconnect | body | spawnCheck | spawn | startCheck =>
    cases a <;> cases ha
    all_goals exact hsame (Or.inl rfl) (by (try split) <;> trivial)
  | checkLink was addresses =>
    cases addresses <;> cases a <;> cases ha
    all_goals exact hsame (Or.inl rfl) (by (try split) <;> trivial)
  | startRead raised =>
    cases a <;> simp only [ScanPc.advance, reduceCtorEq] at ha
    split at ha <;> cases ha <;> exact hsame (Or.inl rfl) trivial
  | exited raised => cases a <;> cases ha

theorem Kept.advance {m m' : MonitorAttrs} {pc pc' : ScanPc} {rest : List ScanPc} {a : Answer}
    (h : Kept m (pc :: rest)) (hcare : pc.Careful a rest)
    (ha : pc.advance m a = some (m', pc')) : Kept m' (pc' :: rest) :=
  ⟨h.advance_stopOk ha, h.health.advance (h.stopOk pc (.head _)) hcare ha⟩

theorem Kept.enter {m : MonitorAttrs} {l : List ScanPc} (h : Kept m l) :
    Kept m (.readWasRunning :: l) := by
  refine ⟨List.forall_mem_cons.mpr ⟨trivial, h.stopOk⟩, ?_⟩
  cases h.health with
  | on hon hq => exact .on hon (List.forall_mem_cons.mpr ⟨⟨rfl, rfl⟩, hq⟩)
  | stopping o ho hr hq hc ht hs =>
    exact .stopping o ho hr (List.forall_mem_cons.mpr ⟨rfl, hq⟩)
      (hc.imp fun x hx => ⟨.tail _ hx.1, hx.2⟩)
      (fun hn => (ht hn).imp fun x hx => ⟨.tail _ hx.1, hx.2⟩) (fun hn => .tail _ (hs hn))
  | owed hoff hq hc =>
    exact .owed hoff (List.forall_mem_cons.mpr ⟨rfl, hq⟩)
      (hc.imp fun x hx => ⟨.tail _ hx.1, hx.2⟩)
  | restarting hr hone hq hs =>
    exact .restarting hr (by simpa [List.countP_cons, starting] using hone)
      (List.forall_mem_cons.mpr ⟨rfl, hq⟩) (List.forall_mem_cons.mpr ⟨trivial, hs⟩)

theorem kept_run {p : Scans} (h : (scans true).Run (fun p e => restarts p e = true) p) :
    Kept p.shared p.threads := by
  refine h.invariant (P := fun p => Kept p.shared p.threads) ?_ ?_
  · rintro p ⟨hnil, hon⟩
    have hk : Kept p.shared [] := ⟨by simp, .on hon (by simp)⟩
    exact hnil ▸ hk
  intro p e p' hk hok hs
  cases e with
  | enter =>
    cases hs
    exact hk.enter.perm (p.spawn_perm _).symm
  | use i a =>
    refine Pool.step_invariant (I := Kept) (fun _ _ _ hp h => Kept.perm hp h) ?_ hk hs
    intro pc pc' m' rest hi hp hfocus ha
    exact hfocus.advance (careful_of_restarts hok hi hp) ha

def ScanPc.quiet : ScanPc → Bool
  | .readWasRunning | .exited _ => true
  | .stopCheck was | .openConn was | .listDevices was | .checkLink was _ | .disconnect was _
  | .body was => !was
  | _ => false

theorem quiet_run {p : Scans} (h : (scans false).Run (fun p e => restarts p e = true) p) :
    p.shared.Off ∧ ∀ pc ∈ p.threads, pc.quiet = true := by
  refine h.invariant (P := fun p => p.shared.Off ∧ ∀ pc ∈ p.threads, pc.quiet = true) ?_ ?_
  · rintro p ⟨hnil, hoff⟩
    exact ⟨hoff, by simp [hnil]⟩
  intro p e p' hk _ hs
  cases e with
  | enter =>
    cases hs
    exact ⟨hk.1, by simpa [Pool.spawn, or_imp, forall_and, quiet] using hk.2⟩
  | use i a =>
    refine Pool.step_invariant (I := fun m l => m.Off ∧ ∀ pc ∈ l, pc.quiet = true) ?_ ?_ hk hs
    · exact fun _ _ _ hp h => ⟨h.1, fun pc hpc => h.2 pc (hp.mem_iff.mpr hpc)⟩
    intro pc pc' m' rest _ _ hfocus ha
    obtain ⟨hoff, hq⟩ := hfocus
    obtain ⟨hpc, hrest⟩ := List.forall_mem_cons.mp hq
    have hgo : m' = p.shared → pc'.quiet = true →
        m'.Off ∧ ∀ x ∈ pc' :: rest, x.quiet = true := fun hm hpc' =>
      ⟨hm ▸ hoff, List.forall_mem_cons.mpr ⟨hpc', hrest⟩⟩
    cases pc with
    | readWasRunning | stopCheck =>
      cases a <;> cases ha
      exact hgo rfl (by simp_all [quiet, hoff.1])
    | openConn | listDevices | disconnect =>
      cases a <;> cases ha
      all_goals exact hgo rfl (by simp_all [quiet])
    | checkLink was addresses =>
      cases addresses <;> cases a <;> cases ha
      · exact hgo rfl hpc
      · exact hgo rfl (by split <;> exact hpc)
    | body was =>
      obtain rfl : was = false := by simpa [quiet] using hpc
      cases a <;> cases ha <;> exact hgo rfl rfl
    | exited raised => cases a <;> cases ha
    | _ => cases hpc

/-- Once every use has exited, one monitor thread runs if one ran at first, else none. -/
theorem running_restored {running : Bool} {p : Scans}
    (h : (scans running).Run (fun p e => restarts p e = true) p)
    (hexit : ∀ pc ∈ p.threads, ∃ raised, pc = .exited raised) :
    p.shared.workers.running = if running then 1 else 0 := by
  cases running with
  | false => exact (quiet_run h).1.2
  | true =>
    have hnot : ∀ pc ∈ p.threads, pc.clearing = false ∧ pc.owes = false ∧ pc.starting = false :=
      fun pc hpc => by
        obtain ⟨raised, rfl⟩ := hexit pc hpc
        exact ⟨rfl, rfl, rfl⟩
    cases (kept_run h).health with
    | on hon hq =>
      obtain ⟨_, _, -, -, -, -, -, hone⟩ := hon
      exact hone
    | stopping o ho hr hq hc =>
      obtain ⟨x, hx, hxc⟩ := hc
      exact absurd hxc (by simp [(hnot x hx).1])
    | owed hoff hq hc =>
      obtain ⟨x, hx, hxo⟩ := hc
      exact absurd hxo (by simp [(hnot x hx).2.1])
    | restarting hr hone =>
      have : p.threads.countP ScanPc.starting = 0 :=
        List.countP_eq_zero.mpr fun x hx => by simp [(hnot x hx).2.2]
      omega

def monitored : Scans where
  shared := {
    monitorWorker := some 0
    workers := { objects := [{ thread := some 0, stop := some 0 }], stopped := [false] } }
  threads := []

theorem monitored_init : (scans true).init monitored :=
  ⟨rfl, 0, 0, rfl, by decide, rfl, rfl, rfl, rfl⟩

/-- A second use enters while the first one disconnects, and its body raises. -/
def overlappingUses : List ScanEvent :=
  [.enter, .use 0 .returns, .use 0 .returns, .use 0 .returns, .use 0 .returns, .use 0 .returns,
    .use 0 .returns, .use 0 .returns, .use 0 .returns, .use 0 .returns, .use 0 .returns,
    .use 0 .returns, .use 0 (.devices ["aa", "bb"]), .use 0 (.linked false),
    .enter, .use 1 .returns, .use 1 .returns, .use 1 .returns, .use 1 (.devices []),
    .use 0 (.linked true), .use 0 .returns, .use 0 .returns, .use 1 .returns, .use 1 .raises,
    .use 0 .returns, .use 0 .returns, .use 0 .returns, .use 0 .returns, .use 0 .returns,
    .use 0 .returns]

theorem overlappingUses_restored :
    ∃ p, (scans true).Run (fun p e => restarts p e = true) p ∧
      p.threads = [.exited false, .exited true] ∧ p.shared.workers.running = 1 := by
  obtain ⟨p, hr, hp⟩ := System.exists_run_of_replay restarts monitored_init overlappingUses
    (p := fun p => decide (p.threads = [.exited false, .exited true])) (by decide)
  have hexit := of_decide_eq_true hp
  exact ⟨p, hr, hexit, running_restored hr (by simp [hexit])⟩

def disconnectTimesOut : List ScanEvent :=
  [.enter, .use 0 .returns, .use 0 .returns, .use 0 .returns, .use 0 .returns, .use 0 .returns,
    .use 0 .returns, .use 0 .returns, .use 0 .returns, .use 0 .returns, .use 0 .returns,
    .use 0 .returns, .use 0 (.devices ["aa"]), .use 0 (.linked true), .use 0 .raises]

theorem monitor_lost : ¬ ∀ running p, (scans running).Reachable p →
    (∀ pc ∈ p.threads, ∃ raised, pc = .exited raised) →
    p.shared.workers.running = if running then 1 else 0 := by
  intro hall
  obtain ⟨p, hr, hp⟩ := System.exists_reachable_of_replay monitored_init disconnectTimesOut
    (p := fun p => decide (p.threads = [.exited true] ∧ p.shared.workers.running = 0)) (by decide)
  obtain ⟨hexit, hzero⟩ := of_decide_eq_true hp
  have hone := hall true p hr (by simp [hexit])
  exact absurd (hzero.symm.trans hone) (by decide)

end HomeServer.Services
