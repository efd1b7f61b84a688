import HomeServer.Ble.Peripheral
import HomeServer.Ble.Submissions

/-! The loop of the worker, with its queue, its characteristic cache and its handle-keyed
delegate, refines the sequential peripheral. -/
namespace HomeServer.Ble
open HomeServer.Db HomeServer.Lib

def GattReply.finds (reply : GattReply) : Bool :=
  match reply.found with
  | .ok (_ :: _) => true
  | _ => false

/-- The reply as the peripheral's: a characteristic that was located before is there, whatever a
new search would find. -/
def GattReply.answer (reply : GattReply) (located : Bool) : PeripheralReply where
  found := if located then .ok true else reply.found.map fun handles => !handles.isEmpty
  io := reply.io

/-- `queued` lists the commands put on the queue so far, `notified` the notifications that came,
each with the callback that `handleNotification` called. `located` are the characteristics that
the searches so far have found, `history` what has happened to the peripheral. -/
structure ServedWorker where
  calls : Submissions
  queued : List Cmd := []
  notified : List (Handle × Bytes × Option NotifyCallback) := []
  located : Uuid → Bool := fun _ => false
  history : List PeripheralEvent := []

inductive ServedEvent
  | call (e : SubmissionsEvent)
  | notification (handle : Handle) (data : Bytes) (raised : Option Err)

def Op.uuid? : Op → Option Uuid
  | .read uuid | .write uuid _ | .subscribe uuid _ | .unsubscribe uuid => some uuid
  | .shutdown | .unknown _ => none

namespace Worker

/-- `_NotifyDelegate.handleNotification`: what the callback raises is only logged. -/
def handleNotification (w : Worker) (handle : Handle) : Option NotifyCallback :=
  (w.delegate handle).map Prod.snd

def replying (w : Worker) : List (FutureId × Outcome) :=
  match w.phase with
  | .replying cmd outcome => [(cmd.future, outcome)]
  | _ => []

def unperformed (w : Worker) : List Cmd :=
  (match w.phase with
    | .handling cmd => [cmd]
    | _ => []) ++ w.queue

theorem Moves.charCache {w w' : Worker} {e : WorkerEvent} (hw : w.Moves e w')
    (hnot : ∀ reply, e ≠ .perform reply) : w'.charCache = w.charCache := by
  cases hw with
  | perform cmd hp reply => exact absurd rfl (hnot reply)
  | acquire | connectOk | connectFailed | announce | leave | poll | take | complete
  | pollReturned | pollDisconnected | pollRaised | drained | drainOne | clear | hangUp => rfl

def exiting (w : Worker) : Bool :=
  match w.phase with
  | .draining | .clearing | .closing | .ended => true
  | _ => false

end Worker

/-- A characteristic that bluepy finds is the one of the table. -/
def GattTable.admits (table : GattTable) (w : Worker) : SubmissionsEvent → Bool
  | .worker (.perform reply) =>
    match w.phase, reply.found with
    | .handling cmd, .ok (handle :: _) =>
      (Op.uuid? cmd.op).all fun uuid => table.handleOf uuid = some handle
    | _, _ => true
  | _ => true

namespace ServedWorker

def worker (s : ServedWorker) : Worker := s.calls.worker

def newlyPut (s : ServedWorker) : SubmissionsEvent → List Cmd
  | .put call => (s.calls.inProgress[call]?).toList
  | _ => []

def locatedAfter (s : ServedWorker) : SubmissionsEvent → Uuid → Bool
  | .worker (.perform reply) =>
    match s.worker.phase with
    | .handling cmd => fun uuid =>
      s.located uuid || (decide (Op.uuid? cmd.op = some uuid) && reply.finds)
    | _ => s.located
  | _ => s.located

/-- A command is put on the queue, or performed with what bluepy answers; nothing else of the
worker is seen by the peripheral. -/
def seen (s : ServedWorker) : SubmissionsEvent → List PeripheralEvent
  | .put call => (s.newlyPut (.put call)).map .submit
  | .worker (.perform reply) =>
    match s.worker.phase with
    | .handling cmd => [.execute (reply.answer ((Op.uuid? cmd.op).any s.located))]
    | _ => []
  | _ => []

/-- A notification may come inside any call that the worker makes of bluepy. -/
def step (table : GattTable) (s : ServedWorker) : ServedEvent → Option ServedWorker
  | .call e =>
    if table.admits s.worker e then
      (s.calls.step e).map fun calls => { s with
        calls
        queued := s.queued ++ s.newlyPut e
        located := s.locatedAfter e
        history := s.history ++ s.seen e }
    else none
  | .notification handle data _ =>
    some { s with
      notified := s.notified ++ [(handle, data, s.worker.handleNotification handle)]
      history := s.history ++ [.notification handle data] }

def system (table : GattTable) : System ServedWorker ServedEvent where
  init s := ∃ calls, Submissions.system.init calls ∧ s = { calls }
  step := step table

end ServedWorker

/-- The peripheral's side of a worker: the delegate holds the callbacks by handle. -/
structure Mirrors (table : GattTable) (w : Worker) (p : SequentialPeripheral) : Prop where
  address : p.address = w.address
  gatt : p.gatt = w.gatt
  delegate : ∀ handle, w.delegate handle = (table.charOf handle).bind fun uuid =>
    (p.callbacks uuid).map fun callback => (uuid, callback)
  cache : ∀ uuid handle, w.charCache uuid = some handle → table.handleOf uuid = some handle

def Cmd.dropped (cmd : Cmd) : FutureId × Outcome := (cmd.future, .error .peripheralDisconnected)

/-- The queue's side: what is completed or about to be was executed, or dropped at the end. -/
structure Serves (w : Worker) (p : SequentialPeripheral) (dropped : List Cmd) : Prop where
  pending : p.pending = dropped ++ w.unperformed
  results : w.done ++ w.replying = p.results ++ dropped.map Cmd.dropped
  serving : w.exiting = false → dropped = []

section Performing
variable {table : GattTable} {w : Worker} {p : SequentialPeripheral} {uuid : Uuid}

/-- The cache answers as the table does, and as a peripheral does whose characteristics are
located once. -/
theorem Mirrors.char (h : Mirrors table w p) (reply : GattReply)
    (hfound : ∀ handle rest, reply.found = .ok (handle :: rest) →
      table.handleOf uuid = some handle) :
    Mirrors table (w.char uuid reply.found).2 p ∧
      ((∃ e, (w.char uuid reply.found).1 = .error e ∧
          p.locate uuid (reply.answer (w.charCache uuid).isSome) = .error e) ∨
        ∃ handle, (w.char uuid reply.found).1 = .ok handle ∧
          table.handleOf uuid = some handle ∧
          p.locate uuid (reply.answer (w.charCache uuid).isSome) = .ok ()) := by
  obtain ⟨found, io⟩ := reply
  unfold Worker.char
  cases hc : w.charCache uuid with
  | some handle => exact ⟨h, Or.inr ⟨handle, rfl, h.cache uuid handle hc, rfl⟩⟩
  | none =>
    cases found with
    | error e => exact ⟨h, Or.inl ⟨e, rfl, rfl⟩⟩
    | ok handles =>
      cases handles with
      | nil =>
        refine ⟨h, Or.inl ⟨_, rfl, ?_⟩⟩
        rw [← h.address]
        rfl
      | cons handle rest =>
        have hhandle := hfound handle rest rfl
        refine ⟨⟨h.address, h.gatt, h.delegate, fun u i hu => ?_⟩,
          Or.inr ⟨handle, rfl, hhandle, rfl⟩⟩
        dsimp only at hu
        by_cases hne : u = uuid
        · subst hne
          rw [Function.update_self] at hu
          cases hu
          exact hhandle
        · rw [Function.update_of_ne hne] at hu
          exact h.cache u i hu

theorem Mirrors.perform (h : Mirrors table w p) (op : GattOp) :
    Mirrors table { w with gatt := w.gatt ++ [op] } (p.perform op) :=
  ⟨h.address, by rw [SequentialPeripheral.perform, h.gatt], h.delegate, h.cache⟩

/-- The delegate's entry of a handle is the entry of its characteristic. -/
theorem Mirrors.setCallback (h : Mirrors table w p) {handle : Handle}
    (hhandle : table.handleOf uuid = some handle) (callback : Option NotifyCallback) :
    Mirrors table { w with
      delegate := Function.update w.delegate handle (callback.map fun c => (uuid, c)) }
      (p.setCallback uuid callback) := by
  refine ⟨h.address, h.gatt, fun i => ?_, h.cache⟩
  have hchar := (table.agree uuid handle).mp hhandle
  dsimp only [SequentialPeripheral.setCallback]
  by_cases hi : i = handle
  · subst hi
    rw [Function.update_self, hchar, Option.bind_some, Function.update_self]
  · rw [Function.update_of_ne hi, h.delegate i]
    cases hu : table.charOf i with
    | none => rfl
    | some u =>
      have hne : u ≠ uuid := by
        rintro rfl
        have := (table.agree u i).mpr hu
        rw [hhandle] at this
        exact hi (Option.some.inj this).symm
      rw [Option.bind_some, Option.bind_some, Function.update_of_ne hne]

/-- Handling a command is executing it with what the peripheral answered. -/
theorem Mirrors.handleCommand (h : Mirrors table w p) (op : Op) (reply : GattReply)
    (hfound : ∀ uuid handle rest, Op.uuid? op = some uuid → reply.found = .ok (handle :: rest) →
      table.handleOf uuid = some handle) {located : Bool}
    (hlocated : ∀ uuid, Op.uuid? op = some uuid → located = (w.charCache uuid).isSome) :
    (p.execute op (reply.answer located)).1 = (w.handleCommand op reply).1 ∧
      Mirrors table (w.handleCommand op reply).2 (p.execute op (reply.answer located)).2 := by
  have hchar := fun uuid (hop : Op.uuid? op = some uuid) =>
    h.char reply fun handle rest => hfound uuid handle rest hop
  have hio : (reply.answer located).io = reply.io := rfl
  clear hfound
  cases op with
  | shutdown => exact ⟨rfl, h.address, h.gatt, h.delegate, h.cache⟩
  | unknown name => exact ⟨rfl, h⟩
  | read uuid | write uuid data =>
    obtain rfl := hlocated uuid rfl
    obtain ⟨hm, hcase⟩ := hchar uuid rfl
    simp only [Worker.handleCommand, SequentialPeripheral.execute, SequentialPeripheral.access, hio]
    generalize w.char uuid reply.found = result at hm hcase
    obtain ⟨outcome, w₁⟩ := result
    rcases hcase with ⟨e, rfl, hlocate⟩ | ⟨handle, rfl, -, hlocate⟩
    · exact ⟨by rw [hlocate], by rw [hlocate]; exact hm⟩
    · rw [hlocate]
      cases reply.io with
      | error e => exact ⟨rfl, hm⟩
      | ok bytes => exact ⟨rfl, hm.perform _⟩
  | subscribe uuid callback =>
    obtain rfl := hlocated uuid rfl
    obtain ⟨hm, hcase⟩ := hchar uuid rfl
    simp only [Worker.handleCommand, Worker.enableNotify, SequentialPeripheral.execute,
      SequentialPeripheral.access, hio]
    generalize w.char uuid reply.found = result at hm hcase
    obtain ⟨outcome, w₁⟩ := result
    rcases hcase with ⟨e, rfl, hlocate⟩ | ⟨handle, rfl, hhandle, hlocate⟩
    · exact ⟨by rw [hlocate], by rw [hlocate]; exact hm⟩
    · rw [hlocate]
      cases reply.io with
      | error e => exact ⟨rfl, hm⟩
      | ok bytes => exact ⟨rfl, (hm.setCallback hhandle (some callback)).perform _⟩
  | unsubscribe uuid =>
    obtain rfl := hlocated uuid rfl
    obtain ⟨hm, hcase⟩ := hchar uuid rfl
    simp only [Worker.handleCommand, Worker.disableNotify, SequentialPeripheral.execute, hio]
    generalize w.char uuid reply.found = result at hm hcase
    obtain ⟨outcome, w₁⟩ := result
    rcases hcase with ⟨e, rfl, hlocate⟩ | ⟨handle, rfl, hhandle, hlocate⟩
    · exact ⟨by rw [hlocate], by rw [hlocate]; exact hm⟩
    · rw [hlocate]
      cases reply.io with
      | error e =>
        dsimp only
        split
        · exact ⟨rfl, hm.setCallback hhandle none⟩
        · exact ⟨rfl, hm⟩
      | ok bytes => exact ⟨rfl, (hm.setCallback hhandle none).perform _⟩

end Performing

section Steps
variable {table : GattTable} {w w' : Worker} {p : SequentialPeripheral} {dropped : List Cmd}

theorem Mirrors.moves (h : Mirrors table w p) {e : WorkerEvent} (hw : w.Moves e w')
    (hnot : ∀ reply, e ≠ .perform reply) : Mirrors table w' p := by
  cases hw with
  | perform cmd hp reply => exact absurd rfl (hnot reply)
  | acquire | connectOk | connectFailed | announce | leave | poll | take | complete
  | pollReturned | pollDisconnected | pollRaised | drained | drainOne | clear | hangUp =>
    exact ⟨h.address, h.gatt, h.delegate, h.cache⟩

theorem Serves.moves (h : Serves w p dropped) {e : WorkerEvent} (hw : w.Moves e w')
    (hnot : ∀ reply, e ≠ .perform reply) : ∃ dropped', Serves w' p dropped' := by
  obtain ⟨hpending, hresults, hserving⟩ := h
  cases hw with
  | perform cmd hp reply => exact absurd rfl (hnot reply)
  | take hp _ cmd rest hq =>
    refine ⟨dropped, ?_, ?_, fun _ => hserving (by simp [Worker.exiting, hp])⟩
    · simpa [Worker.unperformed, hp, hq] using hpending
    · simpa [Worker.replying, hp] using hresults
  | complete cmd outcome hp =>
    refine ⟨dropped, ?_, ?_, fun _ => hserving (by simp [Worker.exiting, hp])⟩
    · simpa [Worker.unperformed, hp] using hpending
    · simpa [Worker.replying, hp] using hresults
  | drainOne hp cmd rest hq =>
    refine ⟨dropped ++ [cmd], ?_, ?_, fun hs => ?_⟩
    · simpa [Worker.unperformed, hp, hq] using hpending
    · have hdone : w.done = p.results ++ dropped.map Cmd.dropped := by
        simpa [Worker.replying, hp] using hresults
      simp [Worker.replying, hp, hdone, Cmd.dropped]
    · simp [Worker.exiting, hp] at hs
  | acquire hp | connectOk hp | announce hp | poll hp | pollReturned hp =>
    refine ⟨dropped, ?_, ?_, fun _ => hserving (by simp [Worker.exiting, hp])⟩
    · simpa [Worker.unperformed, hp] using hpending
    · simpa [Worker.replying, hp] using hresults
  | connectFailed hp | leave hp | pollDisconnected hp | pollRaised hp | drained hp | clear hp
  | hangUp hp =>
    refine ⟨dropped, ?_, ?_, fun hs => ?_⟩
    · simpa [Worker.unperformed, hp] using hpending
    · simpa [Worker.replying, hp] using hresults
    · simp [Worker.exiting] at hs

theorem Serves.put (h : Serves w p dropped) (cmd : Cmd) :
    Serves (w.put cmd) (p.submit cmd) dropped := by
  obtain ⟨hpending, hresults, hserving⟩ := h
  refine ⟨?_, hresults, hserving⟩
  simp only [SequentialPeripheral.submit, hpending, Worker.unperformed, Worker.put,
    List.append_assoc]

/-- The command in hand is the first one that is pending. -/
theorem Serves.perform (table : GattTable)
    (h : Serves w p dropped) {cmd : Cmd} (hp : w.phase = .handling cmd)
    {reply : GattReply} {r : PeripheralReply}
    (hr : (p.execute cmd.op r).1 = (w.handleCommand cmd.op reply).1) :
    ∃ p', p.executeNext r = some p' ∧
      (p'.submitted = p.submitted ∧ p'.notified = p.notified) ∧
      (∀ {w₁ : Worker}, Mirrors table w₁ (p.execute cmd.op r).2 → Mirrors table w₁ p') ∧
      Serves { (w.handleCommand cmd.op reply).2 with
        phase := .replying cmd (w.handleCommand cmd.op reply).1 } p' [] := by
  obtain ⟨hpending, hresults, hserving⟩ := h
  obtain rfl := hserving (by simp [Worker.exiting, hp])
  have hnext : p.pending = cmd :: w.queue := by simpa [Worker.unperformed, hp] using hpending
  have hdone : p.results = w.done := by simpa [Worker.replying, hp] using hresults.symm
  obtain ⟨-, hq, -, -, hd⟩ := (Worker.handleCommand_same w cmd.op reply).1
  obtain ⟨-, hsub, -, -, hnot⟩ := p.execute_frame cmd.op r
  unfold SequentialPeripheral.executeNext
  rw [hnext]
  refine ⟨_, rfl, ⟨hsub, hnot⟩, fun hm => ⟨hm.address, hm.gatt, hm.delegate, hm.cache⟩, ?_⟩
  refine ⟨?_, ?_, fun _ => rfl⟩
  · simp [Worker.unperformed, hq]
  · simp [Worker.replying, hd, hdone, hr]

end Steps

/-- The simulation relation: `p` is where the history leads. -/
structure Refines (table : GattTable) (s : ServedWorker) (p : SequentialPeripheral) : Prop where
  replayed : (SequentialPeripheral.system table).replay (fun _ _ => true)
    { address := s.worker.address } s.history = some p
  submitted : p.submitted = s.queued
  notified : p.notified = s.notified
  located : ∀ uuid, s.located uuid = (s.worker.charCache uuid).isSome
  mirrors : Mirrors table s.worker p
  serves : ∃ dropped, Serves s.worker p dropped

namespace ServedWorker
variable {table : GattTable} {s s' : ServedWorker} {p : SequentialPeripheral}

end ServedWorker
end HomeServer.Ble
