import HomeServer.Ble.Worker
import HomeServer.Lib.Transition

/-! A peripheral as its clients see it: commands executed one at a time in the order of their
submission, over a map from characteristics to callbacks. -/
namespace HomeServer.Ble
open HomeServer.Db HomeServer.Lib

/-- What a peripheral answers one command: whether it has the characteristic, and the result of
the read or write that follows. -/
structure PeripheralReply where
  found : Except Err Bool
  io : Except Err Bytes

namespace PeripheralReply

def accepts (reply : PeripheralReply) : Bool :=
  match reply.found, reply.io with
  | .ok true, .ok _ => true
  | _, _ => false

/-- What is enough for an unsubscribe: a `BTLEException` of its write does no harm. -/
def removes (reply : PeripheralReply) : Bool :=
  match reply.found, reply.io with
  | .ok true, .ok _ => true
  | .ok true, .error e => Worker.isBtleException e
  | _, _ => false

end PeripheralReply

/-- `callbacks` holds for a characteristic the callback of its latest successful subscribe. -/
structure SequentialPeripheral where
  address : Address
  submitted : List Cmd := []
  pending : List Cmd := []
  callbacks : Uuid → Option NotifyCallback := fun _ => none
  results : List (FutureId × Outcome) := []
  gatt : List GattOp := []
  notified : List (Handle × Bytes × Option NotifyCallback) := []

/-- Where the peripheral has its characteristics: distinct ones have distinct handles. -/
structure GattTable where
  handleOf : Uuid → Option Handle
  charOf : Handle → Option Uuid
  agree : ∀ uuid handle, handleOf uuid = some handle ↔ charOf handle = some uuid

inductive PeripheralEvent
  | submit (cmd : Cmd)
  | execute (reply : PeripheralReply)
  | notification (handle : Handle) (data : Bytes)

namespace SequentialPeripheral

def perform (p : SequentialPeripheral) (op : GattOp) : SequentialPeripheral :=
  { p with gatt := p.gatt ++ [op] }

def setCallback (p : SequentialPeripheral) (uuid : Uuid) (callback : Option NotifyCallback) :
    SequentialPeripheral :=
  { p with callbacks := Function.update p.callbacks uuid callback }

def locate (p : SequentialPeripheral) (uuid : Uuid) (reply : PeripheralReply) : Except Err Unit :=
  match reply.found with
  | .error e => .error e
  | .ok false => .error (.characteristicNotFound uuid p.address)
  | .ok true => .ok ()

/-- The read or write of a characteristic, which has to be found first. -/
def access (p : SequentialPeripheral) (uuid : Uuid) (reply : PeripheralReply) : Except Err Bytes :=
  match p.locate uuid reply with
  | .error e => .error e
  | .ok () => reply.io

/-- A command that fails changes nothing, but for an unsubscribe that found its characteristic:
a `BTLEException` does not keep the callback. -/
def execute (p : SequentialPeripheral) (op : Op) (reply : PeripheralReply) :
    Outcome × SequentialPeripheral :=
  match op with
  | .shutdown => (.ok none, p)
  | .unknown name => (.error (.unknownOp name), p)
  | .read uuid =>
    match p.access uuid reply with
    | .error e => (.error e, p)
    | .ok bytes => (.ok (some bytes), p.perform (.read uuid))
  | .write uuid data =>
    match p.access uuid reply with
    | .error e => (.error e, p)
    | .ok _ => (.ok none, p.perform (.write uuid data))
  | .subscribe uuid callback =>
    match p.access uuid reply with
    | .error e => (.error e, p)
    | .ok _ => (.ok none, (p.setCallback uuid (some callback)).perform (.notifyOn uuid))
  | .unsubscribe uuid =>
    match p.locate uuid reply with
    | .error e => (.error e, p)
    | .ok () =>
      match reply.io with
      | .error e =>
        if Worker.isBtleException e then (.ok none, p.setCallback uuid none) else (.error e, p)
      | .ok _ => (.ok none, (p.setCallback uuid none).perform (.notifyOff uuid))

def submit (p : SequentialPeripheral) (cmd : Cmd) : SequentialPeripheral :=
  { p with submitted := p.submitted ++ [cmd], pending := p.pending ++ [cmd] }

/-- The first pending command is executed and its future completed, in one step. -/
def executeNext (p : SequentialPeripheral) (reply : PeripheralReply) :
    Option SequentialPeripheral :=
  match p.pending with
  | [] => none
  | cmd :: rest => some { (p.execute cmd.op reply).2 with
      pending := rest
      results := p.results ++ [(cmd.future, (p.execute cmd.op reply).1)] }

/-- The callback that a notification from this handle goes to. -/
def receiver (table : GattTable) (p : SequentialPeripheral) (handle : Handle) :
    Option NotifyCallback :=
  (table.charOf handle).bind p.callbacks

def step (table : GattTable) (p : SequentialPeripheral) :
    PeripheralEvent → Option SequentialPeripheral
  | .submit cmd => some (p.submit cmd)
  | .execute reply => p.executeNext reply
  | .notification handle data =>
    some { p with notified := p.notified ++ [(handle, data, p.receiver table handle)] }

def system (table : GattTable) : System SequentialPeripheral PeripheralEvent where
  init p := ∃ address, p = { address }
  step := step table

/-- What executing a command leaves alone. -/
theorem execute_frame (p : SequentialPeripheral) (op : Op) (reply : PeripheralReply) :
    (p.execute op reply).2.address = p.address ∧
      (p.execute op reply).2.submitted = p.submitted ∧
      (p.execute op reply).2.pending = p.pending ∧
      (p.execute op reply).2.results = p.results ∧
      (p.execute op reply).2.notified = p.notified := by
  cases op with
  | shutdown | unknown => exact ⟨rfl, rfl, rfl, rfl, rfl⟩
  | read | write | subscribe =>
    simp only [execute]
    split <;> exact ⟨rfl, rfl, rfl, rfl, rfl⟩
  | unsubscribe =>
    simp only [execute]
    split
    · exact ⟨rfl, rfl, rfl, rfl, rfl⟩
    · split
      · split <;> exact ⟨rfl, rfl, rfl, rfl, rfl⟩
      · exact ⟨rfl, rfl, rfl, rfl, rfl⟩

theorem execute_callbacks (p : SequentialPeripheral) (op : Op) (reply : PeripheralReply) :
    (p.execute op reply).2.callbacks = match op with
      | .subscribe uuid callback =>
        if reply.accepts then Function.update p.callbacks uuid (some callback) else p.callbacks
      | .unsubscribe uuid =>
        if reply.removes then Function.update p.callbacks uuid none else p.callbacks
      | _ => p.callbacks := by
  obtain ⟨found, io⟩ := reply
  cases op with
  | shutdown | unknown => rfl
  | read | write => simp only [execute]; split <;> rfl
  | subscribe =>
    rcases found with e | _ | _
    · rfl
    · rfl
    · cases io <;> rfl
  | unsubscribe =>
    rcases found with e | _ | _
    · rfl
    · rfl
    · cases io with
      | ok => rfl
      | error e =>
        simp only [execute, locate, PeripheralReply.removes]
        split <;> simp_all [setCallback]

/-- A callback was there before, or is the one just subscribed. -/
theorem callbacks_of_execute {p : SequentialPeripheral} {op : Op} {reply : PeripheralReply}
    {uuid : Uuid} {callback : NotifyCallback}
    (h : (p.execute op reply).2.callbacks uuid = some callback) :
    p.callbacks uuid = some callback ∨ op = .subscribe uuid callback ∧ reply.accepts = true := by
  rw [execute_callbacks] at h
  cases op with
  | shutdown | unknown | read | write => exact Or.inl h
  | subscribe uuid' callback' =>
    cases hreply : reply.accepts with
    | false => simpa [hreply] using h
    | true =>
      by_cases hu : uuid = uuid'
      · subst hu
        simp only [hreply, if_true, Function.update_self, Option.some.injEq] at h
        exact Or.inr ⟨by rw [h], rfl⟩
      · simp only [hreply, if_true, Function.update_of_ne hu] at h
        exact Or.inl h
  | unsubscribe uuid' =>
    cases hreply : reply.removes with
    | false => simpa [hreply] using h
    | true =>
      by_cases hu : uuid = uuid'
      · simp [hreply, hu] at h
      · simp only [hreply, if_true, Function.update_of_ne hu] at h
        exact Or.inl h

def futures (p : SequentialPeripheral) : List FutureId :=
  p.results.map Prod.fst ++ p.pending.map Cmd.future

theorem submit_futures (p : SequentialPeripheral) (cmd : Cmd) :
    (p.submit cmd).futures = p.futures ++ [cmd.future] := by
  simp [futures, submit]

theorem executeNext_spec {p p' : SequentialPeripheral} {reply : PeripheralReply}
    (h : p.executeNext reply = some p') : ∃ cmd rest, p.pending = cmd :: rest ∧
      p'.pending = rest ∧ p'.futures = p.futures ∧
      p'.callbacks = (p.execute cmd.op reply).2.callbacks := by
  unfold executeNext at h
  split at h
  · cases h
  · rename_i cmd rest hq
    cases h
    exact ⟨cmd, rest, hq, rfl, by simp [futures, hq], rfl⟩

end SequentialPeripheral
end HomeServer.Ble
