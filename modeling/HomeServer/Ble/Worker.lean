import HomeServer.Db.Tables
import Mathlib.Logic.Function.Basic

/-! `_PeripheralWorker`: the thread that owns one bluepy peripheral. A phase is a point of
`run` at which other threads may act; an event is the worker's next step, with what bluepy
answered. -/
namespace HomeServer.Ble
open HomeServer.Db

abbrev FutureId := ℕ
abbrev Handle := ℕ

/-- The channel id captured by the notify closure of `subscribe_channel`. -/
abbrev NotifyCallback := ℕ

inductive Op
  | read (charUuid : Uuid)
  | write (charUuid : Uuid) (data : Bytes)
  | subscribe (charUuid : Uuid) (callback : NotifyCallback)
  | unsubscribe (charUuid : Uuid)
  | shutdown
  | unknown (op : String)
  deriving DecidableEq

structure Cmd where
  op : Op
  future : FutureId
  deriving DecidableEq

/-- What a future is completed with; only `read` has a value. -/
abbrev Outcome := Except Err (Option Bytes)

/-- An operation on the peripheral that succeeded. -/
inductive GattOp
  | read (charUuid : Uuid)
  | write (charUuid : Uuid) (data : Bytes)
  | notifyOn (charUuid : Uuid)
  | notifyOff (charUuid : Uuid)
  deriving DecidableEq

inductive Phase
  | starting
  | connecting
  | announcing
  | loop
  | handling (cmd : Cmd)
  | replying (cmd : Cmd) (outcome : Outcome)
  | polling
  | draining
  | clearing
  | closing
  | ended
  deriving DecidableEq

/-- `done` lists the futures completed so far, `gatt` the operations performed. -/
structure Worker where
  address : Address
  addrType : AddrType
  queue : List Cmd := []
  delegate : Handle → Option (Uuid × NotifyCallback) := fun _ => none
  charCache : Uuid → Option Handle := fun _ => none
  connected : Bool := false
  stopEvent : Bool := false
  connectFuture : Option (Except Err Unit) := none
  phase : Phase := .starting
  done : List (FutureId × Outcome) := []
  gatt : List GattOp := []

/-- What bluepy answers while one command is handled: the characteristics found, and the
result of the read or write that follows. -/
structure GattReply where
  found : Except Err (List Handle)
  io : Except Err Bytes

inductive WorkerEvent
  | acquire
  | connectOk
  | connectFailed (e : Err)
  | announce
  | head
  | perform (reply : GattReply)
  | complete
  | pollReturned
  | pollDisconnected
  | pollRaised (e : Err)
  | drain
  | clear
  | hangUp

namespace Worker

def isConnected (w : Worker) : Bool := w.connected

def isAlive (w : Worker) : Bool := decide (w.phase ≠ .ended)

/-- `submit` once its future exists: the command is put on the queue. -/
def put (w : Worker) (cmd : Cmd) : Worker := { w with queue := w.queue ++ [cmd] }

/-- `_char`: the cached characteristic, or the first one bluepy finds. -/
def char (w : Worker) (uuid : Uuid) (found : Except Err (List Handle)) : Except Err Handle × Worker :=
  match w.charCache uuid with
  | some handle => (.ok handle, w)
  | none =>
    match found with
    | .error e => (.error e, w)
    | .ok [] => (.error (.characteristicNotFound uuid w.address), w)
    | .ok (handle :: _) =>
      (.ok handle, { w with charCache := Function.update w.charCache uuid (some handle) })

/-- `_enable_notify`: write 0x0001 to the CCCD, then register the callback. -/
def enableNotify (w : Worker) (uuid : Uuid) (callback : NotifyCallback) (reply : GattReply) :
    Outcome × Worker :=
  match w.char uuid reply.found with
  | (.error e, w) => (.error e, w)
  | (.ok handle, w) =>
    match reply.io with
    | .error e => (.error e, w)
    | .ok _ => (.ok none, { w with
        delegate := Function.update w.delegate handle (some (uuid, callback))
        gatt := w.gatt ++ [.notifyOn uuid] })

/-- The `BTLEException`s that `_disable_notify` swallows. -/
def isBtleException : Err → Bool
  | .btleException | .btleDisconnectError => true
  | _ => false

/-- `_disable_notify`: a `BTLEException` from the CCCD write is only logged. -/
def disableNotify (w : Worker) (uuid : Uuid) (reply : GattReply) : Outcome × Worker :=
  match w.char uuid reply.found with
  | (.error e, w) => (.error e, w)
  | (.ok handle, w) =>
    let dropped := Function.update w.delegate handle none
    match reply.io with
    | .error e =>
      if isBtleException e then (.ok none, { w with delegate := dropped }) else (.error e, w)
    | .ok _ => (.ok none, { w with delegate := dropped, gatt := w.gatt ++ [.notifyOff uuid] })

/-- The body of `_handle_command`, up to the completion of the future. -/
def handleCommand (w : Worker) (op : Op) (reply : GattReply) : Outcome × Worker :=
  match op with
  | .shutdown => (.ok none, { w with stopEvent := true })
  | .read uuid =>
    match w.char uuid reply.found with
    | (.error e, w) => (.error e, w)
    | (.ok _, w) =>
      match reply.io with
      | .error e => (.error e, w)
      | .ok bytes => (.ok (some bytes), { w with gatt := w.gatt ++ [.read uuid] })
  | .write uuid data =>
    match w.char uuid reply.found with
    | (.error e, w) => (.error e, w)
    | (.ok _, w) =>
      match reply.io with
      | .error e => (.error e, w)
      | .ok _ => (.ok none, { w with gatt := w.gatt ++ [.write uuid data] })
  | .subscribe uuid callback => w.enableNotify uuid callback reply
  | .unsubscribe uuid => w.disableNotify uuid reply
  | .unknown name => (.error (.unknownOp name), w)

/-- What handling a command leaves alone; the stop event changes only for a shutdown. -/
structure SameThread (w w' : Worker) : Prop where
  address : w'.address = w.address
  queue : w'.queue = w.queue
  connected : w'.connected = w.connected
  connectFuture : w'.connectFuture = w.connectFuture
  done : w'.done = w.done

theorem SameThread.refl (w : Worker) : SameThread w w := ⟨rfl, rfl, rfl, rfl, rfl⟩

theorem char_same (w : Worker) (uuid : Uuid) (found : Except Err (List Handle)) :
    SameThread w (w.char uuid found).2 ∧ (w.char uuid found).2.stopEvent = w.stopEvent ∧
      (w.char uuid found).2.gatt = w.gatt := by
  unfold char
  cases w.charCache uuid with
  | some handle => exact ⟨.refl w, rfl, rfl⟩
  | none =>
    cases found with
    | error e => exact ⟨.refl w, rfl, rfl⟩
    | ok handles =>
      cases handles with
      | nil => exact ⟨.refl w, rfl, rfl⟩
      | cons handle rest => exact ⟨⟨rfl, rfl, rfl, rfl, rfl⟩, rfl, rfl⟩

theorem handleCommand_same (w : Worker) (op : Op) (reply : GattReply) :
    SameThread w (w.handleCommand op reply).2 ∧
      (w.handleCommand op reply).2.stopEvent = (w.stopEvent || decide (op = .shutdown)) := by
  have hchar : ∀ uuid, SameThread w (w.char uuid reply.found).2 ∧
      (w.char uuid reply.found).2.stopEvent = w.stopEvent := fun uuid =>
    ⟨(char_same w uuid reply.found).1, (char_same w uuid reply.found).2.1⟩
  cases op with
  | shutdown => exact ⟨⟨rfl, rfl, rfl, rfl, rfl⟩, by simp [handleCommand]⟩
  | unknown name => exact ⟨.refl w, by simp [handleCommand]⟩
  | read uuid | write uuid data =>
    obtain ⟨⟨ha, hq, hc, hf, hd⟩, hs⟩ := hchar uuid
    simp only [handleCommand]
    split <;> rename_i heq <;> simp only [heq] at ha hq hc hf hd hs
    · exact ⟨⟨ha, hq, hc, hf, hd⟩, by simp [hs]⟩
    · split <;> exact ⟨⟨ha, hq, hc, hf, hd⟩, by simp [hs]⟩
  | subscribe uuid callback =>
    obtain ⟨⟨ha, hq, hc, hf, hd⟩, hs⟩ := hchar uuid
    simp only [handleCommand, enableNotify]
    split <;> rename_i heq <;> simp only [heq] at ha hq hc hf hd hs
    · exact ⟨⟨ha, hq, hc, hf, hd⟩, by simp [hs]⟩
    · split <;> exact ⟨⟨ha, hq, hc, hf, hd⟩, by simp [hs]⟩
  | unsubscribe uuid =>
    obtain ⟨⟨ha, hq, hc, hf, hd⟩, hs⟩ := hchar uuid
    simp only [handleCommand, disableNotify]
    split <;> rename_i heq <;> simp only [heq] at ha hq hc hf hd hs
    · exact ⟨⟨ha, hq, hc, hf, hd⟩, by simp [hs]⟩
    · split
      · split <;> exact ⟨⟨ha, hq, hc, hf, hd⟩, by simp [hs]⟩
      · exact ⟨⟨ha, hq, hc, hf, hd⟩, by simp [hs]⟩

/-- One step of `run`. The adapter lock taken by `acquire` is held until `connectOk` or
`connectFailed`; the manager's system guards it. -/
def step (w : Worker) (e : WorkerEvent) : Option Worker :=
  match w.phase, e with
  | .starting, .acquire => some { w with phase := .connecting }
  | .connecting, .connectOk => some { w with phase := .announcing, connected := true }
  | .connecting, .connectFailed e =>
    some { w with phase := .ended, connectFuture := some (.error e) }
  | .announcing, .announce => some { w with phase := .loop, connectFuture := some (.ok ()) }
  | .loop, .head =>
    if w.stopEvent then some { w with phase := .clearing }
    else
      match w.queue with
      | [] => some { w with phase := .polling }
      | cmd :: rest => some { w with phase := .handling cmd, queue := rest }
  | .handling cmd, .perform reply =>
    let (outcome, w) := w.handleCommand cmd.op reply
    some { w with phase := .replying cmd outcome }
  | .replying cmd outcome, .complete =>
    some { w with phase := .loop, done := w.done ++ [(cmd.future, outcome)] }
  | .polling, .pollReturned => some { w with phase := .loop }
  | .polling, .pollDisconnected => some { w with phase := .draining, stopEvent := true }
  | .polling, .pollRaised _ => some { w with phase := .clearing }
  | .draining, .drain =>
    match w.queue with
    | [] => some { w with phase := .clearing }
    | cmd :: rest =>
      some { w with queue := rest, done := w.done ++ [(cmd.future, .error .peripheralDisconnected)] }
  | .clearing, .clear => some { w with phase := .closing, connected := false }
  | .closing, .hangUp => some { w with phase := .ended }
  | _, _ => none

/-- The steps of `run`, one constructor each. -/
inductive Moves (w : Worker) : WorkerEvent → Worker → Prop
  | acquire (h : w.phase = .starting) : Moves w .acquire { w with phase := .connecting }
  | connectOk (h : w.phase = .connecting) :
      Moves w .connectOk { w with phase := .announcing, connected := true }
  | connectFailed (h : w.phase = .connecting) (e : Err) :
      Moves w (.connectFailed e) { w with phase := .ended, connectFuture := some (.error e) }
  | announce (h : w.phase = .announcing) :
      Moves w .announce { w with phase := .loop, connectFuture := some (.ok ()) }
  | leave (h : w.phase = .loop) (hs : w.stopEvent = true) :
      Moves w .head { w with phase := .clearing }
  | poll (h : w.phase = .loop) (hs : w.stopEvent = false) (hq : w.queue = []) :
      Moves w .head { w with phase := .polling }
  | take (h : w.phase = .loop) (hs : w.stopEvent = false) (cmd : Cmd) (rest : List Cmd)
      (hq : w.queue = cmd :: rest) :
      Moves w .head { w with phase := .handling cmd, queue := rest }
  | perform (cmd : Cmd) (h : w.phase = .handling cmd) (reply : GattReply) :
      Moves w (.perform reply) { (w.handleCommand cmd.op reply).2 with
        phase := .replying cmd (w.handleCommand cmd.op reply).1 }
  | complete (cmd : Cmd) (outcome : Outcome) (h : w.phase = .replying cmd outcome) :
      Moves w .complete { w with phase := .loop, done := w.done ++ [(cmd.future, outcome)] }
  | pollReturned (h : w.phase = .polling) : Moves w .pollReturned { w with phase := .loop }
  | pollDisconnected (h : w.phase = .polling) :
      Moves w .pollDisconnected { w with phase := .draining, stopEvent := true }
  | pollRaised (h : w.phase = .polling) (e : Err) :
      Moves w (.pollRaised e) { w with phase := .clearing }
  | drained (h : w.phase = .draining) (hq : w.queue = []) :
      Moves w .drain { w with phase := .clearing }
  | drainOne (h : w.phase = .draining) (cmd : Cmd) (rest : List Cmd) (hq : w.queue = cmd :: rest) :
      Moves w .drain { w with
        queue := rest, done := w.done ++ [(cmd.future, .error .peripheralDisconnected)] }
  | clear (h : w.phase = .clearing) : Moves w .clear { w with phase := .closing, connected := false }
  | hangUp (h : w.phase = .closing) : Moves w .hangUp { w with phase := .ended }

theorem step_moves {w w' : Worker} {e : WorkerEvent} (h : w.step e = some w') : Moves w e w' := by
  unfold step at h
  split at h
  case h_1 hp => cases Option.some.inj h; exact .acquire hp
  case h_2 hp => cases Option.some.inj h; exact .connectOk hp
  case h_3 e hp => cases Option.some.inj h; exact .connectFailed hp e
  case h_4 hp => cases Option.some.inj h; exact .announce hp
  case h_5 hp =>
    split_ifs at h with hs
    · cases Option.some.inj h; exact .leave hp hs
    · have hs : w.stopEvent = false := by simpa using hs
      split at h <;> rename_i hq <;> cases Option.some.inj h
      · exact .poll hp hs hq
      · exact .take hp hs _ _ hq
  case h_6 cmd reply hp => cases Option.some.inj h; exact .perform cmd hp reply
  case h_7 cmd outcome hp => cases Option.some.inj h; exact .complete cmd outcome hp
  case h_8 hp => cases Option.some.inj h; exact .pollReturned hp
  case h_9 hp => cases Option.some.inj h; exact .pollDisconnected hp
  case h_10 e hp => cases Option.some.inj h; exact .pollRaised hp e
  case h_11 hp =>
    split at h <;> rename_i hq <;> cases Option.some.inj h
    · exact .drained hp hq
    · exact .drainOne hp _ _ hq
  case h_12 hp => cases Option.some.inj h; exact .clear hp
  case h_13 hp => cases Option.some.inj h; exact .hangUp hp
  case h_14 => cases h

def inHand (w : Worker) : List FutureId :=
  match w.phase with
  | .handling cmd | .replying cmd _ => [cmd.future]
  | _ => []

def futures (w : Worker) : List FutureId :=
  w.done.map Prod.fst ++ w.inHand ++ w.queue.map Cmd.future

/-- No step of the worker drops or duplicates a future. -/
theorem step_futures {w w' : Worker} {e : WorkerEvent} (h : w.step e = some w') :
    w'.futures = w.futures := by
  cases step_moves h with
  | take hp hs cmd rest hq => simp [futures, inHand, hp, hq]
  | perform cmd hp reply =>
    obtain ⟨-, hq, -, -, hd⟩ := (handleCommand_same w cmd.op reply).1
    simp [futures, inHand, hp, hq, hd]
  | complete cmd outcome hp => simp [futures, inHand, hp]
  | drainOne hp cmd rest hq => simp [futures, inHand, hp, hq]
  | acquire hp | connectOk hp | connectFailed hp | announce hp | leave hp | poll hp
  | pollReturned hp | pollDisconnected hp | pollRaised hp | drained hp | clear hp | hangUp hp =>
    simp [futures, inHand, hp]

@[simp] theorem futures_put (w : Worker) (cmd : Cmd) :
    (w.put cmd).futures = w.futures ++ [cmd.future] := by
  simp [futures, put, inHand]

end Worker
end HomeServer.Ble
