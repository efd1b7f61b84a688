import HomeServer.Ble.Worker
import HomeServer.Lib.Transition
import HomeServer.Services.ChannelService

/-! Concurrent `write_command` calls on one 0/1 controller. The BLE write waits for a worker
of the peripheral, and the reading is inserted when the caller hears of it; other commands
and new workers may come at any time. -/
namespace HomeServer.Services
open HomeServer.Db HomeServer.Ble HomeServer.Lib ChannelService

inductive WritePc
  | lookup
  | require (address : Address) (charUuid : Uuid) (data : Bytes)
  | submit (worker : ℕ) (charUuid : Uuid) (data : Bytes)
  | wait (worker : ℕ)
  | insert
  | finished (raised : Option Err)
  deriving DecidableEq

/-- A call with the raw value 1 or 0. Its future has the index of the call. -/
structure WriteCall where
  on : Bool
  pc : WritePc := .lookup

def rawValue (on : Bool) : PyFloat := if on then .finite 1 else .finite 0

/-- `current` is the device's entry in the manager's dict; `executed` are the bytes that the
peripheral took for the characteristic, in order. -/
structure ControlWorld where
  db : Database
  now : Timestamp := 0
  workers : List Worker := []
  current : Option ℕ := none
  calls : List WriteCall := []
  executed : List Bytes := []

inductive ControlEvent
  | call (on : Bool)
  | advance (call : ℕ)
  | timeout (call : ℕ)
  | worker (i : ℕ) (e : WorkerEvent)
  | other (i : ℕ) (op : Op)
  | spawn
  | pop
  | pass (now : Timestamp)

def writesOf (charUuid : Uuid) (gatt : List GattOp) : List Bytes :=
  gatt.filterMap fun
    | .write u data => if u = charUuid then some data else none
    | _ => none

namespace ControlWorld

def setPc (s : ControlWorld) (k : ℕ) (call : WriteCall) (pc : WritePc) : ControlWorld :=
  { s with calls := s.calls.set k { call with pc } }

/-- The next step of a call; a wait ends when its future is completed. -/
def advance (channel : Channel) (s : ControlWorld) (k : ℕ) (call : WriteCall) :
    Option ControlWorld :=
  match call.pc with
  | .lookup =>
    match encodeCommand s.db channel.id (rawValue call.on) with
    | .error e => some (s.setPc k call (.finished (some e)))
    | .ok (address, charUuid, data) => some (s.setPc k call (.require address charUuid data))
  | .require address charUuid data =>
    match s.current with
    | none => some (s.setPc k call (.finished (some (.notConnected address))))
    | some i =>
      if (s.workers[i]?).any Worker.isConnected then
        some (s.setPc k call (.submit i charUuid data))
      else some (s.setPc k call (.finished (some (.notConnected address))))
  | .submit i charUuid data =>
    (s.workers[i]?).map fun w =>
      { s.setPc k call (.wait i) with workers := s.workers.set i (w.put ⟨.write charUuid data, k⟩) }
  | .wait i =>
    ((s.workers[i]?).bind fun w => w.done.lookup k).map fun
      | .ok _ => s.setPc k call .insert
      | .error e => s.setPc k call (.finished (some e))
  | .insert =>
    match Readings.insert s.db channel.id (rawValue call.on) s.now with
    | .ok db => some { s.setPc k call (.finished none) with db }
    | .error e => some (s.setPc k call (.finished (some e)))
  | .finished _ => none

def putOther (s : ControlWorld) (i : ℕ) (op : Op) : Option ControlWorld :=
  (s.workers[i]?).map fun w => { s with
    calls := s.calls ++ [{ on := false, pc := .finished none }]
    workers := s.workers.set i (w.put ⟨op, s.calls.length⟩) }

def step (device : Device) (channel : Channel) (s : ControlWorld) : ControlEvent → Option ControlWorld
  | .call on => some { s with calls := s.calls ++ [{ on }] }
  | .advance k => (s.calls[k]?).bind fun call => s.advance channel k call
  | .timeout k => (s.calls[k]?).bind fun call =>
    match call.pc with
    | .wait i =>
      if ((s.workers[i]?).bind fun w => w.done.lookup k).isNone then
        some (s.setPc k call (.finished (some .timeoutError)))
      else none
    | _ => none
  | .worker i e => (s.workers[i]?).bind fun w => (w.step e).map fun w' =>
    { s with
      workers := s.workers.set i w'
      executed := s.executed ++ writesOf channel.charUuid (w'.gatt.drop w.gatt.length) }
  | .other i op =>
    -- Nothing else writes the characteristic.
    match op with
    | .write u _ => if u = channel.charUuid then none else s.putOther i op
    | _ => s.putOther i op
  | .spawn =>
    if (s.current.bind fun i => s.workers[i]?).any Worker.isAlive then none
    else some { s with
      workers := s.workers ++ [{ address := device.address, addrType := device.addrType }]
      current := some s.workers.length }
  | .pop => some { s with current := none }
  | .pass now => if s.now ≤ now then some { s with now } else none

end ControlWorld

/-- The server starts with a 0/1 controller that was never commanded. -/
def controlCalls (device : Device) (channel : Channel) : System ControlWorld ControlEvent where
  init s := s.db.Valid ∧ device ∈ s.db.devices ∧ channel ∈ s.db.channels ∧
    channel.deviceId = device.id ∧ channel.type = .controller ∧ channel.unit = some "0/1" ∧
    channel.dataFormat ∈ Parser.supportedFormats ∧
    Readings.ofChannel s.db channel.id = [] ∧ s = { db := s.db, now := s.now }
  step := ControlWorld.step device channel

/-- The worker has performed the command of this future, and whoever waits for it may go on. -/
def performed (w : Worker) (k : FutureId) : Bool :=
  match w.done.lookup k with
  | some (.ok _) => true
  | some (.error _) => false
  | none =>
    match w.phase with
    | .replying cmd (.ok _) => cmd.future = k
    | _ => false

def heard (workers : List Worker) (pc : WritePc) (k : FutureId) : Bool :=
  match pc with
  | .insert => true
  | .wait i => (workers[i]?).any fun w => performed w k
  | _ => false

def between (s : ControlWorld) (k : ℕ) : Bool :=
  (s.calls[k]?).any fun call => heard s.workers call.pc k

def waits (s : ControlWorld) (i : ℕ) (w : Worker) (k : ℕ) : Bool :=
  ((s.calls[k]?).any fun call => call.pc = .wait i) && (w.done.lookup k).isNone

/-- A write of the characteristic is performed only while its caller still waits for it and
no other call is between its write and its insert; and no caller times out in between. -/
def oneAtATime (channel : Channel) (s : ControlWorld) : ControlEvent → Bool
  | .timeout k => !between s k
  | .worker i (.perform reply) => (s.workers[i]?).all fun w =>
    match w.phase with
    | .handling cmd =>
      (writesOf channel.charUuid ((w.handleCommand cmd.op reply).2.gatt.drop w.gatt.length)).isEmpty
        || (waits s i w cmd.future && (List.range s.calls.length).all fun k => !between s k)
    | _ => true
  | _ => true

end HomeServer.Services
