import HomeServer.Ble.Manager
import HomeServer.Lib.Pool
import HomeServer.Services.Requests

/-! Devices are added and removed, the monitor ticks and scans run at the same time, each in a
thread of its own, over one manager whose workers go on by themselves. Every access to the
tables, the dict, a worker or a future is a step. -/
namespace HomeServer.Services
open HomeServer.Db HomeServer.Ble HomeServer.Lib

/-- Who called `disconnect`. -/
inductive Caller
  | removeDevice (device : Device)
  | scanWindow (address : Address) (rest : List Address)
  deriving DecidableEq

def Caller.address : Caller → Address
  | .removeDevice device => device.address
  | .scanWindow address _ => address

/-- Where a thread is. `worker` is the index read from the dict for `is_connected`, and
`raised` what `disconnect` will raise after its `join`. -/
inductive DevicePc
  | addCreate (ownerUserId : ℕ) (address : Address) (name : String) (addrType : Option AddrType)
  | addEnsure (deviceId : ℕ) (address : Address) (addrType : AddrType)
  | addWait (deviceId : ℕ) (i : ℕ)
  | addFetch (deviceId : ℕ)
  | removeLookup (deviceId : ℕ)
  | removeCheck (device : Device)
  | removeLinked (device : Device) (worker : Option ℕ)
  | removeDelete (device : Device)
  | pop (caller : Caller)
  | shutdown (i : ℕ) (caller : Caller)
  | await (i : ℕ) (future : FutureId) (caller : Caller)
  | join (i : ℕ) (raised : Option Err) (caller : Caller)
  | tickList (now : ℚ)
  | tickCheck (now : ℚ) (devices : List Device)
  | tickLinked (now : ℚ) (device : Device) (rest : List Device) (worker : Option ℕ)
  | tickSubscribe (now : ℚ) (device : Device) (rest : List Device)
  | tickTouch (now : ℚ) (device : Device) (rest : List Device) (status : Status)
  | tickStatus (now : ℚ) (device : Device) (rest : List Device) (status : Status)
  | tickEnsure (now : ℚ) (device : Device) (rest : List Device)
  | tickRecheck (now : ℚ) (device : Device) (rest : List Device)
  | tickRelinked (now : ℚ) (device : Device) (rest : List Device) (worker : Option ℕ)
  | scanList
  | scanCheck (addresses : List Address)
  | scanLinked (address : Address) (rest : List Address) (worker : Option ℕ)
  | scanAcquire
  | scanning
  | finished (raised : Option Err)
  deriving DecidableEq

/-- How the step ends. Only a statement, a callback or the scanner raises of itself, and only
a wait times out; `touched` brings the wall clock. -/
inductive Ending
  | returns
  | touched (now : Timestamp)
  | timesOut
  | raises (e : Err)

structure DeviceWorld where
  db : Database
  manager : BluepyManager := {}
  monitor : Address → Option DeviceMonitorState := fun _ => none

namespace DeviceWorld

def stateOf (s : DeviceWorld) (address : Address) : DeviceMonitorState :=
  (s.monitor address).getD {}

def updateState (s : DeviceWorld) (address : Address)
    (f : DeviceMonitorState → DeviceMonitorState) : DeviceWorld :=
  { s with monitor := Function.update s.monitor address (some (f (s.stateOf address))) }

/-- The first retry comes one base interval after the drop. -/
def resetBackoff (s : DeviceWorld) (now : ℚ) (address : Address) : DeviceWorld :=
  s.updateState address fun state =>
    { state with backoffS := reconnectBaseS, nextRetryAt := now + reconnectBaseS }

end DeviceWorld

namespace DevicePc

def resume : Caller → DevicePc
  | .removeDevice device => .removeDelete device
  | .scanWindow _ rest => .scanCheck rest

def popped (caller : Caller) : Option ℕ → DevicePc
  | none => resume caller
  | some i => .shutdown i caller

/-- After the `join`: an exception of the future leaves `remove_device` and the scan window. -/
def leave (caller : Caller) : Option Err → DevicePc
  | none => resume caller
  | some e => .finished (some e)

def advance (s : DeviceWorld) : DevicePc → Ending → Option (DeviceWorld × DevicePc)
  -- add_device: what `connect` raises is only logged
  | .addCreate ownerUserId address name addrType, .returns =>
    if matchesMac address then
      match DeviceService.resolveAddrType address addrType with
      | .error e => some (s, .finished (some e))
      | .ok resolved =>
        match Devices.create s.db address name ownerUserId resolved with
        | .error e => some (s, .finished (some e))
        | .ok (deviceId, db) => some ({ s with db }, .addEnsure deviceId address resolved)
    else some (s, .finished (some (.invalidAddress address)))
  | .addEnsure deviceId address addrType, .returns =>
    some ({ s with manager := (s.manager.ensureWorker address addrType).2 },
      .addWait deviceId (s.manager.ensureWorker address addrType).1)
  | .addWait deviceId i, .returns =>
    ((s.manager.started[i]?).bind Worker.connectFuture).map fun _ => (s, .addFetch deviceId)
  | .addWait deviceId i, .timesOut =>
    if ((s.manager.started[i]?).bind Worker.connectFuture).isNone then some (s, .addFetch deviceId)
    else none
  | .addFetch deviceId, .returns =>
    some (s, .finished
      (if (Devices.getById s.db deviceId).isSome then none else some .assertionError))
  -- remove_device
  | .removeLookup deviceId, .returns =>
    match Devices.getById s.db deviceId with
    | none => some (s, .finished (some (.deviceNotFound deviceId)))
    | some device => some (s, .removeCheck device)
  | .removeCheck device, .returns =>
    some (s, .removeLinked device (s.manager.workers device.address))
  | .removeLinked device worker, .returns =>
    some (s, if s.manager.linked worker then .pop (.removeDevice device) else .removeDelete device)
  | .removeDelete device, .returns =>
    match Devices.delete s.db device.id with
    | .error e => some (s, .finished (some e))
    | .ok db => some ({ s with db }, .finished none)
  -- disconnect
  | .pop caller, .returns =>
    some ({ s with manager := (s.manager.pop caller.address).2 },
      popped caller (s.manager.pop caller.address).1)
  | .shutdown i caller, .returns =>
    some ({ s with manager := (s.manager.submit i .shutdown).2 },
      .await i (s.manager.submit i .shutdown).1 caller)
  | .await i future caller, .returns =>
    (s.manager.result i future).map fun
      | .ok _ => (s, .join i none caller)
      | .error e => (s, .join i (some e) caller)
  | .await i future caller, .timesOut =>
    if (s.manager.result i future).isNone then some (s, .join i (some .timeoutError) caller)
    else none
  | .join i raised caller, .returns =>
    if (s.manager.started[i]?).any Worker.isAlive then none else some (s, leave caller raised)
  | .join i raised caller, .timesOut =>
    if (s.manager.started[i]?).any Worker.isAlive then some (s, leave caller raised) else none
  -- _monitor_tick
  | .tickList now, .returns =>
    some ({ s with
        monitor := fun address =>
          if s.db.devices.any fun d => d.address = address then s.monitor address else none },
      .tickCheck now s.db.devices)
  | .tickCheck _ [], .returns => some (s, .finished none)
  | .tickCheck now (device :: rest), .returns =>
    some (s.updateState device.address id,
      .tickLinked now device rest (s.manager.workers device.address))
  | .tickLinked now device rest worker, .returns =>
    if s.manager.linked worker then some (s, .tickSubscribe now device rest)
    else
      let s := s.updateState device.address fun state => { state with subscribed := false }
      match (s.stateOf device.address).lastStatus with
      | some .connected => some (s, .tickTouch now device rest .disconnected)
      | none => some (s.resetBackoff now device.address, .tickStatus now device rest .disconnected)
      | some .reconnecting | some .disconnected =>
        if (s.stateOf device.address).nextRetryAt ≤ now then
          some (s, .tickStatus now device rest .reconnecting)
        else some (s, .tickCheck now rest)
  | .tickSubscribe now device rest, .returns =>
    some (s.updateState device.address fun state =>
        { state with subscribed := true, backoffS := reconnectBaseS, nextRetryAt := 0 },
      if (s.stateOf device.address).lastStatus = some .connected then
        .tickStatus now device rest .connected
      else .tickTouch now device rest .connected)
  | .tickSubscribe _ device _, .raises e =>
    if (s.stateOf device.address).subscribed then none else some (s, .finished (some e))
  | .tickTouch now device rest status, .touched time =>
    let s := { s with db := Devices.touchLastConnected s.db time device.id }
    some (if status = .disconnected then s.resetBackoff now device.address else s,
      .tickStatus now device rest status)
  | .tickStatus now device rest status, .returns =>
    some (s.updateState device.address fun state => { state with lastStatus := some status },
      if status = .reconnecting then .tickEnsure now device rest else .tickCheck now rest)
  | .tickStatus _ device _ status, .raises e =>
    if (s.stateOf device.address).lastStatus = some status then none
    else some (s.updateState device.address fun state => { state with lastStatus := some status },
      .finished (some e))
  | .tickEnsure now device rest, .returns =>
    some ({ s with manager := (s.manager.ensureWorker device.address device.addrType).2 },
      .tickRecheck now device rest)
  | .tickRecheck now device rest, .returns =>
    some (s, .tickRelinked now device rest (s.manager.workers device.address))
  | .tickRelinked now device rest worker, .returns =>
    if s.manager.linked worker then some (s, .tickSubscribe now device rest)
    else
      some (s.updateState device.address fun state =>
        { state with
          backoffS := min (state.backoffS * reconnectFactor) reconnectCapS
          nextRetryAt := now + min (state.backoffS * reconnectFactor) reconnectCapS },
        .tickCheck now rest)
  -- scan_window around start_scan
  | .scanList, .returns => some (s, .scanCheck (s.db.devices.map Device.address))
  | .scanCheck [], .returns => some (s, .scanAcquire)
  | .scanCheck (address :: rest), .returns =>
    some (s, .scanLinked address rest (s.manager.workers address))
  | .scanLinked address rest worker, .returns =>
    some (s, if s.manager.linked worker then .pop (.scanWindow address rest) else .scanCheck rest)
  | .scanAcquire, .returns =>
    if s.manager.adapterLock then none
    else some ({ s with manager := { s.manager with adapterLock := true } }, .scanning)
  | .scanning, .returns =>
    some ({ s with manager := { s.manager with adapterLock := false } }, .finished none)
  | .scanning, .raises e =>
    some ({ s with manager := { s.manager with adapterLock := false } }, .finished (some e))
  -- a statement finds the file locked
  | .addCreate .., .raises e | .addFetch _, .raises e | .removeLookup _, .raises e
  | .removeDelete _, .raises e | .tickList _, .raises e | .tickTouch .., .raises e
  | .scanList, .raises e => some (s, .finished (some e))
  | _, _ => none

end DevicePc

inductive DeviceEvent
  | addDevice (ownerUserId : ℕ) (address : Address) (name : String) (addrType : Option AddrType)
  | removeDevice (deviceId : ℕ)
  | monitorTick (now : ℚ)
  | scanWindow
  | thread (i : ℕ) (ending : Ending)
  | worker (i : ℕ) (e : WorkerEvent)
  | submit (i : ℕ) (op : Op)

abbrev DeviceThreads := Pool DeviceWorld DevicePc

/-- Other requests may `submit` any command but a shutdown. The monitor is not stopped for a
scan here: a tick may begin at any time. -/
def deviceThreads : System DeviceThreads DeviceEvent where
  init p := p.threads = [] ∧ p.shared.db.Valid ∧ p.shared = { db := p.shared.db }
  step p
    | .addDevice ownerUserId address name addrType =>
      some (p.spawn (.addCreate ownerUserId address name addrType))
    | .removeDevice deviceId => some (p.spawn (.removeLookup deviceId))
    | .monitorTick now => some (p.spawn (.tickList now))
    | .scanWindow => some (p.spawn .scanList)
    | .thread i ending => p.step DevicePc.advance i ending
    | .worker i e => (p.shared.manager.stepWorker i e).map fun manager =>
      { p with shared := { p.shared with manager } }
    | .submit i op =>
      if op = .shutdown then none
      else some { p with shared := { p.shared with manager := (p.shared.manager.submit i op).2 } }

def isRegistered (db : Database) (address : Address) : Bool :=
  db.devices.any fun d => d.address = address

def DevicePc.removing (address : Address) : DevicePc → Bool
  | .shutdown _ (.removeDevice device) | .await _ _ (.removeDevice device)
  | .join _ none (.removeDevice device) | .removeDelete device => device.address = address
  | _ => false

/-- A new worker may be started for `address`: it has a row, and none of the removals is about
to delete it. A worker that is alive is only reused. -/
def mayStart (p : DeviceThreads) (address : Address) : Bool :=
  (p.shared.manager.entry address).any Worker.isAlive ||
    isRegistered p.shared.db address && !p.threads.any (DevicePc.removing address)

/-- `remove_device` finds the device not connected only when no attempt is in flight for it,
and no tick or `add_device` starts an attempt for a device that is removed or being removed. -/
def attemptsEnd (p : DeviceThreads) : DeviceEvent → Bool
  | .thread i _ =>
    match p.threads[i]? with
    | some (.removeLinked device worker) =>
      p.shared.manager.linked worker || !p.shared.manager.holds device.address
    | some (.addEnsure _ address _) => mayStart p address
    | some (.tickEnsure _ device _) => mayStart p device.address
    | _ => true
  | _ => true

end HomeServer.Services
