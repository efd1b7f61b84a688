import HomeServer.Services.Runtime
import Mathlib.Data.Rat.Defs
import Mathlib.Algebra.Order.Ring.Rat

/-! `BleRuntime`: bring-up, subscriptions and the reconnect monitor, each call a whole
operation. Times are exact rationals. -/
namespace HomeServer.Services
open HomeServer.Db HomeServer.Ble HomeServer.Lib

def reconnectBaseS : ℚ := 1
def reconnectFactor : ℚ := 2
def reconnectCapS : ℚ := 60

namespace BleRuntime
variable {β : Type} (E : Env β)

def openConn : Runtime β Unit := query E fun _ => ()

def touchLastConnected (deviceId : ℕ) : Runtime β Unit := do
  log (.touched deviceId)
  let now ← ask E.wallClock
  execute E fun db => .ok ((), Devices.touchLastConnected db now deviceId)

def subscribeChannel (address : Address) (channel : Channel) : Runtime β Unit := do
  call (E.ble.subscribe address channel.charUuid channel.id)
  modify fun w => { w with
    subscribed := Function.update w.subscribed (address, channel.charUuid) (some channel) }

def subscribeDisplayChannels (device : Device) : Runtime β Unit := do
  let channels ← query E fun db => Channels.listByDevice db device.id
  forM channels fun channel =>
    if channel.type = .display then ignoringErrors (subscribeChannel E device.address channel)
    else pure ()

/-- A link that did not come up is reported as `false`, whatever `connect` raised. -/
def bringUpDevice (device : Device) : Runtime β Bool := do
  let connected ← tryCatch
    (do call (E.ble.connect device.address device.addrType); pure true) fun _ => pure false
  if connected then
    if ← isConnected E device.address then
      subscribeDisplayChannels E device
      pure true
    else pure false
  else pure false

def activate : Runtime β Unit := do
  openConn E
  let deviceList ← query E Database.devices
  forM deviceList fun device => do
    if ← bringUpDevice E device then
      modify fun w => { w with
        monitor := Function.update w.monitor device.address (some { subscribed := true }) }
    else pure ()

def onChannelAdded (device : Device) (channel : Channel) : Runtime β Unit :=
  if channel.type = .display then do
    if ← isConnected E device.address then subscribeChannel E device.address channel
    else pure ()
  else pure ()

def onChannelRemoved (device : Device) (channel : Channel) : Runtime β Unit :=
  if channel.type = .display then do
    modify fun w => { w with
      subscribed := Function.update w.subscribed (device.address, channel.charUuid) none }
    if ← isConnected E device.address then
      call (E.ble.unsubscribe device.address channel.charUuid)
    else pure ()
  else pure ()

def disconnectAll : Runtime β Unit := do
  openConn E
  let deviceList ← query E Database.devices
  forM deviceList fun device => do
    if ← isConnected E device.address then call (E.ble.disconnect device.address)
    else pure ()

def setStatus (deviceId : ℕ) (address : Address) (status : Status) : Runtime β Unit := do
  let state ← stateOf address
  if state.lastStatus = some status then pure ()
  else
    updateState address fun s => { s with lastStatus := some status }
    log (.status deviceId status)
    call (E.onStatus deviceId status)

/-- Subscribe its display channels once per connection. -/
def subscribeOnce (device : Device) : Runtime β Unit := do
  let state ← stateOf device.address
  if state.subscribed then pure ()
  else
    subscribeDisplayChannels E device
    updateState device.address fun s => { s with subscribed := true }

/-- Record the last-online moment on the transition into connected. -/
def touchUnlessConnected (device : Device) : Runtime β Unit := do
  let state ← stateOf device.address
  if state.lastStatus = some .connected then pure () else touchLastConnected E device.id

def onConnected (device : Device) : Runtime β Unit := do
  subscribeOnce E device
  updateState device.address fun s => { s with backoffS := reconnectBaseS, nextRetryAt := 0 }
  touchUnlessConnected E device
  setStatus E device.id device.address .connected

def ensureConnecting (device : Device) : Runtime β Unit := do
  log (.ensured device.address)
  call (E.ble.ensureConnecting device.address device.addrType)

/-- Just observed a drop: record the last-online moment unless this is the first look. -/
def reportDrop (now : ℚ) (device : Device) : Runtime β Unit := do
  let state ← stateOf device.address
  (if state.lastStatus = some .connected then touchLastConnected E device.id else pure ())
  updateState device.address fun s =>
    { s with backoffS := reconnectBaseS, nextRetryAt := now + reconnectBaseS }
  setStatus E device.id device.address .disconnected

/-- Kick an attempt and look again; if the link is still down, wait twice as long. -/
def retryConnect (now : ℚ) (device : Device) : Runtime β Unit := do
  setStatus E device.id device.address .reconnecting
  ensureConnecting E device
  if ← isConnected E device.address then onConnected E device
  else
    updateState device.address fun s =>
      { s with backoffS := min (s.backoffS * reconnectFactor) reconnectCapS }
    updateState device.address fun s => { s with nextRetryAt := now + s.backoffS }

/-- The body of the loop of `_monitor_tick`. -/
def tickDevice (now : ℚ) (device : Device) : Runtime β Unit := do
  updateState device.address id
  if ← isConnected E device.address then onConnected E device
  else
    updateState device.address fun s => { s with subscribed := false }
    let state ← stateOf device.address
    if state.lastStatus = none ∨ state.lastStatus = some .connected then reportDrop E now device
    else if state.nextRetryAt ≤ now then retryConnect E now device
    else pure ()

/-- Entries of addresses that are no longer registered are dropped first. -/
def monitorTick (now : ℚ) : Runtime β Unit := do
  openConn E
  let deviceList ← query E Database.devices
  modify fun w => { w with
    monitor := fun address =>
      if deviceList.any fun d => d.address = address then w.monitor address else none }
  forM deviceList (tickDevice E now)

end BleRuntime
end HomeServer.Services
