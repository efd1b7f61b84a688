import HomeServer.Ble.Parser
import HomeServer.Ble.RateLimiter
import HomeServer.Db.Downsample
import HomeServer.Lib.Action

/-! `ChannelService`: notifications are pushed to the page at once and stored at most once per
interval; commands are written to the peripheral and then stored. -/
namespace HomeServer.Services
open HomeServer.Db HomeServer.Ble HomeServer.Lib

/-- One call of the `on_reading` callback. -/
structure Push where
  channelId : ℕ
  value : PyFloat
  timestamp : Timestamp
  deriving DecidableEq

structure ChannelWorld (τ : Type) where
  db : Database
  limiter : RateLimiter τ
  pushed : List Push := []
  written : List (Address × Uuid × Bytes) := []

/-- A call of `handle_notify` with the clocks it reads and what the callback raises. -/
structure Notification (τ : Type) where
  channelId : ℕ
  rawBytes : Bytes
  clock : τ
  timestamp : Timestamp
  recordedAt : Timestamp
  raised : Option Err := none
  deriving DecidableEq

/-- A call of `write_command` with what the BLE write raises. -/
structure Command where
  channelId : ℕ
  rawValue : PyFloat
  recordedAt : Timestamp
  raised : Option Err := none

namespace ChannelService
variable {τ : Type}

def flagOnThreshold : ℚ := 1 / 2

def store (channelId : ℕ) (value : PyFloat) (recordedAt : Timestamp) :
    Action (ChannelWorld τ) Err Unit := do
  match Readings.insert (← get).db channelId value recordedAt with
  | .ok db => modify fun w => { w with db }
  | .error e => throw e

/-- `write_command` up to the BLE write: where to write what. -/
def encodeCommand (db : Database) (channelId : ℕ) (rawValue : PyFloat) :
    Except Err (Address × Uuid × Bytes) :=
  match Channels.getById db channelId with
  | none => .error (.channelNotFound channelId)
  | some channel =>
    if channel.type = .controller then
      match Parser.encode rawValue channel.dataFormat with
      | .error e => .error e
      | .ok data =>
        match Devices.getById db channel.deviceId with
        | none => .error .assertionError
        | some device => .ok (device.address, channel.charUuid, data)
    else .error (.wrongChannelType channelId)

def writeCommand (cmd : Command) : Action (ChannelWorld τ) Err Unit := do
  match encodeCommand (← get).db cmd.channelId cmd.rawValue with
  | .error e => throw e
  | .ok target =>
    match cmd.raised with
    | some e => throw e
    | none =>
      modify fun w => { w with written := w.written ++ [target] }
      store cmd.channelId cmd.rawValue cmd.recordedAt

def onReading (push : Push) (raised : Option Err) : Action (ChannelWorld τ) Err Unit := do
  modify fun w => { w with pushed := w.pushed ++ [push] }
  match raised with
  | some e => throw e
  | none => pure ()

section Limiter
variable [Sub τ] [LE τ] [DecidableLE τ]

def shouldEmit (key : String) (now : τ) : Action (ChannelWorld τ) Err Bool := do
  let (emit, limiter) := (← get).limiter.shouldEmit key now
  modify fun w => { w with limiter }
  pure emit

def handleNotify (n : Notification τ) : Action (ChannelWorld τ) Err PyFloat := do
  match Channels.getById (← get).db n.channelId with
  | none => throw (.channelNotFound n.channelId)
  | some channel =>
    match Parser.decode n.rawBytes channel.dataFormat with
    | .error e => throw e
    | .ok value =>
      tryCatch (onReading ⟨n.channelId, value, n.timestamp⟩ n.raised) fun _ => pure ()
      (if ← shouldEmit (toString n.channelId) n.clock then
        store n.channelId value n.recordedAt
      else pure ())
      pure value

/-- Whatever a call raises is left to its caller, the delegate of a worker. -/
def handleAll (w : ChannelWorld τ) (ns : List (Notification τ)) : ChannelWorld τ :=
  ns.foldl (fun w n => ((handleNotify n).exec w).2) w

end Limiter

/-- `OBSERVATION_WINDOWS`: the seconds of a window and of its buckets. -/
def observationWindows : List (String × ℤ × ℤ) :=
  [("1m", 60, 1), ("10m", 600, 2), ("1h", 3600, 12), ("1d", 86400, 300), ("1w", 604800, 1800)]

def getHistory (db : Database) (channelId : ℕ) (since til : Option Timestamp := none)
    (limit : Option ℕ := none) : List Reading :=
  Readings.listByChannel db channelId since til limit

def getHistoryWindowed (db : Database) (channelId : ℕ) (window : String) (now : Timestamp) :
    Except Err (List (PyFloat × Timestamp)) :=
  match observationWindows.lookup window with
  | none => .error (.unknownWindow window)
  | some (windowSeconds, bucketSeconds) =>
    Readings.downsampleSince db channelId (now - windowSeconds) bucketSeconds

def getLatest (db : Database) (channelId : ℕ) : Option Reading :=
  Readings.latestByChannel db channelId

/-- The current state of a flag and when it was last on. -/
def getFlagState (db : Database) (channelId : ℕ) : Option Reading × Option Reading :=
  (Readings.latestByChannel db channelId, Readings.latestAtOrAbove db channelId flagOnThreshold)

/-- A channel without a recorded command is off. -/
def controlState (db : Database) (channelId : ℕ) : Bool :=
  (Readings.latestByChannel db channelId).any fun r => r.value.atLeast flagOnThreshold

def controlStates (db : Database) (chans : List Channel) : List (ℕ × Bool) :=
  (chans.filter fun c => c.type = .controller ∧ c.unit = some "0/1").map fun c =>
    (c.id, controlState db c.id)

end ChannelService
end HomeServer.Services
