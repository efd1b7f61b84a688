import HomeServer.Services.ChannelService

/-! The JSON endpoints of a channel: what each puts in its response, or how it raises. -/
namespace HomeServer.Services
open HomeServer.Db

inductive ReadRequest
  | history (channelId : ℕ) (window : Option String) (limit : Option ℤ)
  | latest (channelId : ℕ)
  | flag (channelId : ℕ)

/-- `none` is `null`. -/
inductive Reply
  | notFound
  | badRequest
  | history (channelId : ℕ) (readings : List (PyFloat × Timestamp))
  | latest (channelId : ℕ) (value : Option PyFloat) (timestamp : Option Timestamp)
  | flag (channelId : ℕ) (value : Option PyFloat) (recordedAt lastOnAt : Option Timestamp)
  deriving DecidableEq

def Reply.values : Reply → List PyFloat
  | .notFound | .badRequest => []
  | .history _ readings => readings.map Prod.fst
  | .latest _ value _ | .flag _ value _ _ => value.toList

namespace Web
open ChannelService

/-- An unreadable `limit` reads as none given; it is clamped to `1..1000`. -/
def historyLimit (limit : Option ℤ) : ℕ :=
  match limit with
  | none => 200
  | some n => (max 1 (min n 1000)).toNat

def channelHistory (db : Database) (now : Timestamp) (channelId : ℕ) (window : Option String)
    (limit : Option ℤ) : Except Err Reply :=
  match Channels.getById db channelId with
  | none => .ok .notFound
  | some _ =>
    match window with
    | some window =>
      match getHistoryWindowed db channelId window now with
      | .ok points => .ok (.history channelId points)
      | .error (.unknownWindow _) => .ok .badRequest
      | .error e => .error e
    | none =>
      .ok (.history channelId ((getHistory db channelId none none (historyLimit limit)).map fun r =>
        (r.value, r.recordedAt)))

def channelLatest (db : Database) (channelId : ℕ) : Except Err Reply :=
  match Channels.getById db channelId with
  | none => .ok .notFound
  | some _ =>
    let latest := getLatest db channelId
    .ok (.latest channelId (latest.map Reading.value) (latest.map Reading.recordedAt))

def channelFlag (db : Database) (channelId : ℕ) : Except Err Reply :=
  match Channels.getById db channelId with
  | none => .ok .notFound
  | some _ =>
    let (latest, lastOn) := getFlagState db channelId
    .ok (.flag channelId (latest.map Reading.value) (latest.map Reading.recordedAt)
      (lastOn.map Reading.recordedAt))

def serve (db : Database) (now : Timestamp) : ReadRequest → Except Err Reply
  | .history channelId window limit => channelHistory db now channelId window limit
  | .latest channelId => channelLatest db channelId
  | .flag channelId => channelFlag db channelId

end Web

/-- A call returns, and all it puts in the body can be written as JSON. -/
def Served (db : Database) (now : Timestamp) (request : ReadRequest) : Prop :=
  ∃ reply, Web.serve db now request = .ok reply ∧ ∀ v ∈ reply.values, v.isFinite = true

end HomeServer.Services
