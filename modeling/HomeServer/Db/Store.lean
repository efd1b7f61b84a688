import HomeServer.Db.Downsample
import HomeServer.Db.Statements
import HomeServer.Lib.Component
import HomeServer.Lib.Grouping
import Mathlib.Logic.Function.Basic

/-! What the database is for: devices and channels by their ids, and of each channel the values
that were recorded. -/
namespace HomeServer.Db
open HomeServer.Lib

/-- A value and its time. -/
abbrev Point := PyFloat × Timestamp

def Reading.point (r : Reading) : Point := (r.value, r.recordedAt)

/-- The repository functions that read. -/
inductive Query
  | getDevice (deviceId : ℕ)
  | getByAddress (address : Address)
  | listDevices
  | listByOwner (ownerUserId : ℕ)
  | getChannel (channelId : ℕ)
  | listChannels
  | listByDevice (deviceId : ℕ)
  | listByChannel (channelId : ℕ) (since til : Option Timestamp) (limit : Option ℕ)
  | latestByChannel (channelId : ℕ)
  | latestAtOrAbove (channelId : ℕ) (threshold : ℚ)
  | downsampleSince (channelId : ℕ) (since : Timestamp) (bucketSeconds : ℤ)
  | countByChannel (channelId : ℕ)

/-- Of a reading its callers use the value and the time. -/
inductive Answer
  | device (found : Option Device)
  | devices (found : List Device)
  | channel (found : Option Channel)
  | channels (found : List Channel)
  | point (found : Option Point)
  | points (found : List Point)
  | averages (found : Except Err (List Point))
  | count (n : ℕ)
  | created (id : ℕ)
  | written
  | raised (e : Err)

inductive Request
  | write (statement : Statement)
  | read (query : Query)

def Statement.answer (nextDevice nextChannel : ℕ) : Statement → Answer
  | createDevice _ _ _ _ => .created nextDevice
  | createChannel _ _ _ _ _ _ => .created nextChannel
  | _ => .written

namespace Database

def ask (db : Database) : Query → Answer
  | .getDevice deviceId => .device (Devices.getById db deviceId)
  | .getByAddress address => .device (Devices.getByAddress db address)
  | .listDevices => .devices (Devices.listAll db)
  | .listByOwner ownerUserId => .devices (Devices.listByOwner db ownerUserId)
  | .getChannel channelId => .channel (Channels.getById db channelId)
  | .listChannels => .channels (Channels.listAll db)
  | .listByDevice deviceId => .channels (Channels.listByDevice db deviceId)
  | .listByChannel channelId since til limit =>
    .points ((Readings.listByChannel db channelId since til limit).map Reading.point)
  | .latestByChannel channelId =>
    .point ((Readings.latestByChannel db channelId).map Reading.point)
  | .latestAtOrAbove channelId threshold =>
    .point ((Readings.latestAtOrAbove db channelId threshold).map Reading.point)
  | .downsampleSince channelId since bucketSeconds =>
    .averages (Readings.downsampleSince db channelId since bucketSeconds)
  | .countByChannel channelId => .count (Readings.countByChannel db channelId)

/-- A statement that raises is rolled back. -/
def component : Component Database Request Answer where
  init := {}
  respond db
    | .write statement =>
      match statement.execute db with
      | .ok db' => (statement.answer db.nextDevice db.nextChannel, db')
      | .error e => (.raised e, db)
    | .read query => (db.ask query, db)

theorem after_write_ok {db db' : Database} {statement : Statement}
    (h : statement.execute db = .ok db') : component.after db [.write statement] = db' := by
  change (component.respond db (.write statement)).2 = db'
  simp only [component, h]

theorem after_write_error {db : Database} {statement : Statement} {e : Err}
    (h : statement.execute db = .error e) : component.after db [.write statement] = db := by
  change (component.respond db (.write statement)).2 = db
  simp only [component, h]

end Database

/-- Without tables: no order of rows, no ids of readings. -/
@[ext] structure Store where
  device : ℕ → Option Device := fun _ => none
  channel : ℕ → Option Channel := fun _ => none
  series : ℕ → List Point := fun _ => []
  nextDevice : ℕ := 1
  nextChannel : ℕ := 1

namespace Store

def pruned (points : List Point) (before : Timestamp) : List Point :=
  points.filter fun p => before ≤ p.2

open Classical in
/-- Removing a device removes its channels, and removing a channel its values. -/
noncomputable def apply (s : Store) : Statement → Except Err Store
  | .createDevice address name ownerUserId addrType =>
    if ∃ i d, s.device i = some d ∧ d.address = address then .error (.duplicateAddress address)
    else .ok { s with
      device := Function.update s.device s.nextDevice
        (some { id := s.nextDevice, address, addrType, name, ownerUserId })
      nextDevice := s.nextDevice + 1 }
  | .deleteDevice deviceId =>
    if s.device deviceId = none then .error (.deviceNotFound deviceId)
    else .ok { s with
      device := Function.update s.device deviceId none
      channel := fun i => (s.channel i).filter fun c => c.deviceId ≠ deviceId
      series := fun i =>
        if ∃ c, s.channel i = some c ∧ c.deviceId = deviceId then [] else s.series i }
  | .touchLastConnected now deviceId =>
    .ok { s with
      device := Function.update s.device deviceId
        ((s.device deviceId).map fun d => { d with lastConnectedAt := some now }) }
  | .setLabel deviceId label =>
    if s.device deviceId = none then .error (.deviceNotFound deviceId)
    else .ok { s with
      device := Function.update s.device deviceId
        ((s.device deviceId).map fun d => { d with label }) }
  | .createChannel deviceId name type charUuid dataFormat unit =>
    if ∃ i c, s.channel i = some c ∧ c.deviceId = deviceId ∧ c.name = name then
      .error (.duplicateChannelName name deviceId)
    else if s.device deviceId = none then .error .integrityError
    else .ok { s with
      channel := Function.update s.channel s.nextChannel
        (some { id := s.nextChannel, deviceId, name, type, charUuid, dataFormat, unit })
      nextChannel := s.nextChannel + 1 }
  | .deleteChannel channelId =>
    if s.channel channelId = none then .error (.channelNotFound channelId)
    else .ok { s with
      channel := Function.update s.channel channelId none
      series := Function.update s.series channelId [] }
  | .insertReading channelId value now =>
    if value = .nan ∨ s.channel channelId = none then .error .integrityError
    else .ok { s with
      series := Function.update s.series channelId (s.series channelId ++ [(value, now)]) }
  | .deleteOlderThan channelId before =>
    .ok { s with
      series := Function.update s.series channelId (pruned (s.series channelId) before) }

/-- In the order of time, values of one second as they were recorded. -/
def sorted (points : List Point) : List Point := points.insertionSort fun p q => p.2 ≤ q.2

def window (points : List Point) (since til : Option Timestamp) (limit : Option ℕ) : List Point :=
  let chosen := sorted (points.filter fun p =>
    (since.all fun t => t ≤ p.2) ∧ til.all fun t => p.2 < t)
  match limit with
  | none => chosen
  | some n => chosen.take n

/-- The average of a bucket at the time of its last value. -/
def averaged (points : List Point) : Readings.Bucket where
  value := sqlAvg (points.map Prod.fst)
  recordedAt := (points.map Prod.snd).max?.getD 0

def averages (points : List Point) (since : Timestamp) (bucketSeconds : ℤ) :
    Except Err (List Point) :=
  let bucket (p : Point) := p.2.tdiv bucketSeconds
  let points := points.filter fun p => since ≤ p.2
  (((Grouping.keys bucket points).map fun k =>
    averaged (Grouping.group bucket points k)).insertionSort fun b c =>
      b.recordedAt ≤ c.recordedAt).mapM Readings.Bucket.point

def devices (s : Store) : List Device := (List.range s.nextDevice).filterMap s.device

def channels (s : Store) : List Channel := (List.range s.nextChannel).filterMap s.channel

def ask (s : Store) : Query → Answer
  | .getDevice deviceId => .device (s.device deviceId)
  | .getByAddress address => .device (s.devices.find? fun d => d.address = address)
  | .listDevices => .devices s.devices
  | .listByOwner ownerUserId => .devices (s.devices.filter fun d => d.ownerUserId = ownerUserId)
  | .getChannel channelId => .channel (s.channel channelId)
  | .listChannels => .channels s.channels
  | .listByDevice deviceId => .channels (s.channels.filter fun c => c.deviceId = deviceId)
  | .listByChannel channelId since til limit =>
    .points (window (s.series channelId) since til limit)
  | .latestByChannel channelId => .point (sorted (s.series channelId)).getLast?
  | .latestAtOrAbove channelId threshold =>
    .point (sorted ((s.series channelId).filter fun p => p.1.atLeast threshold)).getLast?
  | .downsampleSince channelId since bucketSeconds =>
    .averages (averages (s.series channelId) since bucketSeconds)
  | .countByChannel channelId => .count (s.series channelId).length

noncomputable def component : Component Store Request Answer where
  init := {}
  respond s
    | .write statement =>
      match s.apply statement with
      | .ok s' => (statement.answer s.nextDevice s.nextChannel, s')
      | .error e => (.raised e, s)
    | .read query => (s.ask query, s)

end Store

end HomeServer.Db
