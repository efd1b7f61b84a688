import HomeServer.Core.Errors
import Mathlib.Data.List.Sort
import Mathlib.Data.List.Nodup

/-! The SQLite tables of `schema.sql` and their repositories. A row list is kept in
`rowid` order, so `ORDER BY id` is the list itself. Timestamps are seconds since the
epoch: the fixed-width text of `_TS_FMT` sorts like the number it denotes. -/
namespace HomeServer.Db

abbrev Timestamp := ℤ

inductive AddrType
  | publicAddr
  | randomAddr
  deriving DecidableEq

inductive ChannelType
  | controller
  | display
  deriving DecidableEq

structure Device where
  id : ℕ
  address : Address
  addrType : AddrType
  name : String
  label : Option String := none
  ownerUserId : ℕ
  lastConnectedAt : Option Timestamp := none
  deriving DecidableEq

/-- `self.label or self.name`: an empty label is none. -/
def Device.displayName (device : Device) : String :=
  match device.label with
  | none | some "" => device.name
  | some label => label

structure Channel where
  id : ℕ
  deviceId : ℕ
  name : String
  type : ChannelType
  charUuid : Uuid
  dataFormat : String
  unit : Option String := none
  deriving DecidableEq

structure Reading where
  id : ℕ
  channelId : ℕ
  value : PyFloat
  recordedAt : Timestamp
  deriving DecidableEq

/-- The `next…` fields are the AUTOINCREMENT counters: an id is never given twice. -/
structure Database where
  devices : List Device := []
  channels : List Channel := []
  readings : List Reading := []
  nextDevice : ℕ := 1
  nextChannel : ℕ := 1
  nextReading : ℕ := 1

namespace Devices

def getById (db : Database) (deviceId : ℕ) : Option Device :=
  db.devices.find? fun d => d.id = deviceId

theorem mem_of_getById {db : Database} {i : ℕ} {d : Device} (h : getById db i = some d) :
    d ∈ db.devices ∧ d.id = i :=
  ⟨List.mem_of_find?_eq_some h, by simpa using List.find?_some h⟩

def getByAddress (db : Database) (address : Address) : Option Device :=
  db.devices.find? fun d => d.address = address

def listAll (db : Database) : List Device := db.devices

def listByOwner (db : Database) (ownerUserId : ℕ) : List Device :=
  db.devices.filter fun d => d.ownerUserId = ownerUserId

/-- The owner is taken to be a user; the tables with the users check it. -/
def create (db : Database) (address : Address) (name : String) (ownerUserId : ℕ)
    (addrType : AddrType) : Except Err (ℕ × Database) :=
  if db.devices.any fun d => d.address = address then .error (.duplicateAddress address)
  else
    let row := { id := db.nextDevice, address, addrType, name, ownerUserId }
    .ok (db.nextDevice,
      { db with devices := db.devices ++ [row], nextDevice := db.nextDevice + 1 })

/-- The foreign keys cascade: a device takes its channels and their readings with it. -/
def delete (db : Database) (deviceId : ℕ) : Except Err Database :=
  if db.devices.any fun d => d.id = deviceId then
    .ok { db with
      devices := db.devices.filter fun d => d.id ≠ deviceId
      channels := db.channels.filter fun c => c.deviceId ≠ deviceId
      readings := db.readings.filter fun r =>
        !db.channels.any fun c => c.deviceId = deviceId ∧ c.id = r.channelId }
  else .error (.deviceNotFound deviceId)

def touchLastConnected (db : Database) (now : Timestamp) (deviceId : ℕ) : Database :=
  { db with devices := db.devices.map fun d =>
      if d.id = deviceId then { d with lastConnectedAt := some now } else d }

def setLabel (db : Database) (deviceId : ℕ) (label : Option String) : Except Err Database :=
  if db.devices.any fun d => d.id = deviceId then
    .ok { db with devices := db.devices.map fun d =>
      if d.id = deviceId then { d with label } else d }
  else .error (.deviceNotFound deviceId)

/-- Of a row only the timestamp changes. -/
theorem map_touchLastConnected {α : Type} {f : Device → α}
    (hf : ∀ d now, f { d with lastConnectedAt := some now } = f d) (db : Database)
    (now : Timestamp) (deviceId : ℕ) :
    (touchLastConnected db now deviceId).devices.map f = db.devices.map f := by
  unfold touchLastConnected
  rw [List.map_map]
  apply List.map_congr_left
  intro d _
  rw [Function.comp]
  split
  · exact hf d now
  · rfl

section Inversion
variable {db db' : Database} {i : ℕ}

theorem create_ok {address : Address} {name : String} {ownerUserId : ℕ} {addrType : AddrType}
    (h : create db address name ownerUserId addrType = .ok (i, db')) :
    (∀ d ∈ db.devices, d.address ≠ address) ∧ i = db.nextDevice ∧
      db' = { db with
        devices := db.devices ++ [{ id := db.nextDevice, address, addrType, name, ownerUserId }]
        nextDevice := db.nextDevice + 1 } := by
  unfold create at h
  split at h
  · cases h
  · rename_i hnew
    cases h
    exact ⟨by simpa using hnew, rfl, rfl⟩

theorem delete_ok (h : delete db i = .ok db') :
    db' = { db with
      devices := db.devices.filter fun d => d.id ≠ i
      channels := db.channels.filter fun c => c.deviceId ≠ i
      readings := db.readings.filter fun r =>
        !db.channels.any fun c => c.deviceId = i ∧ c.id = r.channelId } := by
  unfold delete at h
  split at h
  · cases h
    rfl
  · cases h

theorem setLabel_ok {label : Option String} (h : setLabel db i label = .ok db') :
    db' = { db with devices := db.devices.map fun d =>
      if d.id = i then { d with label } else d } := by
  unfold setLabel at h
  split at h
  · cases h
    rfl
  · cases h

end Inversion
end Devices

namespace Channels

def getById (db : Database) (channelId : ℕ) : Option Channel :=
  db.channels.find? fun c => c.id = channelId

theorem mem_of_getById {db : Database} {i : ℕ} {c : Channel} (h : getById db i = some c) :
    c ∈ db.channels ∧ c.id = i :=
  ⟨List.mem_of_find?_eq_some h, by simpa using List.find?_some h⟩

def listByDevice (db : Database) (deviceId : ℕ) : List Channel :=
  db.channels.filter fun c => c.deviceId = deviceId

def listAll (db : Database) : List Channel := db.channels

/-- UNIQUE(device_id, name) has its own exception; a missing device is a plain
foreign key violation. -/
def create (db : Database) (deviceId : ℕ) (name : String) (type : ChannelType)
    (charUuid : Uuid) (dataFormat : String) (unit : Option String) :
    Except Err (ℕ × Database) :=
  if db.channels.any fun c => c.deviceId = deviceId ∧ c.name = name then
    .error (.duplicateChannelName name deviceId)
  else if db.devices.any fun d => d.id = deviceId then
    let row := { id := db.nextChannel, deviceId, name, type, charUuid, dataFormat, unit }
    .ok (db.nextChannel,
      { db with channels := db.channels ++ [row], nextChannel := db.nextChannel + 1 })
  else .error .integrityError

def delete (db : Database) (channelId : ℕ) : Except Err Database :=
  if db.channels.any fun c => c.id = channelId then
    .ok { db with
      channels := db.channels.filter fun c => c.id ≠ channelId
      readings := db.readings.filter fun r => r.channelId ≠ channelId }
  else .error (.channelNotFound channelId)

section Inversion
variable {db db' : Database} {i : ℕ}

theorem create_ok {deviceId : ℕ} {name : String} {type : ChannelType} {charUuid : Uuid}
    {dataFormat : String} {unit : Option String}
    (h : create db deviceId name type charUuid dataFormat unit = .ok (i, db')) :
    (∀ c ∈ db.channels, c.deviceId = deviceId → c.name ≠ name) ∧
      (∃ d ∈ db.devices, d.id = deviceId) ∧ i = db.nextChannel ∧
      db' = { db with
        channels := db.channels ++
          [{ id := db.nextChannel, deviceId, name, type, charUuid, dataFormat, unit }]
        nextChannel := db.nextChannel + 1 } := by
  unfold create at h
  split at h
  · cases h
  rename_i hnew
  split at h
  · rename_i hdev
    cases h
    exact ⟨by simpa using hnew, by simpa using hdev, rfl, rfl⟩
  · cases h

theorem delete_ok (h : delete db i = .ok db') :
    db' = { db with
      channels := db.channels.filter fun c => c.id ≠ i
      readings := db.readings.filter fun r => r.channelId ≠ i } := by
  unfold delete at h
  split at h
  · cases h
    rfl
  · cases h

theorem exists_getById {c : Channel} (hc : c ∈ db.channels) :
    ∃ c', getById db c.id = some c' := by
  unfold getById
  cases hf : db.channels.find? fun c' => c'.id = c.id with
  | some c' => exact ⟨c', rfl⟩
  | none => exact absurd (List.find?_eq_none.mp hf c hc) (by simp)

/-- A row that was created is found. -/
theorem exists_created {deviceId : ℕ} {name : String} {type : ChannelType} {charUuid : Uuid}
    {dataFormat : String} {unit : Option String}
    (h : create db deviceId name type charUuid dataFormat unit = .ok (i, db')) :
    ∃ channel, getById db' i = some channel := by
  obtain ⟨-, -, hid, hdb⟩ := create_ok h
  have hrow : (⟨db.nextChannel, deviceId, name, type, charUuid, dataFormat, unit⟩ : Channel) ∈
      db'.channels := by
    rw [hdb]
    exact List.mem_append_right _ (.head _)
  rw [hid]
  exact exists_getById hrow

end Inversion
end Channels

namespace Readings

/-- NaN is bound as NULL, which `value REAL NOT NULL` rejects. A negative zero, which the column
gives back as zero, keeps its sign here: the two are the same number. -/
def insert (db : Database) (channelId : ℕ) (value : PyFloat) (now : Timestamp) :
    Except Err Database :=
  if value = .nan then .error .integrityError
  else if db.channels.any fun c => c.id = channelId then
    let row := { id := db.nextReading, channelId, value, recordedAt := now }
    .ok { db with readings := db.readings ++ [row], nextReading := db.nextReading + 1 }
  else .error .integrityError

def deleteOlderThan (db : Database) (channelId : ℕ) (before : Timestamp) : Database :=
  { db with readings := db.readings.filter fun r =>
      ¬(r.channelId = channelId ∧ r.recordedAt < before) }

def ofChannel (db : Database) (channelId : ℕ) : List Reading :=
  db.readings.filter fun r => r.channelId = channelId

/-- The order of `ORDER BY recorded_at ASC, id ASC`. -/
def Before (r s : Reading) : Prop :=
  r.recordedAt < s.recordedAt ∨ r.recordedAt = s.recordedAt ∧ r.id ≤ s.id

instance : DecidableRel Before := fun r s =>
  inferInstanceAs (Decidable (r.recordedAt < s.recordedAt ∨ _))

def orderBy (rows : List Reading) : List Reading := rows.insertionSort Before

/-- `since` is inclusive, `until` exclusive. -/
def listByChannel (db : Database) (channelId : ℕ) (since til : Option Timestamp := none)
    (limit : Option ℕ := none) : List Reading :=
  let rows := orderBy ((ofChannel db channelId).filter fun r =>
    (since.all fun t => t ≤ r.recordedAt) ∧ til.all fun t => r.recordedAt < t)
  match limit with
  | none => rows
  | some n => rows.take n

/-- `ORDER BY recorded_at DESC, id DESC LIMIT 1` is the last row of the ascending order. -/
def latestByChannel (db : Database) (channelId : ℕ) : Option Reading :=
  (orderBy (ofChannel db channelId)).getLast?

def latestAtOrAbove (db : Database) (channelId : ℕ) (threshold : ℚ) : Option Reading :=
  (orderBy ((ofChannel db channelId).filter fun r => r.value.atLeast threshold)).getLast?

def countByChannel (db : Database) (channelId : ℕ) : ℕ := (ofChannel db channelId).length

theorem insert_ok {db db' : Database} {channelId : ℕ} {value : PyFloat} {now : Timestamp}
    (h : insert db channelId value now = .ok db') :
    (∃ c ∈ db.channels, c.id = channelId) ∧
      db' = { db with
        readings := db.readings ++ [{ id := db.nextReading, channelId, value, recordedAt := now }]
        nextReading := db.nextReading + 1 } := by
  unfold insert at h
  split at h
  · cases h
  split at h
  · rename_i hch
    cases h
    exact ⟨by simpa using hch, rfl⟩
  · cases h

theorem exists_insert {db : Database} {channelId : ℕ} {value : PyFloat} {c : Channel}
    (hc : Channels.getById db channelId = some c) (hv : value ≠ .nan) (now : Timestamp) :
    ∃ db', insert db channelId value now = .ok db' := by
  obtain ⟨hmem, hid⟩ := Channels.mem_of_getById hc
  have hany : (db.channels.any fun c => c.id = channelId) = true :=
    List.any_eq_true.mpr ⟨c, hmem, decide_eq_true hid⟩
  unfold insert
  rw [if_neg hv, if_pos hany]
  exact ⟨_, rfl⟩

end Readings

/-- The constraints of `schema.sql`: keys are unique, references exist, ids are not reused. -/
structure Database.Valid (db : Database) : Prop where
  deviceIds : (db.devices.map Device.id).Nodup
  addresses : (db.devices.map Device.address).Nodup
  channelIds : (db.channels.map Channel.id).Nodup
  channelNames : (db.channels.map fun c => (c.deviceId, c.name)).Nodup
  readingIds : (db.readings.map Reading.id).Nodup
  channelDevice : ∀ c ∈ db.channels, ∃ d ∈ db.devices, d.id = c.deviceId
  readingChannel : ∀ r ∈ db.readings, ∃ c ∈ db.channels, c.id = r.channelId
  deviceFresh : ∀ d ∈ db.devices, d.id < db.nextDevice
  channelFresh : ∀ c ∈ db.channels, c.id < db.nextChannel
  readingFresh : ∀ r ∈ db.readings, r.id < db.nextReading

namespace Database.Valid
variable {db db' : Database}

theorem empty : ({} : Database).Valid := by
  constructor <;> simp

theorem eq_of_id (h : db.Valid) {d d' : Device} (hd : d ∈ db.devices) (hd' : d' ∈ db.devices)
    (hid : d.id = d'.id) : d = d' :=
  List.inj_on_of_nodup_map h.deviceIds hd hd' hid

theorem eq_of_address (h : db.Valid) {d d' : Device} (hd : d ∈ db.devices)
    (hd' : d' ∈ db.devices) (ha : d.address = d'.address) : d = d' :=
  List.inj_on_of_nodup_map h.addresses hd hd' ha

theorem deviceCreate (h : db.Valid) {address : Address} {name : String} {owner i : ℕ}
    {addrType : AddrType} (hc : Devices.create db address name owner addrType = .ok (i, db')) :
    db'.Valid := by
  obtain ⟨haddr, rfl, rfl⟩ := Devices.create_ok hc
  have hid : ∀ d ∈ db.devices, d.id ≠ db.nextDevice := fun d hd => (h.deviceFresh d hd).ne
  refine { h with
    deviceIds := ?_, addresses := ?_, channelDevice := ?_, deviceFresh := ?_ }
  · simpa [List.nodup_append] using ⟨h.deviceIds, hid⟩
  · simpa [List.nodup_append] using ⟨h.addresses, haddr⟩
  · intro c hc
    obtain ⟨d, hd, hdc⟩ := h.channelDevice c hc
    exact ⟨d, List.mem_append_left _ hd, hdc⟩
  · intro d hd
    rcases List.mem_append.mp hd with hd | hd
    · exact (h.deviceFresh d hd).trans (Nat.lt_succ_self _)
    · simp_all

theorem deviceDelete (h : db.Valid) {i : ℕ} (hc : Devices.delete db i = .ok db') : db'.Valid := by
  obtain rfl := Devices.delete_ok hc
  refine
    { deviceIds := h.deviceIds.sublist (List.filter_sublist.map _)
      addresses := h.addresses.sublist (List.filter_sublist.map _)
      channelIds := h.channelIds.sublist (List.filter_sublist.map _)
      channelNames := h.channelNames.sublist (List.filter_sublist.map _)
      readingIds := h.readingIds.sublist (List.filter_sublist.map _)
      channelDevice := ?_
      readingChannel := ?_
      deviceFresh := fun d hd => h.deviceFresh d (List.mem_of_mem_filter hd)
      channelFresh := fun c hc => h.channelFresh c (List.mem_of_mem_filter hc)
      readingFresh := fun r hr => h.readingFresh r (List.mem_of_mem_filter hr) }
  · intro c hc
    obtain ⟨hc, hne⟩ := List.mem_filter.mp hc
    obtain ⟨d, hd, hdc⟩ := h.channelDevice c hc
    exact ⟨d, List.mem_filter.mpr ⟨hd, by simpa [hdc] using hne⟩, hdc⟩
  · intro r hr
    obtain ⟨hr, hnot⟩ := List.mem_filter.mp hr
    obtain ⟨c, hc, hcr⟩ := h.readingChannel r hr
    refine ⟨c, List.mem_filter.mpr ⟨hc, ?_⟩, hcr⟩
    simp only [Bool.not_eq_true', List.any_eq_false, decide_eq_true_eq, not_and] at hnot ⊢
    simpa using fun hi => hnot c hc hi hcr

theorem channel_eq (h : db.Valid) {c c' : Channel} (hc : c ∈ db.channels)
    (hget : Channels.getById db c.id = some c') : c' = c := by
  obtain ⟨hmem, hid⟩ := Channels.mem_of_getById hget
  exact List.inj_on_of_nodup_map h.channelIds hmem hc hid

/-- Rows may change where no constraint looks. -/
theorem mapDevices (h : db.Valid) {f : Device → Device} (hid : ∀ d, (f d).id = d.id)
    (haddress : ∀ d, (f d).address = d.address) :
    ({ db with devices := db.devices.map f } : Database).Valid := by
  have hids : (db.devices.map f).map Device.id = db.devices.map Device.id := by
    rw [List.map_map]
    exact List.map_congr_left fun d _ => hid d
  have haddresses : (db.devices.map f).map Device.address = db.devices.map Device.address := by
    rw [List.map_map]
    exact List.map_congr_left fun d _ => haddress d
  refine { h with
    deviceIds := hids.symm ▸ h.deviceIds, addresses := haddresses.symm ▸ h.addresses
    channelDevice := ?_, deviceFresh := ?_ }
  · intro c hc
    obtain ⟨d, hd, hdc⟩ := h.channelDevice c hc
    exact ⟨f d, List.mem_map_of_mem hd, (hid d).trans hdc⟩
  · intro d' hd'
    obtain ⟨d, hd, rfl⟩ := List.mem_map.mp hd'
    rw [hid]
    exact h.deviceFresh d hd

theorem touch (h : db.Valid) (now : Timestamp) (i : ℕ) :
    (Devices.touchLastConnected db now i).Valid :=
  h.mapDevices (fun d => by split <;> rfl) fun d => by split <;> rfl

theorem setLabel (h : db.Valid) {i : ℕ} {label : Option String}
    (hc : Devices.setLabel db i label = .ok db') : db'.Valid := by
  rw [Devices.setLabel_ok hc]
  exact h.mapDevices (fun d => by split <;> rfl) fun d => by split <;> rfl

theorem channelCreate (h : db.Valid) {deviceId : ℕ} {name : String} {type : ChannelType}
    {charUuid : Uuid} {dataFormat : String} {unit : Option String} {i : ℕ}
    (hc : Channels.create db deviceId name type charUuid dataFormat unit = .ok (i, db')) :
    db'.Valid := by
  obtain ⟨hname, ⟨d, hd, hdi⟩, rfl, rfl⟩ := Channels.create_ok hc
  have hid : ∀ c ∈ db.channels, c.id ≠ db.nextChannel := fun c hc => (h.channelFresh c hc).ne
  refine { h with
    channelIds := ?_, channelNames := ?_, channelDevice := ?_, readingChannel := ?_
    channelFresh := ?_ }
  · simpa [List.nodup_append] using ⟨h.channelIds, hid⟩
  · simpa [List.nodup_append] using ⟨h.channelNames, hname⟩
  · intro c hc
    rcases List.mem_append.mp hc with hc | hc
    · exact h.channelDevice c hc
    · exact ⟨d, hd, by simp_all⟩
  · intro r hr
    obtain ⟨c, hc, hcr⟩ := h.readingChannel r hr
    exact ⟨c, List.mem_append_left _ hc, hcr⟩
  · intro c hc
    rcases List.mem_append.mp hc with hc | hc
    · exact (h.channelFresh c hc).trans (Nat.lt_succ_self _)
    · simp_all

theorem channelDelete (h : db.Valid) {i : ℕ} (hc : Channels.delete db i = .ok db') :
    db'.Valid := by
  obtain rfl := Channels.delete_ok hc
  refine { h with
    channelIds := h.channelIds.sublist (List.filter_sublist.map _)
    channelNames := h.channelNames.sublist (List.filter_sublist.map _)
    readingIds := h.readingIds.sublist (List.filter_sublist.map _)
    channelDevice := fun c hc => h.channelDevice c (List.mem_of_mem_filter hc)
    readingChannel := ?_
    channelFresh := fun c hc => h.channelFresh c (List.mem_of_mem_filter hc)
    readingFresh := fun r hr => h.readingFresh r (List.mem_of_mem_filter hr) }
  intro r hr
  obtain ⟨hr, hne⟩ := List.mem_filter.mp hr
  obtain ⟨c, hc, hcr⟩ := h.readingChannel r hr
  exact ⟨c, List.mem_filter.mpr ⟨hc, by simpa [hcr] using hne⟩, hcr⟩

theorem readingInsert (h : db.Valid) {channelId : ℕ} {value : PyFloat} {now : Timestamp}
    (hc : Readings.insert db channelId value now = .ok db') : db'.Valid := by
  obtain ⟨⟨c, hch, hci⟩, rfl⟩ := Readings.insert_ok hc
  have hid : ∀ r ∈ db.readings, r.id ≠ db.nextReading := fun r hr => (h.readingFresh r hr).ne
  refine { h with readingIds := ?_, readingChannel := ?_, readingFresh := ?_ }
  · simpa [List.nodup_append] using ⟨h.readingIds, hid⟩
  · intro r hr
    rcases List.mem_append.mp hr with hr | hr
    · exact h.readingChannel r hr
    · exact ⟨c, hch, by simp_all⟩
  · intro r hr
    rcases List.mem_append.mp hr with hr | hr
    · exact (h.readingFresh r hr).trans (Nat.lt_succ_self _)
    · simp_all

theorem readingsDelete (h : db.Valid) (channelId : ℕ) (before : Timestamp) :
    (Readings.deleteOlderThan db channelId before).Valid :=
  { h with
    readingIds := h.readingIds.sublist (List.filter_sublist.map _)
    readingChannel := fun r hr => h.readingChannel r (List.mem_of_mem_filter hr)
    readingFresh := fun r hr => h.readingFresh r (List.mem_of_mem_filter hr) }

end Database.Valid
end HomeServer.Db
