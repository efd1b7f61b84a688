import HomeServer.Db.Tables
import HomeServer.Lib.Transition

/-! The tables that the repositories make, by any statements in any order. -/
namespace HomeServer.Db
open HomeServer.Lib

/-- The repository functions that write, with their arguments. -/
inductive Statement
  | createDevice (address : Address) (name : String) (ownerUserId : ℕ) (addrType : AddrType)
  | deleteDevice (deviceId : ℕ)
  | touchLastConnected (now : Timestamp) (deviceId : ℕ)
  | setLabel (deviceId : ℕ) (label : Option String)
  | createChannel (deviceId : ℕ) (name : String) (type : ChannelType) (charUuid : Uuid)
      (dataFormat : String) (unit : Option String)
  | deleteChannel (channelId : ℕ)
  | insertReading (channelId : ℕ) (value : PyFloat) (now : Timestamp)
  | deleteOlderThan (channelId : ℕ) (before : Timestamp)

def Statement.execute (db : Database) : Statement → Except Err Database
  | createDevice address name ownerUserId addrType =>
    (Devices.create db address name ownerUserId addrType).map Prod.snd
  | deleteDevice deviceId => Devices.delete db deviceId
  | touchLastConnected now deviceId => .ok (Devices.touchLastConnected db now deviceId)
  | setLabel deviceId label => Devices.setLabel db deviceId label
  | createChannel deviceId name type charUuid dataFormat unit =>
    (Channels.create db deviceId name type charUuid dataFormat unit).map Prod.snd
  | deleteChannel channelId => Channels.delete db channelId
  | insertReading channelId value now => Readings.insert db channelId value now
  | deleteOlderThan channelId before => .ok (Readings.deleteOlderThan db channelId before)

/-- A statement that raises is rolled back. -/
def tables : System Database Statement where
  init db := db = {}
  step db statement := (statement.execute db).toOption

theorem exists_created {db' : Database} {created : Except Err (ℕ × Database)}
    (h : created.map Prod.snd = .ok db') : ∃ i, created = .ok (i, db') := by
  cases created with
  | error e => cases h
  | ok row =>
    cases h
    exact ⟨row.1, rfl⟩

theorem Database.Valid.execute {db db' : Database} (h : db.Valid) {statement : Statement}
    (hs : statement.execute db = .ok db') : db'.Valid := by
  cases statement with
  | createDevice address name ownerUserId addrType =>
    obtain ⟨i, hc⟩ := exists_created hs
    exact h.deviceCreate hc
  | deleteDevice deviceId => exact h.deviceDelete hs
  | touchLastConnected now deviceId => exact Except.ok.inj hs ▸ h.touch now deviceId
  | setLabel deviceId label => exact h.setLabel hs
  | createChannel deviceId name type charUuid dataFormat unit =>
    obtain ⟨i, hc⟩ := exists_created hs
    exact h.channelCreate hc
  | deleteChannel channelId => exact h.channelDelete hs
  | insertReading channelId value now => exact h.readingInsert hs
  | deleteOlderThan channelId before => exact Except.ok.inj hs ▸ h.readingsDelete channelId before

/-- The constraints hold after any statements. -/
theorem tables_valid {db : Database} (h : tables.Reachable db) : db.Valid := by
  apply System.Reachable.invariant _ _ h
  · intro db hdb
    exact hdb ▸ Database.Valid.empty
  · intro db statement db' hvalid hstep
    have hexecute : statement.execute db = .ok db' := by
      change (statement.execute db).toOption = some db' at hstep
      cases hs : statement.execute db with
      | error e =>
        rw [hs] at hstep
        cases hstep
      | ok created =>
        rw [hs] at hstep
        cases hstep
        rfl
    exact hvalid.execute hexecute

end HomeServer.Db
