import HomeServer.Db.Tables

/-! The tables at a later time. A row is inserted and deleted but never changed, and AUTOINCREMENT
gives no id twice, so what was read of a row stays true of the row with its id. -/
namespace HomeServer.Db

/-- `db'` was reached from `db`: each of its rows is an old one or has a new id. -/
structure Database.Later (db db' : Database) : Prop where
  nextDevice : db.nextDevice ≤ db'.nextDevice
  nextChannel : db.nextChannel ≤ db'.nextChannel
  device : ∀ d' ∈ db'.devices,
    (∃ d ∈ db.devices, d.id = d'.id ∧ d.address = d'.address) ∨ db.nextDevice ≤ d'.id
  channel : ∀ c' ∈ db'.channels, c' ∈ db.channels ∨ db.nextChannel ≤ c'.id

/-- The channel was read from the table: no other row will ever have its id. -/
structure KnownChannel (db : Database) (c : Channel) : Prop where
  given : c.id < db.nextChannel
  row : ∀ c' ∈ db.channels, c'.id = c.id → c' = c

section Reading
variable {db : Database} {c : Channel} {i : ℕ}

theorem Database.Valid.knownChannel (h : db.Valid) (hc : c ∈ db.channels) : KnownChannel db c :=
  ⟨h.channelFresh c hc, fun _ hc' hid => List.inj_on_of_nodup_map h.channelIds hc' hc hid⟩

theorem Channels.exists_of_delete {db' : Database} (h : Channels.delete db i = .ok db') :
    ∃ c ∈ db.channels, c.id = i := by
  unfold Channels.delete at h
  split at h
  · rename_i hany
    simpa using hany
  · cases h

theorem Channels.mem_listByDevice (db : Database) (i : ℕ) (c : Channel) :
    c ∈ Channels.listByDevice db i ↔ c ∈ db.channels ∧ c.deviceId = i := by
  simp [Channels.listByDevice]

end Reading

namespace Database.Later
variable {db db' db'' : Database} {c : Channel}

theorem refl (db : Database) : db.Later db :=
  ⟨le_rfl, le_rfl, fun d hd => Or.inl ⟨d, hd, rfl, rfl⟩, fun _ hc => Or.inl hc⟩

theorem deviceCreate {address : Address} {name : String} {owner i : ℕ} {addrType : AddrType}
    (h : Devices.create db address name owner addrType = .ok (i, db')) : db.Later db' := by
  obtain ⟨-, rfl, rfl⟩ := Devices.create_ok h
  refine ⟨Nat.le_succ _, le_rfl, fun d hd => ?_, fun _ hc => Or.inl hc⟩
  rcases List.mem_append.mp hd with hd | hd
  · exact Or.inl ⟨d, hd, rfl, rfl⟩
  · rw [List.mem_singleton.mp hd]
    exact Or.inr le_rfl

theorem deviceDelete {i : ℕ} (h : Devices.delete db i = .ok db') : db.Later db' := by
  obtain rfl := Devices.delete_ok h
  exact ⟨le_rfl, le_rfl, fun d hd => Or.inl ⟨d, List.mem_of_mem_filter hd, rfl, rfl⟩,
    fun _ hc => Or.inl (List.mem_of_mem_filter hc)⟩

theorem channelCreate {deviceId : ℕ} {name : String} {type : ChannelType} {charUuid : Uuid}
    {dataFormat : String} {unit : Option String} {i : ℕ}
    (h : Channels.create db deviceId name type charUuid dataFormat unit = .ok (i, db')) :
    db.Later db' := by
  obtain ⟨-, -, rfl, rfl⟩ := Channels.create_ok h
  refine ⟨le_rfl, Nat.le_succ _, fun d hd => Or.inl ⟨d, hd, rfl, rfl⟩, fun c hc => ?_⟩
  rcases List.mem_append.mp hc with hc | hc
  · exact Or.inl hc
  · rw [List.mem_singleton.mp hc]
    exact Or.inr le_rfl

theorem channelDelete {i : ℕ} (h : Channels.delete db i = .ok db') : db.Later db' := by
  obtain rfl := Channels.delete_ok h
  exact ⟨le_rfl, le_rfl, fun d hd => Or.inl ⟨d, hd, rfl, rfl⟩,
    fun _ hc => Or.inl (List.mem_of_mem_filter hc)⟩

theorem readingInsert {channelId : ℕ} {value : PyFloat} {now : Timestamp}
    (h : Readings.insert db channelId value now = .ok db') : db.Later db' := by
  obtain ⟨-, rfl⟩ := Readings.insert_ok h
  exact ⟨le_rfl, le_rfl, fun d hd => Or.inl ⟨d, hd, rfl, rfl⟩, fun _ hc => Or.inl hc⟩

theorem knownChannel (h : db.Later db') (hc : KnownChannel db c) : KnownChannel db' c := by
  refine ⟨hc.given.trans_le h.nextChannel, fun c' hc' hid => ?_⟩
  rcases h.channel c' hc' with hold | hnew
  · exact hc.row c' hold hid
  · have := hc.given
    omega

end Database.Later
end HomeServer.Db
