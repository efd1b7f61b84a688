import HomeServer.Db.Latest
import HomeServer.Db.Store
import HomeServer.Lib.Keyed

/-! The tables refine the store: whatever is asked of them, the answers are the same. -/
namespace HomeServer.Db
open HomeServer.Lib

/-- The tables are kept in the order of their ids. -/
structure Database.InOrder (db : Database) : Prop where
  devices : db.devices.Pairwise fun d e => d.id < e.id
  channels : db.channels.Pairwise fun c e => c.id < e.id
  readings : db.readings.Pairwise fun r s => r.id < s.id

/-- What the tables are for. -/
def Database.store (db : Database) : Store where
  device := Keyed.row Device.id db.devices
  channel := Keyed.row Channel.id db.channels
  series i := (Readings.ofChannel db i).map Reading.point
  nextDevice := db.nextDevice
  nextChannel := db.nextChannel

namespace Database
variable {db db' : Database}

theorem device_eq_none_iff {i : ℕ} : db.store.device i = none ↔ ∀ d ∈ db.devices, d.id ≠ i :=
  Keyed.row_eq_none_iff

theorem channel_eq_none_iff {i : ℕ} : db.store.channel i = none ↔ ∀ c ∈ db.channels, c.id ≠ i :=
  Keyed.row_eq_none_iff

section Order

theorem pairwise_concat {ρ : Type} {key : ρ → ℕ} {rows : List ρ} {new : ρ}
    (h : rows.Pairwise fun r s => key r < key s) (hnew : ∀ r ∈ rows, key r < key new) :
    (rows ++ [new]).Pairwise fun r s => key r < key s := by
  rw [List.pairwise_append]
  refine ⟨h, List.pairwise_singleton .., fun r hr s hs => ?_⟩
  rw [List.mem_singleton.mp hs]
  exact hnew r hr

theorem InOrder.mapDevices (h : db.InOrder) {f : Device → Device} (hf : ∀ d, (f d).id = d.id) :
    ({ db with devices := db.devices.map f } : Database).InOrder := by
  refine { h with devices := ?_ }
  rw [List.pairwise_map]
  simpa only [hf] using h.devices

theorem InOrder.execute (h : db.InOrder) (hv : db.Valid) {statement : Statement}
    (hs : statement.execute db = .ok db') : db'.InOrder := by
  cases statement with
  | createDevice address name ownerUserId addrType =>
    obtain ⟨i, hc⟩ := exists_created hs
    obtain ⟨-, -, rfl⟩ := Devices.create_ok hc
    exact { h with devices := pairwise_concat h.devices hv.deviceFresh }
  | deleteDevice deviceId =>
    obtain rfl := Devices.delete_ok hs
    exact ⟨h.devices.filter _, h.channels.filter _, h.readings.filter _⟩
  | touchLastConnected now deviceId =>
    obtain rfl := Except.ok.inj hs
    exact h.mapDevices fun d => by split_ifs <;> rfl
  | setLabel deviceId label =>
    rw [Devices.setLabel_ok hs]
    exact h.mapDevices fun d => by split_ifs <;> rfl
  | createChannel deviceId name type charUuid dataFormat unit =>
    obtain ⟨i, hc⟩ := exists_created hs
    obtain ⟨-, -, -, rfl⟩ := Channels.create_ok hc
    exact { h with channels := pairwise_concat h.channels hv.channelFresh }
  | deleteChannel channelId =>
    obtain rfl := Channels.delete_ok hs
    exact { h with channels := h.channels.filter _, readings := h.readings.filter _ }
  | insertReading channelId value now =>
    obtain ⟨-, rfl⟩ := Readings.insert_ok hs
    exact { h with readings := pairwise_concat h.readings hv.readingFresh }
  | deleteOlderThan channelId before =>
    obtain rfl := Except.ok.inj hs
    exact { h with readings := h.readings.filter _ }

theorem execute_of_step {statement : Statement} (h : tables.step db statement = some db') :
    statement.execute db = .ok db' := by
  change (statement.execute db).toOption = some db' at h
  cases hs : statement.execute db with
  | error e =>
    rw [hs] at h
    cases h
  | ok made =>
    rw [hs] at h
    exact congrArg Except.ok (Option.some.inj h)

theorem tables_inOrder (h : tables.Reachable db) : db.InOrder := by
  have hboth : db.Valid ∧ db.InOrder := by
    apply System.Reachable.invariant _ _ h
    · rintro db rfl
      exact ⟨.empty, ⟨.nil, .nil, .nil⟩⟩
    · rintro db statement db' ⟨hv, ho⟩ hstep
      have hexecute := execute_of_step hstep
      exact ⟨hv.execute hexecute, ho.execute hv hexecute⟩
  exact hboth.2

end Order

section Statements

theorem exists_device_iff (hv : db.Valid) (p : Device → Prop) [DecidablePred p] :
    (∃ i d, db.store.device i = some d ∧ p d) ↔ (db.devices.any fun d => p d) = true := by
  simp only [List.any_eq_true, decide_eq_true_eq]
  exact Keyed.exists_row_iff hv.deviceIds p

theorem exists_channel_iff (hv : db.Valid) (p : Channel → Prop) [DecidablePred p] :
    (∃ i c, db.store.channel i = some c ∧ p c) ↔ (db.channels.any fun c => p c) = true := by
  simp only [List.any_eq_true, decide_eq_true_eq]
  exact Keyed.exists_row_iff hv.channelIds p

theorem no_device_iff {i : ℕ} :
    db.store.device i = none ↔ ¬(db.devices.any fun d => d.id = i) = true := by
  simp [device_eq_none_iff]

theorem no_channel_iff {i : ℕ} :
    db.store.channel i = none ↔ ¬(db.channels.any fun c => c.id = i) = true := by
  simp [channel_eq_none_iff]

theorem store_createDevice (hv : db.Valid) (address : Address) (name : String) (ownerUserId : ℕ)
    (addrType : AddrType) :
    ((Statement.createDevice address name ownerUserId addrType).execute db).map store =
      db.store.apply (.createDevice address name ownerUserId addrType) := by
  have htaken := exists_device_iff hv fun d => d.address = address
  simp only [Store.apply, Statement.execute, Devices.create, htaken]
  split_ifs
  · rfl
  · refine congrArg Except.ok (Store.ext ?_ rfl rfl rfl rfl)
    exact Keyed.row_append fun d hd => (hv.deviceFresh d hd).ne

/-- The values of a channel are removed with its device. -/
theorem ofChannel_deleteDevice (hv : db.Valid) {deviceId : ℕ}
    (h : Devices.delete db deviceId = .ok db') (i : ℕ) :
    Readings.ofChannel db' i =
      if ∃ c, db.store.channel i = some c ∧ c.deviceId = deviceId then []
      else Readings.ofChannel db i := by
  have howned : (∃ c, db.store.channel i = some c ∧ c.deviceId = deviceId) ↔
      (db.channels.any fun c => c.deviceId = deviceId ∧ c.id = i) = true := by
    simp only [List.any_eq_true, decide_eq_true_eq]
    constructor
    · rintro ⟨c, hc, hdevice⟩
      obtain ⟨hmem, hid⟩ := (Keyed.row_eq_some_iff hv.channelIds).mp hc
      exact ⟨c, hmem, hdevice, hid⟩
    · rintro ⟨c, hmem, hdevice, hid⟩
      exact ⟨c, (Keyed.row_eq_some_iff hv.channelIds).mpr ⟨hmem, hid⟩, hdevice⟩
  obtain rfl := Devices.delete_ok h
  simp only [Readings.ofChannel, List.filter_filter, howned]
  split_ifs with hany
  · rw [List.filter_eq_nil_iff]
    intro r _ hr
    simp only [Bool.and_eq_true, Bool.not_eq_true', decide_eq_true_eq] at hr
    rw [hr.1, hany] at hr
    exact absurd hr.2 (by simp)
  · apply List.filter_congr
    intro r _
    by_cases hr : r.channelId = i
    · subst hr
      rw [Bool.not_eq_true] at hany
      rw [hany, Bool.not_false, Bool.and_true]
    · simp [hr]

theorem store_deleteDevice (hv : db.Valid) (deviceId : ℕ) :
    ((Statement.deleteDevice deviceId).execute db).map store =
      db.store.apply (.deleteDevice deviceId) := by
  simp only [Store.apply, Statement.execute, no_device_iff]
  by_cases hany : (db.devices.any fun d => d.id = deviceId) = true
  · have hdelete : Devices.delete db deviceId = .ok _ := if_pos hany
    rw [hdelete, if_neg (not_not_intro hany)]
    refine congrArg Except.ok (Store.ext ?_ ?_ ?_ rfl rfl)
    · exact Keyed.row_filter_ne hv.deviceIds deviceId
    · exact funext (Keyed.row_filter hv.channelIds _)
    · funext i
      change (Readings.ofChannel _ i).map Reading.point =
        if ∃ c, db.store.channel i = some c ∧ c.deviceId = deviceId then [] else db.store.series i
      rw [ofChannel_deleteDevice hv hdelete i]
      split_ifs <;> rfl
  · have hmissing : Devices.delete db deviceId = .error (.deviceNotFound deviceId) := if_neg hany
    rw [hmissing, if_pos hany]
    rfl

theorem store_mapDevices (hv : db.Valid) {f : Device → Device} (hf : ∀ d, (f d).id = d.id)
    (deviceId : ℕ) :
    ({ db with devices := db.devices.map fun d => if d.id = deviceId then f d else d } :
      Database).store = { db.store with
        device := Function.update db.store.device deviceId
          ((db.store.device deviceId).map f) } :=
  Store.ext (Keyed.row_map_at hv.deviceIds hf deviceId) rfl rfl rfl rfl

theorem store_setLabel (hv : db.Valid) (deviceId : ℕ) (label : Option String) :
    ((Statement.setLabel deviceId label).execute db).map store =
      db.store.apply (.setLabel deviceId label) := by
  simp only [Store.apply, Statement.execute, Devices.setLabel, no_device_iff]
  by_cases hany : (db.devices.any fun d => d.id = deviceId) = true
  · rw [if_pos hany, if_neg (not_not_intro hany)]
    exact congrArg Except.ok
      (store_mapDevices hv (f := fun d => { d with label }) (fun _ => rfl) deviceId)
  · rw [if_neg hany, if_pos hany]
    rfl

theorem store_createChannel (hv : db.Valid) (deviceId : ℕ) (name : String) (type : ChannelType)
    (charUuid : Uuid) (dataFormat : String) (unit : Option String) :
    ((Statement.createChannel deviceId name type charUuid dataFormat unit).execute db).map store =
      db.store.apply (.createChannel deviceId name type charUuid dataFormat unit) := by
  have htaken := exists_channel_iff hv fun c => c.deviceId = deviceId ∧ c.name = name
  simp only [Store.apply, Statement.execute, Channels.create, htaken, no_device_iff]
  by_cases hname : (db.channels.any fun c => c.deviceId = deviceId ∧ c.name = name) = true
  · rw [if_pos hname, if_pos hname]
    rfl
  rw [if_neg hname, if_neg hname]
  by_cases hdevice : (db.devices.any fun d => d.id = deviceId) = true
  · rw [if_pos hdevice, if_neg (not_not_intro hdevice)]
    refine congrArg Except.ok (Store.ext rfl ?_ rfl rfl rfl)
    exact Keyed.row_append fun c hc => (hv.channelFresh c hc).ne
  · rw [if_neg hdevice, if_pos hdevice]
    rfl

theorem store_deleteChannel (hv : db.Valid) (channelId : ℕ) :
    ((Statement.deleteChannel channelId).execute db).map store =
      db.store.apply (.deleteChannel channelId) := by
  simp only [Store.apply, Statement.execute, Channels.delete, no_channel_iff]
  by_cases hany : (db.channels.any fun c => c.id = channelId) = true
  · rw [if_pos hany, if_neg (not_not_intro hany)]
    refine congrArg Except.ok (Store.ext rfl ?_ ?_ rfl rfl)
    · exact Keyed.row_filter_ne hv.channelIds channelId
    · funext i
      simp only [store, Readings.ofChannel, List.filter_filter]
      by_cases hi : i = channelId
      · subst hi
        rw [Function.update_self, List.filter_eq_nil_iff.mpr fun r _ => by simp]
        rfl
      · rw [Function.update_of_ne hi]
        congr 1
        apply List.filter_congr
        intro r _
        by_cases hr : r.channelId = i
        · simp [hr, hi]
        · simp [hr]
  · rw [if_neg hany, if_pos hany]
    rfl

theorem store_insertReading (channelId : ℕ) (value : PyFloat) (now : Timestamp) :
    ((Statement.insertReading channelId value now).execute db).map store =
      db.store.apply (.insertReading channelId value now) := by
  simp only [Store.apply, Statement.execute, no_channel_iff]
  by_cases hnan : value = .nan
  · rw [if_pos (Or.inl hnan), Readings.insert, if_pos hnan]
    rfl
  by_cases hany : (db.channels.any fun c => c.id = channelId) = true
  · obtain ⟨db', hinsert⟩ : ∃ db', Readings.insert db channelId value now = .ok db' :=
      ⟨_, by rw [Readings.insert, if_neg hnan, if_pos hany]⟩
    have hrows := Readings.ofChannel_insert hinsert
    obtain ⟨-, rfl⟩ := Readings.insert_ok hinsert
    rw [hinsert, if_neg (not_or.mpr ⟨hnan, not_not_intro hany⟩)]
    refine congrArg Except.ok (Store.ext rfl rfl ?_ rfl rfl)
    funext i
    change (Readings.ofChannel _ i).map Reading.point = Function.update db.store.series _ _ i
    rw [hrows, List.map_append]
    by_cases hi : i = channelId
    · subst hi
      rw [if_pos rfl, Function.update_self]
      rfl
    · rw [if_neg (Ne.symm hi), Function.update_of_ne hi, List.map_nil, List.append_nil]
      rfl
  · rw [if_pos (Or.inr hany), Readings.insert, if_neg hnan, if_neg hany]
    rfl

theorem store_deleteOlderThan (channelId : ℕ) (before : Timestamp) :
    ((Statement.deleteOlderThan channelId before).execute db).map store =
      db.store.apply (.deleteOlderThan channelId before) := by
  refine congrArg Except.ok (Store.ext rfl rfl ?_ rfl rfl)
  funext i
  simp only [store, Readings.deleteOlderThan, Readings.ofChannel, List.filter_filter]
  by_cases hi : i = channelId
  · subst hi
    rw [Function.update_self, Store.pruned, List.filter_map, List.filter_filter]
    congr 1
    apply List.filter_congr
    intro r _
    rw [Bool.eq_iff_iff]
    simp only [Bool.and_eq_true, decide_eq_true_eq, Function.comp_apply, Reading.point, not_and,
      not_lt]
    constructor
    · rintro ⟨hr, hrecent⟩
      exact ⟨decide_eq_true (hrecent hr), hr⟩
    · rintro ⟨hrecent, hr⟩
      exact ⟨hr, fun _ => of_decide_eq_true hrecent⟩
  · rw [Function.update_of_ne hi]
    congr 1
    apply List.filter_congr
    intro r _
    by_cases hr : r.channelId = i
    · simp [hr, hi]
    · simp [hr]

/-- A statement does to the tables what it does to the store, and raises the same. -/
theorem store_execute (hv : db.Valid) (statement : Statement) :
    (statement.execute db).map store = db.store.apply statement := by
  cases statement with
  | createDevice address name ownerUserId addrType => exact store_createDevice hv ..
  | deleteDevice deviceId => exact store_deleteDevice hv deviceId
  | touchLastConnected now deviceId =>
    exact congrArg Except.ok (store_mapDevices hv
      (f := fun d => { d with lastConnectedAt := some now }) (fun _ => rfl) deviceId)
  | setLabel deviceId label => exact store_setLabel hv deviceId label
  | createChannel deviceId name type charUuid dataFormat unit => exact store_createChannel hv ..
  | deleteChannel channelId => exact store_deleteChannel hv channelId
  | insertReading channelId value now => exact store_insertReading channelId value now
  | deleteOlderThan channelId before => exact store_deleteOlderThan channelId before

end Statements
section Queries

theorem devices_store (hv : db.Valid) (ho : db.InOrder) : db.store.devices = db.devices :=
  Keyed.filterMap_range ho.devices hv.deviceFresh

theorem channels_store (hv : db.Valid) (ho : db.InOrder) : db.store.channels = db.channels :=
  Keyed.filterMap_range ho.channels hv.channelFresh

/-- Of two readings of one second the one with the lower id was recorded first. -/
theorem map_orderBy {rows : List Reading} (h : rows.Pairwise fun r s => r.id < s.id) :
    (Readings.orderBy rows).map Reading.point = Store.sorted (rows.map Reading.point) := by
  apply Keyed.map_insertionSort_of_pairwise
  refine h.imp fun {r s} hlt => ?_
  change r.recordedAt < s.recordedAt ∨ r.recordedAt = s.recordedAt ∧ r.id ≤ s.id ↔
    r.recordedAt ≤ s.recordedAt
  rw [and_iff_left hlt.le, le_iff_lt_or_eq]

theorem ofChannel_ascending (ho : db.InOrder) (i : ℕ) :
    (Readings.ofChannel db i).Pairwise fun r s => r.id < s.id := ho.readings.filter _

theorem window_store (ho : db.InOrder) (i : ℕ) (since til : Option Timestamp)
    (limit : Option ℕ) :
    Store.window (db.store.series i) since til limit =
      (Readings.listByChannel db i since til limit).map Reading.point := by
  have hrows := map_orderBy ((ofChannel_ascending ho i).filter fun r =>
    (since.all fun t => t ≤ r.recordedAt) ∧ til.all fun t => r.recordedAt < t)
  have hfilter : (db.store.series i).filter (fun p =>
      (since.all fun t => t ≤ p.2) ∧ til.all fun t => p.2 < t) =
      ((Readings.ofChannel db i).filter fun r =>
        (since.all fun t => t ≤ r.recordedAt) ∧ til.all fun t => r.recordedAt < t).map
          Reading.point := List.filter_map
  unfold Store.window Readings.listByChannel
  rw [hfilter, ← hrows]
  cases limit with
  | none => rfl
  | some n => exact List.map_take.symm

theorem sorted_store (ho : db.InOrder) (i : ℕ) (p : PyFloat → Bool) :
    (Store.sorted ((db.store.series i).filter fun q => p q.1)).getLast? =
      (Readings.orderBy ((Readings.ofChannel db i).filter fun r => p r.value)).getLast?.map
        Reading.point := by
  have hfilter : (db.store.series i).filter (fun q => p q.1) =
      ((Readings.ofChannel db i).filter fun r => p r.value).map Reading.point := List.filter_map
  rw [hfilter, ← map_orderBy ((ofChannel_ascending ho i).filter _), List.getLast?_map]

theorem averaged_map (rows : List Reading) :
    Store.averaged (rows.map Reading.point) = Readings.aggregate rows := by
  unfold Store.averaged Readings.aggregate
  rw [List.map_map, List.map_map]
  rfl

theorem averages_store (i : ℕ) (since : Timestamp) (bucketSeconds : ℤ) :
    Store.averages (db.store.series i) since bucketSeconds =
      Readings.downsampleSince db i since bucketSeconds := by
  have hfilter : (db.store.series i).filter (fun p => since ≤ p.2) =
      ((Readings.ofChannel db i).filter fun r => since ≤ r.recordedAt).map Reading.point :=
    List.filter_map
  unfold Store.averages Readings.downsampleSince Readings.bucketsSince
  dsimp only
  rw [hfilter]
  congr 2
  unfold Grouping.keys Grouping.group
  rw [List.map_map]
  apply List.map_congr_left
  intro k _
  rw [List.filter_map, averaged_map]
  rfl

/-- The tables answer what the store answers. -/
theorem ask_store (hv : db.Valid) (ho : db.InOrder) (query : Query) :
    db.store.ask query = db.ask query := by
  cases query with
  | getDevice deviceId => rfl
  | getByAddress address => rw [Store.ask, devices_store hv ho]; rfl
  | listDevices => rw [Store.ask, devices_store hv ho]; rfl
  | listByOwner ownerUserId => rw [Store.ask, devices_store hv ho]; rfl
  | getChannel channelId => rfl
  | listChannels => rw [Store.ask, channels_store hv ho]; rfl
  | listByDevice deviceId => rw [Store.ask, channels_store hv ho]; rfl
  | listByChannel channelId since til limit =>
    rw [Store.ask, window_store ho]
    rfl
  | latestByChannel channelId =>
    have hlatest := sorted_store ho channelId fun _ => true
    rw [List.filter_eq_self.mpr fun _ _ => rfl, List.filter_eq_self.mpr fun _ _ => rfl] at hlatest
    rw [Store.ask, hlatest]
    rfl
  | latestAtOrAbove channelId threshold =>
    rw [Store.ask, sorted_store ho channelId fun v => v.atLeast threshold]
    rfl
  | downsampleSince channelId since bucketSeconds =>
    rw [Store.ask, averages_store]
    rfl
  | countByChannel channelId =>
    rw [Store.ask, Database.ask, Readings.countByChannel]
    exact congrArg Answer.count (List.length_map _)

end Queries

/-- The tables refine the store. -/
theorem refines : component.Refines Store.component store fun db => db.Valid ∧ db.InOrder where
  init := ⟨.empty, ⟨.nil, .nil, .nil⟩⟩
  init_view := rfl
  respond db request := by
    rintro ⟨hv, ho⟩
    cases request with
    | write statement =>
      have hstore := store_execute hv statement
      simp only [component, Store.component]
      rw [← hstore]
      cases hs : statement.execute db with
      | error e => exact ⟨⟨hv, ho⟩, rfl⟩
      | ok db' => exact ⟨⟨hv.execute hs, ho.execute hv hs⟩, rfl⟩
    | read query => exact ⟨⟨hv, ho⟩, congrArg (·, db.store) (ask_store hv ho query)⟩

end Database

end HomeServer.Db
