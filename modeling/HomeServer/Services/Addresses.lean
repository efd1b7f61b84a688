import HomeServer.Ble.Mac
import HomeServer.Services.Registration

/-! One row for each physical peripheral: which addresses `add_device` stores, over every run of
registrations and removals. -/
namespace HomeServer.Services
open HomeServer.Db HomeServer.Ble HomeServer.Lib

/-- `outside` is what the call finds. -/
inductive DeviceCall (β : Type)
  | addDevice (ownerUserId : ℕ) (address : Address) (name : String) (addrType : Option AddrType)
      (outside : β)
  | removeDevice (deviceId : ℕ) (outside : β)

def lower (address : Address) : List Char := address.toList.map Char.toLower

/-- Every address is well formed, and no two are equal ignoring letter case. -/
structure OneRowEach (db : Database) : Prop where
  formed : ∀ d ∈ db.devices, IsMac d.address
  distinct : (db.devices.map fun d => lower d.address).Nodup

def deletesRow {β : Type} (E : Env β) (device : Device) (outside : β) : Bool :=
  let link := E.ble.isConnected device.address (E.sqlError outside).2
  let freed := if link.1 then E.ble.disconnect device.address link.2 else (.ok (), link.2)
  (E.sqlError outside).1.isNone && freed.1.isOk && (E.sqlError freed.2).1.isNone

namespace DeviceService
variable {β : Type} {E : Env β} {w : World β}

open BleRuntime (insertsRow)

/-- The server starts with an empty table. -/
def deviceCalls (E : Env β) : System (World β) (DeviceCall β) where
  init w := w.db.devices = []
  step w
    | .addDevice ownerUserId address name addrType outside =>
      some ((addDevice E ownerUserId address name addrType).exec { w with outside }).2
    | .removeDevice deviceId outside => some ((removeDevice E deviceId).exec { w with outside }).2

/-- A row that is inserted has an address of 17 characters, and none is stored that differs from
it in letter case only. -/
def storesNewPeripheral (E : Env β) (w : World β) : DeviceCall β → Bool
  | .addDevice _ address _ _ outside =>
    !insertsRow E w address outside ||
      (decide (address.length = 17) &&
        w.db.devices.all fun d => decide (lower d.address ≠ lower address))
  | .removeDevice _ _ => true

/-- A call of `add_device` inserts the row, or leaves the tables as they are. -/
theorem addDevice_spec (E : Env β) (ownerUserId : ℕ) (address : Address) (name : String)
    (addrType : Option AddrType) (w : World β) :
    (addDevice E ownerUserId address name addrType).After
      (fun _ w' => w'.subscribed = w.subscribed ∧
        if insertsRow E w address w.outside then
          ∃ i resolved, Devices.create w.db address name ownerUserId resolved = .ok (i, w'.db)
        else w'.db = w.db) w := by
  unfold addDevice
  rw [Action.after_ite]
  split
  · rename_i hmac
    obtain ⟨resolved, hresolved⟩ : ∃ a, resolveAddrType address addrType = .ok a := by
      cases addrType with
      | some a => exact ⟨a, rfl⟩
      | none => exact inferAddrType_of_matches hmac
    rw [hresolved]
    dsimp only
    unfold execute
    rw [Action.after_bind, Action.after_bind, after_query_asked]
    cases hsql : (E.sqlError w.outside).1 with
    | some e =>
      have hno : insertsRow E w address w.outside = false := by simp [insertsRow, hsql]
      rw [hno]
      exact ⟨rfl, rfl⟩
    | none =>
      dsimp only
      rw [Action.then_ok, id]
      cases hcreate : Devices.create w.db address name ownerUserId resolved with
      | error e =>
        have htaken : (w.db.devices.any fun d => d.address = address) = true := by
          unfold Devices.create at hcreate
          split at hcreate
          · assumption
          · cases hcreate
        have hno : insertsRow E w address w.outside = false := by simp [insertsRow, htaken]
        rw [hno]
        exact ⟨rfl, rfl⟩
      | ok r =>
        obtain ⟨i, db'⟩ := r
        have hfree := (Devices.create_ok hcreate).1
        have hyes : insertsRow E w address w.outside = true := by
          simpa [insertsRow, hmac, hsql] using hfree
        rw [hyes]
        dsimp only
        rw [Action.after_bind, Action.after_modify, Action.then_ok, Action.after_pure,
          Action.then_ok, Action.after_bind, after_ignoringErrors, after_call, Action.then_ok,
          Action.after_bind]
        refine after_query_any E _ (fun b _ => ?_) fun e b => ⟨rfl, i, resolved, hcreate⟩
        rw [Action.then_ok]
        split <;> exact ⟨rfl, i, resolved, hcreate⟩
  · rename_i hmac
    have hno : insertsRow E w address w.outside = false := by simp [insertsRow, hmac]
    rw [hno]
    exact ⟨rfl, rfl⟩

/-- The row of a device that is found goes exactly when `deletesRow` says so. -/
theorem removeDevice_rows (E : Env β) {d : Device}
    (hget : Devices.getById w.db d.id = some d) :
    (removeDevice E d.id).After
      (fun _ w' => w'.subscribed = w.subscribed ∧
        if deletesRow E d w.outside then Devices.delete w.db d.id = .ok w'.db
        else w'.db = w.db) w := by
  have hany : (w.db.devices.any fun d' => d'.id = d.id) = true :=
    List.any_eq_true.mpr ⟨d, (Devices.mem_of_getById hget).1, by simp⟩
  obtain ⟨db', hdel⟩ : ∃ db', Devices.delete w.db d.id = .ok db' := ⟨_, if_pos hany⟩
  have hdelete : ∀ w₁ : World β, w₁.db = w.db → w₁.subscribed = w.subscribed →
      deletesRow E d w.outside = (E.sqlError w₁.outside).1.isNone →
      (execute E fun db => (Devices.delete db d.id).map fun db => ((), db)).After
        (fun _ w' => w'.subscribed = w.subscribed ∧
          if deletesRow E d w.outside then Devices.delete w.db d.id = .ok w'.db
          else w'.db = w.db) w₁ := by
    intro w₁ hdb hsub hrow
    unfold execute
    rw [hrow, Action.after_bind, after_query_asked]
    cases (E.sqlError w₁.outside).1 with
    | some e => exact ⟨hsub, hdb⟩
    | none =>
      dsimp only
      rw [Action.then_ok, id, hdb, hdel]
      exact ⟨hsub, rfl⟩
  unfold removeDevice
  rw [Action.after_bind, after_query_asked]
  cases hsql : (E.sqlError w.outside).1 with
  | some e =>
    have hno : deletesRow E d w.outside = false := by simp [deletesRow, hsql]
    rw [hno]
    exact ⟨rfl, rfl⟩
  | none =>
    dsimp only
    rw [Action.then_ok, hget]
    dsimp only
    rw [Action.after_bind, after_isConnected, Action.then_ok, Action.after_bind, Action.after_ite]
    cases hup : (E.ble.isConnected d.address (E.sqlError w.outside).2).1 with
    | true =>
      rw [if_pos rfl, after_call]
      cases hans : (E.ble.disconnect d.address
        (E.ble.isConnected d.address (E.sqlError w.outside).2).2).1 with
      | error e =>
        have hno : deletesRow E d w.outside = false := by
          simp [deletesRow, hup, hans, Except.isOk, Except.toBool]
        rw [hno]
        exact ⟨rfl, rfl⟩
      | ok u =>
        refine hdelete _ rfl rfl ?_
        simp [deletesRow, hsql, hup, hans, Except.isOk, Except.toBool]
    | false =>
      rw [if_neg Bool.false_ne_true, Action.after_pure, Action.then_ok]
      refine hdelete _ rfl rfl ?_
      simp [deletesRow, hsql, hup, Except.isOk, Except.toBool]

theorem removeDevice_missing (E : Env β) {deviceId : ℕ}
    (hget : Devices.getById w.db deviceId = none) :
    (removeDevice E deviceId).After
      (fun _ w' => w'.subscribed = w.subscribed ∧ w'.db = w.db) w := by
  unfold removeDevice
  rw [Action.after_bind]
  refine after_query_any E _ (fun b _ => ?_) fun e b => ⟨rfl, rfl⟩
  rw [Action.then_ok, hget]
  exact ⟨rfl, rfl⟩

theorem removeDevice_spec (E : Env β) (deviceId : ℕ) (w : World β) :
    (removeDevice E deviceId).After
      (fun _ w' => w'.subscribed = w.subscribed ∧
        (w'.db = w.db ∨ Devices.delete w.db deviceId = .ok w'.db)) w := by
  cases hget : Devices.getById w.db deviceId with
  | none =>
    apply (removeDevice_missing E hget).mono
    rintro r w' ⟨hsub, hdb⟩
    exact ⟨hsub, Or.inl hdb⟩
  | some d =>
    obtain ⟨-, rfl⟩ := Devices.mem_of_getById hget
    apply (removeDevice_rows E hget).mono
    rintro r w' ⟨hsub, hrows⟩
    split at hrows
    · exact ⟨hsub, Or.inr hrows⟩
    · exact ⟨hsub, Or.inl hrows⟩

/-- A step keeps to one row for each peripheral exactly when it meets the condition. -/
theorem deviceCalls_step {e : DeviceCall β} {w' : World β} (h : OneRowEach w.db)
    (hs : (deviceCalls E).step w e = some w') :
    OneRowEach w'.db ↔ storesNewPeripheral E w e = true := by
  cases e with
  | removeDevice deviceId outside =>
    have hspec := removeDevice_spec E deviceId { w with outside }
    cases hs
    have hsub : ((removeDevice E deviceId).exec { w with outside }).2.db.devices.Sublist
        w.db.devices := by
      rcases hspec.2 with hsame | hdel
      · rw [hsame]
      · rw [Devices.delete_ok hdel]
        exact List.filter_sublist
    exact ⟨fun _ => rfl, fun _ => ⟨fun d hd => h.formed d (hsub.mem hd),
      h.distinct.sublist (hsub.map _)⟩⟩
  | addDevice ownerUserId address name addrType outside =>
    have hspec := addDevice_spec E ownerUserId address name addrType { w with outside }
    cases hs
    obtain ⟨-, hrows⟩ := hspec
    have hins : insertsRow E { w with outside } address outside = insertsRow E w address outside :=
      rfl
    rw [hins] at hrows
    cases hinsert : insertsRow E w address outside with
    | false =>
      rw [hinsert, if_neg Bool.false_ne_true] at hrows
      simp only [storesNewPeripheral, hinsert, Bool.not_false, Bool.true_or, iff_true, hrows]
      exact h
    | true =>
      rw [hinsert, if_pos rfl] at hrows
      obtain ⟨i, resolved, hcreate⟩ := hrows
      obtain ⟨-, -, hdb⟩ := Devices.create_ok hcreate
      have hmac : matchesMac address = true := by
        simp only [insertsRow, Bool.and_eq_true] at hinsert
        exact hinsert.1.1
      rw [hdb]
      simp only [storesNewPeripheral, hinsert, Bool.not_true, Bool.false_or, Bool.and_eq_true,
        decide_eq_true_eq, List.all_eq_true]
      constructor
      · intro h'
        have hformed : IsMac address := h'.formed _ (List.mem_append_right _ (.head _))
        have hdistinct := h'.distinct
        rw [List.map_append, List.nodup_append] at hdistinct
        refine ⟨hformed.length, fun d hd => ?_⟩
        exact hdistinct.2.2 _ (List.mem_map_of_mem hd) _ (.head _)
      · rintro ⟨hlen, hnew⟩
        constructor
        · intro d hd
          rcases List.mem_append.mp hd with hd | hd
          · exact h.formed d hd
          · rw [List.mem_singleton.mp hd]
            exact isMac_of_matches hmac hlen
        · simpa [List.nodup_append] using ⟨h.distinct, hnew⟩

/-- Along a run the table keeps to one row for each peripheral exactly when each step does. -/
theorem one_row_each {w' : World β} {es : List (DeviceCall β)} (h : (deviceCalls E).init w)
    (hrun : (deviceCalls E).replay (fun _ _ => true) w es = some w') :
    (∀ u ∈ (deviceCalls E).visited w es, OneRowEach u.db) ↔
      (deviceCalls E).replay (storesNewPeripheral E) w es = some w' := by
  have hempty : OneRowEach w.db := by
    have hnil : w.db.devices = [] := h
    constructor
    · simp [hnil]
    · simp [hnil]
  refine System.visited_iff_replay (I := fun u => OneRowEach u.db) (fun _ hu => hu)
    (fun u e u' hu hok hs => (deviceCalls_step hu hs).mpr hok) (fun u e u' hu hno hs hu' => ?_)
    hempty hrun
  rw [(deviceCalls_step hu hs).mp hu'] at hno
  cases hno

def fanAddress : Address := "A4:C1:38:00:00:0F"

def fanAdded (address : Address) : DeviceCall Bool :=
  .addDevice 1 address "fan" (some .publicAddr) true

theorem noDevices_init : (deviceCalls BleRuntime.switchEnv).init { db := {}, outside := true } :=
  rfl

def fanMoves : List (DeviceCall Bool) :=
  [fanAdded fanAddress, fanAdded fanAddress, .removeDevice 1 true,
    fanAdded "a4:c1:38:00:00:0f"]

/-- The fan is added, refused a second time, removed and added in lower case. -/
theorem one_row_each_fan : ∃ w : World Bool, w.db.devices.length = 1 ∧
    ∀ u ∈ (deviceCalls BleRuntime.switchEnv).visited { db := {}, outside := true } fanMoves,
      OneRowEach u.db := by
  have hreplay : ((deviceCalls BleRuntime.switchEnv).replay
      (storesNewPeripheral BleRuntime.switchEnv) { db := {}, outside := true } fanMoves).map
        (fun w => w.db.devices.length) = some 1 := by
    decide +kernel
  obtain ⟨w, hw, hlen⟩ := Option.map_eq_some_iff.mp hreplay
  exact ⟨w, hlen, (one_row_each noDevices_init (System.replay_weaken hw)).mpr hw⟩

def fanSpellings : List Address :=
  [fanAddress, "A4:C1:38:00:00:0F\n", "a4:c1:38:00:00:0f"]

/-- The address, the address with a newline after it and the address in lower case: each of them
is stored, in a row of its own. -/
theorem one_fan_thrice : ¬∀ w : World Bool, (deviceCalls BleRuntime.switchEnv).Reachable w →
    OneRowEach w.db := by
  intro hall
  obtain ⟨w, hrun, hw⟩ := System.exists_reachable_of_replay noDevices_init
    (fanSpellings.map fanAdded) (p := fun w => decide (w.db.devices.map Device.address =
      fanSpellings)) (by decide +kernel)
  have haddresses : w.db.devices.map Device.address = fanSpellings := of_decide_eq_true hw
  have hlower : w.db.devices.map (fun d => lower d.address) =
      (w.db.devices.map Device.address).map lower := by
    rw [List.map_map]
    rfl
  have hdistinct := (hall w hrun).distinct
  rw [hlower, haddresses] at hdistinct
  revert hdistinct
  decide +kernel

end DeviceService
end HomeServer.Services
