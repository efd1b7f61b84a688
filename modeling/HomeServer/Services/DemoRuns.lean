import HomeServer.Services.DemoLinks

/-! Whole operations of the demo server in any order: what its backend is subscribed to is always
what the tables say. -/
namespace HomeServer.Services
open HomeServer.Db HomeServer.Ble HomeServer.Lib
open MockBLEManager (SameLinks)

/-- The constraints of the tables, and what `add_channel` checks besides. -/
structure RowsChecked (db : Database) : Prop where
  valid : db.Valid
  uuids : UuidsDistinct db
  formats : ∀ c ∈ db.channels, c.dataFormat ∈ Parser.supportedFormats

structure DemoKept (w : World MockBLEManager) : Prop where
  checked : RowsChecked w.db
  inStep : InStep w.db w

variable {w w' : World MockBLEManager} {db db' : Database} {late : Address × Uuid → Prop}
  {now : Timestamp} {d : Device} {c : Channel}

namespace RowsChecked

theorem of_channels (h : RowsChecked db) (hv : db'.Valid) (p : Channel → Bool)
    (hchannels : db'.channels = db.channels.filter p) : RowsChecked db' := by
  refine ⟨hv, uuidsDistinct_filter h.uuids p hchannels, fun c hc => h.formats c ?_⟩
  rw [hchannels] at hc
  exact List.mem_of_mem_filter hc

theorem sameRows (h : RowsChecked db) (hrows : SameRows db db') : RowsChecked db' :=
  h.of_channels (hrows.valid h.valid) (fun _ => true) (by simpa using hrows.channels)

theorem deviceCreate (h : RowsChecked db) {address : Address} {name : String} {owner i : ℕ}
    {addrType : AddrType} (hc : Devices.create db address name owner addrType = .ok (i, db')) :
    RowsChecked db' := by
  have hv := h.valid.deviceCreate hc
  obtain ⟨-, -, rfl⟩ := Devices.create_ok hc
  exact h.of_channels hv (fun _ => true) (by simp)

theorem deviceDelete (h : RowsChecked db) {i : ℕ} (hc : Devices.delete db i = .ok db') :
    RowsChecked db' := by
  have hv := h.valid.deviceDelete hc
  obtain rfl := Devices.delete_ok hc
  exact h.of_channels hv _ rfl

theorem channelDelete (h : RowsChecked db) {i : ℕ} (hc : Channels.delete db i = .ok db') :
    RowsChecked db' := by
  have hv := h.valid.channelDelete hc
  obtain rfl := Channels.delete_ok hc
  exact h.of_channels hv _ rfl

end RowsChecked

theorem InStep.kept (h : InStep db w) (hdb : RowsChecked db) : DemoKept w := by
  refine ⟨hdb.sameRows h.rows, .refl _, fun key i hget => ?_, fun key c hc hup hok hnot => ?_⟩
  · obtain ⟨hup, hok, c, hc, hrest⟩ := h.entry key i hget
    exact ⟨hup, hok, c, hc.sameRows h.rows, hrest⟩
  · obtain ⟨d, hd, hid, haddr⟩ := hc.device
    obtain ⟨d', hd', hid', haddr'⟩ := h.rows.exists_device hd
    have hrow : c ∈ db.channels := h.rows.channels ▸ hc.row
    exact h.all key c ⟨hrow, hc.display, hc.charUuid, d', hd', hid'.trans hid,
      haddr'.trans haddr⟩ hup hok hnot

theorem InStep.of_rows (h : InStep w.db w)
    (hkeep : ∀ key c, CurrentRow w.db key c → key.1 ∈ w.outside.connected → CurrentRow db key c)
    (hnew : ∀ key c, CurrentRow db key c → ¬late key → CurrentRow w.db key c) :
    Behind db late { w with db } := by
  refine ⟨.refl _, fun key i hget => ?_, fun key c hc hup hok hnot => ?_⟩
  · obtain ⟨hup, hok, c, hc, hrest⟩ := h.entry key i hget
    exact ⟨hup, hok, c, hkeep key c hc hup, hrest⟩
  · exact h.all key c (hnew key c hc hnot) hup hok id

namespace CurrentRow
variable {key : Address × Uuid}

theorem deviceCreate {address : Address} {name : String} {owner i : ℕ} {addrType : AddrType}
    (h : Devices.create db address name owner addrType = .ok (i, db')) (hc : CurrentRow db key c) :
    CurrentRow db' key c := by
  obtain ⟨-, -, rfl⟩ := Devices.create_ok h
  obtain ⟨d, hd, hrest⟩ := hc.device
  exact ⟨hc.row, hc.display, hc.charUuid, d, List.mem_append_left _ hd, hrest⟩

/-- A device that was just registered has no channels. -/
theorem of_deviceCreate (hv : db.Valid) {address : Address} {name : String} {owner i : ℕ}
    {addrType : AddrType} (h : Devices.create db address name owner addrType = .ok (i, db'))
    (hc : CurrentRow db' key c) : CurrentRow db key c := by
  obtain ⟨-, -, rfl⟩ := Devices.create_ok h
  obtain ⟨d, hd, hid, haddr⟩ := hc.device
  rcases List.mem_append.mp hd with hd | hd
  · exact ⟨hc.row, hc.display, hc.charUuid, d, hd, hid, haddr⟩
  · obtain ⟨d', hd', hid'⟩ := hv.channelDevice c hc.row
    have hlt := hv.deviceFresh d' hd'
    have hnew : d.id = db.nextDevice := by rw [List.mem_singleton.mp hd]
    omega

theorem deviceDelete (h : Devices.delete db d.id = .ok db') (hd : d ∈ db.devices)
    (hv : db.Valid) (hc : CurrentRow db key c) (hne : key.1 ≠ d.address) :
    CurrentRow db' key c := by
  obtain rfl := Devices.delete_ok h
  obtain ⟨d', hd', hid, haddr⟩ := hc.device
  have hother : d'.id ≠ d.id := fun heq => hne (by rw [← haddr, hv.eq_of_id hd' hd heq])
  refine ⟨List.mem_filter.mpr ⟨hc.row, ?_⟩, hc.display, hc.charUuid, d',
    List.mem_filter.mpr ⟨hd', by simpa using hother⟩, hid, haddr⟩
  rw [← hid]
  simpa using hother

theorem of_deviceDelete (h : Devices.delete db d.id = .ok db') (hc : CurrentRow db' key c) :
    CurrentRow db key c := by
  obtain rfl := Devices.delete_ok h
  obtain ⟨d', hd', hrest⟩ := hc.device
  exact ⟨List.mem_of_mem_filter hc.row, hc.display, hc.charUuid, d',
    List.mem_of_mem_filter hd', hrest⟩

theorem channelDelete {c' : Channel} (h : Channels.delete db c.id = .ok db') (hv : db.Valid)
    (hrow : c ∈ db.channels) (hc : CurrentRow db key c') (hne : c' ≠ c) :
    CurrentRow db' key c' := by
  obtain rfl := Channels.delete_ok h
  have hid : c'.id ≠ c.id := fun heq =>
    hne (List.inj_on_of_nodup_map hv.channelIds hc.row hrow heq)
  exact ⟨List.mem_filter.mpr ⟨hc.row, by simpa using hid⟩, hc.display, hc.charUuid, hc.device⟩

theorem of_channelDelete {c' : Channel} (h : Channels.delete db c.id = .ok db')
    (hc : CurrentRow db' key c') : CurrentRow db key c' ∧ c' ≠ c := by
  obtain rfl := Channels.delete_ok h
  obtain ⟨hrow, hid⟩ := List.mem_filter.mp hc.row
  refine ⟨⟨hrow, hc.display, hc.charUuid, hc.device⟩, ?_⟩
  rintro rfl
  simp at hid

theorem eq {c' : Channel} (hv : db.Valid) (huuids : UuidsDistinct db) (hc : CurrentRow db key c)
    (hc' : CurrentRow db key c') : c = c' := by
  obtain ⟨d, hd, hid, haddr⟩ := hc.device
  obtain ⟨d', hd', hid', haddr'⟩ := hc'.device
  obtain rfl := hv.eq_of_address hd hd' (haddr.trans haddr'.symm)
  exact huuids.eq hc.row hc'.row (hid.symm.trans hid') (hc.charUuid.trans hc'.charUuid.symm)

end CurrentRow

theorem addDevice_mock (h : DemoKept w) (ownerUserId : ℕ) (address : Address) (name : String)
    (addrType : Option AddrType) :
    (DeviceService.addDevice (mockEnv now) ownerUserId address name addrType).After
      (fun _ => DemoKept) w := by
  unfold DeviceService.addDevice
  rw [Action.after_ite]
  split
  swap
  · exact h
  cases DeviceService.resolveAddrType address addrType with
  | error e => exact h
  | ok resolved =>
    dsimp only
    rw [Action.after_bind, after_execute_mock]
    cases hcreate : Devices.create w.db address name ownerUserId resolved with
    | error e => exact h
    | ok r =>
      obtain ⟨i, db'⟩ := r
      dsimp only
      have hnone : ∀ key c, CurrentRow db' key c → key.1 ≠ address := by
        intro key c hc ha
        obtain ⟨d, hd, -, haddr⟩ := (hc.of_deviceCreate h.checked.valid hcreate).device
        exact (Devices.create_ok hcreate).1 d hd (haddr.trans ha)
      have hrows : InStep db' { w with db := db' } :=
        h.inStep.of_rows (fun _ _ hc _ => hc.deviceCreate hcreate)
          fun _ _ hc _ => hc.of_deviceCreate h.checked.valid hcreate
      rw [Action.then_ok, Action.after_bind, after_ignoringErrors, after_call, Action.then_ok,
        Action.after_bind, after_query_mock, Action.then_ok]
      have hafter : InStep db' { w with
          db := db', outside := (MockBLEManager.manager.connect address resolved w.outside).2 } := by
        rcases w.outside.connect_cases address resolved with ⟨-, hsame⟩ | ⟨-, hlinked⟩
        · exact hrows.same (.refl _) rfl hsame
        · have hlate : Behind db' (fun key => False ∨ key.1 = address) { w with
              db := db'
              outside := (MockBLEManager.manager.connect address resolved w.outside).2 } :=
            hrows.linked hlinked rfl rfl
          refine ⟨hlate.rows, hlate.entry, fun key c hc hup hok _ => ?_⟩
          exact hlate.all key c hc hup hok fun hkey => hnone key c hc (hkey.resolve_left id)
      split <;> exact hafter.kept (h.checked.deviceCreate hcreate)

theorem removeDevice_mock (h : DemoKept w) (deviceId : ℕ) :
    (DeviceService.removeDevice (mockEnv now) deviceId).After (fun _ => DemoKept) w := by
  unfold DeviceService.removeDevice
  rw [Action.after_bind, after_query_mock, Action.then_ok]
  cases hget : Devices.getById w.db deviceId with
  | none => exact h
  | some device =>
    obtain ⟨hmem, rfl⟩ := Devices.mem_of_getById hget
    -- With the link down, the row may go.
    have hdelete : ∀ w₁ : World MockBLEManager, w₁.db = w.db → InStep w.db w₁ →
        device.address ∉ w₁.outside.connected →
        (execute (mockEnv now) fun db =>
          (Devices.delete db device.id).map fun db => ((), db)).After (fun _ => DemoKept) w₁ := by
      intro w₁ hdb hw₁ hdown
      rw [after_execute_mock]
      rw [← hdb] at hw₁ hmem
      have hchecked : RowsChecked w₁.db := hdb ▸ h.checked
      cases hdel : Devices.delete w₁.db device.id with
      | error e => exact hw₁.kept hchecked
      | ok db' =>
        refine InStep.kept (hw₁.of_rows ?_ ?_) (hchecked.deviceDelete hdel)
        · intro key c hc hup
          exact hc.deviceDelete hdel hmem hchecked.valid fun ha => hdown (ha ▸ hup)
        · exact fun key c hc _ => hc.of_deviceDelete hdel
    dsimp only
    rw [Action.after_bind, after_isConnected_mock, Action.then_ok, Action.after_bind,
      Action.after_ite]
    have hlogged : InStep w.db { w with
        trace := w.trace ++ [.linked device.address (device.address ∈ w.outside.connected)] } :=
      h.inStep.same (.refl _) rfl (.refl _)
    split
    · apply (BleRuntime.disconnect_mock hlogged).mono
      rintro r w₁ ⟨rfl, hdown, hdb, hw₁⟩
      exact hdelete w₁ hdb hw₁ hdown
    · rename_i hdown
      rw [Action.after_pure, Action.then_ok]
      exact hdelete _ rfl hlogged (by simpa using hdown)

/-- A refused channel leaves everything as it was; a returned one is the one new row. -/
theorem ChannelService.addChannel_mock (h : RowsChecked w.db) (deviceId : ℕ) (name : String)
    (type : ChannelType) (charUuid : Uuid) (dataFormat : String) (unit : Option String) :
    (addChannel (mockEnv now) deviceId name type charUuid dataFormat unit).After
      (fun r w' => match r with
        | .error _ => w' = w
        | .ok c => ∃ db', w' = { w with db := db' } ∧ RowsChecked db' ∧
            db'.devices = w.db.devices ∧ db'.channels = w.db.channels ++ [c] ∧
            c.deviceId = deviceId) w := by
  unfold addChannel
  rw [Action.after_ite]
  split
  swap
  · rfl
  rename_i hformat
  rw [Action.after_bind, after_query_mock, Action.then_ok, Action.after_ite]
  split
  · rfl
  rename_i hnew
  rw [Action.after_bind, after_execute_mock]
  cases hcreate : Channels.create w.db deviceId name type charUuid dataFormat unit with
  | error e => rfl
  | ok r =>
    obtain ⟨i, db'⟩ := r
    obtain ⟨huuids, c, hget, -, -⟩ :=
      channelCreate_row h.valid h.uuids (by simpa using hnew) hcreate
    have hv := h.valid.channelCreate hcreate
    obtain ⟨-, -, hid, hdb⟩ := Channels.create_ok hcreate
    have hrow : (⟨w.db.nextChannel, deviceId, name, type, charUuid, dataFormat, unit⟩ :
        Channel) ∈ db'.channels := by
      rw [hdb]
      exact List.mem_append_right _ (.head _)
    have hc : c = ⟨w.db.nextChannel, deviceId, name, type, charUuid, dataFormat, unit⟩ :=
      hv.channel_eq hrow (hid ▸ hget)
    have hchannels : db'.channels = w.db.channels ++ [c] := by
      rw [hdb, hc]
    have hformats : ∀ c' ∈ db'.channels, c'.dataFormat ∈ Parser.supportedFormats := by
      intro c' hc'
      rw [hchannels] at hc'
      rcases List.mem_append.mp hc' with hold | hadded
      · exact h.formats c' hold
      · rw [List.mem_singleton.mp hadded, hc]
        exact hformat
    dsimp only
    rw [Action.then_ok, Action.after_bind, after_query_mock, Action.then_ok, hget]
    exact ⟨db', rfl, ⟨hv, huuids, hformats⟩, by rw [hdb], hchannels, by rw [hc]⟩

theorem CurrentRow.key_eq {key : Address × Uuid} (hc : CurrentRow db key c) (hv : db.Valid)
    (hd : d ∈ db.devices) (hcd : c.deviceId = d.id) : key = (d.address, c.charUuid) := by
  obtain ⟨d', hd', hid, haddr⟩ := hc.device
  obtain rfl := hv.eq_of_id hd' hd (hid.trans hcd)
  exact Prod.ext haddr.symm hc.charUuid.symm

/-- Of the channels only the new one is not subscribed yet. -/
theorem onChannelAdded_mock (h : InStep w.db w) (hv : db'.Valid) (hd : d ∈ db'.devices)
    (hdevices : db'.devices = w.db.devices) (hchannels : db'.channels = w.db.channels ++ [c])
    (hcd : c.deviceId = d.id) :
    (BleRuntime.onChannelAdded (mockEnv now) d c).After (fun _ => InStep db')
      { w with db := db' } := by
  have hmem : c ∈ db'.channels := by
    rw [hchannels]
    exact List.mem_append_right _ (.head _)
  have hlate : Behind db' (fun key => CurrentRow db' key c) { w with db := db' } := by
    refine h.of_rows (fun key c' hc' _ => ?_) fun key c' hc' hnot => ?_
    · refine ⟨?_, hc'.display, hc'.charUuid, hdevices ▸ hc'.device⟩
      rw [hchannels]
      exact List.mem_append_left _ hc'.row
    · refine ⟨?_, hc'.display, hc'.charUuid, hdevices ▸ hc'.device⟩
      have hrow := hc'.row
      rw [hchannels] at hrow
      rcases List.mem_append.mp hrow with hold | hadded
      · exact hold
      · rw [List.mem_singleton.mp hadded] at hc'
        exact absurd hc' hnot
  unfold BleRuntime.onChannelAdded
  rw [Action.after_ite]
  split
  swap
  · rename_i hctrl
    exact hlate.mono fun key hc => hctrl hc.display
  rename_i hdisplay
  have hcurrent : CurrentRow db' (d.address, c.charUuid) c :=
    ⟨hmem, hdisplay, rfl, d, hd, hcd.symm, rfl⟩
  rw [Action.after_bind, after_isConnected_mock, Action.then_ok]
  have hlogged : Behind db' (fun key => CurrentRow db' key c) { w with
      db := db', trace := w.trace ++ [.linked d.address (d.address ∈ w.outside.connected)] } :=
    hlate.same (.refl _) rfl (.refl _)
  split
  · apply (BleRuntime.subscribeChannel_mock hcurrent hlogged).mono
    intro r w₁ hw₁
    exact hw₁.mono fun key hkey => hkey.2 (hkey.1.key_eq hv hd hcd)
  · rename_i hdown
    rw [Action.after_pure]
    refine Behind.inStep (hlogged.mono fun key hc => ?_) (by simpa using hdown)
    rw [hc.key_eq hv hd hcd]

theorem webAddChannel_mock (h : DemoKept w) (presets : List ChannelPreset) (deviceId : ℕ)
    (name preset : String) :
    (Web.addChannel (mockEnv now) presets deviceId name preset).After (fun _ => DemoKept) w := by
  unfold Web.addChannel
  rw [Action.after_bind, after_query_mock, Action.then_ok]
  cases hget : Devices.getById w.db deviceId with
  | none => exact h
  | some d =>
    obtain ⟨hd, rfl⟩ := Devices.mem_of_getById hget
    dsimp only
    rw [Action.after_ite]
    split
    swap
    · exact h
    cases presets.find? fun p => p.charUuid = preset with
    | none => exact h
    | some p =>
      dsimp only
      rw [Action.after_bind, Action.after_tryCatch, Action.after_bind]
      apply (ChannelService.addChannel_mock h.checked d.id name p.type p.charUuid p.dataFormat
        p.unit).mono
      intro r w₁ hr
      cases r with
      | error e =>
        subst hr
        cases e <;> exact h
      | ok c =>
        obtain ⟨db', rfl, hchecked, hdevices, hchannels, hcd⟩ := hr
        rw [Action.then_ok, Action.after_pure, Action.else_ok, Action.then_ok]
        refine Action.After.bind_pure (I := DemoKept) ?_ _
        apply (onChannelAdded_mock h.inStep hchecked.valid (hdevices ▸ hd) hdevices hchannels
          hcd).mono
        exact fun r w₁ hw₁ => hw₁.kept hchecked

/-- With the row of a channel its subscription goes. -/
theorem onChannelRemoved_mock (h : DemoKept w) (hd : d ∈ w.db.devices) (hc : c ∈ w.db.channels)
    (hcd : c.deviceId = d.id) (hdel : Channels.delete w.db c.id = .ok db') :
    (BleRuntime.onChannelRemoved (mockEnv now) d c).After (fun _ => InStep db')
      { w with db := db' } := by
  have hv := h.checked.valid
  unfold BleRuntime.onChannelRemoved
  rw [Action.after_ite]
  split
  swap
  · rename_i hctrl
    rw [Action.after_pure]
    refine h.inStep.of_rows (fun key c' hc' _ => ?_) fun key c' hc' _ =>
      (hc'.of_channelDelete hdel).1
    exact hc'.channelDelete hdel hv hc fun heq => hctrl (heq ▸ hc'.display)
  rename_i hdisplay
  have hcurrent : CurrentRow w.db (d.address, c.charUuid) c :=
    ⟨hc, hdisplay, rfl, d, hd, hcd.symm, rfl⟩
  -- Of the other keys nothing changes.
  have hother : ∀ key c', key ≠ (d.address, c.charUuid) → CurrentRow w.db key c' →
      CurrentRow db' key c' := by
    intro key c' hne hc'
    apply hc'.channelDelete hdel hv hc
    rintro rfl
    exact hne (hc'.key_eq hv hd hcd)
  have hgone : ∀ key c', CurrentRow db' key c' →
      CurrentRow w.db key c' ∧ key ≠ (d.address, c.charUuid) := by
    intro key c' hc'
    obtain ⟨hcur, hne⟩ := hc'.of_channelDelete hdel
    refine ⟨hcur, ?_⟩
    rintro rfl
    exact hne (hcur.eq hv h.checked.uuids hcurrent)
  have hentry : ∀ key i, key ≠ (d.address, c.charUuid) →
      w.outside.subscriptions.get? key = some i →
      key.1 ∈ w.outside.connected ∧ key.2 ∉ w.outside.failSubscribeFor ∧
        ∃ c', CurrentRow db' key c' ∧ c'.id = i ∧
          Function.update w.subscribed (d.address, c.charUuid) none key = some c' := by
    intro key i hne hget
    obtain ⟨hup, hok, c', hc', hi, hsub⟩ := h.inStep.entry key i hget
    rw [Function.update_of_ne hne]
    exact ⟨hup, hok, c', hother key c' hne hc', hi, hsub⟩
  rw [Action.after_bind, Action.after_modify, Action.then_ok, Action.after_bind,
    after_isConnected_mock, Action.then_ok, Action.after_ite]
  split
  · rw [after_call]
    refine ⟨.refl _, fun key i hget => ?_, fun key c' hc' hup hok _ => ?_⟩
    · change (w.outside.subscriptions.pop (d.address, c.charUuid)).get? key = some i at hget
      rw [OrderedDict.get?_pop] at hget
      split_ifs at hget with hne
      exact hentry key i hne hget
    · obtain ⟨hcur, hne⟩ := hgone key c' hc'
      change ((w.outside.subscriptions.pop (d.address, c.charUuid)).get? key).isSome = true
      rw [OrderedDict.get?_pop, if_neg hne]
      exact h.inStep.all key c' hcur hup hok id
  · rename_i hdown
    have hdown : d.address ∉ w.outside.connected := by simpa using hdown
    refine ⟨.refl _, fun key i hget => ?_, fun key c' hc' hup hok _ => ?_⟩
    · apply hentry key i _ hget
      rintro rfl
      exact hdown (h.inStep.entry _ i hget).1
    · exact h.inStep.all key c' (hgone key c' hc').1 hup hok id

theorem webDeleteChannel_mock (h : DemoKept w) (channelId : ℕ) :
    (Web.deleteChannel (mockEnv now) channelId).After (fun _ => DemoKept) w := by
  unfold Web.deleteChannel
  rw [Action.after_bind, after_query_mock, Action.then_ok]
  cases hget : Channels.getById w.db channelId with
  | none => exact h
  | some c =>
    obtain ⟨hc, rfl⟩ := Channels.mem_of_getById hget
    dsimp only
    rw [Action.after_bind, after_query_mock, Action.then_ok]
    cases hgetd : Devices.getById w.db c.deviceId with
    | none => exact h
    | some d =>
      obtain ⟨hd, hdc⟩ := Devices.mem_of_getById hgetd
      dsimp only
      rw [Action.after_bind, after_execute_mock]
      cases hdel : Channels.delete w.db c.id with
      | error e => exact h
      | ok db' =>
        rw [Except.map]
        dsimp only
        rw [Action.then_ok]
        refine Action.After.bind_pure (I := DemoKept) ?_ _
        apply (onChannelRemoved_mock h hd hc hdc.symm hdel).mono
        exact fun r w₁ hw₁ => hw₁.kept (h.checked.channelDelete hdel)

end HomeServer.Services
