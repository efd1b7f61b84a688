import HomeServer.Services.Addresses
import HomeServer.Services.Subscriptions

/-! The entries of `BleRuntime._subscribed` against the rows of the tables, over whole operations
in any order. -/
namespace HomeServer.Services
open HomeServer.Db HomeServer.Ble HomeServer.Lib
variable {β : Type}

/-- `c` is the row of a display channel with the char_uuid of the key, on a device registered with
its address. -/
structure CurrentRow (db : Database) (key : Address × Uuid) (c : Channel) : Prop where
  row : c ∈ db.channels
  display : c.type = .display
  charUuid : c.charUuid = key.2
  device : ∃ d ∈ db.devices, d.id = c.deviceId ∧ d.address = key.1

/-- The table has no dead entries. -/
def NoDeadEntries (w : World β) : Prop :=
  ∀ key c, w.subscribed key = some c → CurrentRow w.db key c

/-- A whole operation; `outside` is what it finds. -/
inductive RuntimeCall (β : Type)
  | linkChange (outside : β)
  | activate (outside : β)
  | tick (now : ℚ) (outside : β)
  | addChannel (presets : List ChannelPreset) (deviceId : ℕ) (name preset : String) (outside : β)
  | deleteChannel (channelId : ℕ) (outside : β)
  | addDevice (ownerUserId : ℕ) (address : Address) (name : String) (addrType : Option AddrType)
      (outside : β)
  | removeDevice (deviceId : ℕ) (outside : β)
  | scanWindow (outside : β)

namespace RuntimeCall

def outside : RuntimeCall β → β
  | .linkChange outside | .activate outside | .tick _ outside | .addChannel _ _ _ _ outside
  | .deleteChannel _ outside | .addDevice _ _ _ _ outside | .removeDevice _ outside
  | .scanWindow outside => outside

/-- Of a scan window only `_disconnect_all` concerns the links. -/
def program (E : Env β) : RuntimeCall β → Runtime β Unit
  | .linkChange _ => pure ()
  | .activate _ => BleRuntime.activate E
  | .tick now _ => BleRuntime.monitorTick E now
  | .addChannel presets deviceId name preset _ => do
    let _ ← Web.addChannel E presets deviceId name preset
  | .deleteChannel channelId _ => do
    let _ ← Web.deleteChannel E channelId
  | .addDevice ownerUserId address name addrType _ => do
    let _ ← DeviceService.addDevice E ownerUserId address name addrType
  | .removeDevice deviceId _ => DeviceService.removeDevice E deviceId
  | .scanWindow _ => BleRuntime.disconnectAll E

end RuntimeCall

def runtimeCalls (E : Env β) : System (World β) (RuntimeCall β) where
  init w := w.db.Valid ∧ ∀ key, w.subscribed key = none
  step w e := some ((e.program E).exec { w with outside := e.outside }).2

/-- No device goes while a channel of it has an entry in the table. -/
def removesUnsubscribed (E : Env β) (w : World β) : RuntimeCall β → Bool
  | .removeDevice deviceId outside =>
    match Devices.getById w.db deviceId with
    | none => true
    | some d => !deletesRow E d outside || (Channels.listByDevice w.db deviceId).all fun c =>
        (w.subscribed (d.address, c.charUuid)).isNone
  | _ => true

/-- The rows are those of `db`, up to `last_connected_at`, and the table has no dead entries. -/
def LiveOver (db : Database) (w : World β) : Prop := SameRows db w.db ∧ NoDeadEntries w

theorem CurrentRow.sameRows {db db' : Database} (h : SameRows db db') {key : Address × Uuid}
    {c : Channel} (hc : CurrentRow db key c) : CurrentRow db' key c := by
  obtain ⟨d, hd, hid, haddr⟩ := hc.device
  obtain ⟨d', hd', hid', haddr'⟩ := h.keeps_device hd
  exact ⟨h.channels ▸ hc.row, hc.display, hc.charUuid, d', hd', hid'.trans hid,
    haddr'.trans haddr⟩

theorem NoDeadEntries.sameRows {w w' : World β} (hw : NoDeadEntries w)
    (hrows : SameRows w.db w'.db) (hsub : w'.subscribed = w.subscribed) : NoDeadEntries w' := by
  intro key c hc
  rw [hsub] at hc
  exact (hw key c hc).sameRows hrows

theorem LiveOver.sameTable {db : Database} {w w' : World β} (h : LiveOver db w)
    (hdb : w'.db = w.db) (hsub : w'.subscribed = w.subscribed) : LiveOver db w' :=
  ⟨hdb ▸ h.1, h.2.sameRows (hdb ▸ .refl _) hsub⟩

section Preserved
variable {E : Env β} {db : Database}

theorem call_live {α : Type} (f : Call β α) : Action.Preserves (LiveOver db) (call f) := by
  intro w hw
  rw [after_call]
  exact hw.sameTable rfl rfl

theorem query_live {α : Type} (f : Database → α) :
    Action.Preserves (LiveOver db) (query E f) := by
  intro w hw
  exact after_query_any E f (fun b _ => hw.sameTable rfl rfl) fun e b => hw.sameTable rfl rfl

theorem isConnected_live (address : Address) :
    Action.Preserves (LiveOver db) (isConnected E address) := by
  intro w hw
  rw [after_isConnected]
  exact hw.sameTable rfl rfl

theorem stateOf_live (address : Address) :
    Action.Preserves (LiveOver db) (stateOf address : Runtime β _) := by
  intro w hw
  rw [after_stateOf]
  exact hw

theorem updateState_live (address : Address) (f : DeviceMonitorState → DeviceMonitorState) :
    Action.Preserves (LiveOver db) (updateState address f : Runtime β Unit) := by
  intro w hw
  rw [after_updateState]
  exact hw.sameTable rfl rfl

theorem log_live (e : Event) : Action.Preserves (LiveOver db) (log e : Runtime β Unit) := by
  intro w hw
  rw [after_log]
  exact hw.sameTable rfl rfl

namespace BleRuntime

theorem touchLastConnected_live (deviceId : ℕ) :
    Action.Preserves (LiveOver db) (touchLastConnected E deviceId) := by
  apply (log_live _).bind
  intro u w hw
  rw [Action.after_bind, after_ask, Action.then_ok]
  refine after_execute_any E _ (fun a db' b _ hf => ?_) fun e b => hw.sameTable rfl rfl
  cases hf
  have htouch := sameRows_touch w.db (E.wallClock w.outside).1 deviceId
  exact ⟨hw.1.trans htouch, hw.2.sameRows htouch rfl⟩

theorem subscribeChannel_live {address : Address} {c : Channel}
    (hc : CurrentRow db (address, c.charUuid) c) :
    Action.Preserves (LiveOver db) (subscribeChannel E address c) := by
  apply (call_live _).bind
  intro u
  apply Action.Preserves.modify
  rintro w ⟨hrows, hlive⟩
  refine ⟨hrows, fun key c' hkey => ?_⟩
  dsimp only at hkey
  by_cases heq : key = (address, c.charUuid)
  · subst heq
    rw [Function.update_self, Option.some_inj] at hkey
    exact hkey ▸ hc.sameRows hrows
  · rw [Function.update_of_ne heq] at hkey
    exact hlive key c' hkey

theorem subscribeDisplayChannels_live {d : Device} (hd : d ∈ db.devices) :
    Action.Preserves (LiveOver db) (subscribeDisplayChannels E d) := by
  intro w hw
  unfold subscribeDisplayChannels
  rw [Action.after_bind]
  refine after_query_any E _ (fun b _ => ?_) fun e b => hw.sameTable rfl rfl
  rw [Action.then_ok]
  refine Action.Preserves.forM (I := LiveOver db) (fun c hc => ?_) _ (hw.sameTable rfl rfl)
  obtain ⟨hrow, hdevice⟩ := List.mem_filter.mp hc
  have hdevice : d.id = c.deviceId := (of_decide_eq_true hdevice).symm
  refine Action.Preserves.ite (fun hdisplay => ?_) fun _ => .pure ()
  have hcurrent : CurrentRow db (d.address, c.charUuid) c :=
    ⟨hw.1.channels ▸ hrow, hdisplay, rfl, d, hd, hdevice, rfl⟩
  exact (subscribeChannel_live hcurrent).tryCatch fun _ => .pure ()

theorem setStatus_live (deviceId : ℕ) (address : Address) (status : Status) :
    Action.Preserves (LiveOver db) (setStatus E deviceId address status) := by
  apply (stateOf_live address).bind
  intro state
  refine Action.Preserves.ite (fun _ => .pure ()) fun _ => ?_
  exact (updateState_live address _).bind fun _ => (log_live _).bind fun _ => call_live _

theorem onConnected_live {d : Device} (hd : d ∈ db.devices) :
    Action.Preserves (LiveOver db) (onConnected E d) := by
  have hsubscribe : Action.Preserves (LiveOver db) (subscribeOnce E d) := by
    apply (stateOf_live d.address).bind
    intro state
    refine Action.Preserves.ite (fun _ => .pure ()) fun _ => ?_
    exact (subscribeDisplayChannels_live hd).bind fun _ => updateState_live d.address _
  have htouch : Action.Preserves (LiveOver db) (touchUnlessConnected E d) := by
    apply (stateOf_live d.address).bind
    intro state
    exact .ite (fun _ => .pure ()) fun _ => touchLastConnected_live d.id
  exact hsubscribe.bind fun _ => (updateState_live d.address _).bind fun _ =>
    htouch.bind fun _ => setStatus_live d.id d.address .connected

theorem tickDevice_live (now : ℚ) {d : Device} (hd : d ∈ db.devices) :
    Action.Preserves (LiveOver db) (tickDevice E now d) := by
  have hdrop : Action.Preserves (LiveOver db) (reportDrop E now d) := by
    apply (stateOf_live d.address).bind
    intro state
    refine Action.Preserves.bind (.ite (fun _ => touchLastConnected_live d.id) fun _ => .pure ())
      fun _ => ?_
    exact (updateState_live d.address _).bind fun _ => setStatus_live d.id d.address _
  have hretry : Action.Preserves (LiveOver db) (retryConnect E now d) := by
    have hensure : Action.Preserves (LiveOver db) (ensureConnecting E d) :=
      (log_live _).bind fun _ => call_live _
    refine (setStatus_live d.id d.address _).bind fun _ => hensure.bind fun _ => ?_
    apply (isConnected_live d.address).bind
    intro up
    refine Action.Preserves.ite (fun _ => onConnected_live hd) fun _ => ?_
    exact (updateState_live d.address _).bind fun _ => updateState_live d.address _
  apply (updateState_live d.address _).bind
  intro _
  apply (isConnected_live d.address).bind
  intro up
  refine Action.Preserves.ite (fun _ => onConnected_live hd) fun _ => ?_
  refine (updateState_live d.address _).bind fun _ => (stateOf_live d.address).bind fun state => ?_
  exact .ite (fun _ => hdrop) fun _ => .ite (fun _ => hretry) fun _ => .pure ()

theorem monitorTick_live (now : ℚ) {w : World β} (h : NoDeadEntries w) :
    (monitorTick E now).After (fun _ => LiveOver w.db) w := by
  have hw : LiveOver w.db w := ⟨.refl _, h⟩
  unfold monitorTick openConn
  rw [Action.after_bind]
  refine after_query_any E _ (fun b _ => ?_) fun e b => hw.sameTable rfl rfl
  rw [Action.then_ok, Action.after_bind]
  refine after_query_any E _ (fun b' _ => ?_) fun e b' => hw.sameTable rfl rfl
  rw [Action.then_ok, Action.after_bind, Action.after_modify, Action.then_ok]
  exact Action.Preserves.forM (fun d hd => tickDevice_live now hd) _ (hw.sameTable rfl rfl)

theorem activate_live {w : World β} (h : NoDeadEntries w) :
    (activate E).After (fun _ => LiveOver w.db) w := by
  have hw : LiveOver w.db w := ⟨.refl _, h⟩
  unfold activate openConn
  rw [Action.after_bind]
  refine after_query_any E _ (fun b _ => ?_) fun e b => hw.sameTable rfl rfl
  rw [Action.then_ok, Action.after_bind]
  refine after_query_any E _ (fun b' _ => ?_) fun e b' => hw.sameTable rfl rfl
  rw [Action.then_ok]
  refine Action.Preserves.forM (fun d hd => ?_) _ (hw.sameTable rfl rfl)
  have hbring : Action.Preserves (LiveOver w.db) (bringUpDevice E d) := by
    refine Action.Preserves.bind ?_ fun connected => .ite (fun _ => ?_) fun _ => .pure false
    · exact ((call_live _).bind fun _ => .pure true).tryCatch fun _ => .pure false
    · apply (isConnected_live d.address).bind
      intro up
      refine .ite (fun _ => ?_) fun _ => .pure false
      exact (subscribeDisplayChannels_live hd).bind fun _ => .pure true
  refine hbring.bind fun up => .ite (fun _ => .modify fun w' hw' => ?_) fun _ => .pure ()
  exact hw'.sameTable rfl rfl

theorem disconnectAll_live {w : World β} (h : NoDeadEntries w) :
    (disconnectAll E).After (fun _ => LiveOver w.db) w := by
  have hall : Action.Preserves (LiveOver w.db) (disconnectAll E) := by
    refine (query_live _).bind fun _ => (query_live _).bind fun devices => .forM fun d _ => ?_
    exact (isConnected_live d.address).bind fun up => .ite (fun _ => call_live _) fun _ => .pure ()
  exact hall w ⟨.refl _, h⟩

theorem onChannelAdded_live {d : Device} {c : Channel} (hd : d ∈ db.devices)
    (hc : c ∈ db.channels) (hid : d.id = c.deviceId) :
    Action.Preserves (LiveOver db) (onChannelAdded E d c) := by
  refine .ite (fun hdisplay => ?_) fun _ => .pure ()
  apply (isConnected_live d.address).bind
  intro up
  have hcurrent : CurrentRow db (d.address, c.charUuid) c := ⟨hc, hdisplay, rfl, d, hd, hid, rfl⟩
  exact .ite (fun _ => subscribeChannel_live hcurrent) fun _ => .pure ()

end BleRuntime
end Preserved

/-- The rows satisfy the constraints, and the table has no dead entries. -/
structure TableKept (w : World β) : Prop where
  valid : w.db.Valid
  live : NoDeadEntries w

theorem TableKept.outside {w : World β} (h : TableKept w) (b : β) :
    TableKept { w with outside := b } := ⟨h.valid, h.live⟩

/-- Rows may have been added. -/
structure MoreRows (w w' : World β) : Prop where
  valid : w'.db.Valid
  devices : ∀ d ∈ w.db.devices, d ∈ w'.db.devices
  channels : ∀ c ∈ w.db.channels, c ∈ w'.db.channels
  subscribed : w'.subscribed = w.subscribed

theorem MoreRows.refl {w w' : World β} (hv : w.db.Valid) (hdb : w'.db = w.db)
    (hsub : w'.subscribed = w.subscribed) : MoreRows w w' := by
  constructor
  · exact hdb ▸ hv
  · exact fun d hd => hdb ▸ hd
  · exact fun c hc => hdb ▸ hc
  · exact hsub

theorem MoreRows.tableKept {w w' : World β} (h : MoreRows w w') (hw : NoDeadEntries w) :
    TableKept w' := by
  refine ⟨h.valid, fun key c hkey => ?_⟩
  rw [h.subscribed] at hkey
  have hc := hw key c hkey
  obtain ⟨d, hd, hid, haddr⟩ := hc.device
  exact ⟨h.channels c hc.row, hc.display, hc.charUuid, d, h.devices d hd, hid, haddr⟩

theorem LiveOver.tableKept {db : Database} {w : World β} (h : LiveOver db w) (hv : db.Valid) :
    TableKept w := ⟨h.1.valid hv, h.2⟩

variable {E : Env β}

/-- A channel that is returned has the row that was added. -/
theorem ChannelService.addChannel_more (E : Env β) {w : World β} (hv : w.db.Valid)
    (deviceId : ℕ) (name : String) (type : ChannelType) (charUuid : Uuid) (dataFormat : String)
    (unit : Option String) :
    (addChannel E deviceId name type charUuid dataFormat unit).After
      (fun r w' => MoreRows w w' ∧
        ∀ c, r = .ok c → c ∈ w'.db.channels ∧ c.deviceId = deviceId) w := by
  have hsame : ∀ w' : World β, w'.db = w.db → w'.subscribed = w.subscribed → MoreRows w w' :=
    fun w' hdb hsub => .refl hv hdb hsub
  unfold addChannel
  rw [Action.after_ite]
  split
  swap
  · exact ⟨hsame _ rfl rfl, fun c hc => nomatch hc⟩
  rw [Action.after_bind]
  refine after_query_any E _ (fun b _ => ?_) fun e b => ⟨hsame _ rfl rfl, fun c hc => nomatch hc⟩
  rw [Action.then_ok, Action.after_ite]
  split
  · exact ⟨hsame _ rfl rfl, fun c hc => nomatch hc⟩
  rw [Action.after_bind]
  refine after_execute_any E _ (fun i db' b' _ hcreate => ?_) fun e b' =>
    ⟨hsame _ rfl rfl, fun c hc => nomatch hc⟩
  obtain ⟨-, -, hid, hdb⟩ := Channels.create_ok hcreate
  have hvalid := hv.channelCreate hcreate
  have hmore : ∀ b'', MoreRows w { w with outside := b'', db := db' } := by
    intro b''
    rw [hdb] at hvalid ⊢
    exact ⟨hvalid, fun d hd => hd, fun c hc => List.mem_append_left _ hc, rfl⟩
  rw [Action.then_ok, Action.after_bind]
  refine after_query_any E _ (fun b'' _ => ?_) fun e b'' => ⟨hmore b'', fun c hc => nomatch hc⟩
  rw [Action.then_ok]
  cases hget : Channels.getById db' i with
  | none => exact ⟨hmore b'', fun c hc => nomatch hc⟩
  | some c =>
    refine ⟨hmore b'', fun c' hc' => ?_⟩
    cases hc'
    refine ⟨(Channels.mem_of_getById hget).1, ?_⟩
    have hrow : (⟨w.db.nextChannel, deviceId, name, type, charUuid, dataFormat, unit⟩ :
        Channel) ∈ db'.channels := by
      rw [hdb]
      exact List.mem_append_right _ (.head _)
    rw [hid] at hget
    rw [hvalid.channel_eq hrow hget]

theorem webAddChannel_kept {w : World β} (h : TableKept w) (presets : List ChannelPreset)
    (deviceId : ℕ) (name preset : String) :
    (Web.addChannel E presets deviceId name preset).After (fun _ => TableKept) w := by
  unfold Web.addChannel
  rw [Action.after_bind]
  refine after_query_any E _ (fun b _ => ?_) fun e b => h.outside b
  rw [Action.then_ok]
  cases hget : Devices.getById w.db deviceId with
  | none => exact h.outside b
  | some d =>
    obtain ⟨hd, hid⟩ := Devices.mem_of_getById hget
    dsimp only
    rw [Action.after_ite]
    split
    swap
    · exact h.outside b
    cases presets.find? fun p => p.charUuid = preset with
    | none => exact h.outside b
    | some p =>
      dsimp only
      rw [Action.after_bind, Action.after_tryCatch, Action.after_bind]
      have hb := h.outside b
      apply (ChannelService.addChannel_more E hb.valid deviceId name p.type p.charUuid
        p.dataFormat p.unit).mono
      rintro r w₁ ⟨hmore, hadded⟩
      have hkept := hmore.tableKept hb.live
      cases r with
      | error e => cases e <;> exact hkept
      | ok c =>
        obtain ⟨hc, hcd⟩ := hadded c rfl
        have hlive : LiveOver w₁.db w₁ := ⟨.refl _, hkept.live⟩
        have hsub := BleRuntime.onChannelAdded_live (E := E) (hmore.devices d hd) hc
          (hid.trans hcd.symm) w₁ hlive
        rw [Action.then_ok, Action.after_pure, Action.else_ok, Action.then_ok]
        exact (hsub.mono fun _ _ hw₂ => hw₂.tableKept hkept.valid).bind_pure _

/-- With the row of a channel its entry goes, which no other row has. -/
theorem onChannelRemoved_kept {w : World β} (h : TableKept w) {c : Channel} {d : Device}
    {db : Database} (hc : c ∈ w.db.channels) (hd : d ∈ w.db.devices) (hcd : c.deviceId = d.id)
    (hdel : Channels.delete w.db c.id = .ok db) (b : β) :
    (BleRuntime.onChannelRemoved E d c).After (fun _ => TableKept)
      { w with outside := b, db } := by
  have hv := h.valid.channelDelete hdel
  obtain rfl := Channels.delete_ok hdel
  have hlive : ∀ key c', w.subscribed key = some c' → c' ≠ c →
      CurrentRow { w.db with
        channels := w.db.channels.filter fun c' => c'.id ≠ c.id
        readings := w.db.readings.filter fun r => r.channelId ≠ c.id } key c' := by
    intro key c' hkey hne
    have hrow := h.live key c' hkey
    have hid : c'.id ≠ c.id := fun heq =>
      hne (List.inj_on_of_nodup_map h.valid.channelIds hrow.row hc heq)
    exact ⟨List.mem_filter.mpr ⟨hrow.row, by simpa using hid⟩, hrow.display, hrow.charUuid,
      hrow.device⟩
  unfold BleRuntime.onChannelRemoved
  rw [Action.after_ite]
  split
  · rw [Action.after_bind, Action.after_modify, Action.then_ok, Action.after_bind,
      after_isConnected, Action.then_ok]
    have hkept : ∀ w' : World β, w'.db = { w.db with
        channels := w.db.channels.filter fun c' => c'.id ≠ c.id
        readings := w.db.readings.filter fun r => r.channelId ≠ c.id } →
        w'.subscribed = Function.update w.subscribed (d.address, c.charUuid) none →
        TableKept w' := by
      intro w' hdb hsub
      refine ⟨hdb ▸ hv, fun key c' hkey => ?_⟩
      rw [hsub] at hkey
      rw [hdb]
      by_cases heq : key = (d.address, c.charUuid)
      · rw [heq, Function.update_self] at hkey
        cases hkey
      rw [Function.update_of_ne heq] at hkey
      apply hlive key c' hkey
      rintro rfl
      have hrow := h.live key c' hkey
      obtain ⟨d', hd', hid', haddr'⟩ := hrow.device
      obtain rfl := h.valid.eq_of_id hd' hd (hid'.trans hcd)
      exact heq (Prod.ext haddr'.symm hrow.charUuid.symm)
    rw [Action.after_ite]
    split
    · rw [after_call]
      exact hkept _ rfl rfl
    · exact hkept _ rfl rfl
  · rename_i hctrl
    refine ⟨hv, fun key c' hkey => hlive key c' hkey ?_⟩
    rintro rfl
    exact hctrl (h.live key c' hkey).display

theorem webDeleteChannel_kept {w : World β} (h : TableKept w) (channelId : ℕ) :
    (Web.deleteChannel E channelId).After (fun _ => TableKept) w := by
  unfold Web.deleteChannel
  rw [Action.after_bind]
  refine after_query_any E _ (fun b _ => ?_) fun e b => h.outside b
  rw [Action.then_ok]
  cases hget : Channels.getById w.db channelId with
  | none => exact h.outside b
  | some c =>
    obtain ⟨hc, hid⟩ := Channels.mem_of_getById hget
    dsimp only
    rw [Action.after_bind]
    refine after_query_any E _ (fun b' _ => ?_) fun e b' => h.outside b'
    rw [Action.then_ok]
    cases hgetd : Devices.getById w.db c.deviceId with
    | none => exact h.outside b'
    | some d =>
      obtain ⟨hd, hdc⟩ := Devices.mem_of_getById hgetd
      dsimp only
      rw [Action.after_bind]
      refine after_execute_any E _ (fun _ db b'' _ hf => ?_) fun e b'' => h.outside b''
      cases hdel : Channels.delete w.db channelId with
      | error e =>
        rw [hdel] at hf
        cases hf
      | ok db₁ =>
        rw [hdel] at hf
        cases hf
        rw [← hid] at hdel
        rw [Action.then_ok]
        exact (onChannelRemoved_kept h hc hd hdc.symm hdel b'').bind_pure _

theorem addDevice_kept {w : World β} (h : TableKept w) (ownerUserId : ℕ) (address : Address)
    (name : String) (addrType : Option AddrType) :
    (DeviceService.addDevice E ownerUserId address name addrType).After (fun _ => TableKept) w := by
  apply (DeviceService.addDevice_spec E ownerUserId address name addrType w).mono
  rintro r w' ⟨hsub, hrows⟩
  split at hrows
  · obtain ⟨i, resolved, hcreate⟩ := hrows
    have hv := h.valid.deviceCreate hcreate
    obtain ⟨-, -, hdb⟩ := Devices.create_ok hcreate
    have hmore : MoreRows w w' := by
      refine ⟨hv, ?_, ?_, hsub⟩
      · rw [hdb]
        exact fun d hd => List.mem_append_left _ hd
      · rw [hdb]
        exact fun c hc => hc
    exact hmore.tableKept h.live
  · exact (MoreRows.refl h.valid hrows hsub).tableKept h.live

/-- With the row of a device that has no entries the table stays live, and otherwise its entries
are dead. -/
theorem TableKept.removed {w w' : World β} (h : TableKept w) {d : Device} (hd : d ∈ w.db.devices)
    (hdel : Devices.delete w.db d.id = .ok w'.db) (hsub : w'.subscribed = w.subscribed) :
    ((Channels.listByDevice w.db d.id).all fun c =>
        (w.subscribed (d.address, c.charUuid)).isNone) = true ↔ NoDeadEntries w' := by
  have hdb := Devices.delete_ok hdel
  rw [List.all_eq_true]
  constructor
  · intro hnone key c hkey
    rw [hsub] at hkey
    have hrow := h.live key c hkey
    obtain ⟨d', hd', hid', haddr'⟩ := hrow.device
    have hother : c.deviceId ≠ d.id := by
      intro heq
      obtain rfl := h.valid.eq_of_id hd' hd (hid'.trans heq)
      have hlisted : c ∈ Channels.listByDevice w.db d'.id :=
        List.mem_filter.mpr ⟨hrow.row, by simpa using heq⟩
      have hentry := hnone c hlisted
      rw [haddr', hrow.charUuid, hkey] at hentry
      cases hentry
    rw [hdb]
    refine ⟨List.mem_filter.mpr ⟨hrow.row, by simpa using hother⟩, hrow.display, hrow.charUuid, d',
      List.mem_filter.mpr ⟨hd', ?_⟩, hid', haddr'⟩
    simpa [hid'] using hother
  · intro hlive c _
    rw [Option.isNone_iff_eq_none]
    cases hentry : w.subscribed (d.address, c.charUuid) with
    | none => rfl
    | some c' =>
      rw [← hsub] at hentry
      obtain ⟨d', hd', -, haddr'⟩ := (hlive _ c' hentry).device
      rw [hdb] at hd'
      obtain ⟨hd', hne⟩ := List.mem_filter.mp hd'
      obtain rfl := h.valid.eq_of_address hd' hd haddr'
      simp at hne

/-- A removal keeps the table, unless the row it takes has entries. -/
theorem removeDevice_kept {w : World β} (h : TableKept w) (deviceId : ℕ) (outside : β) :
    (DeviceService.removeDevice E deviceId).After
      (fun _ w' => w'.db.Valid ∧
        (removesUnsubscribed E w (.removeDevice deviceId outside) = true ↔ NoDeadEntries w'))
      { w with outside } := by
  have hkept : ∀ w' : World β, w'.db = w.db → w'.subscribed = w.subscribed → TableKept w' :=
    fun w' hdb hsub => (MoreRows.refl h.valid hdb hsub).tableKept h.live
  cases hget : Devices.getById w.db deviceId with
  | none =>
    apply (DeviceService.removeDevice_missing E (w := { w with outside }) hget).mono
    rintro r w' ⟨hsub, hdb⟩
    have hw' := hkept w' hdb hsub
    have hok : removesUnsubscribed E w (.removeDevice deviceId outside) = true := by
      simp [removesUnsubscribed, hget]
    exact ⟨hw'.valid, fun _ => hw'.live, fun _ => hok⟩
  | some d =>
    obtain ⟨hd, rfl⟩ := Devices.mem_of_getById hget
    apply (DeviceService.removeDevice_rows E (w := { w with outside }) hget).mono
    rintro r w' ⟨hsub, hrows⟩
    simp only [removesUnsubscribed, hget]
    cases hrow : deletesRow E d outside with
    | false =>
      rw [hrow, if_neg Bool.false_ne_true] at hrows
      have hw' := hkept w' hrows hsub
      exact ⟨hw'.valid, fun _ => hw'.live, fun _ => rfl⟩
    | true =>
      rw [hrow, if_pos rfl] at hrows
      rw [Bool.not_true, Bool.false_or]
      exact ⟨h.valid.deviceDelete hrows, h.removed hd hrows hsub⟩

/-- One operation keeps the table, unless it takes the row of a device that has entries. -/
theorem runtimeCalls_step {w w' : World β} {e : RuntimeCall β} (h : TableKept w)
    (hs : (runtimeCalls E).step w e = some w') :
    w'.db.Valid ∧ (removesUnsubscribed E w e = true ↔ NoDeadEntries w') := by
  have h' := h.outside e.outside
  have hkept : removesUnsubscribed E w e = true → TableKept w' →
      w'.db.Valid ∧ (removesUnsubscribed E w e = true ↔ NoDeadEntries w') :=
    fun hok hw' => ⟨hw'.valid, fun _ => hw'.live, fun _ => hok⟩
  have hover : removesUnsubscribed E w e = true → LiveOver w.db w' →
      w'.db.Valid ∧ (removesUnsubscribed E w e = true ↔ NoDeadEntries w') :=
    fun hok hw' => hkept hok (hw'.tableKept h.valid)
  cases e with
  | linkChange outside =>
    cases hs
    exact hkept rfl h'
  | activate outside =>
    have hspec := BleRuntime.activate_live (E := E) h'.live
    cases hs
    exact hover rfl hspec
  | tick now outside =>
    have hspec := BleRuntime.monitorTick_live (E := E) now h'.live
    cases hs
    exact hover rfl hspec
  | scanWindow outside =>
    have hspec := BleRuntime.disconnectAll_live (E := E) h'.live
    cases hs
    exact hover rfl hspec
  | addChannel presets deviceId name preset outside =>
    have hspec := (webAddChannel_kept (E := E) h' presets deviceId name preset).bind_pure
      fun _ => ()
    cases hs
    exact hkept rfl hspec
  | deleteChannel channelId outside =>
    have hspec := (webDeleteChannel_kept (E := E) h' channelId).bind_pure fun _ => ()
    cases hs
    exact hkept rfl hspec
  | addDevice ownerUserId address name addrType outside =>
    have hspec := (addDevice_kept (E := E) h' ownerUserId address name addrType).bind_pure
      fun _ => ()
    cases hs
    exact hkept rfl hspec
  | removeDevice deviceId outside =>
    have hspec := removeDevice_kept (E := E) h deviceId outside
    cases hs
    exact hspec

/-- Along a run the table is free of dead entries exactly when no row of a device goes while a
channel of it has an entry. -/
theorem no_dead_entries {w w' : World β} {es : List (RuntimeCall β)}
    (h : (runtimeCalls E).init w)
    (hrun : (runtimeCalls E).replay (fun _ _ => true) w es = some w') :
    (∀ u ∈ (runtimeCalls E).visited w es, NoDeadEntries u) ↔
      (runtimeCalls E).replay (removesUnsubscribed E) w es = some w' := by
  have hstart : TableKept w := by
    refine ⟨h.1, fun key c hkey => ?_⟩
    rw [h.2] at hkey
    cases hkey
  refine System.visited_iff_replay (I := TableKept) (fun _ hu => hu.live)
    (fun u e u' hu hok hs => ?_) (fun u e u' hu hno hs hlive => ?_) hstart hrun
  · have hstep := runtimeCalls_step hu hs
    exact ⟨hstep.1, hstep.2.mp hok⟩
  · rw [(runtimeCalls_step hu hs).2.mpr hlive] at hno
    cases hno

def porchAddress : Address := "A4:C1:38:00:00:2A"

def porchPreset : ChannelPreset := ⟨"Humidity", "2a6f", .display, "int16_le", some "%"⟩

def porchMonitored : List (RuntimeCall Bool) :=
  [.addDevice 1 porchAddress "porch" (some .publicAddr) true,
    .addChannel [porchPreset] 1 "humidity" "2a6f" true]

theorem noRows_init : (runtimeCalls BleRuntime.switchEnv).init { db := {}, outside := true } :=
  ⟨.empty, fun _ => rfl⟩

/-- The channel is deleted before the device. -/
theorem no_dead_entries_porch : ∃ w : World Bool, w.db.devices = [] ∧
    ∀ u ∈ (runtimeCalls BleRuntime.switchEnv).visited { db := {}, outside := true }
      (porchMonitored ++ [.deleteChannel 1 true, .removeDevice 1 true]), NoDeadEntries u := by
  have hreplay : ((runtimeCalls BleRuntime.switchEnv).replay
      (removesUnsubscribed BleRuntime.switchEnv) { db := {}, outside := true }
      (porchMonitored ++ [.deleteChannel 1 true, .removeDevice 1 true])).map
        (fun w => decide (w.db.devices = [])) = some true := by
    decide +kernel
  obtain ⟨w, hw, hnil⟩ := Option.map_eq_some_iff.mp hreplay
  exact ⟨w, of_decide_eq_true hnil,
    (no_dead_entries noRows_init (System.replay_weaken hw)).mpr hw⟩

/-- The device is deleted with its channel: the entry stays. -/
theorem porch_entry_dead : ¬∀ w : World Bool,
    (runtimeCalls BleRuntime.switchEnv).Reachable w → NoDeadEntries w := by
  intro hall
  obtain ⟨w, hrun, hw⟩ := System.exists_reachable_of_replay noRows_init
    (porchMonitored ++ [.removeDevice 1 true])
    (p := fun w => decide (w.db.channels = []) && (w.subscribed (porchAddress, "2a6f")).isSome)
    (by decide +kernel)
  rw [Bool.and_eq_true, decide_eq_true_eq, Option.isSome_iff_exists] at hw
  obtain ⟨hnil, c, hentry⟩ := hw
  have hrow := (hall w hrun _ c hentry).row
  rw [hnil] at hrow
  cases hrow

end HomeServer.Services
