import HomeServer.Db.Statements
import HomeServer.Services.DemoServer

/-! The runtime and the requests change the tables by statements only, none of which records or
prunes a value, whatever the backend does and wherever they fail. -/
namespace HomeServer.Services
open HomeServer.Db HomeServer.Ble HomeServer.Lib

def Structural : Statement → Prop
  | .createDevice .. | .deleteDevice _ | .touchLastConnected .. | .setLabel .. | .createChannel ..
  | .deleteChannel _ => True
  | .insertReading .. | .deleteOlderThan .. => False

def Structurally (P : Database → Prop) : Prop :=
  ∀ db statement db', Structural statement → P db → statement.execute db = .ok db' → P db'

section Rules
variable {β α : Type} {E : Env β} {P : Database → Prop}

theorem query_tables (f : Database → α) :
    Action.Preserves (fun w : World β => P w.db) (query E f) := by
  intro w hw
  exact after_query_any E f (fun b _ => hw) fun e b => hw

theorem execute_tables {f : Database → Except Err (α × Database)}
    (hf : ∀ db a db', P db → f db = .ok (a, db') → P db') :
    Action.Preserves (fun w : World β => P w.db) (execute E f) := by
  intro w hw
  exact after_execute_any E f (fun a db b _ h => hf w.db a db hw h) fun e b => hw

/-- A statement without a result. -/
theorem execute_unit_tables (hP : Structurally P) {f : Database → Except Err Database}
    (statement : Statement) (hs : Structural statement)
    (hf : ∀ db, f db = statement.execute db) :
    Action.Preserves (fun w : World β => P w.db) (execute E fun db => (f db).map fun db => ((), db))
    := by
  apply execute_tables
  intro db u db' hdb h
  rw [hf] at h
  cases hexecute : statement.execute db with
  | error e =>
    rw [hexecute] at h
    cases h
  | ok made =>
    rw [hexecute] at h
    cases h
    exact hP db statement _ hs hdb hexecute

theorem call_tables (f : Call β α) : Action.Preserves (fun w : World β => P w.db) (call f) := by
  intro w hw
  rw [after_call]
  exact hw

theorem isConnected_tables (a : Address) :
    Action.Preserves (fun w : World β => P w.db) (isConnected E a) := by
  intro w hw
  rw [after_isConnected]
  exact hw

theorem updateState_tables (a : Address) (f : DeviceMonitorState → DeviceMonitorState) :
    Action.Preserves (fun w : World β => P w.db) (updateState a f) := by
  intro w hw
  rw [after_updateState]
  exact hw

theorem log_tables (e : Event) : Action.Preserves (fun w : World β => P w.db) (log e) := by
  intro w hw
  rw [after_log]
  exact hw

theorem stateOf_tables (a : Address) :
    Action.Preserves (fun w : World β => P w.db) (stateOf a) := by
  intro w hw
  rw [after_stateOf]
  exact hw

end Rules

section Programs
variable {β : Type} {E : Env β} {P : Database → Prop}

namespace BleRuntime

theorem touchLastConnected_tables (hP : Structurally P) (deviceId : ℕ) :
    Action.Preserves (fun w : World β => P w.db) (touchLastConnected E deviceId) := by
  apply (log_tables _).bind
  intro u w hw
  rw [Action.after_bind, after_ask, Action.then_ok]
  refine execute_tables (P := P) (fun db a db' hdb h => ?_) _ hw
  cases h
  exact hP db (.touchLastConnected _ deviceId) _ trivial hdb rfl

theorem subscribeChannel_tables (a : Address) (c : Channel) :
    Action.Preserves (fun w : World β => P w.db) (subscribeChannel E a c) :=
  (call_tables _).bind fun _ => .modify fun _ hw => hw

theorem subscribeDisplayChannels_tables (d : Device) :
    Action.Preserves (fun w : World β => P w.db) (subscribeDisplayChannels E d) := by
  refine (query_tables _).bind fun channels => .forM fun c _ => .ite (fun _ => ?_) fun _ => .pure ()
  exact (subscribeChannel_tables d.address c).tryCatch fun _ => .pure ()

theorem bringUpDevice_tables (d : Device) :
    Action.Preserves (fun w : World β => P w.db) (bringUpDevice E d) := by
  refine Action.Preserves.bind ?_ fun connected => .ite (fun _ => ?_) fun _ => .pure false
  · exact ((call_tables _).bind fun _ => .pure true).tryCatch fun _ => .pure false
  · refine (isConnected_tables d.address).bind fun up => .ite (fun _ => ?_) fun _ => .pure false
    exact (subscribeDisplayChannels_tables d).bind fun _ => .pure true

theorem activate_tables : Action.Preserves (fun w : World β => P w.db) (activate E) := by
  refine (query_tables _).bind fun _ => (query_tables _).bind fun devices => .forM fun d _ => ?_
  refine (bringUpDevice_tables d).bind fun up => .ite (fun _ => ?_) fun _ => .pure ()
  exact .modify fun _ hw => hw

theorem setStatus_tables (deviceId : ℕ) (a : Address) (status : Status) :
    Action.Preserves (fun w : World β => P w.db) (setStatus E deviceId a status) := by
  refine (stateOf_tables a).bind fun state => .ite (fun _ => .pure ()) fun _ => ?_
  exact (updateState_tables a _).bind fun _ => (log_tables _).bind fun _ => call_tables _

theorem onConnected_tables (hP : Structurally P) (d : Device) :
    Action.Preserves (fun w : World β => P w.db) (onConnected E d) := by
  have hsubscribe : Action.Preserves (fun w : World β => P w.db) (subscribeOnce E d) := by
    refine (stateOf_tables d.address).bind fun state => .ite (fun _ => .pure ()) fun _ => ?_
    exact (subscribeDisplayChannels_tables d).bind fun _ => updateState_tables d.address _
  have htouch : Action.Preserves (fun w : World β => P w.db) (touchUnlessConnected E d) :=
    (stateOf_tables d.address).bind fun state =>
      .ite (fun _ => .pure ()) fun _ => touchLastConnected_tables hP d.id
  exact hsubscribe.bind fun _ => (updateState_tables d.address _).bind fun _ =>
    htouch.bind fun _ => setStatus_tables d.id d.address .connected

theorem tickDevice_tables (hP : Structurally P) (now : ℚ) (d : Device) :
    Action.Preserves (fun w : World β => P w.db) (tickDevice E now d) := by
  have hdrop : Action.Preserves (fun w : World β => P w.db) (reportDrop E now d) := by
    refine (stateOf_tables d.address).bind fun state => Action.Preserves.bind
      (.ite (fun _ => touchLastConnected_tables hP d.id) fun _ => .pure ()) fun _ => ?_
    exact (updateState_tables d.address _).bind fun _ => setStatus_tables d.id d.address _
  have hretry : Action.Preserves (fun w : World β => P w.db) (retryConnect E now d) := by
    have hensure : Action.Preserves (fun w : World β => P w.db) (ensureConnecting E d) :=
      (log_tables _).bind fun _ => call_tables _
    refine (setStatus_tables d.id d.address _).bind fun _ => hensure.bind fun _ =>
      (isConnected_tables d.address).bind fun up =>
        .ite (fun _ => onConnected_tables hP d) fun _ => ?_
    exact (updateState_tables d.address _).bind fun _ => updateState_tables d.address _
  refine (updateState_tables d.address _).bind fun _ => (isConnected_tables d.address).bind
    fun up => .ite (fun _ => onConnected_tables hP d) fun _ => ?_
  refine (updateState_tables d.address _).bind fun _ => (stateOf_tables d.address).bind
    fun state => ?_
  exact .ite (fun _ => hdrop) fun _ => .ite (fun _ => hretry) fun _ => .pure ()

theorem monitorTick_tables (hP : Structurally P) (now : ℚ) :
    Action.Preserves (fun w : World β => P w.db) (monitorTick E now) := by
  refine (query_tables _).bind fun _ => (query_tables _).bind fun devices => ?_
  exact Action.Preserves.bind (.modify fun _ hw => hw) fun _ =>
    .forM fun d _ => tickDevice_tables hP now d

theorem disconnectAll_tables : Action.Preserves (fun w : World β => P w.db) (disconnectAll E) := by
  refine (query_tables _).bind fun _ => (query_tables _).bind fun devices => .forM fun d _ => ?_
  exact (isConnected_tables d.address).bind fun up => .ite (fun _ => call_tables _) fun _ =>
    .pure ()

theorem onChannelAdded_tables (d : Device) (c : Channel) :
    Action.Preserves (fun w : World β => P w.db) (onChannelAdded E d c) := by
  refine .ite (fun _ => (isConnected_tables d.address).bind fun up => ?_) fun _ => .pure ()
  exact .ite (fun _ => subscribeChannel_tables d.address c) fun _ => .pure ()

theorem onChannelRemoved_tables (d : Device) (c : Channel) :
    Action.Preserves (fun w : World β => P w.db) (onChannelRemoved E d c) := by
  refine .ite (fun _ => Action.Preserves.bind (.modify fun _ hw => hw) fun _ => ?_) fun _ =>
    .pure ()
  exact (isConnected_tables d.address).bind fun up => .ite (fun _ => call_tables _) fun _ =>
    .pure ()

end BleRuntime
namespace DeviceService

theorem addDevice_tables (hP : Structurally P) (ownerUserId : ℕ) (a : Address) (name : String)
    (addrType : Option AddrType) :
    Action.Preserves (fun w : World β => P w.db)
      (addDevice E ownerUserId a name addrType) := by
  refine .ite (fun _ => ?_) fun _ => .throw _
  cases resolveAddrType a addrType with
  | error e => exact .throw e
  | ok resolved =>
    refine Action.Preserves.bind (execute_tables fun db i db' hdb h => ?_) fun i => ?_
    · have hexecute : (Statement.createDevice a name ownerUserId resolved).execute db = .ok db' := by
        rw [Statement.execute, h]
        rfl
      exact hP db (.createDevice a name ownerUserId resolved) db' trivial hdb hexecute
    · refine Action.Preserves.bind ((call_tables _).tryCatch fun _ => .pure ()) fun _ =>
        (query_tables _).bind fun found => ?_
      cases found with
      | none => exact .throw _
      | some device => exact .pure device

theorem removeDevice_tables (hP : Structurally P) (deviceId : ℕ) :
    Action.Preserves (fun w : World β => P w.db) (removeDevice E deviceId) := by
  refine (query_tables _).bind fun found => ?_
  cases found with
  | none => exact .throw _
  | some device =>
    refine (isConnected_tables device.address).bind fun up => Action.Preserves.bind
      (.ite (fun _ => call_tables _) fun _ => .pure ()) fun _ => ?_
    exact execute_unit_tables hP (f := fun db => Devices.delete db deviceId)
      (.deleteDevice deviceId) trivial fun _ => rfl

theorem setLabel_tables (hP : Structurally P) (deviceId : ℕ) (label : String) :
    Action.Preserves (fun w : World β => P w.db) (setLabel E deviceId label) := by
  refine (query_tables _).bind fun found => ?_
  cases found with
  | none => exact .throw _
  | some device =>
    exact execute_unit_tables hP
      (f := fun db => Devices.setLabel db deviceId (normalizedLabel label))
      (.setLabel deviceId (normalizedLabel label)) trivial fun _ => rfl

end DeviceService

theorem addChannel_channels (hP : Structurally P) (deviceId : ℕ) (name : String)
    (type : ChannelType) (charUuid : Uuid) (dataFormat : String) (unit : Option String) :
    Action.Preserves (fun w : World β => P w.db)
      (ChannelService.addChannel E deviceId name type charUuid dataFormat unit) := by
  refine .ite (fun _ => (query_tables _).bind fun existing => .ite (fun _ => .throw _) fun _ => ?_)
    fun _ => .throw _
  refine Action.Preserves.bind (execute_tables fun db i db' hdb h => ?_) fun i =>
    (query_tables _).bind fun found => ?_
  · have hexecute : (Statement.createChannel deviceId name type charUuid dataFormat unit).execute
        db = .ok db' := by
      rw [Statement.execute, h]
      rfl
    exact hP db (.createChannel deviceId name type charUuid dataFormat unit) db' trivial hdb hexecute
  · cases found with
    | none => exact .throw _
    | some channel => exact .pure channel

namespace Web

theorem addChannel_tables (hP : Structurally P) (presets : List ChannelPreset) (deviceId : ℕ)
    (name preset : String) :
    Action.Preserves (fun w : World β => P w.db)
      (addChannel E presets deviceId name preset) := by
  refine (query_tables _).bind fun found => ?_
  cases found with
  | none => exact .pure _
  | some device =>
    refine .ite (fun _ => ?_) fun _ => .pure _
    cases presets.find? fun p => p.charUuid = preset with
    | none => exact .pure _
    | some p =>
      have hadd : Action.Preserves (fun w : World β => P w.db) (ChannelService.addChannel E
          deviceId name p.type p.charUuid p.dataFormat p.unit) := addChannel_channels hP _ _ _ _ _ _
      refine Action.Preserves.bind (Action.Preserves.tryCatch ?_ fun e => ?_) fun added => ?_
      · exact hadd.bind fun channel => .pure _
      · cases e <;> first | exact .pure _ | exact .throw _
      · cases added with
        | none => exact .pure _
        | some channel =>
          exact (BleRuntime.onChannelAdded_tables device channel).bind fun _ => .pure _

theorem deleteChannel_tables (hP : Structurally P) (channelId : ℕ) :
    Action.Preserves (fun w : World β => P w.db) (deleteChannel E channelId) := by
  refine (query_tables _).bind fun found => ?_
  cases found with
  | none => exact .pure _
  | some channel =>
    refine (query_tables _).bind fun owner => ?_
    cases owner with
    | none => exact .pure _
    | some device =>
      refine Action.Preserves.bind (execute_unit_tables hP
        (f := fun db => Channels.delete db channelId) (.deleteChannel channelId) trivial
        fun _ => rfl) fun _ => ?_
      exact (BleRuntime.onChannelRemoved_tables device channel).bind fun _ => .pure _

end Web

/-- A whole operation leaves the tables to structural statements. -/
theorem program_tables (hP : Structurally P) (op : DemoCall) :
    Action.Preserves (fun w : World β => P w.db) (op.program E) := by
  cases op with
  | activate => exact BleRuntime.activate_tables
  | tick now => exact BleRuntime.monitorTick_tables hP now
  | addChannel presets deviceId name preset =>
    exact (Web.addChannel_tables hP presets deviceId name preset).bind fun _ => .pure ()
  | deleteChannel channelId =>
    exact (Web.deleteChannel_tables hP channelId).bind fun _ => .pure ()
  | addDevice ownerUserId a name addrType =>
    exact (DeviceService.addDevice_tables hP ownerUserId a name addrType).bind fun _ => .pure ()
  | removeDevice deviceId => exact DeviceService.removeDevice_tables hP deviceId
  | scanWindow => exact BleRuntime.disconnectAll_tables

end Programs
end HomeServer.Services
