import HomeServer.Db.History
import HomeServer.Services.Reconnect
import HomeServer.Services.Requests

/-! What an add or delete request of channels that ends in an exception has left in the table. The
row is committed before the runtime is told, and what the runtime raises is not caught. -/
namespace HomeServer.Services
open HomeServer.Db HomeServer.Ble HomeServer.Lib
variable {β : Type} {E : Env β} {w : World β}

def afterSql (E : Env β) : ℕ → β → β
  | 0, b => b
  | n + 1, b => (E.sqlError (afterSql E n b)).2

/-- What statement `n` raises, counted from zero. -/
def sqlRaises (E : Env β) (n : ℕ) (b : β) : Option Err := (E.sqlError (afterSql E n b)).1

section Statements
variable {α : Type} {n : ℕ} {b : β}

theorem after_query_at (h : w.outside = afterSql E n b) (f : Database → α)
    (Q : Except Err α → World β → Prop) : (query E f).After Q w ↔
      match sqlRaises E n b with
      | none => Q (.ok (f w.db)) { w with outside := afterSql E (n + 1) b }
      | some e => Q (.error e) { w with outside := afterSql E (n + 1) b } := by
  rw [after_query_asked, h]
  rfl

theorem after_execute_at (h : w.outside = afterSql E n b)
    (f : Database → Except Err (α × Database)) (Q : Except Err α → World β → Prop) :
    (execute E f).After Q w ↔
      match sqlRaises E n b with
      | some e => Q (.error e) { w with outside := afterSql E (n + 1) b }
      | none => match f w.db with
        | .ok (a, db) => Q (.ok a) { w with outside := afterSql E (n + 1) b, db }
        | .error e => Q (.error e) { w with outside := afterSql E (n + 1) b } := by
  unfold execute
  rw [Action.after_bind, after_query_at h]
  cases sqlRaises E n b with
  | some e => rfl
  | none =>
    dsimp only
    rw [Action.then_ok, id]
    cases f w.db <;> rfl

theorem sqlRaises_lt_three (h₀ : sqlRaises E 0 b = none) (h₁ : sqlRaises E 1 b = none)
    (h₂ : sqlRaises E 2 b = none) : ∀ k < 3, sqlRaises E k b = none
  | 0, _ => h₀
  | 1, _ => h₁
  | 2, _ => h₂
  | k + 3, hk => absurd hk (by omega)

end Statements

namespace BleRuntime

def SubscribeRaises (E : Env β) (address : Address) (channel : Channel) (b : β) : Prop :=
  channel.type = .display ∧ (E.ble.isConnected address b).1 = true ∧
    ∃ e, (E.ble.subscribe address channel.charUuid channel.id
      (E.ble.isConnected address b).2).1 = .error e

def UnsubscribeRaises (E : Env β) (address : Address) (channel : Channel) (b : β) : Prop :=
  channel.type = .display ∧ (E.ble.isConnected address b).1 = true ∧
    ∃ e, (E.ble.unsubscribe address channel.charUuid (E.ble.isConnected address b).2).1 = .error e

theorem onChannelAdded_raises (E : Env β) (device : Device) (channel : Channel) (w : World β) :
    (onChannelAdded E device channel).After (fun r w' => w'.db = w.db ∧
      ((∃ e, r = .error e) ↔ SubscribeRaises E device.address channel w.outside)) w := by
  unfold onChannelAdded SubscribeRaises
  rw [Action.after_ite]
  split
  · rename_i htype
    rw [Action.after_bind, after_isConnected, Action.then_ok]
    cases hup : (E.ble.isConnected device.address w.outside).1 with
    | false => simp
    | true =>
      unfold subscribeChannel
      rw [if_pos rfl, Action.after_bind, after_call]
      dsimp only
      cases hcall : (E.ble.subscribe device.address channel.charUuid channel.id
          (E.ble.isConnected device.address w.outside).2).1 with
      | ok a => simp
      | error e => simp [htype]
  · rename_i htype
    simp [htype]

theorem onChannelRemoved_raises (E : Env β) (device : Device) (channel : Channel) (w : World β) :
    (onChannelRemoved E device channel).After (fun r w' => w'.db = w.db ∧
      ((∃ e, r = .error e) ↔ UnsubscribeRaises E device.address channel w.outside)) w := by
  unfold onChannelRemoved UnsubscribeRaises
  rw [Action.after_ite]
  split
  · rename_i htype
    rw [Action.after_bind, Action.after_modify, Action.then_ok, Action.after_bind,
      after_isConnected, Action.then_ok]
    dsimp only
    cases hup : (E.ble.isConnected device.address w.outside).1 with
    | false => simp
    | true =>
      rw [if_pos rfl, after_call]
      dsimp only
      cases hcall : (E.ble.unsubscribe device.address channel.charUuid
          (E.ble.isConnected device.address w.outside).2).1 with
      | ok a => simp
      | error e => simp [htype]
  · rename_i htype
    simp [htype]

end BleRuntime

/-- What the read-back of a row raises; the duplicate errors are caught by the request. -/
def uncaught : Err → Bool
  | .duplicateChannelName _ _ | .duplicateChannelUuid _ _ => false
  | _ => true

/-- The request stores a channel, by what it reads from the tables. -/
def Adds (presets : List ChannelPreset) (deviceId : ℕ) (name preset : String) (db : Database)
    (device : Device) (channel : Channel) : Prop :=
  Devices.getById db deviceId = some device ∧ Web.validForm presets name preset = true ∧
    ∃ p i db', presets.find? (fun p => p.charUuid = preset) = some p ∧
      p.dataFormat ∈ Parser.supportedFormats ∧
      ((Channels.listByDevice db deviceId).any fun c => c.charUuid = p.charUuid) = false ∧
      Channels.create db deviceId name p.type p.charUuid p.dataFormat p.unit = .ok (i, db') ∧
      Channels.getById db' i = some channel

/-- The channel is stored, and reading it back or subscribing it raises. -/
def AddHidden (E : Env β) (presets : List ChannelPreset) (deviceId : ℕ) (name preset : String)
    (w : World β) : Prop :=
  ∃ device channel, Adds presets deviceId name preset w.db device channel ∧
    (∀ k < 3, sqlRaises E k w.outside = none) ∧
    ((∃ e, sqlRaises E 3 w.outside = some e ∧ uncaught e = true) ∨
      sqlRaises E 3 w.outside = none ∧
        BleRuntime.SubscribeRaises E device.address channel (afterSql E 4 w.outside))

def DeleteHidden (E : Env β) (channelId : ℕ) (w : World β) : Prop :=
  ∃ channel device, Channels.getById w.db channelId = some channel ∧
    Devices.getById w.db channel.deviceId = some device ∧
    (∀ k < 3, sqlRaises E k w.outside = none) ∧
    BleRuntime.UnsubscribeRaises E device.address channel (afterSql E 3 w.outside)

def Hides (w : World β) (r : Except Err Response) (w' : World β) : Prop :=
  (∃ e, r = .error e) ∧ w'.db.channels ≠ w.db.channels

theorem not_hides {r : Except Err Response} {w' : World β} (h : w'.db = w.db) : ¬Hides w r w' :=
  fun hhides => hhides.2 (congrArg Database.channels h)

theorem delete_channels_ne {db db' : Database} {i : ℕ} (h : Channels.delete db i = .ok db') :
    db'.channels ≠ db.channels := by
  obtain ⟨c, hc, hid⟩ := Channels.exists_of_delete h
  intro heq
  rw [Channels.delete_ok h] at heq
  dsimp only at heq
  have hkept := List.filter_eq_self.mp heq c hc
  simp [hid] at hkept

theorem create_channels_ne {db db' : Database} {deviceId i : ℕ} {name : String}
    {type : ChannelType} {charUuid : Uuid} {dataFormat : String} {unit : Option String}
    (h : Channels.create db deviceId name type charUuid dataFormat unit = .ok (i, db')) :
    db'.channels ≠ db.channels := by
  obtain ⟨-, -, -, rfl⟩ := Channels.create_ok h
  intro heq
  have hlength := congrArg List.length heq
  simp at hlength

theorem exists_delete {db : Database} {i : ℕ} {channel : Channel}
    (h : Channels.getById db i = some channel) : ∃ db', Channels.delete db i = .ok db' := by
  obtain ⟨hmem, hid⟩ := Channels.mem_of_getById h
  unfold Channels.delete
  rw [if_pos (List.any_eq_true.mpr ⟨channel, hmem, decide_eq_true hid⟩)]
  exact ⟨_, rfl⟩

theorem not_addHidden_of_raises {presets : List ChannelPreset} {deviceId : ℕ}
    {name preset : String} {k : ℕ} {e : Err} (hk : k < 3) (he : sqlRaises E k w.outside = some e) :
    ¬AddHidden E presets deviceId name preset w := by
  rintro ⟨_, _, -, hsql, -⟩
  cases he.symm.trans (hsql k hk)

theorem not_deleteHidden_of_raises {channelId k : ℕ} {e : Err} (hk : k < 3)
    (he : sqlRaises E k w.outside = some e) : ¬DeleteHidden E channelId w := by
  rintro ⟨_, _, -, -, hsql, -⟩
  cases he.symm.trans (hsql k hk)

theorem deleteChannel_hides (E : Env β) (channelId : ℕ) (w : World β) :
    (Web.deleteChannel E channelId).After (fun r w' => Hides w r w' ↔ DeleteHidden E channelId w)
      w := by
  unfold Web.deleteChannel
  rw [Action.after_bind, after_query_at (n := 0) (b := w.outside) rfl]
  cases h₀ : sqlRaises E 0 w.outside with
  | some e =>
    exact iff_of_false (not_hides rfl) (not_deleteHidden_of_raises (by omega) h₀)
  | none =>
  dsimp only
  rw [Action.then_ok]
  cases hchannel : Channels.getById w.db channelId with
  | none =>
    refine iff_of_false (not_hides rfl) ?_
    rintro ⟨_, _, hsome, -⟩
    cases hchannel.symm.trans hsome
  | some channel =>
  dsimp only
  rw [Action.after_bind, after_query_at (n := 1) (b := w.outside) rfl]
  cases h₁ : sqlRaises E 1 w.outside with
  | some e =>
    exact iff_of_false (not_hides rfl) (not_deleteHidden_of_raises (by omega) h₁)
  | none =>
  dsimp only
  rw [Action.then_ok]
  cases hdevice : Devices.getById w.db channel.deviceId with
  | none =>
    refine iff_of_false (not_hides rfl) ?_
    rintro ⟨_, _, hsome, hsome', -⟩
    cases hchannel.symm.trans hsome
    cases hdevice.symm.trans hsome'
  | some device =>
  dsimp only
  rw [Action.after_bind, after_execute_at (n := 2) (b := w.outside) rfl]
  cases h₂ : sqlRaises E 2 w.outside with
  | some e =>
    exact iff_of_false (not_hides rfl) (not_deleteHidden_of_raises (by omega) h₂)
  | none =>
  obtain ⟨db', hdelete⟩ := exists_delete hchannel
  have hchannels := delete_channels_ne hdelete
  dsimp only
  rw [hdelete]
  dsimp only [Except.map]
  rw [Action.then_ok, Action.after_bind]
  apply (BleRuntime.onChannelRemoved_raises E device channel _).mono
  rintro r w' ⟨hdb, hraises⟩
  have hhidden : DeleteHidden E channelId w ↔
      BleRuntime.UnsubscribeRaises E device.address channel (afterSql E 3 w.outside) := by
    constructor
    · rintro ⟨_, _, hsome, hsome', -, h⟩
      cases hchannel.symm.trans hsome
      cases hdevice.symm.trans hsome'
      exact h
    · intro h
      exact ⟨channel, device, hchannel, hdevice, sqlRaises_lt_three h₀ h₁ h₂, h⟩
  rw [hhidden, ← hraises]
  cases r with
  | error e => exact iff_of_true ⟨⟨e, rfl⟩, hdb ▸ hchannels⟩ ⟨e, rfl⟩
  | ok u => exact iff_of_false (fun h => nomatch h.1) fun h => nomatch h

namespace ChannelService
variable {n : ℕ} {b : β} {deviceId : ℕ} {name : String} {type : ChannelType} {charUuid : Uuid}
  {dataFormat : String} {unit : Option String}

/-- The row is committed: the checks pass, the two statements are answered, and the tables take
it. -/
structure Commits (E : Env β) (n : ℕ) (b : β) (db : Database) (deviceId : ℕ) (name : String)
    (type : ChannelType) (charUuid : Uuid) (dataFormat : String) (unit : Option String) (i : ℕ)
    (db' : Database) : Prop where
  format : dataFormat ∈ Parser.supportedFormats
  new : ((Channels.listByDevice db deviceId).any fun c => c.charUuid = charUuid) = false
  first : sqlRaises E n b = none
  second : sqlRaises E (n + 1) b = none
  created : Channels.create db deviceId name type charUuid dataFormat unit = .ok (i, db')

/-- Either the row is committed, and only reading it back can raise, or nothing is changed and an
exception raised. -/
theorem addChannel_commits (h : w.outside = afterSql E n b) :
    (addChannel E deviceId name type charUuid dataFormat unit).After (fun r w' =>
      (∃ i db' channel, Commits E n b w.db deviceId name type charUuid dataFormat unit i db' ∧
        Channels.getById db' i = some channel ∧
        w' = { w with outside := afterSql E (n + 3) b, db := db' } ∧
        r = match sqlRaises E (n + 2) b with
          | none => .ok channel
          | some e => .error e) ∨
      (∀ i db', ¬Commits E n b w.db deviceId name type charUuid dataFormat unit i db') ∧
        w'.db = w.db ∧ ∃ e, r = .error e) w := by
  unfold addChannel
  rw [Action.after_ite]
  split
  swap
  · rename_i hformat
    exact .inr ⟨fun _ _ hcommits => hformat hcommits.format, rfl, _, rfl⟩
  rename_i hformat
  rw [Action.after_bind, after_query_at h]
  cases hfirst : sqlRaises E n b with
  | some e =>
    exact .inr ⟨fun _ _ hcommits => (nomatch hfirst.symm.trans hcommits.first), rfl, e, rfl⟩
  | none =>
  dsimp only
  rw [Action.then_ok, Action.after_ite]
  split
  · rename_i hused
    refine .inr ⟨?_, rfl, _, rfl⟩
    intro i db' hcommits
    cases hused.symm.trans hcommits.new
  rename_i hnew
  rw [Action.after_bind, after_execute_at (n := n + 1) (b := b) rfl]
  cases hsecond : sqlRaises E (n + 1) b with
  | some e =>
    exact .inr ⟨fun _ _ hcommits => (nomatch hsecond.symm.trans hcommits.second), rfl, e, rfl⟩
  | none =>
  dsimp only
  cases hcreate : Channels.create w.db deviceId name type charUuid dataFormat unit with
  | error e =>
    exact .inr ⟨fun _ _ hcommits => (nomatch hcreate.symm.trans hcommits.created), rfl, e, rfl⟩
  | ok created =>
  obtain ⟨i, db'⟩ := created
  obtain ⟨channel, hget⟩ := Channels.exists_created hcreate
  have hcommits : Commits E n b w.db deviceId name type charUuid dataFormat unit i db' :=
    ⟨hformat, by simpa using hnew, hfirst, hsecond, hcreate⟩
  dsimp only
  rw [Action.then_ok, Action.after_bind, after_query_at (n := n + 2) (b := b) rfl]
  cases hthird : sqlRaises E (n + 2) b with
  | some e => exact .inl ⟨i, db', channel, hcommits, hget, rfl, rfl⟩
  | none =>
    dsimp only
    rw [Action.then_ok, hget]
    exact .inl ⟨i, db', channel, hcommits, hget, rfl, rfl⟩

end ChannelService

section Add
variable {presets : List ChannelPreset} {deviceId : ℕ} {name preset : String} {device : Device}
  {p : ChannelPreset}

/-- What hides a change, once the form is read: the service commits the row, and a call after it
raises. -/
theorem addHidden_iff (hdevice : Devices.getById w.db deviceId = some device)
    (hform : Web.validForm presets name preset = true)
    (hpreset : presets.find? (fun p => p.charUuid = preset) = some p)
    (h₀ : sqlRaises E 0 w.outside = none) :
    AddHidden E presets deviceId name preset w ↔ ∃ i db' channel,
      ChannelService.Commits E 1 w.outside w.db deviceId name p.type p.charUuid p.dataFormat p.unit
        i db' ∧
      Channels.getById db' i = some channel ∧
      ((∃ e, sqlRaises E 3 w.outside = some e ∧ uncaught e = true) ∨
        sqlRaises E 3 w.outside = none ∧
          BleRuntime.SubscribeRaises E device.address channel (afterSql E 4 w.outside)) := by
  constructor
  · rintro ⟨_, channel, ⟨hsome, -, p', i, db', hfind, hformat, hnew, hcreate, hget⟩, hsql, hraises⟩
    cases hdevice.symm.trans hsome
    cases hpreset.symm.trans hfind
    have hcommits := ChannelService.Commits.mk hformat hnew (hsql 1 (by omega))
      (hsql 2 (by omega)) hcreate
    exact ⟨i, db', channel, hcommits, hget, hraises⟩
  · rintro ⟨i, db', channel, hcommits, hget, hraises⟩
    have hadds : Adds presets deviceId name preset w.db device channel :=
      ⟨hdevice, hform, p, i, db', hpreset, hcommits.format, hcommits.new, hcommits.created, hget⟩
    exact ⟨device, channel, hadds, sqlRaises_lt_three h₀ hcommits.first hcommits.second, hraises⟩

theorem addChannel_hides (E : Env β) (presets : List ChannelPreset) (deviceId : ℕ)
    (name preset : String) (w : World β) :
    (Web.addChannel E presets deviceId name preset).After
      (fun r w' => Hides w r w' ↔ AddHidden E presets deviceId name preset w) w := by
  unfold Web.addChannel
  rw [Action.after_bind, after_query_at (n := 0) (b := w.outside) rfl]
  cases h₀ : sqlRaises E 0 w.outside with
  | some e => exact iff_of_false (not_hides rfl) (not_addHidden_of_raises (by omega) h₀)
  | none =>
  dsimp only
  rw [Action.then_ok]
  cases hdevice : Devices.getById w.db deviceId with
  | none =>
    refine iff_of_false (not_hides rfl) ?_
    rintro ⟨_, _, ⟨hsome, -⟩, -⟩
    cases hdevice.symm.trans hsome
  | some device =>
  dsimp only
  rw [Action.after_ite]
  split
  swap
  · rename_i hform
    refine iff_of_false (not_hides rfl) ?_
    rintro ⟨_, _, ⟨-, hvalid, -⟩, -⟩
    exact hform hvalid
  rename_i hform
  cases hpreset : presets.find? fun p => p.charUuid = preset with
  | none =>
    refine iff_of_false (not_hides rfl) ?_
    rintro ⟨_, _, ⟨-, -, p, _, _, hsome, -⟩, -⟩
    cases hpreset.symm.trans hsome
  | some p =>
  have hiff := addHidden_iff hdevice hform hpreset h₀
  dsimp only
  rw [Action.after_bind, Action.after_tryCatch, Action.after_bind]
  apply (ChannelService.addChannel_commits (n := 1) (b := w.outside) rfl).mono
  rintro r w' (⟨i, db', channel, hcommits, hget, rfl, rfl⟩ | ⟨hno, hdb, e, rfl⟩)
  swap
  · have hnot : ¬AddHidden E presets deviceId name preset w := by
      intro h
      obtain ⟨i, db', _, hcommits, -⟩ := hiff.mp h
      exact hno i db' hcommits
    cases e <;> exact iff_of_false (not_hides hdb) hnot
  have hchannels := create_channels_ne hcommits.created
  have hhidden : AddHidden E presets deviceId name preset w ↔
      (∃ e, sqlRaises E 3 w.outside = some e ∧ uncaught e = true) ∨
        sqlRaises E 3 w.outside = none ∧
          BleRuntime.SubscribeRaises E device.address channel (afterSql E 4 w.outside) := by
    rw [hiff]
    constructor
    · rintro ⟨_, _, _, hcommits', hget', hraises⟩
      cases hcommits.created.symm.trans hcommits'.created
      cases hget.symm.trans hget'
      exact hraises
    · exact fun hraises => ⟨i, db', channel, hcommits, hget, hraises⟩
  rw [hhidden]
  cases h₃ : sqlRaises E 3 w.outside with
  | some e =>
    have hraises : ((∃ e', some e = some e' ∧ uncaught e' = true) ∨ some e = none ∧
        BleRuntime.SubscribeRaises E device.address channel (afterSql E 4 w.outside)) ↔
          uncaught e = true := by simp
    rw [hraises]
    cases e with
    | duplicateChannelName | duplicateChannelUuid =>
      exact iff_of_false (fun h => nomatch h.1) fun h => nomatch h
    | _ => exact iff_of_true ⟨⟨_, rfl⟩, hchannels⟩ rfl
  | none =>
  have hraises : ((∃ e', (none : Option Err) = some e' ∧ uncaught e' = true) ∨
      (none : Option Err) = none ∧
        BleRuntime.SubscribeRaises E device.address channel (afterSql E 4 w.outside)) ↔
        BleRuntime.SubscribeRaises E device.address channel (afterSql E 4 w.outside) := by simp
  rw [hraises]
  dsimp only
  rw [Action.then_ok, Action.after_pure, Action.else_ok, Action.then_ok]
  dsimp only
  rw [Action.after_bind]
  apply (BleRuntime.onChannelAdded_raises E device channel _).mono
  rintro r w' ⟨hdb, hraises⟩
  rw [← hraises]
  cases r with
  | error e => exact iff_of_true ⟨⟨e, rfl⟩, hdb ▸ hchannels⟩ ⟨e, rfl⟩
  | ok u => exact iff_of_false (fun h => nomatch h.1) fun h => nomatch h

end Add

inductive ChannelRequest
  | add (presets : List ChannelPreset) (deviceId : ℕ) (name preset : String)
  | delete (channelId : ℕ)

def ChannelRequest.run (E : Env β) : ChannelRequest → Runtime β Response
  | .add presets deviceId name preset => Web.addChannel E presets deviceId name preset
  | .delete channelId => Web.deleteChannel E channelId

def ChannelRequest.Hidden (E : Env β) (w : World β) : ChannelRequest → Prop
  | .add presets deviceId name preset => AddHidden E presets deviceId name preset w
  | .delete channelId => DeleteHidden E channelId w

/-- A request that fails leaves the channels as they were unless its change is committed and what
comes after it raises. -/
theorem failed_request_unchanged_iff (E : Env β) (w : World β) (request : ChannelRequest) :
    (∀ e, ((request.run E).exec w).1 = .error e →
      ((request.run E).exec w).2.db.channels = w.db.channels) ↔ ¬request.Hidden E w := by
  have hhides : Hides w ((request.run E).exec w).1 ((request.run E).exec w).2 ↔
      request.Hidden E w := by
    cases request with
    | add presets deviceId name preset => exact addChannel_hides E presets deviceId name preset w
    | delete channelId => exact deleteChannel_hides E channelId w
  rw [← hhides]
  unfold Hides
  constructor
  · rintro hsame ⟨⟨e, he⟩, hchannels⟩
    exact hchannels (hsame e he)
  · intro hnot e he
    by_contra hchannels
    exact hnot ⟨⟨e, he⟩, hchannels⟩

def missingEnv : Env Bool :=
  { BleRuntime.switchEnv with
    ble := { BleRuntime.switchEnv.ble with
      subscribe := fun address charUuid _ b =>
        (.error (.characteristicNotFound charUuid address), b) } }

/-- The user is shown an error, the channel is in the table. -/
theorem failed_request_hides : ¬∀ (E : Env Bool) w request e,
    ((ChannelRequest.run E request).exec w).1 = .error e →
      ((request.run E).exec w).2.db.channels = w.db.channels := by
  intro hall
  have hsame := hall missingEnv { db := BleRuntime.oneDevice, outside := true }
    (.add [⟨"temperature", "2a6e", .display, "int16_le", some "°C"⟩] 1 "t" "2a6e")
    (.characteristicNotFound "2a6e" "aa") (by decide +kernel)
  revert hsame
  decide +kernel

end HomeServer.Services
