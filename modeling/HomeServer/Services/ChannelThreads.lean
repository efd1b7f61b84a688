import HomeServer.Ble.Peripheral
import HomeServer.Lib.Pool
import HomeServer.Services.DeviceThreads
import HomeServer.Services.Operations

/-! Channels are added and deleted by requests while ticks of the monitor subscribe them, each
in a thread of its own. Every statement, every access to `_subscribed` and to a link, and every
command that a link executes is a step. -/
namespace HomeServer.Services
open HomeServer.Db HomeServer.Ble HomeServer.Lib

/-- What the form of `add_channel` asks for. -/
structure NewChannel where
  name : String
  preset : ChannelPreset
  deriving DecidableEq

/-- Who called `subscribe_channel`. A tick has more channels and devices to go through. -/
inductive Subscriber
  | onChannelAdded
  | subscribeDisplayChannels (rest : List Channel) (devices : List Device)
  deriving DecidableEq

inductive ChannelPc
  | addDevice (deviceId : ℕ) (new : NewChannel)
  | addList (device : Device) (new : NewChannel)
  | addInsert (device : Device) (new : NewChannel)
  | addFetch (device : Device) (channelId : ℕ)
  | addLinked (device : Device) (channel : Channel)
  | subscribe (device : Device) (channel : Channel) (caller : Subscriber)
  | awaitSubscribe (device : Device) (channel : Channel) (future : FutureId) (caller : Subscriber)
  | register (device : Device) (channel : Channel) (caller : Subscriber)
  | deleteLookup (channelId : ℕ)
  | deleteDevice (channel : Channel)
  | deleteRow (device : Device) (channel : Channel)
  | unregister (device : Device) (channel : Channel)
  | removeLinked (device : Device) (channel : Channel)
  | unsubscribe (device : Device) (channel : Channel)
  | awaitUnsubscribe (device : Device) (future : FutureId)
  | tickList
  | tickCheck (devices : List Device)
  | tickRecheck (device : Device) (devices : List Device)
  | tickChannels (device : Device) (devices : List Device)
  | tickNext (device : Device) (channels : List Channel) (devices : List Device)
  | finished (raised : Option Err)
  deriving DecidableEq

/-- A link is up while it has a peripheral; `marked` are the addresses whose entry of the
monitor says `subscribed`. -/
structure ChannelHost where
  db : Database
  subscribed : Address × Uuid → Option Channel := fun _ => none
  links : Address → Option SequentialPeripheral := fun _ => none
  marked : Address → Bool := fun _ => false
  nextFuture : FutureId := 0

namespace ChannelHost

def mark (s : ChannelHost) (address : Address) (subscribed : Bool) : ChannelHost :=
  { s with marked := Function.update s.marked address subscribed }

def setSubscribed (s : ChannelHost) (address : Address) (charUuid : Uuid)
    (channel : Option Channel) : ChannelHost :=
  { s with subscribed := Function.update s.subscribed (address, charUuid) channel }

def setLink (s : ChannelHost) (address : Address) (link : Option SequentialPeripheral) :
    ChannelHost :=
  { s with links := Function.update s.links address link }

def submit (s : ChannelHost) (address : Address) (p : SequentialPeripheral) (op : Op) :
    ChannelHost :=
  { s.setLink address (some (p.submit ⟨op, s.nextFuture⟩)) with nextFuture := s.nextFuture + 1 }

def result (s : ChannelHost) (address : Address) (future : FutureId) : Option Outcome :=
  (s.links address).bind fun p => p.results.lookup future

end ChannelHost

namespace ChannelPc

def resume (device : Device) : Subscriber → ChannelPc
  | .onChannelAdded => .finished none
  | .subscribeDisplayChannels rest devices => .tickNext device rest devices

def failed (device : Device) (e : Err) : Subscriber → ChannelPc
  | .onChannelAdded => .finished (some e)
  | .subscribeDisplayChannels rest devices => .tickNext device rest devices

/-- The two duplicate errors are flashed. -/
def refused : Err → ChannelPc
  | .duplicateChannelName _ _ | .duplicateChannelUuid _ _ => .finished none
  | e => .finished (some e)

def advance (s : ChannelHost) : ChannelPc → Ending → Option (ChannelHost × ChannelPc)
  -- add_channel
  | .addDevice deviceId new, .returns =>
    match Devices.getById s.db deviceId with
    | none => some (s, .finished none)
    | some device => some (s, .addList device new)
  | .addList device new, .returns =>
    if new.preset.dataFormat ∈ Parser.supportedFormats then
      if (Channels.listByDevice s.db device.id).any fun c => c.charUuid = new.preset.charUuid then
        some (s, refused (.duplicateChannelUuid new.preset.charUuid device.id))
      else some (s, .addInsert device new)
    else some (s, refused (.unknownFormat new.preset.dataFormat))
  | .addInsert device new, .returns =>
    match Channels.create s.db device.id new.name new.preset.type new.preset.charUuid
        new.preset.dataFormat new.preset.unit with
    | .error e => some (s, refused e)
    | .ok (channelId, db) => some ({ s with db }, .addFetch device channelId)
  | .addFetch device channelId, .returns =>
    match Channels.getById s.db channelId with
    | none => some (s, .finished (some .assertionError))
    | some channel =>
      some (s, if channel.type = .display then .addLinked device channel else .finished none)
  | .addLinked device channel, .returns =>
    some (s, if (s.links device.address).isSome then .subscribe device channel .onChannelAdded
      else .finished none)
  -- subscribe_channel
  | .subscribe device channel caller, .returns =>
    match s.links device.address with
    | none => some (s, failed device (.notConnected device.address) caller)
    | some p =>
      some (s.submit device.address p (.subscribe channel.charUuid channel.id),
        .awaitSubscribe device channel s.nextFuture caller)
  | .awaitSubscribe device channel future caller, .returns =>
    (s.result device.address future).map fun
      | .ok _ => (s, .register device channel caller)
      | .error e => (s, failed device e caller)
  | .awaitSubscribe device _ future caller, .timesOut =>
    if (s.result device.address future).isNone then some (s, failed device .timeoutError caller)
    else none
  | .register device channel caller, .returns =>
    some (s.setSubscribed device.address channel.charUuid (some channel), resume device caller)
  -- delete_channel, then on_channel_removed for a display channel
  | .deleteLookup channelId, .returns =>
    match Channels.getById s.db channelId with
    | none => some (s, .finished none)
    | some channel => some (s, .deleteDevice channel)
  | .deleteDevice channel, .returns =>
    match Devices.getById s.db channel.deviceId with
    | none => some (s, .finished none)
    | some device => some (s, .deleteRow device channel)
  | .deleteRow device channel, .returns =>
    match Channels.delete s.db channel.id with
    | .error e => some (s, .finished (some e))
    | .ok db => some ({ s with db },
        if channel.type = .display then .unregister device channel else .finished none)
  | .unregister device channel, .returns =>
    some (s.setSubscribed device.address channel.charUuid none, .removeLinked device channel)
  | .removeLinked device channel, .returns =>
    some (s, if (s.links device.address).isSome then .unsubscribe device channel
      else .finished none)
  | .unsubscribe device channel, .returns =>
    match s.links device.address with
    | none => some (s, .finished (some (.notConnected device.address)))
    | some p =>
      some (s.submit device.address p (.unsubscribe channel.charUuid),
        .awaitUnsubscribe device s.nextFuture)
  | .awaitUnsubscribe device future, .returns =>
    (s.result device.address future).map fun
      | .ok _ => (s, .finished none)
      | .error e => (s, .finished (some e))
  | .awaitUnsubscribe device future, .timesOut =>
    if (s.result device.address future).isNone then some (s, .finished (some .timeoutError))
    else none
  -- _monitor_tick, the part that concerns channels
  | .tickList, .returns =>
    some ({ s with
        marked := fun a => s.marked a && s.db.devices.any fun d => d.address = a },
      .tickCheck s.db.devices)
  | .tickCheck [], .returns => some (s, .finished none)
  | .tickCheck (device :: devices), .returns =>
    if (s.links device.address).isSome then
      some (s, if s.marked device.address then .tickCheck devices else .tickChannels device devices)
    else some (s.mark device.address false, .tickRecheck device devices)
  | .tickRecheck device devices, .returns =>
    some (s, if (s.links device.address).isSome then .tickChannels device devices
      else .tickCheck devices)
  | .tickChannels device devices, .returns =>
    some (s, .tickNext device
      ((Channels.listByDevice s.db device.id).filter fun c => c.type = .display) devices)
  | .tickNext device [] devices, .returns => some (s.mark device.address true, .tickCheck devices)
  | .tickNext device (channel :: rest) devices, .returns =>
    some (s, .subscribe device channel (.subscribeDisplayChannels rest devices))
  -- a statement finds the file locked, or a tick is cut short by a device
  | .addDevice .., .raises e | .addList .., .raises e | .addInsert .., .raises e
  | .addFetch .., .raises e | .deleteLookup _, .raises e | .deleteDevice _, .raises e
  | .deleteRow .., .raises e | .tickList, .raises e | .tickCheck _, .raises e
  | .tickChannels .., .raises e => some (s, .finished (some e))
  | _, _ => none

/-- A delete that took the row of a display channel and has not asked for the unsubscribe yet. -/
def severs : ChannelPc → Option (Device × Channel)
  | .unregister device channel | .removeLinked device channel | .unsubscribe device channel =>
    some (device, channel)
  | _ => none

/-- The steps of `advance`, one constructor for all those that only end a request. -/
inductive Moves (s : ChannelHost) : ChannelPc → ChannelHost → ChannelPc → Prop
  | finish (pc : ChannelPc) (raised : Option Err)
      (h : ∀ device channel, pc.severs = some (device, channel) →
        pc ≠ .unregister device channel ∧ s.links device.address = none) :
      Moves s pc s (.finished raised)
  | addDevice (deviceId : ℕ) (new : NewChannel) (device : Device)
      (h : Devices.getById s.db deviceId = some device) :
      Moves s (.addDevice deviceId new) s (.addList device new)
  | addList (device : Device) (new : NewChannel)
      (h : ∀ c ∈ Channels.listByDevice s.db device.id, c.charUuid ≠ new.preset.charUuid) :
      Moves s (.addList device new) s (.addInsert device new)
  | addInsert (device : Device) (new : NewChannel) (channelId : ℕ) (db : Database)
      (h : Channels.create s.db device.id new.name new.preset.type new.preset.charUuid
        new.preset.dataFormat new.preset.unit = .ok (channelId, db)) :
      Moves s (.addInsert device new) { s with db } (.addFetch device channelId)
  | addFetch (device : Device) (channelId : ℕ) (channel : Channel)
      (h : Channels.getById s.db channelId = some channel) (hd : channel.type = .display) :
      Moves s (.addFetch device channelId) s (.addLinked device channel)
  | addLinked (device : Device) (channel : Channel) :
      Moves s (.addLinked device channel) s (.subscribe device channel .onChannelAdded)
  | subscribe (device : Device) (channel : Channel) (caller : Subscriber)
      (p : SequentialPeripheral) (h : s.links device.address = some p) :
      Moves s (.subscribe device channel caller)
        (s.submit device.address p (.subscribe channel.charUuid channel.id))
        (.awaitSubscribe device channel s.nextFuture caller)
  | subscribeFailed (device : Device) (channel : Channel) (caller : Subscriber) (e : Err) :
      Moves s (.subscribe device channel caller) s (failed device e caller)
  | awaited (device : Device) (channel : Channel) (future : FutureId) (caller : Subscriber) :
      Moves s (.awaitSubscribe device channel future caller) s (.register device channel caller)
  | awaitFailed (device : Device) (channel : Channel) (future : FutureId) (caller : Subscriber)
      (e : Err) :
      Moves s (.awaitSubscribe device channel future caller) s (failed device e caller)
  | register (device : Device) (channel : Channel) (caller : Subscriber) :
      Moves s (.register device channel caller)
        (s.setSubscribed device.address channel.charUuid (some channel)) (resume device caller)
  | deleteLookup (channelId : ℕ) (channel : Channel)
      (h : Channels.getById s.db channelId = some channel) :
      Moves s (.deleteLookup channelId) s (.deleteDevice channel)
  | deleteDevice (channel : Channel) (device : Device)
      (h : Devices.getById s.db channel.deviceId = some device) :
      Moves s (.deleteDevice channel) s (.deleteRow device channel)
  | deleteRow (device : Device) (channel : Channel) (db : Database)
      (h : Channels.delete s.db channel.id = .ok db) :
      Moves s (.deleteRow device channel) { s with db }
        (if channel.type = .display then .unregister device channel else .finished none)
  | unregister (device : Device) (channel : Channel) :
      Moves s (.unregister device channel)
        (s.setSubscribed device.address channel.charUuid none) (.removeLinked device channel)
  | removeLinked (device : Device) (channel : Channel) :
      Moves s (.removeLinked device channel) s (.unsubscribe device channel)
  | unsubscribe (device : Device) (channel : Channel) (p : SequentialPeripheral)
      (h : s.links device.address = some p) :
      Moves s (.unsubscribe device channel)
        (s.submit device.address p (.unsubscribe channel.charUuid))
        (.awaitUnsubscribe device s.nextFuture)
  | tickList (marked : Address → Bool) :
      Moves s .tickList { s with marked } (.tickCheck s.db.devices)
  | tickSkip (device : Device) (devices : List Device) :
      Moves s (.tickCheck (device :: devices)) s (.tickCheck devices)
  | tickUp (device : Device) (devices : List Device) :
      Moves s (.tickCheck (device :: devices)) s (.tickChannels device devices)
  | tickDown (device : Device) (devices : List Device) :
      Moves s (.tickCheck (device :: devices)) (s.mark device.address false)
        (.tickRecheck device devices)
  | tickRecheckUp (device : Device) (devices : List Device) :
      Moves s (.tickRecheck device devices) s (.tickChannels device devices)
  | tickRecheckDown (device : Device) (devices : List Device) :
      Moves s (.tickRecheck device devices) s (.tickCheck devices)
  | tickChannels (device : Device) (devices : List Device) :
      Moves s (.tickChannels device devices) s (.tickNext device
        ((Channels.listByDevice s.db device.id).filter fun c => c.type = .display) devices)
  | tickMark (device : Device) (devices : List Device) :
      Moves s (.tickNext device [] devices) (s.mark device.address true) (.tickCheck devices)
  | tickSubscribe (device : Device) (channel : Channel) (rest : List Channel)
      (devices : List Device) :
      Moves s (.tickNext device (channel :: rest) devices) s
        (.subscribe device channel (.subscribeDisplayChannels rest devices))

theorem Moves.ended {s : ChannelHost} {pc : ChannelPc} {raised : Option Err}
    (h : pc.severs = none) : Moves s pc s (.finished raised) :=
  .finish pc raised fun device channel hs => by
    rw [h] at hs
    cases hs

theorem refused_eq (e : Err) : ∃ raised, refused e = .finished raised := by
  cases e <;> exact ⟨_, rfl⟩

theorem advance_moves {s s' : ChannelHost} {pc pc' : ChannelPc} {ending : Ending}
    (h : pc.advance s ending = some (s', pc')) : Moves s pc s' pc' := by
  cases pc with
  | addDevice deviceId new =>
    cases ending <;> dsimp only [advance] at h
    case touched | timesOut => cases h
    case raises => cases h; exact .ended rfl
    split at h
    · cases h; exact .ended rfl
    · rename_i hget
      cases h; exact .addDevice _ _ _ hget
  | addList device new =>
    obtain ⟨raised, hraised⟩ :=
      refused_eq (.duplicateChannelUuid new.preset.charUuid device.id)
    cases ending <;> dsimp only [advance] at h
    case touched | timesOut => cases h
    case raises => cases h; exact .ended rfl
    split at h
    · split at h
      · cases h; exact hraised ▸ .ended rfl
      · rename_i hnew
        cases h
        exact .addList _ _ (by simpa using hnew)
    · cases h; exact .ended rfl
  | addInsert device new =>
    cases ending <;> dsimp only [advance] at h
    case touched | timesOut => cases h
    case raises => cases h; exact .ended rfl
    split at h
    · rename_i e _
      obtain ⟨raised, hraised⟩ := refused_eq e
      cases h; exact hraised ▸ .ended rfl
    · rename_i hcreate
      cases h; exact .addInsert _ _ _ _ hcreate
  | addFetch device channelId =>
    cases ending <;> dsimp only [advance] at h
    case touched | timesOut => cases h
    case raises => cases h; exact .ended rfl
    split at h
    · cases h; exact .ended rfl
    · rename_i hget
      cases h
      split
      · rename_i hd
        exact .addFetch _ _ _ hget hd
      · exact .ended rfl
  | addLinked device channel =>
    cases ending <;> dsimp only [advance] at h
    case touched | timesOut | raises => cases h
    cases h
    split
    · exact .addLinked _ _
    · exact .ended rfl
  | subscribe device channel caller =>
    cases ending <;> dsimp only [advance] at h
    case touched | timesOut | raises => cases h
    split at h
    · cases h; exact .subscribeFailed _ _ _ _
    · rename_i hlink
      cases h; exact .subscribe _ _ _ _ hlink
  | awaitSubscribe device channel future caller =>
    cases ending <;> dsimp only [advance] at h
    case touched | raises => cases h
    · obtain ⟨outcome, -, h⟩ := Option.map_eq_some_iff.mp h
      cases outcome <;> cases h
      · exact .awaitFailed _ _ _ _ _
      · exact .awaited _ _ _ _
    · split at h <;> cases h
      exact .awaitFailed _ _ _ _ _
  | register device channel caller =>
    cases ending <;> cases h
    exact .register _ _ _
  | deleteLookup channelId =>
    cases ending <;> dsimp only [advance] at h
    case touched | timesOut => cases h
    case raises => cases h; exact .ended rfl
    split at h
    · cases h; exact .ended rfl
    · rename_i hget
      cases h; exact .deleteLookup _ _ hget
  | deleteDevice channel =>
    cases ending <;> dsimp only [advance] at h
    case touched | timesOut => cases h
    case raises => cases h; exact .ended rfl
    split at h
    · cases h; exact .ended rfl
    · rename_i hget
      cases h; exact .deleteDevice _ _ hget
  | deleteRow device channel =>
    cases ending <;> dsimp only [advance] at h
    case touched | timesOut => cases h
    case raises => cases h; exact .ended rfl
    split at h
    · cases h; exact .ended rfl
    · rename_i hdelete
      cases h; exact .deleteRow _ _ _ hdelete
  | unregister device channel =>
    cases ending <;> cases h
    exact .unregister _ _
  | removeLinked device channel =>
    cases ending <;> dsimp only [advance] at h
    case touched | timesOut | raises => cases h
    cases h
    split
    · exact .removeLinked _ _
    · rename_i hdown
      refine .finish _ _ fun d c hs => ?_
      cases hs
      exact ⟨by simp, by simpa using hdown⟩
  | unsubscribe device channel =>
    cases ending <;> dsimp only [advance] at h
    case touched | timesOut | raises => cases h
    split at h
    · rename_i hdown
      cases h
      refine .finish _ _ fun d c hs => ?_
      cases hs
      exact ⟨by simp, hdown⟩
    · rename_i hlink
      cases h; exact .unsubscribe _ _ _ hlink
  | awaitUnsubscribe device future =>
    cases ending <;> dsimp only [advance] at h
    case touched | raises => cases h
    · obtain ⟨outcome, -, h⟩ := Option.map_eq_some_iff.mp h
      cases outcome <;> cases h <;> exact .ended rfl
    · split at h <;> cases h
      exact .ended rfl
  | tickList =>
    cases ending <;> cases h
    · exact .tickList _
    · exact .ended rfl
  | tickCheck devices =>
    cases ending <;> cases devices <;> dsimp only [advance] at h
    case raises.nil | raises.cons => cases h; exact .ended rfl
    case returns.nil => cases h; exact .ended rfl
    case returns.cons =>
      split at h
      · cases h
        split
        · exact .tickSkip _ _
        · exact .tickUp _ _
      · cases h; exact .tickDown _ _
    all_goals cases h
  | tickRecheck device devices =>
    cases ending <;> dsimp only [advance] at h
    case touched | timesOut | raises => cases h
    cases h
    split
    · exact .tickRecheckUp _ _
    · exact .tickRecheckDown _ _
  | tickChannels device devices =>
    cases ending <;> cases h
    · exact .tickChannels _ _
    · exact .ended rfl
  | tickNext device channels devices =>
    cases ending <;> cases channels <;> cases h
    · exact .tickMark _ _
    · exact .tickSubscribe _ _ _ _
  | finished raised => cases ending <;> cases h

end ChannelPc

inductive ChannelEvent
  | addChannel (deviceId : ℕ) (new : NewChannel)
  | deleteChannel (channelId : ℕ)
  | monitorTick
  | thread (i : ℕ) (ending : Ending)
  | execute (address : Address) (reply : PeripheralReply)
  | comeUp (address : Address)
  | drop (address : Address)
  | createDevice (ownerUserId : ℕ) (address : Address) (name : String) (addrType : AddrType)
  | deleteDevice (deviceId : ℕ)

abbrev ChannelThreads := Pool ChannelHost ChannelPc

namespace ChannelThreads

def withDb (p : ChannelThreads) (db : Database) : ChannelThreads :=
  { p with shared := { p.shared with db } }

def withLink (p : ChannelThreads) (address : Address) (link : Option SequentialPeripheral) :
    ChannelThreads :=
  { p with shared := p.shared.setLink address link }

end ChannelThreads

/-- A server starts with no link, over the tables it left. Any number of requests and ticks begin
at any time, links come and go, and devices are registered and removed by single statements. -/
def channelThreads : System ChannelThreads ChannelEvent where
  init p := p.threads = [] ∧ p.shared.db.Valid ∧ UuidsDistinct p.shared.db ∧
    p.shared = { db := p.shared.db }
  step p
    | .addChannel deviceId new => some (p.spawn (.addDevice deviceId new))
    | .deleteChannel channelId => some (p.spawn (.deleteLookup channelId))
    | .monitorTick => some (p.spawn .tickList)
    | .thread i ending => p.step ChannelPc.advance i ending
    | .execute address reply => (p.shared.links address).bind fun link =>
      (link.executeNext reply).map fun link => p.withLink address (some link)
    | .comeUp address =>
      if (p.shared.links address).isSome then none
      else some (p.withLink address (some { address }))
    | .drop address => some (p.withLink address none)
    | .createDevice ownerUserId address name addrType =>
      match Devices.create p.shared.db address name ownerUserId addrType with
      | .ok (_, db) => some (p.withDb db)
      | .error _ => none
    | .deleteDevice deviceId =>
      match Devices.delete p.shared.db deviceId with
      | .ok db => some (p.withDb db)
      | .error _ => none

end HomeServer.Services
