import HomeServer.Db.History
import HomeServer.Services.ChannelThreads
import HomeServer.Services.OrphanLinks

/-! What the threads read of the tables stays true of the rows that are still there. -/
namespace HomeServer.Services
open HomeServer.Db HomeServer.Ble HomeServer.Lib

theorem Targets.later {db db' : Database} {d : Device} (h : Targets db d) (hl : db.Later db') :
    Targets db' d := by
  refine ⟨h.1.trans_le hl.nextDevice, fun d' hd' hid => ?_⟩
  rcases hl.device d' hd' with ⟨d₀, hd₀, hid₀, haddr⟩ | hnew
  · exact haddr ▸ h.2 d₀ hd₀ (hid₀.trans hid)
  · have := h.1
    omega

/-- The channel was read as one of the device's. -/
structure Held (db : Database) (device : Device) (channel : Channel) : Prop where
  device : channel.deviceId = device.id
  known : KnownChannel db channel

def Subscriber.channels : Subscriber → List Channel
  | .onChannelAdded => []
  | .subscribeDisplayChannels rest _ => rest

def Subscriber.devices : Subscriber → List Device
  | .onChannelAdded => []
  | .subscribeDisplayChannels _ devices => devices

namespace ChannelPc

/-- The devices that a thread has read. -/
def devices : ChannelPc → List Device
  | .addList device _ | .addInsert device _ | .addFetch device _ | .addLinked device _
  | .deleteRow device _ | .unregister device _ | .removeLinked device _
  | .unsubscribe device _ => [device]
  | .subscribe device _ caller | .awaitSubscribe device _ _ caller
  | .register device _ caller => device :: caller.devices
  | .tickCheck devices => devices
  | .tickRecheck device devices | .tickChannels device devices
  | .tickNext device _ devices => device :: devices
  | _ => []

/-- The channels to be subscribed, with their device. -/
def wanted : ChannelPc → List (Device × Channel)
  | .addLinked device channel => [(device, channel)]
  | .subscribe device channel caller | .awaitSubscribe device channel _ caller
  | .register device channel caller =>
    (device, channel) :: caller.channels.map fun c => (device, c)
  | .tickNext device channels _ => channels.map fun c => (device, c)
  | _ => []

def inserted : ChannelPc → List (Device × ℕ)
  | .addFetch device channelId => [(device, channelId)]
  | _ => []

def looked : ChannelPc → List Channel
  | .deleteDevice channel => [channel]
  | _ => []

def deleted : ChannelPc → List (Device × Channel)
  | .deleteRow device channel | .unregister device channel | .removeLinked device channel
  | .unsubscribe device channel => [(device, channel)]
  | _ => []

end ChannelPc

open ChannelPc

/-- A thread's channels and devices, as it has read them. -/
structure Carries (db : Database) (pc : ChannelPc) : Prop where
  devices : ∀ d ∈ pc.devices, Targets db d
  wanted : ∀ x ∈ pc.wanted, Held db x.1 x.2 ∧ x.2.type = .display
  deleted : ∀ x ∈ pc.deleted, Held db x.1 x.2
  inserted : ∀ x ∈ pc.inserted,
    x.2 < db.nextChannel ∧ ∀ c ∈ db.channels, c.id = x.2 → c.deviceId = x.1.id
  looked : ∀ c ∈ pc.looked, KnownChannel db c

section Steps
variable {db db' : Database} {s s' : ChannelHost} {pc pc' : ChannelPc}

theorem Held.later {d : Device} {c : Channel} (h : Held db d c) (hl : db.Later db') :
    Held db' d c :=
  ⟨h.device, hl.knownChannel h.known⟩

theorem Carries.later (h : Carries db pc) (hl : db.Later db') : Carries db' pc := by
  constructor
  · exact fun d hd => (h.devices d hd).later hl
  · exact fun x hx => ⟨(h.wanted x hx).1.later hl, (h.wanted x hx).2⟩
  · exact fun x hx => (h.deleted x hx).later hl
  · intro x hx
    obtain ⟨hlt, hrow⟩ := h.inserted x hx
    refine ⟨hlt.trans_le hl.nextChannel, fun c hc hid => ?_⟩
    rcases hl.channel c hc with hold | hnew
    · exact hrow c hold hid
    · omega
  · exact fun c hc => hl.knownChannel (h.looked c hc)

theorem ChannelPc.Moves.later (h : Moves s pc s' pc') : s.db.Later s'.db := by
  cases h with
  | addInsert _ _ _ _ hcreate => exact .channelCreate hcreate
  | deleteRow _ _ _ hdelete => exact .channelDelete hdelete
  | _ => exact .refl _

theorem ChannelPc.Moves.valid (h : Moves s pc s' pc') (hv : s.db.Valid) : s'.db.Valid := by
  cases h with
  | addInsert _ _ _ _ hcreate => exact hv.channelCreate hcreate
  | deleteRow _ _ _ hdelete => exact hv.channelDelete hdelete
  | _ => exact hv

theorem Carries.of_devices (hd : ∀ d ∈ pc.devices, Targets db d) (hw : pc.wanted = [])
    (hx : pc.deleted = []) (hi : pc.inserted = []) (hl : pc.looked = []) : Carries db pc := by
  refine ⟨hd, ?_, ?_, ?_, ?_⟩
  · exact hw ▸ List.forall_mem_nil _
  · exact hx ▸ List.forall_mem_nil _
  · exact hi ▸ List.forall_mem_nil _
  · exact hl ▸ List.forall_mem_nil _

theorem Carries.finished (raised : Option Err) : Carries db (.finished raised) :=
  .of_devices (List.forall_mem_nil _) rfl rfl rfl rfl

theorem Carries.of_wanted (hd : ∀ d ∈ pc.devices, Targets db d)
    (hw : ∀ x ∈ pc.wanted, Held db x.1 x.2 ∧ x.2.type = .display)
    (hx : pc.deleted = []) (hi : pc.inserted = []) (hl : pc.looked = []) : Carries db pc := by
  refine ⟨hd, hw, ?_, ?_, ?_⟩
  · exact hx ▸ List.forall_mem_nil _
  · exact hi ▸ List.forall_mem_nil _
  · exact hl ▸ List.forall_mem_nil _

theorem Carries.of_deleted (hd : ∀ d ∈ pc.devices, Targets db d)
    (hx : ∀ x ∈ pc.deleted, Held db x.1 x.2)
    (hw : pc.wanted = []) (hi : pc.inserted = []) (hl : pc.looked = []) : Carries db pc := by
  refine ⟨hd, ?_, hx, ?_, ?_⟩
  · exact hw ▸ List.forall_mem_nil _
  · exact hi ▸ List.forall_mem_nil _
  · exact hl ▸ List.forall_mem_nil _

/-- What goes on to the caller of `subscribe_channel`. -/
private theorem Carries.caller {device : Device} {caller : Subscriber}
    (hd : ∀ d ∈ device :: caller.devices, Targets db d)
    (hw : ∀ c ∈ caller.channels, Held db device c ∧ c.type = .display) :
    Carries db (resume device caller) ∧ ∀ e, Carries db (failed device e caller) := by
  cases caller with
  | onChannelAdded => exact ⟨.finished none, fun e => .finished (some e)⟩
  | subscribeDisplayChannels rest devices =>
    have hnext : Carries db (.tickNext device rest devices) := by
      refine .of_wanted hd (fun x hx => ?_) rfl rfl rfl
      obtain ⟨c, hc, rfl⟩ := List.mem_map.mp hx
      exact hw c hc
    exact ⟨hnext, fun _ => hnext⟩

theorem Carries.moves (h : Carries s.db pc) (hv : s.db.Valid) (hm : Moves s pc s' pc') :
    Carries s'.db pc' := by
  have hcaller : ∀ {device : Device} {channel : Channel} {caller : Subscriber},
      pc.devices = device :: caller.devices →
      pc.wanted = (device, channel) :: caller.channels.map (fun c => (device, c)) →
      Carries s.db (resume device caller) ∧ ∀ e, Carries s.db (failed device e caller) := by
    intro device channel caller hd hw
    refine Carries.caller (hd ▸ h.devices) fun c hc => ?_
    exact h.wanted (device, c) (hw ▸ .tail _ (List.mem_map_of_mem hc))
  have htail : ∀ {device : Device} {devices : List Device}, pc.devices = device :: devices →
      ∀ d ∈ devices, Targets s.db d := fun hd d hmem => h.devices d (hd ▸ .tail _ hmem)
  cases hm with
  | finish pc raised => exact .finished raised
  | addDevice deviceId new device hget =>
    refine .of_devices (fun d hd => ?_) rfl rfl rfl rfl
    exact List.mem_singleton.mp hd ▸ Targets.of_getById hv hget
  | addList device new => exact .of_devices h.devices rfl rfl rfl rfl
  | addInsert device new channelId db hcreate =>
    have hlater := Database.Later.channelCreate hcreate
    obtain ⟨-, -, rfl, rfl⟩ := Channels.create_ok hcreate
    refine ⟨fun d hd => (h.devices d hd).later hlater, List.forall_mem_nil _,
      List.forall_mem_nil _, fun x hx => ?_, List.forall_mem_nil _⟩
    rw [List.mem_singleton.mp hx]
    refine ⟨Nat.lt_succ_self _, fun c hc hid => ?_⟩
    rcases List.mem_append.mp hc with hc | hc
    · exact absurd hid (hv.channelFresh c hc).ne
    · rw [List.mem_singleton.mp hc]
  | addFetch device channelId channel hget hdisp =>
    obtain ⟨hmem, hid⟩ := Channels.mem_of_getById hget
    refine .of_wanted h.devices (fun x hx => ?_) rfl rfl rfl
    rw [List.mem_singleton.mp hx]
    have hdevice := (h.inserted (device, channelId) (.head _)).2 channel hmem hid
    exact ⟨⟨hdevice, hv.knownChannel hmem⟩, hdisp⟩
  | addLinked device channel => exact .of_wanted h.devices h.wanted rfl rfl rfl
  | subscribe device channel caller p hlink => exact .of_wanted h.devices h.wanted rfl rfl rfl
  | subscribeFailed device channel caller e | awaitFailed device channel future caller e =>
    exact (hcaller rfl rfl).2 e
  | awaited device channel future caller => exact .of_wanted h.devices h.wanted rfl rfl rfl
  | register device channel caller => exact (hcaller rfl rfl).1
  | deleteLookup channelId channel hget =>
    refine ⟨List.forall_mem_nil _, List.forall_mem_nil _, List.forall_mem_nil _,
      List.forall_mem_nil _, fun c hc => ?_⟩
    rw [List.mem_singleton.mp hc]
    exact hv.knownChannel (Channels.mem_of_getById hget).1
  | deleteDevice channel device hget =>
    refine .of_deleted (fun d hd => ?_) (fun x hx => ?_) rfl rfl rfl
    · exact List.mem_singleton.mp hd ▸ Targets.of_getById hv hget
    · rw [List.mem_singleton.mp hx]
      exact ⟨(Devices.mem_of_getById hget).2.symm, h.looked channel (.head _)⟩
  | deleteRow device channel db hdelete =>
    have hlater := Database.Later.channelDelete hdelete
    split
    · exact .of_deleted (fun d hd => (h.devices d hd).later hlater)
        (fun x hx => (h.deleted x hx).later hlater) rfl rfl rfl
    · exact .finished none
  | unregister device channel | removeLinked device channel =>
    exact .of_deleted h.devices h.deleted rfl rfl rfl
  | unsubscribe device channel p hlink => exact .of_devices (List.forall_mem_nil _) rfl rfl rfl rfl
  | tickList marked =>
    refine .of_devices (fun d hd => ?_) rfl rfl rfl rfl
    exact ⟨hv.deviceFresh d hd, fun d' hd' hid => by rw [hv.eq_of_id hd' hd hid]⟩
  | tickSkip device devices | tickRecheckDown device devices | tickMark device devices =>
    exact .of_devices (htail rfl) rfl rfl rfl rfl
  | tickUp device devices | tickDown device devices | tickRecheckUp device devices =>
    exact .of_devices h.devices rfl rfl rfl rfl
  | tickChannels device devices =>
    refine .of_wanted h.devices (fun x hx => ?_) rfl rfl rfl
    obtain ⟨c, hc, rfl⟩ := List.mem_map.mp hx
    obtain ⟨hc, hdisp⟩ := List.mem_filter.mp hc
    obtain ⟨hmem, hdevice⟩ := (Channels.mem_listByDevice _ _ _).mp hc
    exact ⟨⟨hdevice, hv.knownChannel hmem⟩, by simpa using hdisp⟩
  | tickSubscribe device channel rest devices => exact .of_wanted h.devices h.wanted rfl rfl rfl

end Steps

/-- Valid tables, and threads that hold rows of them. -/
structure RowsKept (p : ChannelThreads) : Prop where
  valid : p.shared.db.Valid
  carries : ∀ pc ∈ p.threads, Carries p.shared.db pc

namespace RowsKept
variable {p p' : ChannelThreads}

theorem spawn (h : RowsKept p) {pc : ChannelPc} (hpc : Carries p.shared.db pc) :
    RowsKept (p.spawn pc) := by
  refine ⟨h.valid, fun x hx => ?_⟩
  rcases List.mem_append.mp hx with hx | hx
  · exact h.carries x hx
  · exact List.mem_singleton.mp hx ▸ hpc

theorem thread (h : RowsKept p) {i : ℕ} {ending : Ending}
    (hs : p.step ChannelPc.advance i ending = some p') : RowsKept p' := by
  obtain ⟨pc, pc', rest, -, ha, hperm, hperm'⟩ := Pool.step_focus hs
  have hm := advance_moves ha
  have hrest : ∀ x ∈ pc :: rest, Carries p.shared.db x := fun x hx =>
    h.carries x (hperm.mem_iff.mpr hx)
  refine ⟨hm.valid h.valid, fun x hx => ?_⟩
  rcases List.mem_cons.mp (hperm'.mem_iff.mp hx) with rfl | hx
  · exact (hrest pc (.head _)).moves h.valid hm
  · exact (hrest x (.tail _ hx)).later hm.later

theorem withDb (h : RowsKept p) {db : Database} (hv : db.Valid) (hl : p.shared.db.Later db) :
    RowsKept (p.withDb db) :=
  ⟨hv, fun pc hpc => (h.carries pc hpc).later hl⟩

/-- In every state the threads hold rows of valid tables, whoever changes them. -/
theorem of_reachable (h : channelThreads.Reachable p) : RowsKept p := by
  refine h.invariant (P := RowsKept) ?_ ?_
  · rintro p ⟨hthreads, hv, -, -⟩
    exact ⟨hv, by simp [hthreads]⟩
  · intro p e p' hp hs
    cases e with
    | addChannel | deleteChannel | monitorTick =>
      cases Option.some.inj hs
      exact hp.spawn (.of_devices (List.forall_mem_nil _) rfl rfl rfl rfl)
    | thread i ending => exact hp.thread hs
    | execute address reply =>
      obtain ⟨link, -, hs⟩ := Option.bind_eq_some_iff.mp hs
      obtain ⟨link', -, rfl⟩ := Option.map_eq_some_iff.mp hs
      exact ⟨hp.valid, hp.carries⟩
    | comeUp address =>
      simp only [channelThreads] at hs
      split at hs <;> cases hs
      exact ⟨hp.valid, hp.carries⟩
    | drop address =>
      cases Option.some.inj hs
      exact ⟨hp.valid, hp.carries⟩
    | createDevice ownerUserId address name addrType =>
      simp only [channelThreads] at hs
      split at hs <;> cases hs
      rename_i hcreate
      exact hp.withDb (hp.valid.deviceCreate hcreate) (.deviceCreate hcreate)
    | deleteDevice deviceId =>
      simp only [channelThreads] at hs
      split at hs <;> cases hs
      rename_i hdelete
      exact hp.withDb (hp.valid.deviceDelete hdelete) (.deviceDelete hdelete)

end RowsKept
end HomeServer.Services
