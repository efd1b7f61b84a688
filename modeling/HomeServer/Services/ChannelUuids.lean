import HomeServer.Services.ChannelRows
import HomeServer.Services.SubscriptionRuns

/-! No two channels of a device share a characteristic, and no channel loses its subscription by
the deletion of another one, as long as no insert comes between the check and the insert of a
competing request. -/
namespace HomeServer.Services
open HomeServer.Db HomeServer.Ble HomeServer.Lib

namespace ChannelPc

def checked : ChannelPc → List (Device × NewChannel)
  | .addInsert device new => [(device, new)]
  | _ => []

def competes (device : Device) (new : NewChannel) (pc : ChannelPc) : Bool :=
  pc.checked.any fun x => x.1.id = device.id ∧ x.2.preset.charUuid = new.preset.charUuid ∧
    x.2.name ≠ new.name

def cuts (device : Device) (new : NewChannel) (pc : ChannelPc) : Bool :=
  pc.severs.any fun x => x.1.address = device.address ∧ x.2.charUuid = new.preset.charUuid

end ChannelPc

/-- A request inserts its channel only while no competing request has passed its check, and no
delete is between taking the row of a channel with that characteristic and unsubscribing it;
or else its name is taken. -/
def insertsAlone (p : ChannelThreads) : ChannelEvent → Bool
  | .thread i .returns =>
    match p.threads[i]? with
    | some (.addInsert device new) =>
      (p.shared.db.channels.any fun c => c.deviceId = device.id ∧ c.name = new.name) ||
        !p.threads.any fun pc => pc.competes device new || pc.cuts device new
    | _ => true
  | _ => true

open ChannelPc

def Checked (db : Database) (device : Device) (new : NewChannel) : Prop :=
  ∀ c ∈ db.channels, c.deviceId = device.id → c.charUuid = new.preset.charUuid →
    c.name = new.name

def Freed (db : Database) (address : Address) (charUuid : Uuid) : Prop :=
  ∀ c ∈ db.channels, ∀ d ∈ db.devices, d.id = c.deviceId → d.address = address →
    c.charUuid ≠ charUuid

instance (db : Database) (address : Address) (charUuid : Uuid) :
    Decidable (Freed db address charUuid) :=
  inferInstanceAs (Decidable (∀ c ∈ db.channels, ∀ d ∈ db.devices, _))

instance (db : Database) : Decidable (UuidsDistinct db) :=
  inferInstanceAs (Decidable (List.Nodup _))

structure Exclusive (db : Database) (pc : ChannelPc) : Prop where
  checked : ∀ x ∈ pc.checked, Checked db x.1 x.2
  severs : ∀ x ∈ pc.severs, Freed db x.1.address x.2.charUuid

section Steps
variable {db db' : Database} {s s' : ChannelHost} {pc pc' : ChannelPc} {device : Device}

theorem Exclusive.of_nothing (hc : pc.checked = []) (hs : pc.severs = none) :
    Exclusive db pc := by
  constructor
  · exact hc ▸ List.forall_mem_nil _
  · rw [hs]
    exact fun x hx => nomatch hx

theorem Exclusive.mono (h : Exclusive db pc) (hchannels : db'.channels.Sublist db.channels)
    (hdevices : db'.devices.Sublist db.devices) : Exclusive db' pc := by
  constructor
  · exact fun x hx c hc => h.checked x hx c (hchannels.subset hc)
  · exact fun x hx c hc d hd => h.severs x hx c (hchannels.subset hc) d (hdevices.subset hd)

theorem UuidsDistinct.sublist (h : UuidsDistinct db)
    (hchannels : db'.channels.Sublist db.channels) : UuidsDistinct db' := by
  unfold UuidsDistinct at h ⊢
  exact h.sublist (hchannels.map _)

/-- So does a new device, as it has no channels. -/
theorem Exclusive.deviceCreate (h : Exclusive db pc) (hv : db.Valid) {address : Address}
    {name : String} {owner i : ℕ} {addrType : AddrType}
    (hcreate : Devices.create db address name owner addrType = .ok (i, db')) :
    Exclusive db' pc := by
  obtain ⟨-, rfl, rfl⟩ := Devices.create_ok hcreate
  refine ⟨h.checked, fun x hx c hc d hd hid => ?_⟩
  rcases List.mem_append.mp hd with hd | hd
  · exact h.severs x hx c hc d hd hid
  · obtain ⟨d', hd', hid'⟩ := hv.channelDevice c hc
    have hlt := hv.deviceFresh d' hd'
    have hnew : d.id = db.nextDevice := by rw [List.mem_singleton.mp hd]
    omega

theorem resume_idle (device : Device) (caller : Subscriber) :
    (resume device caller).checked = [] ∧ (resume device caller).severs = none := by
  cases caller <;> exact ⟨rfl, rfl⟩

theorem failed_idle (device : Device) (e : Err) (caller : Subscriber) :
    (failed device e caller).checked = [] ∧ (failed device e caller).severs = none := by
  cases caller <;> exact ⟨rfl, rfl⟩

theorem Targets.id_eq (ht : Targets db device) (hv : db.Valid) {d : Device}
    (hd : d ∈ db.devices) (haddr : d.address = device.address)
    (hexists : ∃ d₀ ∈ db.devices, d₀.id = device.id) : d.id = device.id := by
  obtain ⟨d₀, hd₀, hid⟩ := hexists
  have heq : d = d₀ := hv.eq_of_address hd hd₀ (haddr.trans (ht.2 d₀ hd₀ hid).symm)
  rw [heq, hid]

/-- The row of a deleted channel was the only one with its characteristic. -/
theorem Freed.of_delete {channel : Channel} (hv : db.Valid) (huuids : UuidsDistinct db)
    (ht : Targets db device) (hheld : Held db device channel)
    (h : Channels.delete db channel.id = .ok db') :
    Freed db' device.address channel.charUuid := by
  obtain ⟨row, hrow, hid⟩ := Channels.exists_of_delete h
  obtain rfl := hheld.known.row row hrow hid
  obtain rfl := Channels.delete_ok h
  intro c hc d hd hdevice haddr huuid
  obtain ⟨hc, hne⟩ := List.mem_filter.mp hc
  have hsame : d.id = device.id := by
    apply ht.id_eq hv hd haddr
    rw [← hheld.device]
    exact hv.channelDevice row hrow
  have heq : c = row :=
    huuids.eq hc hrow (hdevice.symm.trans (hsame.trans hheld.device.symm)) huuid
  simp [heq] at hne

/-- A new row takes the characteristic of no other thread that is alone. -/
theorem Exclusive.insert {new : NewChannel} {i : ℕ} (h : Exclusive db pc)
    (ht : Targets db device)
    (hcreate : Channels.create db device.id new.name new.preset.type new.preset.charUuid
      new.preset.dataFormat new.preset.unit = .ok (i, db'))
    (hcompetes : pc.competes device new = false) (hcuts : pc.cuts device new = false) :
    Exclusive db' pc := by
  obtain ⟨-, -, rfl, rfl⟩ := Channels.create_ok hcreate
  constructor
  · intro x hx c hc hdevice huuid
    rcases List.mem_append.mp hc with hc | hc
    · exact h.checked x hx c hc hdevice huuid
    · rw [List.mem_singleton.mp hc] at hdevice huuid ⊢
      have hnot := List.any_eq_false.mp hcompetes x hx
      by_contra hname
      exact hnot (by simpa using ⟨hdevice.symm, huuid.symm, Ne.symm hname⟩)
  · intro x hx c hc d hd hid haddr huuid
    rcases List.mem_append.mp hc with hc | hc
    · exact h.severs x hx c hc d hd hid haddr huuid
    · rw [List.mem_singleton.mp hc] at hid huuid
      have hsame : d.address = device.address := ht.2 d hd hid
      simp only [cuts, Option.mem_def.mp hx, Option.any_some, decide_eq_false_iff_not] at hcuts
      exact hcuts ⟨haddr.symm.trans hsame, huuid.symm⟩

theorem UuidsDistinct.insert {new : NewChannel} {i : ℕ}
    (huuids : UuidsDistinct db) (hchecked : Checked db device new)
    (hcreate : Channels.create db device.id new.name new.preset.type new.preset.charUuid
      new.preset.dataFormat new.preset.unit = .ok (i, db')) : UuidsDistinct db' := by
  obtain ⟨hname, -, rfl, rfl⟩ := Channels.create_ok hcreate
  have hnew : ∀ c ∈ db.channels, c.deviceId = device.id → c.charUuid ≠ new.preset.charUuid :=
    fun c hc hdevice huuid => hname c hc hdevice (hchecked c hc hdevice huuid)
  unfold UuidsDistinct at huuids ⊢
  simpa [List.nodup_append] using ⟨huuids, hnew⟩

/-- A thread that checks finds the characteristic free, one that deletes frees it. -/
theorem Exclusive.moves (h : Exclusive s.db pc) (hc : Carries s.db pc) (hv : s.db.Valid)
    (huuids : UuidsDistinct s.db) (hm : Moves s pc s' pc') : Exclusive s'.db pc' := by
  cases hm with
  | addList device new hfree =>
    refine ⟨fun x hx => ?_, h.severs⟩
    rw [List.mem_singleton.mp hx]
    intro c hc hdevice huuid
    exact absurd huuid (hfree c ((Channels.mem_listByDevice _ _ _).mpr ⟨hc, hdevice⟩))
  | deleteRow device channel db hdelete =>
    split
    · refine ⟨List.forall_mem_nil _, fun x hx => ?_⟩
      obtain rfl := Option.some.inj hx
      have ht := hc.devices device (.head _)
      exact Freed.of_delete hv huuids ht (hc.deleted (device, channel) (.head _)) hdelete
    · exact .of_nothing rfl rfl
  | unregister device channel | removeLinked device channel => exact ⟨h.checked, h.severs⟩
  | subscribeFailed device channel caller e | awaitFailed device channel future caller e =>
    exact .of_nothing (failed_idle device e caller).1 (failed_idle device e caller).2
  | register device channel caller =>
    exact .of_nothing (resume_idle device caller).1 (resume_idle device caller).2
  | _ => exact .of_nothing rfl rfl

/-- A step that is not an insert only deletes. -/
theorem ChannelPc.Moves.inserts (hm : Moves s pc s' pc') :
    (s'.db.channels.Sublist s.db.channels ∧ s'.db.devices.Sublist s.db.devices) ∨
    ∃ device new i, pc = .addInsert device new ∧ pc' = .addFetch device i ∧
      Channels.create s.db device.id new.name new.preset.type new.preset.charUuid
        new.preset.dataFormat new.preset.unit = .ok (i, s'.db) := by
  cases hm with
  | addInsert device new i db hcreate => exact Or.inr ⟨device, new, i, rfl, rfl, hcreate⟩
  | deleteRow device channel db hdelete =>
    obtain rfl := Channels.delete_ok hdelete
    exact Or.inl ⟨List.filter_sublist, List.Sublist.refl _⟩
  | _ => exact Or.inl ⟨List.Sublist.refl _, List.Sublist.refl _⟩

end Steps

/-- No two channels of a device have one characteristic, and no request is in the way of
another one. -/
structure UuidsKept (p : ChannelThreads) : Prop where
  distinct : UuidsDistinct p.shared.db
  exclusive : ∀ pc ∈ p.threads, Exclusive p.shared.db pc

namespace UuidsKept
variable {p p' : ChannelThreads}

theorem spawn (h : UuidsKept p) {pc : ChannelPc} (hpc : Exclusive p.shared.db pc) :
    UuidsKept (p.spawn pc) := by
  refine ⟨h.distinct, fun x hx => ?_⟩
  rcases List.mem_append.mp hx with hx | hx
  · exact h.exclusive x hx
  · exact List.mem_singleton.mp hx ▸ hpc

/-- Everybody else is out of the way of an insert that succeeds. -/
theorem alone {i : ℕ} {device : Device} {new : NewChannel} {id : ℕ} {db' : Database}
    (halone : insertsAlone p (.thread i .returns) = true)
    (hget : p.threads[i]? = some (.addInsert device new))
    (hcreate : Channels.create p.shared.db device.id new.name new.preset.type
      new.preset.charUuid new.preset.dataFormat new.preset.unit = .ok (id, db'))
    {pc : ChannelPc} (hpc : pc ∈ p.threads) :
    pc.competes device new = false ∧ pc.cuts device new = false := by
  have hname := (Channels.create_ok hcreate).1
  simp only [insertsAlone, hget, Bool.or_eq_true, Bool.not_eq_true', List.any_eq_true,
    decide_eq_true_eq] at halone
  rcases halone with ⟨c, hc, hdevice, htaken⟩ | hnone
  · exact absurd htaken (hname c hc hdevice)
  · simpa using List.any_eq_false.mp hnone pc hpc

theorem thread (h : UuidsKept p) (hrows : RowsKept p) {i : ℕ} {ending : Ending}
    (halone : insertsAlone p (.thread i ending) = true)
    (hs : p.step ChannelPc.advance i ending = some p') : UuidsKept p' := by
  obtain ⟨pc, pc', rest, hget, ha, hperm, hperm'⟩ := Pool.step_focus hs
  have hm := advance_moves ha
  have hpc : pc ∈ p.threads := List.mem_of_getElem? hget
  have hself := (h.exclusive pc hpc).moves (hrows.carries pc hpc) hrows.valid h.distinct hm
  have hothers : ∀ x ∈ rest, x ∈ p.threads := fun x hx => hperm.mem_iff.mpr (.tail _ hx)
  rcases hm.inserts with ⟨hchannels, hdevices⟩ | ⟨device, new, id, rfl, rfl, hcreate⟩
  · refine ⟨h.distinct.sublist hchannels, fun x hx => ?_⟩
    rcases List.mem_cons.mp (hperm'.mem_iff.mp hx) with rfl | hx
    · exact hself
    · exact (h.exclusive x (hothers x hx)).mono hchannels hdevices
  · have hreturns : ending = .returns := by
      cases ending with
      | returns => rfl
      | touched | timesOut => cases ha
      | raises e => exact nomatch congrArg Prod.snd (Option.some.inj ha)
    subst hreturns
    have hchecked := (h.exclusive _ hpc).checked (device, new) (.head _)
    have ht := (hrows.carries _ hpc).devices device (.head _)
    refine ⟨h.distinct.insert hchecked hcreate, fun x hx => ?_⟩
    rcases List.mem_cons.mp (hperm'.mem_iff.mp hx) with rfl | hx
    · exact hself
    · obtain ⟨hcompetes, hcuts⟩ := alone halone hget hcreate (hothers x hx)
      exact (h.exclusive x (hothers x hx)).insert ht hcreate hcompetes hcuts

theorem of_run (h : channelThreads.Run (fun p e => insertsAlone p e = true) p) : UuidsKept p := by
  refine System.Run.invariant_from (P := UuidsKept) ?_ ?_ h
  · rintro p ⟨hthreads, -, huuids, -⟩
    exact ⟨huuids, by simp [hthreads]⟩
  · intro p e p' hrun hp halone hs
    have hrows := RowsKept.of_reachable hrun.reachable
    cases e with
    | addChannel | deleteChannel | monitorTick =>
      cases Option.some.inj hs
      exact hp.spawn (.of_nothing rfl rfl)
    | thread i ending => exact hp.thread hrows halone hs
    | execute address reply =>
      obtain ⟨link, -, hs⟩ := Option.bind_eq_some_iff.mp hs
      obtain ⟨link', -, rfl⟩ := Option.map_eq_some_iff.mp hs
      exact ⟨hp.distinct, hp.exclusive⟩
    | comeUp address =>
      simp only [channelThreads] at hs
      split at hs <;> cases hs
      exact ⟨hp.distinct, hp.exclusive⟩
    | drop address =>
      cases Option.some.inj hs
      exact ⟨hp.distinct, hp.exclusive⟩
    | createDevice ownerUserId address name addrType =>
      simp only [channelThreads] at hs
      split at hs <;> cases hs
      rename_i hcreate
      refine ⟨?_, fun pc hpc => (hp.exclusive pc hpc).deviceCreate hrows.valid hcreate⟩
      obtain ⟨-, -, rfl⟩ := Devices.create_ok hcreate
      exact hp.distinct
    | deleteDevice deviceId =>
      simp only [channelThreads] at hs
      split at hs <;> cases hs
      rename_i hdelete
      obtain rfl := Devices.delete_ok hdelete
      exact ⟨hp.distinct.sublist List.filter_sublist, fun pc hpc =>
        (hp.exclusive pc hpc).mono List.filter_sublist List.filter_sublist⟩

end UuidsKept

/-- No two channels of a device share a characteristic, and a delete that is about to unsubscribe
one finds no channel at that address that still uses it. -/
theorem charUuid_unique {p : ChannelThreads}
    (h : channelThreads.Run (fun p e => insertsAlone p e = true) p) :
    UuidsDistinct p.shared.db ∧ ∀ pc ∈ p.threads, ∀ x ∈ pc.severs,
      Freed p.shared.db x.1.address x.2.charUuid :=
  ⟨(UuidsKept.of_run h).distinct, fun pc hpc => ((UuidsKept.of_run h).exclusive pc hpc).severs⟩

def freshChannels : ChannelThreads := { shared := { db := {} }, threads := [] }

theorem freshChannels_init : channelThreads.init freshChannels :=
  ⟨rfl, .empty, List.nodup_nil, rfl⟩

def sensorRegistered : List ChannelEvent := [.createDevice 1 sensorAddress "sensor" .publicAddr]

def proceeds (i n : ℕ) : List ChannelEvent := List.replicate n (.thread i .returns)

def askedInTurn : List ChannelEvent :=
  sensorRegistered ++ .addChannel 1 ⟨"indoor", sensorPreset⟩ :: proceeds 0 5 ++
    .addChannel 1 ⟨"outdoor", sensorPreset⟩ :: proceeds 1 2 ++
    .deleteChannel 1 :: proceeds 2 3

theorem charUuid_unique_sensor : ∃ p : ChannelThreads, UuidsDistinct p.shared.db ∧
    p.threads.length = 3 ∧ ∃ pc ∈ p.threads, ∃ x ∈ pc.severs,
      Freed p.shared.db x.1.address x.2.charUuid := by
  obtain ⟨p, hrun, hp⟩ := System.exists_run_of_replay insertsAlone freshChannels_init askedInTurn
    (p := fun p => decide (p.threads.length = 3) && p.threads.any fun pc => pc.severs.isSome)
    (by decide +kernel)
  simp only [Bool.and_eq_true, decide_eq_true_eq, List.any_eq_true,
    Option.isSome_iff_exists] at hp
  obtain ⟨hlen, pc, hpc, x, hx⟩ := hp
  obtain ⟨hdistinct, hfreed⟩ := charUuid_unique hrun
  exact ⟨p, hdistinct, hlen, pc, hpc, x, hx, hfreed pc hpc x hx⟩

def askedTogether : List ChannelEvent :=
  sensorRegistered ++ .addChannel 1 ⟨"indoor", sensorPreset⟩ ::
    .addChannel 1 ⟨"outdoor", sensorPreset⟩ :: proceeds 0 2 ++ proceeds 1 2 ++
    proceeds 0 3 ++ proceeds 1 3 ++ .deleteChannel 1 :: proceeds 2 3

theorem charUuid_twice :
    (¬∀ p, channelThreads.Reachable p → UuidsDistinct p.shared.db) ∧
    ¬∀ p, channelThreads.Reachable p → ∀ pc ∈ p.threads, ∀ x ∈ pc.severs,
      Freed p.shared.db x.1.address x.2.charUuid := by
  constructor
  · intro hall
    obtain ⟨p, hrun, hp⟩ := System.exists_reachable_of_replay freshChannels_init
      (askedTogether.take 11) (p := fun p => !decide (UuidsDistinct p.shared.db))
      (by decide +kernel)
    simp only [Bool.not_eq_true', decide_eq_false_iff_not] at hp
    exact hp (hall p hrun)
  · intro hall
    obtain ⟨p, hrun, hp⟩ := System.exists_reachable_of_replay freshChannels_init askedTogether
      (p := fun p => p.threads.any fun pc => pc.severs.any fun x =>
        !decide (Freed p.shared.db x.1.address x.2.charUuid)) (by decide +kernel)
    simp only [List.any_eq_true, Option.any_eq_true, Bool.not_eq_true',
      decide_eq_false_iff_not] at hp
    obtain ⟨pc, hpc, x, hx, hnot⟩ := hp
    exact hnot (hall p hrun pc hpc x hx)

end HomeServer.Services
