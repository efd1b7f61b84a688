import HomeServer.Services.ChannelLinks
import HomeServer.Services.ChannelUuids

/-! A channel that is gone keeps no callback and no entry, as long as each of its subscribes
comes before its delete unsubscribes. -/
namespace HomeServer.Services
open HomeServer.Db HomeServer.Ble HomeServer.Lib

namespace ChannelPc

def severing (address : Address) (charUuid : Uuid) (pc : ChannelPc) : Bool :=
  pc.severs.any fun x => x.1.address = address ∧ x.2.charUuid = charUuid

def unregistering (address : Address) (charUuid : Uuid) : ChannelPc → Bool
  | .unregister device channel => device.address = address ∧ channel.charUuid = charUuid
  | _ => false

def hasFinished : ChannelPc → Bool
  | .finished _ => true
  | _ => false

end ChannelPc

namespace ChannelThreads

def unsubscribes (p : ChannelThreads) (address : Address) (charUuid : Uuid) : Bool :=
  p.threads.any (ChannelPc.severing address charUuid) ||
    (p.shared.links address).any fun link => link.pending.any fun cmd =>
      cmd.op = .unsubscribe charUuid

end ChannelThreads

/-- A channel is subscribed, and written to `_subscribed`, only while its row is there or the
delete that took it has the undoing still ahead. An unsubscribe succeeds, or there is nothing to
remove, and no delete gives up waiting for it. No device is deleted. -/
def subscribesInTime (p : ChannelThreads) : ChannelEvent → Bool
  | .thread i .returns =>
    match p.threads[i]? with
    | some (.register device channel _) => hasRow p.shared.db channel.id ||
        p.threads.any (ChannelPc.unregistering device.address channel.charUuid)
    | _ => true
  | .thread i .timesOut =>
    match p.threads[i]? with
    | some (.awaitUnsubscribe device future) => !(p.shared.links device.address).any fun link =>
        link.pending.any fun cmd => cmd.future = future
    | _ => true
  | .execute address reply => (p.shared.links address).all fun link =>
    match link.pending.head? with
    | some ⟨.subscribe charUuid channelId, _⟩ => !reply.accepts ||
        hasRow p.shared.db channelId || p.unsubscribes address charUuid
    | some ⟨.unsubscribe charUuid, _⟩ => reply.removes ||
        (link.callbacks charUuid).all (hasRow p.shared.db)
    | _ => true
  | .deleteDevice _ => false
  | _ => true

open ChannelPc

def Unsubscribes (s : ChannelHost) (threads : List ChannelPc) (a : Address) (u : Uuid) : Prop :=
  (∃ pc ∈ threads, pc.severing a u = true) ∨
    ∃ link, s.links a = some link ∧ ∃ cmd ∈ link.pending, cmd.op = .unsubscribe u

/-- What a channel without a row has left is about to be undone. -/
structure Ghostless (s : ChannelHost) (threads : List ChannelPc) : Prop where
  awaited : ∀ a link, s.links a = some link → ∀ cmd ∈ link.pending, ∀ u,
    cmd.op = .unsubscribe u →
      ∃ device, .awaitUnsubscribe device cmd.future ∈ threads ∧ device.address = a
  callbacks : ∀ a link, s.links a = some link → ∀ u k, link.callbacks u = some k →
    hasRow s.db k = true ∨ Unsubscribes s threads a u
  entries : ∀ a u c, s.subscribed (a, u) = some c →
    hasRow s.db c.id = true ∨ ∃ pc ∈ threads, pc.unregistering a u = true

/-- What a step of a thread does to the rows, the links and the entries. -/
structure Advances (s : ChannelHost) (pc : ChannelPc) (s' : ChannelHost) (pc' : ChannelPc) :
    Prop where
  rows : ∀ a u k, Wanted s.db a u k → hasRow s.db k = true →
    hasRow s'.db k = true ∨ pc'.unregistering a u = true
  links : ∀ a link', s'.links a = some link' → ∃ link, s.links a = some link ∧
    link'.callbacks = link.callbacks ∧ link.pending ⊆ link'.pending ∧
    ∀ cmd ∈ link'.pending, cmd ∈ link.pending ∨ ∀ u, cmd.op = .unsubscribe u →
      ∃ device, pc' = .awaitUnsubscribe device cmd.future ∧ device.address = a
  entries : ∀ a u c, s'.subscribed (a, u) = some c →
    s.subscribed (a, u) = some c ∧ pc.unregistering a u = false ∨
    ∃ device caller, pc = .register device c caller ∧ device.address = a ∧ c.charUuid = u
  severs : ∀ a u, pc.severing a u = true → pc'.severing a u = true ∨ s'.links a = none ∨
    ∃ link', s'.links a = some link' ∧ ∃ cmd ∈ link'.pending, cmd.op = .unsubscribe u

section Steps
variable {s s' : ChannelHost} {pc pc' : ChannelPc} {rest : List ChannelPc}

theorem severing_iff {a : Address} {u : Uuid} : pc.severing a u = true ↔
    ∃ device channel, pc.severs = some (device, channel) ∧ device.address = a ∧
      channel.charUuid = u := by
  simp [severing, Option.any_eq_true]

theorem unregistering_severing {a : Address} {u : Uuid} (h : pc.unregistering a u = true) :
    pc.severing a u = true := by
  cases pc with
  | unregister device channel => exact h
  | _ => cases h

namespace Advances

/-- A step that changes neither, of a thread that has nothing to undo. -/
theorem idle (hdb : s'.db = s.db) (hlinks : s'.links = s.links)
    (hsubscribed : s'.subscribed = s.subscribed) (hsevers : pc.severs = none) :
    Advances s pc s' pc' := by
  have hnot : ∀ a u, pc.severing a u = false := fun a u => by simp [severing, hsevers]
  refine ⟨fun a u k _ hrow => Or.inl (hdb ▸ hrow), fun a link hlink => ?_,
    fun a u c hc => Or.inl ⟨hsubscribed ▸ hc, ?_⟩, fun a u h => ?_⟩
  · exact ⟨link, hlinks ▸ hlink, rfl, List.Subset.refl _, fun cmd hcmd => Or.inl hcmd⟩
  · by_contra hun
    have := unregistering_severing (by simpa using hun)
    simp [hnot] at this
  · simp [hnot] at h

/-- A command put in the queue of a link. -/
theorem submit {a : Address} {link : SequentialPeripheral} {op : Op}
    (hlink : s.links a = some link)
    (hawait : ∀ u, op = .unsubscribe u →
      ∃ device, pc' = .awaitUnsubscribe device s.nextFuture ∧ device.address = a)
    (hsevers : ∀ b u, pc.severing b u = true → b = a ∧ op = .unsubscribe u)
    (hunregister : ∀ b u, pc.unregistering b u = false) :
    Advances s pc (s.submit a link op) pc' := by
  have hself : (s.submit a link op).links a = some (link.submit ⟨op, s.nextFuture⟩) :=
    Function.update_self ..
  refine ⟨fun b u k _ hrow => Or.inl hrow, fun b link' hb => ?_,
    fun b u c hc => Or.inl ⟨hc, hunregister b u⟩, fun b u h => ?_⟩
  · by_cases hab : b = a
    · subst hab
      obtain rfl := Option.some.inj (hself.symm.trans hb)
      refine ⟨link, hlink, rfl, List.subset_append_left _ _, fun cmd hcmd => ?_⟩
      rcases List.mem_append.mp hcmd with hcmd | hcmd
      · exact Or.inl hcmd
      · rw [List.mem_singleton.mp hcmd]
        exact Or.inr hawait
    · have hsame : (s.submit a link op).links b = s.links b := Function.update_of_ne hab ..
      exact ⟨link', hsame ▸ hb, rfl, List.Subset.refl _, fun cmd hcmd => Or.inl hcmd⟩
  · obtain ⟨rfl, hop⟩ := hsevers b u h
    exact Or.inr (Or.inr ⟨_, hself, _, List.mem_append_right _ (.head _), hop⟩)

/-- A write to `_subscribed`. -/
theorem setSubscribed {device : Device} {channel : Channel} {entry : Option Channel}
    (hpc : ∀ a u, pc.unregistering a u = true → (a, u) = (device.address, channel.charUuid))
    (hentry : ∀ c ∈ entry, ∃ caller, pc = .register device c caller ∧ c = channel)
    (hsevers : ∀ a u, pc.severing a u = true → pc'.severing a u = true) :
    Advances s pc (s.setSubscribed device.address channel.charUuid entry) pc' := by
  refine ⟨fun a u k _ hrow => Or.inl hrow, fun a link hlink => ?_, fun a u c hc => ?_,
    fun a u h => Or.inl (hsevers a u h)⟩
  · exact ⟨link, hlink, rfl, List.Subset.refl _, fun cmd hcmd => Or.inl hcmd⟩
  · by_cases hau : (a, u) = (device.address, channel.charUuid)
    · cases hau
      simp only [ChannelHost.setSubscribed, Function.update_self] at hc
      obtain ⟨caller, hregister, rfl⟩ := hentry c hc
      exact Or.inr ⟨device, caller, hregister, rfl, rfl⟩
    · simp only [ChannelHost.setSubscribed, Function.update_of_ne hau] at hc
      exact Or.inl ⟨hc, by simpa using mt (hpc a u) hau⟩

theorem withDb {db : Database} (hsevers : pc.severs = none)
    (hrows : ∀ a u k, Wanted s.db a u k → hasRow s.db k = true →
      hasRow db k = true ∨ pc'.unregistering a u = true) :
    Advances s pc { s with db } pc' := by
  have hidle : Advances s pc s pc' := .idle rfl rfl rfl hsevers
  exact ⟨hrows, hidle.links, hidle.entries, hidle.severs⟩

/-- The channel that was wanted is the one whose row is deleted. -/
theorem deleteRow {device : Device} {channel : Channel} {db : Database} (hv : s.db.Valid)
    (ht : Targets s.db device) (hheld : Held s.db device channel)
    (h : Channels.delete s.db channel.id = .ok db) :
    Advances s (.deleteRow device channel) { s with db }
      (if channel.type = .display then .unregister device channel else .finished none) := by
  refine .withDb rfl fun a u k hwanted hrow => ?_
  simp only [hasRow, List.any_eq_true, decide_eq_true_eq] at hrow
  obtain ⟨row, hmem, hid⟩ := hrow
  by_cases hk : k = channel.id
  · obtain ⟨device', channel', ht', hheld', hdisp, rfl, rfl, rfl⟩ := hwanted
    obtain rfl := hheld'.known.row row hmem hid
    obtain rfl := hheld.known.row row hmem hk
    obtain ⟨d, hd, hdevice⟩ := hv.channelDevice row hmem
    have haddr : device.address = device'.address :=
      (ht.2 d hd (hdevice.trans hheld.device)).symm.trans
        (ht'.2 d hd (hdevice.trans hheld'.device))
    rw [if_pos hdisp]
    exact Or.inr (by simp [unregistering, haddr])
  · obtain rfl := Channels.delete_ok h
    have hkept : row ∈ s.db.channels.filter fun c => c.id ≠ channel.id :=
      List.mem_filter.mpr ⟨hmem, by simpa [hid] using hk⟩
    exact Or.inl (List.any_eq_true.mpr ⟨row, hkept, by simpa using hid⟩)

theorem of_moves (hm : Moves s pc s' pc') (hv : s.db.Valid) (hc : Carries s.db pc) :
    Advances s pc s' pc' := by
  cases hm with
  | finish pc raised h =>
    refine ⟨fun a u k _ hrow => Or.inl hrow, fun a link hlink => ?_, fun a u c hentry => ?_,
      fun a u hsevers => ?_⟩
    · exact ⟨link, hlink, rfl, List.Subset.refl _, fun cmd hcmd => Or.inl hcmd⟩
    · refine Or.inl ⟨hentry, ?_⟩
      cases pc with
      | unregister device channel => exact absurd rfl (h device channel rfl).1
      | _ => rfl
    · obtain ⟨device, channel, hx, rfl, -⟩ := severing_iff.mp hsevers
      exact Or.inr (Or.inl (h device channel hx).2)
  | addInsert device new i db hcreate =>
    refine .withDb rfl fun a u k _ hrow => Or.inl ?_
    obtain ⟨-, -, rfl, rfl⟩ := Channels.create_ok hcreate
    simp only [hasRow, List.any_append, Bool.or_eq_true] at hrow ⊢
    exact Or.inl hrow
  | subscribe device channel caller p hlink =>
    exact .submit hlink (fun u hop => nomatch hop) (fun b u h => nomatch h) fun b u => rfl
  | register device channel caller =>
    refine .setSubscribed (fun a u h => nomatch h) (fun c hc => ?_) fun a u h => nomatch h
    obtain rfl := Option.some.inj hc
    exact ⟨caller, rfl, rfl⟩
  | deleteRow device channel db hdelete =>
    exact .deleteRow hv (hc.devices device (.head _)) (hc.deleted (device, channel) (.head _))
      hdelete
  | unregister device channel =>
    refine .setSubscribed (fun a u h => ?_) (fun c hc => nomatch hc) fun a u h => h
    simp only [unregistering, decide_eq_true_eq] at h
    rw [h.1, h.2]
  | removeLinked device channel =>
    have hsame : Advances s (.addLinked device channel) s (.unsubscribe device channel) :=
      .idle rfl rfl rfl rfl
    exact ⟨hsame.rows, hsame.links, fun a u c hentry => Or.inl ⟨hentry, rfl⟩,
      fun a u h => Or.inl h⟩
  | unsubscribe device channel p hlink =>
    refine .submit hlink (fun u hop => ⟨device, rfl, rfl⟩) (fun b u h => ?_) fun b u => rfl
    obtain ⟨device', channel', hx, rfl, rfl⟩ := severing_iff.mp h
    cases hx
    exact ⟨rfl, rfl⟩
  | _ => exact .idle rfl rfl rfl rfl

end Advances
theorem Unsubscribes.mono {threads threads' : List ChannelPc} {a : Address} {u : Uuid}
    (h : Unsubscribes s threads a u) (hthreads : threads ⊆ threads')
    (hlinks : s'.links = s.links) : Unsubscribes s' threads' a u := by
  rcases h with ⟨x, hx, hsevering⟩ | ⟨link, hlink, hpending⟩
  · exact Or.inl ⟨x, hthreads hx, hsevering⟩
  · exact Or.inr ⟨link, hlinks ▸ hlink, hpending⟩

namespace Ghostless

theorem perm {threads threads' : List ChannelPc} (h : Ghostless s threads)
    (hperm : threads.Perm threads') : Ghostless s threads' := by
  refine ⟨fun a link hlink cmd hcmd u hop => ?_, fun a link hlink u k hk => ?_,
    fun a u c hc => ?_⟩
  · obtain ⟨device, hmem, haddr⟩ := h.awaited a link hlink cmd hcmd u hop
    exact ⟨device, hperm.subset hmem, haddr⟩
  · exact (h.callbacks a link hlink u k hk).imp_right fun hu => hu.mono hperm.subset rfl
  · exact (h.entries a u c hc).imp_right fun ⟨x, hx, hun⟩ => ⟨x, hperm.subset hx, hun⟩

/-- The step of a thread that comes in time and does not leave its unsubscribe behind. -/
theorem advances (h : Ghostless s (pc :: rest)) (ha : Advances s pc s' pc')
    (hawait : ∀ device future, pc = .awaitUnsubscribe device future →
      ∀ link, s.links device.address = some link → ∀ cmd ∈ link.pending, cmd.future ≠ future)
    (hregister : ∀ device channel caller, pc = .register device channel caller →
      hasRow s.db channel.id = true ∨
        ∃ x ∈ rest, x.unregistering device.address channel.charUuid = true)
    (hkept : HostKept s) (hcarries : Carries s.db pc) :
    Ghostless s' (pc' :: rest) := by
  constructor
  · intro a link' hlink' cmd hcmd u hop
    obtain ⟨link, hlink, -, -, hpending⟩ := ha.links a link' hlink'
    rcases hpending cmd hcmd with hold | hnew
    · obtain ⟨device, hmem, haddr⟩ := h.awaited a link hlink cmd hold u hop
      rcases List.mem_cons.mp hmem with hself | hmem
      · exact absurd rfl (hawait device cmd.future hself.symm link (haddr ▸ hlink) cmd hold)
      · exact ⟨device, .tail _ hmem, haddr⟩
    · obtain ⟨device, rfl, haddr⟩ := hnew u hop
      exact ⟨device, .head _, haddr⟩
  · intro a link' hlink' u k hk
    obtain ⟨link, hlink, hsame, hsubset, -⟩ := ha.links a link' hlink'
    rw [hsame] at hk
    rcases h.callbacks a link hlink u k hk with hrow | ⟨x, hx, hsevering⟩ | ⟨l, hl, cmd, hcmd, hop⟩
    · rcases ha.rows a u k ((hkept.links a link hlink).callbacks u k hk) hrow with hrow | hun
      · exact Or.inl hrow
      · exact Or.inr (Or.inl ⟨pc', .head _, unregistering_severing hun⟩)
    · right
      rcases List.mem_cons.mp hx with rfl | hx
      · rcases ha.severs a u hsevering with hsevering | hdown | hpending
        · exact Or.inl ⟨pc', .head _, hsevering⟩
        · rw [hdown] at hlink'
          cases hlink'
        · exact Or.inr hpending
      · exact Or.inl ⟨x, .tail _ hx, hsevering⟩
    · obtain rfl := Option.some.inj (hlink.symm.trans hl)
      exact Or.inr (Or.inr ⟨link', hlink', cmd, hsubset hcmd, hop⟩)
  · intro a u c hc
    rcases ha.entries a u c hc with ⟨hc, hnot⟩ | ⟨device, caller, rfl, rfl, rfl⟩
    · rcases h.entries a u c hc with hrow | ⟨x, hx, hun⟩
      · rcases ha.rows a u c.id (hkept.entries a u c hc) hrow with hrow | hun
        · exact Or.inl hrow
        · exact Or.inr ⟨pc', .head _, hun⟩
      · rcases List.mem_cons.mp hx with rfl | hx
        · rw [hnot] at hun
          cases hun
        · exact Or.inr ⟨x, .tail _ hx, hun⟩
    · rcases hregister device c caller rfl with hrow | ⟨x, hx, hun⟩
      · rcases ha.rows _ _ _ (hcarries.isWanted (device, c) (.head _)) hrow with hrow | hun
        · exact Or.inl hrow
        · exact Or.inr ⟨pc', .head _, hun⟩
      · exact Or.inr ⟨x, .tail _ hx, hun⟩

/-- The link of one address is replaced. -/
theorem setLink {threads : List ChannelPc} (h : Ghostless s threads) {a : Address}
    {new : Option SequentialPeripheral}
    (hawaited : ∀ link ∈ new, ∀ cmd ∈ link.pending, ∀ u, cmd.op = .unsubscribe u →
      ∃ device, .awaitUnsubscribe device cmd.future ∈ threads ∧ device.address = a)
    (hcallbacks : ∀ link ∈ new, ∀ u k, link.callbacks u = some k →
      hasRow s.db k = true ∨ Unsubscribes (s.setLink a new) threads a u) :
    Ghostless (s.setLink a new) threads := by
  have hself : (s.setLink a new).links a = new := Function.update_self ..
  have hother : ∀ b, b ≠ a → (s.setLink a new).links b = s.links b := fun b hb =>
    Function.update_of_ne hb ..
  refine ⟨fun b link hlink => ?_, fun b link hlink u k hk => ?_, h.entries⟩
  · by_cases hb : b = a
    · subst hb
      exact hawaited link (hself ▸ hlink)
    · exact h.awaited b link (hother b hb ▸ hlink)
  · by_cases hb : b = a
    · subst hb
      exact hcallbacks link (hself ▸ hlink) u k hk
    · refine (h.callbacks b link (hother b hb ▸ hlink) u k hk).imp_right fun hu => ?_
      rcases hu with hsevering | ⟨l, hl, hpending⟩
      · exact Or.inl hsevering
      · exact Or.inr ⟨l, (hother b hb).trans hl, hpending⟩

/-- A command is executed in time. -/
theorem execute {threads : List ChannelPc} (h : Ghostless s threads) {a : Address}
    {link link' : SequentialPeripheral} {reply : PeripheralReply}
    (hlink : s.links a = some link) (he : link.executeNext reply = some link')
    (hsubscribe : ∀ cmd ∈ link.pending.head?, ∀ u k, cmd.op = .subscribe u k →
      reply.accepts = true → hasRow s.db k = true ∨ Unsubscribes s threads a u)
    (hunsubscribe : ∀ cmd ∈ link.pending.head?, ∀ u, cmd.op = .unsubscribe u →
      reply.removes = true ∨ ∀ k, link.callbacks u = some k → hasRow s.db k = true) :
    Ghostless (s.setLink a (some link')) threads := by
  obtain ⟨cmd, rest, hq, hrest, -, hcallbacks⟩ := SequentialPeripheral.executeNext_spec he
  have hhead : cmd ∈ link.pending.head? := by rw [hq]; rfl
  have hself : (s.setLink a (some link')).links a = some link' := Function.update_self ..
  -- an unsubscribe that is not executed now is still to come
  have hstays : ∀ u, cmd.op ≠ .unsubscribe u → Unsubscribes s threads a u →
      Unsubscribes (s.setLink a (some link')) threads a u := by
    rintro u hne (hsevering | ⟨l, hl, c, hc, hop⟩)
    · exact Or.inl hsevering
    · obtain rfl := Option.some.inj (hlink.symm.trans hl)
      rw [hq] at hc
      rcases List.mem_cons.mp hc with rfl | hc
      · exact absurd hop hne
      · exact Or.inr ⟨link', hself, c, hrest ▸ hc, hop⟩
  refine h.setLink (fun l hl c hc u hop => ?_) fun l hl u k hk => ?_
  · obtain rfl := Option.some.inj hl
    exact h.awaited a link hlink c (hq ▸ .tail _ (hrest ▸ hc)) u hop
  · obtain rfl := Option.some.inj hl
    rw [hcallbacks] at hk
    rcases SequentialPeripheral.callbacks_of_execute hk with hold | ⟨hop, haccepts⟩
    · by_cases hun : cmd.op = .unsubscribe u
      · rcases hunsubscribe cmd hhead u hun with hremoves | hrow
        · rw [SequentialPeripheral.execute_callbacks, hun] at hk
          simp [hremoves] at hk
        · exact Or.inl (hrow k hold)
      · exact (h.callbacks a link hlink u k hold).imp_right (hstays u hun)
    · exact (hsubscribe cmd hhead u k hop haccepts).imp_right (hstays u (by simp [hop]))

end Ghostless

/-- A delete that goes on has its unsubscribe executed, or has run out of time. -/
theorem awaitUnsubscribe_ends {device : Device} {future : FutureId} {ending : Ending}
    (hkept : HostKept s)
    (h : ChannelPc.advance s (.awaitUnsubscribe device future) ending = some (s', pc')) :
    ending = .timesOut ∨ ∀ link, s.links device.address = some link →
      ∀ cmd ∈ link.pending, cmd.future ≠ future := by
  cases ending with
  | timesOut => exact Or.inl rfl
  | touched | raises => cases h
  | returns =>
    obtain ⟨outcome, hresult, -⟩ := Option.map_eq_some_iff.mp h
    refine Or.inr fun link hlink cmd hcmd hfuture => ?_
    rw [ChannelHost.result, hlink, Option.bind_some, ← hfuture,
      (hkept.links _ link hlink).waiting hcmd] at hresult
    cases hresult

end Steps

theorem unsubscribes_iff {p : ChannelThreads} {a : Address} {u : Uuid} :
    p.unsubscribes a u = true ↔ Unsubscribes p.shared p.threads a u := by
  simp only [ChannelThreads.unsubscribes, Unsubscribes, Bool.or_eq_true, List.any_eq_true,
    Option.any_eq_true, decide_eq_true_eq]

namespace Ghostless
variable {p p' : ChannelThreads}

theorem spawn (h : Ghostless p.shared p.threads) (pc : ChannelPc) :
    Ghostless p.shared (p.spawn pc).threads := by
  have hsub : p.threads ⊆ (p.spawn pc).threads := List.subset_append_left _ _
  refine ⟨fun a link hlink cmd hcmd u hop => ?_, fun a link hlink u k hk => ?_,
    fun a u c hc => ?_⟩
  · obtain ⟨device, hmem, haddr⟩ := h.awaited a link hlink cmd hcmd u hop
    exact ⟨device, hsub hmem, haddr⟩
  · exact (h.callbacks a link hlink u k hk).imp_right fun hu => hu.mono hsub rfl
  · exact (h.entries a u c hc).imp_right fun ⟨x, hx, hun⟩ => ⟨x, hsub hx, hun⟩

theorem thread (h : Ghostless p.shared p.threads) (hrows : RowsKept p)
    (hkept : HostKept p.shared) {i : ℕ} {ending : Ending}
    (hok : subscribesInTime p (.thread i ending) = true)
    (hs : p.step ChannelPc.advance i ending = some p') : Ghostless p'.shared p'.threads := by
  obtain ⟨pc, pc', rest, hget, ha, hperm, hperm'⟩ := Pool.step_focus hs
  have hc := hrows.carries pc (List.mem_of_getElem? hget)
  refine ((h.perm hperm).advances (.of_moves (advance_moves ha) hrows.valid hc) ?_ ?_ hkept
    hc).perm hperm'.symm
  · rintro device future rfl
    rcases awaitUnsubscribe_ends hkept ha with rfl | hanswered
    · intro link hlink cmd hcmd hfuture
      simp only [subscribesInTime, hget, hlink, Option.any_some, Bool.not_eq_true',
        List.any_eq_false, decide_eq_true_eq] at hok
      exact hok cmd hcmd hfuture
    · exact hanswered
  · rintro device channel caller rfl
    cases ending with
    | touched | raises | timesOut => cases ha
    | returns =>
      simp only [subscribesInTime, hget, Bool.or_eq_true, List.any_eq_true] at hok
      refine hok.imp_right fun ⟨x, hx, hun⟩ => ?_
      rcases List.mem_cons.mp (hperm.subset hx) with rfl | hx
      · cases hun
      · exact ⟨x, hx, hun⟩

theorem of_run (h : channelThreads.Run (fun p e => subscribesInTime p e = true) p) :
    Ghostless p.shared p.threads := by
  refine System.Run.invariant_from
    (P := fun p : ChannelThreads => Ghostless p.shared p.threads) ?_ ?_ h
  · rintro p ⟨-, -, -, hs⟩
    rw [hs]
    constructor
    · intro a link hlink
      cases hlink
    · intro a link hlink
      cases hlink
    · intro a u c hc
      cases hc
  · intro p e p' hrun hp hok hs
    have hrows := RowsKept.of_reachable hrun.reachable
    have hkept := HostKept.of_reachable hrun.reachable
    cases e with
    | addChannel | deleteChannel | monitorTick =>
      cases Option.some.inj hs
      exact hp.spawn _
    | thread i ending => exact hp.thread hrows hkept hok hs
    | execute address reply =>
      obtain ⟨link, hlink, hs⟩ := Option.bind_eq_some_iff.mp hs
      obtain ⟨link', he, rfl⟩ := Option.map_eq_some_iff.mp hs
      refine hp.execute hlink he (fun cmd hcmd u k hop haccepts => ?_) fun cmd hcmd u hop => ?_
      · obtain ⟨op, future⟩ := cmd
        obtain rfl : op = _ := hop
        simp only [subscribesInTime, hlink, Option.all_some, Option.mem_def.mp hcmd, haccepts,
          Bool.not_true, Bool.false_or, Bool.or_eq_true] at hok
        exact hok.imp_right unsubscribes_iff.mp
      · obtain ⟨op, future⟩ := cmd
        obtain rfl : op = _ := hop
        simp only [subscribesInTime, hlink, Option.all_some, Option.mem_def.mp hcmd,
          Bool.or_eq_true, Option.all_eq_true] at hok
        exact hok
    | comeUp address =>
      simp only [channelThreads] at hs
      split at hs <;> cases hs
      refine hp.setLink (fun link hlink => ?_) fun link hlink u k hk => ?_
      · obtain rfl := Option.some.inj hlink
        exact List.forall_mem_nil _
      · obtain rfl := Option.some.inj hlink
        cases hk
    | drop address =>
      cases Option.some.inj hs
      refine hp.setLink (fun link hlink => ?_) fun link hlink => ?_
      · cases hlink
      · cases hlink
    | createDevice ownerUserId address name addrType =>
      simp only [channelThreads] at hs
      split at hs <;> cases hs
      rename_i hcreate
      obtain ⟨-, -, rfl⟩ := Devices.create_ok hcreate
      exact ⟨hp.awaited, hp.callbacks, hp.entries⟩
    | deleteDevice deviceId => cases hok

end Ghostless
/-- Once all requests and ticks have finished, no callback and no entry of `_subscribed` is left
of a channel that is not in the tables. -/
theorem no_ghost_subscription {p : ChannelThreads}
    (h : channelThreads.Run (fun p e => subscribesInTime p e = true) p)
    (hfinished : ∀ pc ∈ p.threads, pc.hasFinished = true) :
    (∀ a link, p.shared.links a = some link → ∀ u k, link.callbacks u = some k →
      hasRow p.shared.db k = true) ∧
    ∀ a u c, p.shared.subscribed (a, u) = some c → hasRow p.shared.db c.id = true := by
  have hghostless := Ghostless.of_run h
  have hnone : ∀ pc ∈ p.threads, ∃ raised, pc = .finished raised := by
    intro pc hpc
    have hpc := hfinished pc hpc
    cases pc with
    | finished raised => exact ⟨raised, rfl⟩
    | _ => cases hpc
  refine ⟨fun a link hlink u k hk => ?_, fun a u c hc => ?_⟩
  · rcases hghostless.callbacks a link hlink u k hk with hrow | ⟨pc, hpc, hsevering⟩ |
      ⟨l, hl, cmd, hcmd, hop⟩
    · exact hrow
    · obtain ⟨raised, rfl⟩ := hnone pc hpc
      cases hsevering
    · obtain ⟨device, hmem, -⟩ := hghostless.awaited a l hl cmd hcmd u hop
      obtain ⟨raised, hraised⟩ := hnone _ hmem
      cases hraised
  · rcases hghostless.entries a u c hc with hrow | ⟨pc, hpc, hun⟩
    · exact hrow
    · obtain ⟨raised, rfl⟩ := hnone pc hpc
      cases hun

def replied : PeripheralReply := ⟨.ok true, .ok []⟩

def tickBegun : List ChannelEvent :=
  sensorRegistered ++ .addChannel 1 ⟨"indoor", sensorPreset⟩ :: proceeds 0 5 ++
    .comeUp sensorAddress :: .monitorTick :: proceeds 1 4

def tickEnded : List ChannelEvent :=
  .thread 1 .returns :: .execute sensorAddress replied :: proceeds 1 4

def channelDeleted : List ChannelEvent :=
  .deleteChannel 1 :: proceeds 2 6 ++ [.execute sensorAddress replied, .thread 2 .returns]

theorem no_ghost_subscription_sensor : ∃ p : ChannelThreads,
    p.threads.length = 3 ∧ (p.shared.links sensorAddress).isSome = true ∧
    (∀ link, p.shared.links sensorAddress = some link → ∀ u, link.callbacks u = none) ∧
    ∀ a u, p.shared.subscribed (a, u) = none := by
  obtain ⟨p, hrun, hp⟩ := System.exists_run_of_replay subscribesInTime freshChannels_init
    (tickBegun ++ tickEnded ++ channelDeleted)
    (p := fun p => decide (p.threads.length = 3) && p.threads.all ChannelPc.hasFinished &&
      (p.shared.links sensorAddress).isSome && p.shared.db.channels.isEmpty) (by decide +kernel)
  simp only [Bool.and_eq_true, decide_eq_true_eq, List.all_eq_true, List.isEmpty_iff] at hp
  obtain ⟨⟨⟨hlen, hfinished⟩, hup⟩, hempty⟩ := hp
  have hnorow : ∀ k, hasRow p.shared.db k = false := fun k => by simp [hasRow, hempty]
  obtain ⟨hcallbacks, hentries⟩ := no_ghost_subscription hrun hfinished
  refine ⟨p, hlen, hup, fun link hlink u => ?_, fun a u => ?_⟩
  · by_contra hsome
    obtain ⟨k, hk⟩ := Option.ne_none_iff_exists'.mp hsome
    simpa [hnorow] using hcallbacks _ link hlink u k hk
  · by_contra hsome
    obtain ⟨c, hc⟩ := Option.ne_none_iff_exists'.mp hsome
    simpa [hnorow] using hentries a u c hc

/-- The channel is deleted after the tick has listed it, and subscribed by the tick afterwards:
callback and entry stay. -/
theorem ghost_subscription : ∃ p : ChannelThreads, channelThreads.Reachable p ∧
    (∀ pc ∈ p.threads, pc.hasFinished = true) ∧
    (¬∀ a link, p.shared.links a = some link → ∀ u k, link.callbacks u = some k →
      hasRow p.shared.db k = true) ∧
    ¬∀ a u c, p.shared.subscribed (a, u) = some c → hasRow p.shared.db c.id = true := by
  obtain ⟨p, hrun, hp⟩ := System.exists_reachable_of_replay freshChannels_init
    (tickBegun ++ channelDeleted ++ tickEnded)
    (p := fun p => p.threads.all ChannelPc.hasFinished &&
      ((p.shared.links sensorAddress).any fun link => link.callbacks "2a6e" = some 1) &&
      ((p.shared.subscribed (sensorAddress, "2a6e")).any fun c => c.id = 1) &&
      p.shared.db.channels.isEmpty) (by decide +kernel)
  simp only [Bool.and_eq_true, decide_eq_true_eq, List.all_eq_true, List.isEmpty_iff,
    Option.any_eq_true] at hp
  obtain ⟨⟨⟨hfinished, link, hlink, hcallback⟩, c, hc, -⟩, hempty⟩ := hp
  have hnorow : ∀ k, hasRow p.shared.db k = false := fun k => by simp [hasRow, hempty]
  refine ⟨p, hrun, hfinished, fun hall => ?_, fun hall => ?_⟩
  · simpa [hnorow] using hall sensorAddress link hlink "2a6e" 1 hcallback
  · simpa [hnorow] using hall sensorAddress "2a6e" c hc

end HomeServer.Services
