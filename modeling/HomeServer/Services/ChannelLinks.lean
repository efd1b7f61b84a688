import HomeServer.Services.ChannelRows

/-! Every subscribe that waits in the queue of a link, every callback and every entry of
`_subscribed` comes from a display channel that was read. -/
namespace HomeServer.Services
open HomeServer.Db HomeServer.Ble HomeServer.Lib

def Wanted (db : Database) (address : Address) (charUuid : Uuid) (channelId : ℕ) : Prop :=
  ∃ device channel, Targets db device ∧ Held db device channel ∧ channel.type = .display ∧
    device.address = address ∧ channel.charUuid = charUuid ∧ channel.id = channelId

def hasRow (db : Database) (channelId : ℕ) : Bool := db.channels.any fun c => c.id = channelId

/-- A link whose commands have futures of their own, below `next`. -/
structure LinkKept (db : Database) (next : FutureId) (address : Address)
    (link : SequentialPeripheral) : Prop where
  futures : link.futures.Nodup
  below : ∀ f ∈ link.futures, f < next
  queued : ∀ cmd ∈ link.pending, ∀ u k, cmd.op = .subscribe u k → Wanted db address u k
  callbacks : ∀ u k, link.callbacks u = some k → Wanted db address u k

structure HostKept (s : ChannelHost) : Prop where
  links : ∀ a link, s.links a = some link → LinkKept s.db s.nextFuture a link
  entries : ∀ a u c, s.subscribed (a, u) = some c → Wanted s.db a u c.id

section Steps
variable {db db' : Database} {s s' : ChannelHost} {pc pc' : ChannelPc} {a : Address} {u : Uuid}
  {k : ℕ} {next next' : FutureId} {link link' : SequentialPeripheral}

theorem Wanted.later (h : Wanted db a u k) (hl : db.Later db') : Wanted db' a u k := by
  obtain ⟨device, channel, ht, hheld, rest⟩ := h
  exact ⟨device, channel, ht.later hl, hheld.later hl, rest⟩

theorem wanted_devices {x : Device × Channel} (h : x ∈ pc.wanted) : x.1 ∈ pc.devices := by
  cases pc with
  | addLinked device channel => exact List.mem_singleton.mp h ▸ .head _
  | subscribe device channel caller | register device channel caller
  | awaitSubscribe device channel future caller =>
    rcases List.mem_cons.mp h with rfl | h
    · exact .head _
    · obtain ⟨c, -, rfl⟩ := List.mem_map.mp h
      exact .head _
  | tickNext device channels devices =>
    obtain ⟨c, -, rfl⟩ := List.mem_map.mp h
    exact .head _
  | _ => cases h

theorem Carries.isWanted (h : Carries db pc) :
    ∀ x ∈ pc.wanted, Wanted db x.1.address x.2.charUuid x.2.id := by
  intro x hx
  obtain ⟨hheld, hdisp⟩ := h.wanted x hx
  exact ⟨x.1, x.2, h.devices x.1 (wanted_devices hx), hheld, hdisp, rfl, rfl, rfl⟩

namespace LinkKept

theorem later (h : LinkKept db next a link) (hl : db.Later db') (hn : next ≤ next') :
    LinkKept db' next' a link := by
  refine ⟨h.futures, fun f hf => ?_, fun cmd hcmd u k hop => ?_, fun u k hk => ?_⟩
  · exact (h.below f hf).trans_le hn
  · exact (h.queued cmd hcmd u k hop).later hl
  · exact (h.callbacks u k hk).later hl

theorem fresh : LinkKept db next a { address := a } := by
  refine ⟨List.nodup_nil, ?_, ?_, ?_⟩
  · exact List.forall_mem_nil _
  · exact List.forall_mem_nil _
  · intro u k hk
    cases hk

theorem submit (h : LinkKept db next a link) {op : Op}
    (hop : ∀ u k, op = .subscribe u k → Wanted db a u k) :
    LinkKept db (next + 1) a (link.submit ⟨op, next⟩) := by
  refine ⟨?_, ?_, fun cmd hcmd u k hsub => ?_, h.callbacks⟩
  · rw [SequentialPeripheral.submit_futures]
    have hnew : ∀ f ∈ link.futures, f ≠ next := fun f hf => (h.below f hf).ne
    simpa [List.nodup_append] using ⟨h.futures, hnew⟩
  · rw [SequentialPeripheral.submit_futures]
    intro f hf
    rcases List.mem_append.mp hf with hf | hf
    · exact (h.below f hf).trans (Nat.lt_succ_self next)
    · rw [List.mem_singleton.mp hf]
      exact Nat.lt_succ_self next
  · rcases List.mem_append.mp hcmd with hcmd | hcmd
    · exact h.queued cmd hcmd u k hsub
    · rw [List.mem_singleton.mp hcmd] at hsub
      exact hop u k hsub

theorem executeNext (h : LinkKept db next a link) {reply : PeripheralReply}
    (he : link.executeNext reply = some link') : LinkKept db next a link' := by
  obtain ⟨cmd, rest, hq, hrest, hfutures, hcallbacks⟩ := SequentialPeripheral.executeNext_spec he
  have hpending : ∀ c ∈ rest, c ∈ link.pending := fun c hc => hq ▸ .tail _ hc
  refine ⟨hfutures ▸ h.futures, hfutures ▸ h.below, fun c hc u k hop => ?_, fun u k hk => ?_⟩
  · exact h.queued c (hpending c (hrest ▸ hc)) u k hop
  · rw [hcallbacks] at hk
    rcases SequentialPeripheral.callbacks_of_execute hk with hold | ⟨hop, -⟩
    · exact h.callbacks u k hold
    · exact h.queued cmd (hq ▸ .head _) u k hop

theorem waiting (h : LinkKept db next a link) {cmd : Cmd} (hcmd : cmd ∈ link.pending) :
    link.results.lookup cmd.future = none := by
  have hdisjoint := (List.nodup_append.mp h.futures).2.2
  rw [List.lookup_eq_none_iff]
  intro x hx
  have hne := hdisjoint x.1 (List.mem_map_of_mem hx) cmd.future (List.mem_map_of_mem hcmd)
  simpa using hne.symm

end LinkKept

namespace HostKept

theorem later (h : HostKept s) (hl : s.db.Later db') : HostKept { s with db := db' } :=
  ⟨fun a link hlink => (h.links a link hlink).later hl le_rfl,
    fun a u c hc => (h.entries a u c hc).later hl⟩

theorem setLink (h : HostKept s) {link : Option SequentialPeripheral}
    (hlink : ∀ link' ∈ link, LinkKept s.db s.nextFuture a link') :
    HostKept (s.setLink a link) := by
  refine ⟨fun b link' hb => ?_, h.entries⟩
  by_cases hab : b = a
  · subst hab
    simp only [ChannelHost.setLink, Function.update_self] at hb
    exact hlink link' hb
  · simp only [ChannelHost.setLink, Function.update_of_ne hab] at hb
    exact h.links b link' hb

theorem setSubscribed (h : HostKept s) {channel : Option Channel}
    (hchannel : ∀ c ∈ channel, Wanted s.db a u c.id) :
    HostKept (s.setSubscribed a u channel) := by
  refine ⟨h.links, fun b v c hc => ?_⟩
  by_cases hab : (b, v) = (a, u)
  · cases hab
    simp only [ChannelHost.setSubscribed, Function.update_self] at hc
    exact hchannel c hc
  · simp only [ChannelHost.setSubscribed, Function.update_of_ne hab] at hc
    exact h.entries b v c hc

theorem submit (h : HostKept s) (hlink : s.links a = some link) {op : Op}
    (hop : ∀ u k, op = .subscribe u k → Wanted s.db a u k) : HostKept (s.submit a link op) := by
  have hnext : HostKept { s with nextFuture := s.nextFuture + 1 } :=
    ⟨fun b l hl => (h.links b l hl).later (.refl _) (Nat.le_succ _), h.entries⟩
  have hnew := (h.links a link hlink).submit hop
  have hset : HostKept (ChannelHost.setLink { s with nextFuture := s.nextFuture + 1 } a
      (some (link.submit ⟨op, s.nextFuture⟩))) :=
    hnext.setLink fun l hl => Option.some.inj hl ▸ hnew
  exact hset

/-- What is subscribed by a thread is what it wants. -/
theorem moves (h : HostKept s) (hc : Carries s.db pc) (hm : ChannelPc.Moves s pc s' pc') :
    HostKept s' := by
  cases hm with
  | subscribe device channel caller p hlink =>
    refine h.submit hlink fun u k hop => ?_
    cases hop
    exact hc.isWanted (device, channel) (.head _)
  | register device channel caller =>
    refine h.setSubscribed fun c hchannel => ?_
    obtain rfl := Option.some.inj hchannel
    exact hc.isWanted (device, channel) (.head _)
  | unregister device channel => exact h.setSubscribed fun c hc => nomatch hc
  | unsubscribe device channel p hlink => exact h.submit hlink fun u k hop => nomatch hop
  | addInsert device new i db hcreate => exact h.later (.channelCreate hcreate)
  | deleteRow device channel db hdelete => exact h.later (.channelDelete hdelete)
  | _ => exact ⟨h.links, h.entries⟩

theorem of_reachable {p : ChannelThreads} (h : channelThreads.Reachable p) : HostKept p.shared := by
  refine System.Run.invariant_from (P := fun p : ChannelThreads => HostKept p.shared) ?_ ?_ h
  · rintro p ⟨-, -, -, hs⟩
    rw [hs]
    constructor
    · intro a link hlink
      cases hlink
    · intro a u c hc
      cases hc
  · intro p e p' hrun hp _ hs
    cases e with
    | addChannel | deleteChannel | monitorTick =>
      cases Option.some.inj hs
      exact hp
    | thread i ending =>
      obtain ⟨pc, pc', rest, hget, ha, -, -⟩ := Pool.step_focus hs
      have hc := (RowsKept.of_reachable hrun).carries pc (List.mem_of_getElem? hget)
      exact hp.moves hc (ChannelPc.advance_moves ha)
    | execute address reply =>
      obtain ⟨link, hlink, hs⟩ := Option.bind_eq_some_iff.mp hs
      obtain ⟨link', he, rfl⟩ := Option.map_eq_some_iff.mp hs
      refine hp.setLink fun l hl => ?_
      exact Option.some.inj hl ▸ (hp.links address link hlink).executeNext he
    | comeUp address =>
      simp only [channelThreads] at hs
      split at hs <;> cases hs
      exact hp.setLink fun l hl => Option.some.inj hl ▸ .fresh
    | drop address =>
      cases Option.some.inj hs
      refine hp.setLink fun l hl => ?_
      cases hl
    | createDevice ownerUserId address name addrType =>
      simp only [channelThreads] at hs
      split at hs <;> cases hs
      rename_i hcreate
      exact hp.later (.deviceCreate hcreate)
    | deleteDevice deviceId =>
      simp only [channelThreads] at hs
      split at hs <;> cases hs
      rename_i hdelete
      exact hp.later (.deviceDelete hdelete)

end HostKept
end Steps
end HomeServer.Services
