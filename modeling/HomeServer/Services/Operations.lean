import HomeServer.Lib.Transition
import HomeServer.Services.Subscriptions

/-! Whole operations of the server in any order, with links that change at any moment: the
invariant of the subscriptions is kept by each of them. -/
namespace HomeServer.Services
open HomeServer.Db HomeServer.Ble HomeServer.Lib

inductive Operation
  | link (e : LinkEvent)
  | activate (pending : List Address) (script : List Moment)
  | tick (now : ℚ) (script : List Moment)
  | addChannel (presets : List ChannelPreset) (deviceId : ℕ) (name preset : String)
      (script : List Moment)
  | deleteChannel (channelId : ℕ) (script : List Moment)
  | addDevice (ownerUserId : ℕ) (address : Address) (name : String) (addrType : Option AddrType)
      (pending : Bool) (script : List Moment)
  | removeDevice (deviceId : ℕ) (script : List Moment)
  | scanWindow (script : List Moment)

namespace Operation

/-- The addresses whose `connect` in this operation times out, its attempt still in flight. -/
def pending : Operation → List Address
  | .activate pending _ => pending
  | .addDevice _ address _ _ true _ => [address]
  | _ => []

def script : Operation → List Moment
  | .link _ => []
  | .activate _ script | .tick _ script | .addChannel _ _ _ _ script | .deleteChannel _ script
  | .addDevice _ _ _ _ _ script | .removeDevice _ script | .scanWindow script => script

/-- Of a scan window only `_disconnect_all` concerns the links. -/
def program : Operation → Runtime Links Unit
  | .link e => modify fun w => { w with outside := w.outside.after e }
  | .activate _ _ => BleRuntime.activate linksEnv
  | .tick now _ => BleRuntime.monitorTick linksEnv now
  | .addChannel presets deviceId name preset _ => do
    let _ ← Web.addChannel linksEnv presets deviceId name preset
  | .deleteChannel channelId _ => do
    let _ ← Web.deleteChannel linksEnv channelId
  | .addDevice ownerUserId address name addrType _ _ => do
    let _ ← DeviceService.addDevice linksEnv ownerUserId address name addrType
  | .removeDevice deviceId _ => DeviceService.removeDevice linksEnv deviceId
  | .scanWindow _ => BleRuntime.disconnectAll linksEnv

def prepare (w : World Links) (op : Operation) : World Links :=
  { w with
    trace := []
    outside := { w.outside with pending := op.pending, drops := [], script := op.script } }

/-- An operation that raises leaves what it had done. -/
def perform (w : World Links) (op : Operation) : Except Err Unit × World Links :=
  op.program.exec (prepare w op)

end Operation

def UuidsDistinct (db : Database) : Prop :=
  (db.channels.map fun c => (c.deviceId, c.charUuid)).Nodup

/-- A server starts with no link and an empty monitor, over the tables it left. -/
def operations : System (World Links) Operation where
  init w := w.db.Valid ∧ UuidsDistinct w.db ∧ (∀ a, w.monitor a = none) ∧
    ∀ a, w.outside.link a = .down
  step w op := some (op.perform w).2

/-- No `connect` leaves its attempt in flight while the monitor holds the display channels of
that address to be subscribed. -/
def attemptsUnmarked (w : World Links) (op : Operation) : Bool :=
  op.pending.all fun a => !marked w a

structure Consistent (w : World Links) : Prop where
  valid : w.db.Valid
  uuids : UuidsDistinct w.db
  good : ∀ a, Good (w.outside.link a) (marked w a) (Displays w.db a)

theorem Displays.listed {db : Database} (hv : db.Valid) {d : Device} (hd : d ∈ db.devices)
    (u : Uuid) : Displays db d.address u ↔ Listed db d u := by
  unfold Displays Listed Channels.listByDevice
  constructor
  · rintro ⟨d', hd', ha, c, hc, hcd, htype, rfl⟩
    obtain rfl := hv.eq_of_address hd' hd ha
    exact ⟨c, List.mem_filter.mpr ⟨hc, by simpa using hcd⟩, htype, rfl⟩
  · rintro ⟨c, hc, htype, rfl⟩
    obtain ⟨hc, hcd⟩ := List.mem_filter.mp hc
    exact ⟨d, hd, rfl, c, hc, by simpa using hcd, htype, rfl⟩

theorem marked_congr {w w' : World Links} {b : Address} (h : w'.monitor b = w.monitor b) :
    marked w' b = marked w b := by
  unfold marked
  rw [h]

/-- An operation step at `a` that keeps the rows has only the invariant of `a` to restore. -/
theorem Consistent.of_local {a : Address} {w w' : World Links} (h : Consistent w)
    (hrows : SameRows w.db w'.db) (hloc : Local a w w')
    (hgood : Good (w'.outside.link a) (marked w' a) (Displays w'.db a)) : Consistent w' := by
  refine ⟨hrows.valid h.valid, ?_, fun b => ?_⟩
  · unfold UuidsDistinct
    rw [hrows.channels]
    exact h.uuids
  · by_cases hb : b = a
    · exact hb ▸ hgood
    · rw [marked_congr (hloc.monitor b hb)]
      exact ((h.good b).congr fun u => hrows.displays b u).evolved (hloc.links.other b hb)

theorem Consistent.evolved {w w' : World Links} (h : Consistent w) (hdb : w'.db = w.db)
    (hm : w'.monitor = w.monitor)
    (hl : ∀ b, Links.EvolvedAt b w.outside w'.outside) : Consistent w' := by
  refine ⟨hdb ▸ h.valid, hdb ▸ h.uuids, fun b => ?_⟩
  rw [marked_congr (congrFun hm b), hdb]
  exact (h.good b).evolved (hl b)

theorem consistent_prepare {w : World Links} (h : Consistent w) (op : Operation) :
    Consistent (op.prepare w) :=
  ⟨h.valid, h.uuids, h.good⟩

theorem SameRows.listed {db db' : Database} (h : SameRows db db') (d : Device) (u : Uuid) :
    Listed db d u ↔ Listed db' d u := by
  unfold Listed Channels.listByDevice
  rw [h.channels]

theorem link_consistent {w : World Links} (h : Consistent w) (e : LinkEvent) :
    Consistent { w with outside := w.outside.after e } :=
  h.evolved rfl rfl fun b => Links.evolvedAt_after b w.outside e

theorem isUp_of_evolved {b : Address} {l l' : Links} (he : Links.EvolvedAt b l l')
    (hup : (l.link b).isUp = true) (hkept : b ∉ l'.drops) : (l'.link b).isUp = true := by
  rcases he.link with hs | ⟨-, hin⟩ | ⟨ha, -⟩
  · rw [hs]
    exact hup
  · exact absurd (hin hup) hkept
  · rw [ha] at hup
    cases hup

namespace BleRuntime

theorem consistent_pruned {w : World Links} (h : Consistent w) : Consistent (pruned w) := by
  refine ⟨h.valid, h.uuids, fun b => ?_⟩
  change Good (w.outside.link b) (marked (pruned w) b) (Displays w.db b)
  by_cases hb : w.db.devices.any (fun d => d.address = b) = true
  · rw [marked_congr (w := w) (if_pos hb)]
    exact h.good b
  · have hnone : (pruned w).monitor b = none := if_neg hb
    have hunmarked : marked (pruned w) b = false := by
      unfold marked
      rw [hnone]
      rfl
    rw [hunmarked]
    exact (h.good b).unmark

/-- A tick that completes marks every device whose link it found up and that did not drop. -/
theorem monitorTick_links {w : World Links} (h : Consistent w) (now : ℚ) :
    (monitorTick linksEnv now).After
      (fun r w' => Consistent w' ∧ SameRows w.db w'.db ∧
        (r = .ok () → ∀ d ∈ w.db.devices, (w.outside.link d.address).isUp = true →
          d.address ∉ w'.outside.drops →
          (w'.outside.link d.address).isUp = true ∧ marked w' d.address = true)) w := by
  have hpruned := consistent_pruned h
  unfold monitorTick openConn
  rw [Action.after_bind, after_query_links, Action.then_ok, Action.after_bind, after_query_links,
    Action.then_ok, Action.after_bind, Action.after_modify, Action.then_ok]
  change Action.After _ _ (pruned w)
  refine Action.after_forM (fun xs w₁ => (∀ x ∈ xs, x ∈ w.db.devices) ∧ Consistent w₁ ∧
    SameRows w.db w₁.db ∧
    ∀ d ∈ w.db.devices, (w.outside.link d.address).isUp = true →
      d.address ∉ w₁.outside.drops →
      (w₁.outside.link d.address).isUp = true ∧ (d ∉ xs → marked w₁ d.address = true))
    ?_ ?_ _ _ ⟨fun _ hx => hx, hpruned, .refl _, ?_⟩
  · rintro w₁ ⟨-, hc, hrows, hall⟩
    refine ⟨hc, hrows, fun _ d hd hup hkept => ?_⟩
    exact (hall d hd hup hkept).imp id fun hm => hm List.not_mem_nil
  · rintro x xs w₁ ⟨hmem, hc, hrows, hall⟩
    have hxmem := hmem x (.head _)
    have hD : ∀ u, Displays w₁.db x.address u ↔ Listed w₁.db x u := fun u => by
      rw [← hrows.displays, ← hrows.listed]
      exact Displays.listed h.valid hxmem u
    apply (tickDevice_links hD (hc.good x.address)).mono
    rintro r w₂ ⟨hrows₂, hloc, hgood, hsettled⟩
    have hc₂ := hc.of_local hrows₂ hloc hgood
    cases r with
    | error e => exact ⟨hc₂, hrows.trans hrows₂, fun h => nomatch h⟩
    | ok u =>
      refine ⟨fun y hy => hmem y (.tail _ hy), hc₂, hrows.trans hrows₂, ?_⟩
      intro d hd hup hkept
      obtain ⟨hup₁, hmark₁⟩ := hall d hd hup (mt (hloc.links.drops _) hkept)
      by_cases hdx : d = x
      · subst hdx
        have hs := hsettled hup₁ hkept
        exact ⟨hs.isUp hkept, fun _ => hs.marked⟩
      · have haddr : d.address ≠ x.address := fun ha => hdx (h.valid.eq_of_address hd hxmem ha)
        refine ⟨isUp_of_evolved (hloc.links.other _ haddr) hup₁ hkept, fun hnot => ?_⟩
        rw [marked_congr (hloc.monitor _ haddr)]
        exact hmark₁ (by simp [hdx, hnot])
  · intro d hd hup _
    exact ⟨hup, fun hnot => absurd hd hnot⟩

/-- `connect` returns with a link that is up, or raises with the invariant of its address. -/
theorem connect_good {a : Address} {l : Links} {m : Bool} {D : Uuid → Prop}
    (h : Good (l.link a) m D) (hpending : a ∈ l.pending → m = false) :
    ((Links.connect a l).1 = .ok () ∧ ∃ subs failed,
        (Links.connect a l).2.link a = .up subs failed ∧ ∀ u ∈ subs, D u) ∨
      ∃ e, (Links.connect a l).1 = .error e ∧ Good ((Links.connect a l).2.link a) m D := by
  have h' := h.evolved (l.evolvedAt_advance a)
  unfold Links.connect
  dsimp only
  split_ifs with hup hpend
  · obtain ⟨subs, failed, hlink⟩ := Link.exists_of_isUp hup
    rw [hlink] at h'
    exact Or.inl ⟨rfl, subs, failed, hlink, h'.1⟩
  · rw [Links.pending_advance] at hpend
    refine Or.inr ⟨_, rfl, ?_⟩
    rw [Links.set_self]
    exact hpending hpend
  · split
    · refine Or.inr ⟨_, rfl, ?_⟩
      rw [Links.set_self]
      trivial
    · exact Or.inl ⟨rfl, [], [], Links.set_self _ a _, by simp⟩

/-- A device that was brought up has all its display channels subscribed or tried. -/
theorem bringUpDevice_links {d : Device} {w : World Links}
    (hD : ∀ u, Displays w.db d.address u ↔ Listed w.db d u)
    (hgood : Good (w.outside.link d.address) (marked w d.address) (Displays w.db d.address))
    (hpending : d.address ∈ w.outside.pending → marked w d.address = false) :
    (bringUpDevice linksEnv d).After
      (fun r w' => w'.db = w.db ∧ w'.monitor = w.monitor ∧
        Links.Calls d.address w.outside w'.outside ∧
        match r with
        | .ok true => Live d.address w'.outside fun subs failed =>
            (∀ u ∈ subs, Displays w.db d.address u) ∧
              ∀ u, Displays w.db d.address u → u ∈ subs ∨ u ∈ failed
        | _ => Good (w'.outside.link d.address) (marked w d.address) (Displays w.db d.address))
      w := by
  unfold bringUpDevice
  rw [Action.after_bind, Action.after_tryCatch, Action.after_bind, after_call]
  change Action.Then _ _ (Links.connect d.address w.outside).1
    { w with outside := (Links.connect d.address w.outside).2 }
  have hcalls := Links.connect_calls d.address w.outside
  rcases connect_good hgood hpending with ⟨hok, subs, failed, hlink, hsub⟩ | ⟨e, herr, hgood'⟩
  · rw [hok, Action.then_ok, Action.after_pure, Action.else_ok, Action.then_ok, if_pos rfl,
      Action.after_bind]
    apply isConnected_links d.address _
    intro w₂ hdb₂ hm₂ hev hcalls₂
    have hcalls' := hcalls.trans hcalls₂
    rw [Action.then_ok]
    split
    · rename_i hup
      obtain ⟨subs₂, failed₂, hlink₂⟩ := Link.exists_of_isUp hup
      have hsub₂ : ∀ u ∈ subs₂, Displays w.db d.address u := by
        rcases hev.link with hs | ⟨hd, -⟩ | ⟨ha, -⟩
        · rw [hlink₂, hlink] at hs
          cases hs
          exact hsub
        · rw [hd] at hup
          cases hup
        · rw [hlink] at ha
          cases ha
      rw [Action.after_bind]
      apply (subscribeDisplayChannels_links d hlink₂).mono
      rintro r w₃ ⟨rfl, hdb₃, hm₃, hcalls₃, hlive⟩
      refine ⟨hdb₃.trans hdb₂, hm₃.trans hm₂, hcalls'.trans hcalls₃, ?_⟩
      refine hlive.mono fun subs failed h => ⟨fun u hu => ?_, fun u hu => ?_⟩
      · rcases h.1 u hu with h | h
        · exact hsub₂ u h
        · rw [hdb₂] at h
          exact (hD u).mpr h
      · apply h.2 u
        rw [hdb₂]
        exact (hD u).mp hu
    · rename_i hdown
      refine ⟨hdb₂, hm₂, hcalls', ?_⟩
      rcases hev.link with hs | ⟨hd, -⟩ | ⟨ha, -⟩
      · rw [hs, hlink] at hdown
        exact absurd rfl hdown
      · change Good (w₂.outside.link d.address) _ _
        rw [hd]
        trivial
      · rw [hlink] at ha
        cases ha
  · rw [herr, Action.then_error, Action.else_error, Action.after_pure, Action.then_ok,
      if_neg Bool.false_ne_true]
    exact ⟨rfl, rfl, hcalls, hgood'⟩

theorem activate_links {w : World Links} (h : Consistent w)
    (hpending : ∀ a ∈ w.outside.pending, marked w a = false) :
    (activate linksEnv).After (fun _ w' => Consistent w') w := by
  unfold activate openConn
  rw [Action.after_bind, after_query_links, Action.then_ok, Action.after_bind, after_query_links,
    Action.then_ok]
  refine Action.after_forM (fun xs w₁ => (∀ x ∈ xs, x ∈ w.db.devices) ∧
    (xs.map Device.address).Nodup ∧ Consistent w₁ ∧ w₁.db = w.db ∧
    w₁.outside.pending = w.outside.pending ∧
    ∀ x ∈ xs, w₁.monitor x.address = w.monitor x.address)
    (fun _ h => h.2.2.1) ?_ _ _
    ⟨fun _ hx => hx, h.valid.addresses, h, rfl, rfl, fun _ _ => rfl⟩
  rintro x xs w₁ ⟨hmem, hnodup, hc, hdb, hpend, hm⟩
  rw [List.map_cons] at hnodup
  obtain ⟨hx, hrest⟩ := List.nodup_cons.mp hnodup
  have hxmem := hmem x (.head _)
  have hD : ∀ u, Displays w₁.db x.address u ↔ Listed w₁.db x u := fun u => by
    rw [hdb]
    exact Displays.listed h.valid hxmem u
  have hmark : x.address ∈ w₁.outside.pending → marked w₁ x.address = false := fun hin => by
    rw [marked_congr (hm x (.head _))]
    exact hpending _ (hpend ▸ hin)
  rw [Action.after_bind]
  apply (bringUpDevice_links hD (hc.good x.address) hmark).mono
  rintro r w₂ ⟨hdb₂, hm₂, hcalls, hres⟩
  have hloc : Local x.address w₁ w₂ := ⟨fun b _ => by rw [hm₂], hcalls⟩
  have hrows : SameRows w₁.db w₂.db := hdb₂ ▸ .refl _
  have hmark₂ : marked w₂ x.address = marked w₁ x.address := marked_congr (congrFun hm₂ _)
  have hother : ∀ y ∈ xs, y.address ≠ x.address := fun y hy ha =>
    hx (ha ▸ List.mem_map_of_mem hy)
  cases r with
  | error e =>
    apply hc.of_local hrows hloc
    rw [hmark₂, hdb₂]
    exact hres
  | ok brought =>
    rw [Action.then_ok]
    cases brought with
    | false =>
      have hc₂ : Consistent w₂ := by
        apply hc.of_local hrows hloc
        rw [hmark₂, hdb₂]
        exact hres
      rw [if_neg Bool.false_ne_true, Action.after_pure, Action.then_ok]
      exact ⟨fun y hy => hmem y (.tail _ hy), hrest, hc₂, hdb₂.trans hdb,
        hcalls.pending.trans hpend, fun y hy => by rw [hm₂]; exact hm y (.tail _ hy)⟩
    | true =>
      rw [if_pos rfl, Action.after_modify, Action.then_ok]
      have hloc' := hloc.trans (local_set x.address w₂ { subscribed := true })
      have hsettled : Settled x.address { w₂ with
          monitor := Function.update w₂.monitor x.address (some { subscribed := true }) } := by
        refine ⟨marked_set _ _ _, ?_⟩
        change Live _ _ fun subs failed => (∀ u ∈ subs, Displays w₂.db x.address u) ∧
          ∀ u, Displays w₂.db x.address u → u ∈ subs ∨ u ∈ failed
        rw [hdb₂]
        exact hres
      refine ⟨fun y hy => hmem y (.tail _ hy), hrest, hc.of_local hrows hloc' hsettled.good,
        hdb₂.trans hdb, hcalls.pending.trans hpend, fun y hy => ?_⟩
      change Function.update w₂.monitor x.address _ y.address = _
      rw [Function.update_of_ne (hother y hy), hm₂]
      exact hm y (.tail _ hy)

theorem disconnect_links {w : World Links} (h : Consistent w) (a : Address) :
    (call (linksEnv.ble.disconnect a)).After
      (fun _ w' => Consistent w' ∧ w'.db = w.db ∧ w'.outside.link a = .down) w := by
  have hdown : (Links.disconnect a w.outside).2.link a = .down := by
    unfold Links.disconnect
    dsimp only
    split <;> exact Links.set_self _ a _
  rw [after_call]
  refine ⟨h.of_local (.refl _) ⟨fun _ _ => rfl, Links.disconnect_calls a w.outside⟩ ?_, rfl, hdown⟩
  change Good ((Links.disconnect a w.outside).2.link a) _ _
  rw [hdown]
  trivial

theorem disconnectAll_links {w : World Links} (h : Consistent w) :
    (disconnectAll linksEnv).After (fun _ w' => Consistent w') w := by
  unfold disconnectAll openConn
  rw [Action.after_bind, after_query_links, Action.then_ok, Action.after_bind, after_query_links,
    Action.then_ok]
  refine Action.after_forM (fun _ w₁ => Consistent w₁) (fun _ h => h) ?_ _ _ h
  intro x xs w₁ hc
  rw [Action.after_bind]
  apply isConnected_links x.address w₁
  intro w₂ hdb₂ hm₂ hev hcalls
  have hc₂ : Consistent w₂ := by
    apply hc.of_local (hdb₂ ▸ .refl _) ⟨fun b _ => by rw [hm₂], hcalls⟩
    rw [hdb₂, marked_congr (congrFun hm₂ _)]
    exact (hc.good x.address).evolved hev
  rw [Action.then_ok]
  split
  · apply (disconnect_links hc₂ x.address).mono
    intro r w₃ h₃
    cases r <;> exact h₃.1
  · exact hc₂

end BleRuntime
end HomeServer.Services
