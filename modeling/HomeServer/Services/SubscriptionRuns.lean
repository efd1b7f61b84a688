import HomeServer.Services.Operations

/-! Requests change the display channels of a device and its subscriptions together; so every
run of operations, unless an attempt is left in flight under a stale mark, ends consistent. -/
namespace HomeServer.Services
open HomeServer.Db HomeServer.Ble HomeServer.Lib

section Rows
variable {db db' : Database}

theorem Displays.of_deviceCreate (hv : db.Valid) {address : Address} {name : String}
    {owner i : ℕ} {addrType : AddrType}
    (h : Devices.create db address name owner addrType = .ok (i, db')) (a : Address) (u : Uuid) :
    Displays db a u ↔ Displays db' a u := by
  obtain ⟨-, rfl, rfl⟩ := Devices.create_ok h
  constructor
  · rintro ⟨d, hd, rest⟩
    exact ⟨d, List.mem_append_left _ hd, rest⟩
  · rintro ⟨d, hd, ha, c, hc, hcd, hdisp⟩
    rcases List.mem_append.mp hd with hd | hd
    · exact ⟨d, hd, ha, c, hc, hcd, hdisp⟩
    · obtain ⟨d', hd', hid⟩ := hv.channelDevice c hc
      have hlt := hv.deviceFresh d' hd'
      have hnew : d.id = db.nextDevice := by rw [List.mem_singleton.mp hd]
      omega

theorem not_displays_deviceCreate (hv : db.Valid) {address : Address} {name : String}
    {owner i : ℕ} {addrType : AddrType}
    (h : Devices.create db address name owner addrType = .ok (i, db')) (u : Uuid) :
    ¬Displays db' address u := by
  rw [← Displays.of_deviceCreate hv h]
  rintro ⟨d, hd, ha, -⟩
  exact (Devices.create_ok h).1 d hd ha

theorem Displays.of_deviceDelete (hv : db.Valid) {d : Device} (hd : d ∈ db.devices)
    (h : Devices.delete db d.id = .ok db') {a : Address} (ha : a ≠ d.address) (u : Uuid) :
    Displays db a u ↔ Displays db' a u := by
  obtain rfl := Devices.delete_ok h
  constructor
  · rintro ⟨d', hd', haddr, c, hc, hcd, hdisp⟩
    have hid : d'.id ≠ d.id := fun hid => ha (hv.eq_of_id hd' hd hid ▸ haddr).symm
    exact ⟨d', List.mem_filter.mpr ⟨hd', by simpa using hid⟩, haddr, c,
      List.mem_filter.mpr ⟨hc, by simpa [hcd] using hid⟩, hcd, hdisp⟩
  · rintro ⟨d', hd', haddr, c, hc, rest⟩
    exact ⟨d', List.mem_of_mem_filter hd', haddr, c, List.mem_of_mem_filter hc, rest⟩

theorem uuidsDistinct_filter (h : UuidsDistinct db) (p : Channel → Bool)
    (hdb : db'.channels = db.channels.filter p) : UuidsDistinct db' := by
  unfold UuidsDistinct at h ⊢
  rw [hdb]
  exact h.sublist (List.filter_sublist.map _)

theorem UuidsDistinct.eq (h : UuidsDistinct db) {c c' : Channel} (hc : c ∈ db.channels)
    (hc' : c' ∈ db.channels) (hd : c.deviceId = c'.deviceId) (hu : c.charUuid = c'.charUuid) :
    c = c' :=
  List.inj_on_of_nodup_map h hc hc' (Prod.ext hd hu)

theorem Displays.of_channelDelete (hv : db.Valid) (huuids : UuidsDistinct db) {c : Channel}
    (hc : c ∈ db.channels) {d : Device} (hd : d ∈ db.devices) (hcd : c.deviceId = d.id)
    (h : Channels.delete db c.id = .ok db') (a : Address) (u : Uuid) :
    Displays db' a u ↔
      Displays db a u ∧ ¬(a = d.address ∧ c.type = .display ∧ u = c.charUuid) := by
  obtain rfl := Channels.delete_ok h
  constructor
  · rintro ⟨d', hd', ha, c', hc', hcd', htype, hu⟩
    obtain ⟨hc', hne⟩ := List.mem_filter.mp hc'
    refine ⟨⟨d', hd', ha, c', hc', hcd', htype, hu⟩, ?_⟩
    rintro ⟨hda, -, hcu⟩
    have hdd : d' = d := hv.eq_of_address hd' hd (ha.trans hda)
    have heq : c' = c := huuids.eq hc' hc (by rw [hcd', hcd, hdd]) (hu.trans hcu)
    rw [heq] at hne
    simp at hne
  · rintro ⟨⟨d', hd', ha, c', hc', hcd', htype, hu⟩, hnot⟩
    refine ⟨d', hd', ha, c', List.mem_filter.mpr ⟨hc', ?_⟩, hcd', htype, hu⟩
    by_contra hid
    have heq : c' = c :=
      List.inj_on_of_nodup_map hv.channelIds hc' hc (by simpa using hid)
    subst heq
    have hdd : d' = d := hv.eq_of_id hd' hd (hcd'.symm.trans hcd)
    exact hnot ⟨by rw [← ha, hdd], htype, hu.symm⟩

theorem Displays.of_channelCreate (hv : db.Valid) {d : Device} (hd : d ∈ db.devices)
    {name : String} {type : ChannelType} {charUuid : Uuid} {dataFormat : String}
    {unit : Option String} {i : ℕ}
    (h : Channels.create db d.id name type charUuid dataFormat unit = .ok (i, db'))
    (a : Address) (u : Uuid) :
    Displays db' a u ↔
      Displays db a u ∨ (a = d.address ∧ type = .display ∧ u = charUuid) := by
  obtain ⟨-, -, rfl, rfl⟩ := Channels.create_ok h
  constructor
  · rintro ⟨d', hd', ha, c, hc, hcd, htype, hu⟩
    rcases List.mem_append.mp hc with hc | hc
    · exact Or.inl ⟨d', hd', ha, c, hc, hcd, htype, hu⟩
    · rw [List.mem_singleton] at hc
      subst hc
      have hdd : d' = d := hv.eq_of_id hd' hd hcd.symm
      exact Or.inr ⟨by rw [← ha, hdd], htype, hu.symm⟩
  · rintro (⟨d', hd', ha, c, hc, rest⟩ | ⟨rfl, rfl, rfl⟩)
    · exact ⟨d', hd', ha, c, List.mem_append_left _ hc, rest⟩
    · exact ⟨d, hd, rfl, _, List.mem_append_right _ (.head _), rfl, rfl, rfl⟩

/-- The new row is the one read back, and its uuid was not on the device. -/
theorem channelCreate_row (hv : db.Valid) (huuids : UuidsDistinct db) {deviceId : ℕ}
    {name : String} {type : ChannelType} {charUuid : Uuid} {dataFormat : String}
    {unit : Option String} {i : ℕ}
    (hnew : ∀ c ∈ Channels.listByDevice db deviceId, c.charUuid ≠ charUuid)
    (h : Channels.create db deviceId name type charUuid dataFormat unit = .ok (i, db')) :
    UuidsDistinct db' ∧ ∃ c, Channels.getById db' i = some c ∧ c.type = type ∧
      c.charUuid = charUuid := by
  obtain ⟨-, -, rfl, rfl⟩ := Channels.create_ok h
  constructor
  · unfold UuidsDistinct at huuids ⊢
    have hfresh : ∀ c ∈ db.channels, c.deviceId = deviceId → c.charUuid ≠ charUuid :=
      fun c hc hcd => hnew c (List.mem_filter.mpr ⟨hc, by simpa using hcd⟩)
    simpa [List.nodup_append] using ⟨huuids, hfresh⟩
  · have hnone : db.channels.find? (fun c => c.id = db.nextChannel) = none :=
      List.find?_eq_none.mpr fun c hc => by simpa using (hv.channelFresh c hc).ne
    unfold Channels.getById
    rw [List.find?_append, hnone, Option.none_or, List.find?_singleton, if_pos (by simp)]
    exact ⟨_, rfl, rfl, rfl⟩

end Rows

theorem Good.of_not_up {link : Link} {m : Bool} {D D' : Uuid → Prop} (h : Good link m D)
    (hdown : link.isUp = false) : Good link m D' := by
  cases link with
  | down => trivial
  | attempting => exact h
  | up subs failed => cases hdown

/-- Whether it raises or not, a `subscribe` keeps pace with a channel that was added. -/
theorem subscribe_good {a : Address} {u : Uuid} {l : Links} {m : Bool} {D : Uuid → Prop}
    (h : Good (l.link a) m D) :
    Good ((Links.subscribe a u l).2.link a) m fun x => D x ∨ x = u := by
  have h' := h.evolved (l.evolvedAt_advance a)
  unfold Links.subscribe
  dsimp only
  cases hlink : l.advance.2.link a with
  | down => simp only [hlink]; trivial
  | attempting =>
    simp only [hlink]
    rw [hlink] at h'
    exact h'
  | up subs failed =>
    rw [hlink] at h'
    dsimp only
    split
    · rw [Links.set_self]
      refine ⟨fun x hx => Or.inl (h'.1 x hx), fun hm x hx => ?_⟩
      rcases hx with hx | rfl
      · exact (h'.2 hm x hx).imp id (.tail _)
      · exact Or.inr (.head _)
    · rw [Links.set_self]
      refine ⟨fun x hx => ?_, fun hm x hx => ?_⟩
      · rcases List.mem_cons.mp hx with rfl | hx
        · exact Or.inr rfl
        · exact Or.inl (h'.1 x hx)
      · by_cases hxu : x = u
        · exact Or.inl (hxu ▸ .head _)
        · apply (h'.2 hm x (hx.resolve_right hxu)).imp (.tail _)
          intro hf
          exact List.mem_filter.mpr ⟨hf, by simpa using hxu⟩

theorem unsubscribe_good {a : Address} {u : Uuid} {l : Links} {m : Bool} {D : Uuid → Prop}
    (h : Good (l.link a) m D) :
    Good ((Links.unsubscribe a u l).2.link a) m fun x => D x ∧ x ≠ u := by
  have h' := h.evolved (l.evolvedAt_advance a)
  unfold Links.unsubscribe
  dsimp only
  cases hlink : l.advance.2.link a with
  | down => simp only [hlink]; trivial
  | attempting =>
    simp only [hlink]
    rw [hlink] at h'
    exact h'
  | up subs failed =>
    rw [hlink] at h'
    dsimp only
    rw [Links.set_self]
    refine ⟨fun x hx => ?_, fun hm x hx => ?_⟩
    · obtain ⟨hx, hne⟩ := List.mem_filter.mp hx
      exact ⟨h'.1 x hx, by simpa using hne⟩
    · exact (h'.2 hm x hx.1).imp (fun hs => List.mem_filter.mpr ⟨hs, by simpa using hx.2⟩) id

theorem Consistent.of_rows {w : World Links} (h : Consistent w) {db : Database} (hv : db.Valid)
    (huuids : UuidsDistinct db) (hD : ∀ a u, Displays w.db a u ↔ Displays db a u) :
    Consistent { w with db } :=
  ⟨hv, huuids, fun a => (h.good a).congr (hD a)⟩

/-- Only the address `a` is behind the tables, and what it lacks is in `D`. -/
theorem Consistent.of_call {w : World Links} (h : Consistent w) {a : Address} {db : Database}
    (hv : db.Valid) (huuids : UuidsDistinct db)
    (hD : ∀ b, b ≠ a → ∀ u, Displays w.db b u ↔ Displays db b u) {w' : World Links}
    (hdb : w'.db = db) (hm : w'.monitor = w.monitor) (hcalls : Links.Calls a w.outside w'.outside)
    (hgood : Good (w'.outside.link a) (marked w a) (Displays db a)) : Consistent w' := by
  refine ⟨hdb ▸ hv, hdb ▸ huuids, fun b => ?_⟩
  rw [marked_congr (congrFun hm b), hdb]
  by_cases hb : b = a
  · exact hb ▸ hgood
  · exact ((h.good b).congr (hD b hb)).evolved (hcalls.other b hb)

theorem addDevice_links {w : World Links} (h : Consistent w) (ownerUserId : ℕ)
    (address : Address) (name : String) (addrType : Option AddrType)
    (hpending : address ∈ w.outside.pending → marked w address = false) :
    (DeviceService.addDevice linksEnv ownerUserId address name addrType).After
      (fun _ w' => Consistent w') w := by
  unfold DeviceService.addDevice
  rw [Action.after_ite]
  split
  swap
  · exact h
  cases DeviceService.resolveAddrType address addrType with
  | error e => exact h
  | ok resolved =>
    dsimp only
    rw [Action.after_bind, after_execute_links]
    cases hcreate : Devices.create w.db address name ownerUserId resolved with
    | error e => exact h
    | ok r =>
      obtain ⟨i, db'⟩ := r
      dsimp only
      have huuids : UuidsDistinct db' := by
        obtain ⟨-, -, rfl⟩ := Devices.create_ok hcreate
        exact h.uuids
      have hc := h.of_rows (h.valid.deviceCreate hcreate) huuids
        (Displays.of_deviceCreate h.valid hcreate)
      have hnone := not_displays_deviceCreate h.valid hcreate
      have hafter : Consistent { w with
          db := db', outside := (Links.connect address w.outside).2 } := by
        refine hc.of_call hc.valid hc.uuids (fun _ _ _ => Iff.rfl) rfl rfl
          (Links.connect_calls address w.outside) ?_
        rcases BleRuntime.connect_good (hc.good address) hpending with
          ⟨-, subs, failed, hlink, hsub⟩ | ⟨e, -, hgood⟩
        · change Good ((Links.connect address w.outside).2.link address) _ _
          rw [hlink]
          exact ⟨hsub, fun _ u hu => absurd hu (hnone u)⟩
        · exact hgood
      rw [Action.then_ok, Action.after_bind, after_ignoringErrors, after_call, Action.then_ok,
        Action.after_bind, after_query_links, Action.then_ok]
      split <;> exact hafter

theorem removeDevice_links {w : World Links} (h : Consistent w) (deviceId : ℕ) :
    (DeviceService.removeDevice linksEnv deviceId).After (fun _ w' => Consistent w') w := by
  unfold DeviceService.removeDevice
  rw [Action.after_bind, after_query_links, Action.then_ok]
  cases hget : Devices.getById w.db deviceId with
  | none => exact h
  | some device =>
    obtain ⟨hmem, rfl⟩ := Devices.mem_of_getById hget
    -- With the link not up, the row may go.
    have hdelete : ∀ w₁ : World Links, Consistent w₁ → w₁.db = w.db →
        (w₁.outside.link device.address).isUp = false →
        (execute linksEnv fun db => (Devices.delete db device.id).map fun db => ((), db)).After
          (fun _ w' => Consistent w') w₁ := by
      intro w₁ hc hdb hdown
      rw [after_execute_links]
      cases hdel : Devices.delete w₁.db device.id with
      | error e => exact hc
      | ok db' =>
        have huuids : UuidsDistinct db' := by
          obtain rfl := Devices.delete_ok hdel
          exact uuidsDistinct_filter hc.uuids _ rfl
        have hne := fun a (ha : a ≠ device.address) =>
          Displays.of_deviceDelete hc.valid (hdb ▸ hmem) hdel ha
        exact hc.of_call (hc.valid.deviceDelete hdel) huuids hne rfl rfl (.refl _ _)
          ((hc.good _).of_not_up hdown)
    dsimp only
    rw [Action.after_bind]
    apply BleRuntime.isConnected_links device.address w
    intro w₁ hdb hm hev hcalls
    have hc : Consistent w₁ := by
      apply h.of_call h.valid h.uuids (fun _ _ _ => Iff.rfl) hdb hm hcalls
      exact (h.good _).evolved hev
    rw [Action.then_ok, Action.after_bind, Action.after_ite]
    split
    · apply (BleRuntime.disconnect_links hc device.address).mono
      rintro r w₂ ⟨hc₂, hdb₂, hdown⟩
      cases r with
      | error e => exact hc₂
      | ok u => exact hdelete w₂ hc₂ (hdb₂.trans hdb) (by rw [hdown]; rfl)
    · rename_i hdown
      exact hdelete w₁ hc hdb (by simpa using hdown)

namespace ChannelService

/-- A channel that is returned is the one new row; a refused one changes nothing. -/
theorem addChannel_links {w : World Links} (h : Consistent w) {d : Device}
    (hd : d ∈ w.db.devices) (name : String) (type : ChannelType) (charUuid : Uuid)
    (dataFormat : String) (unit : Option String) :
    (addChannel linksEnv d.id name type charUuid dataFormat unit).After
      (fun r w' => match r with
        | .error _ => w' = w
        | .ok c => ∃ db', w' = { w with db := db' } ∧ db'.Valid ∧ UuidsDistinct db' ∧
            ∀ a u, Displays db' a u ↔
              Displays w.db a u ∨ (a = d.address ∧ c.type = .display ∧ u = c.charUuid)) w := by
  unfold addChannel
  rw [Action.after_ite]
  split
  swap
  · rfl
  rw [Action.after_bind, after_query_links, Action.then_ok, Action.after_ite]
  split
  · rfl
  rename_i hnew
  rw [Action.after_bind, after_execute_links]
  cases hcreate : Channels.create w.db d.id name type charUuid dataFormat unit with
  | error e => rfl
  | ok r =>
    obtain ⟨i, db'⟩ := r
    obtain ⟨huuids, c, hget, rfl, rfl⟩ :=
      channelCreate_row h.valid h.uuids (by simpa using hnew) hcreate
    dsimp only
    rw [Action.then_ok, Action.after_bind, after_query_links, Action.then_ok, hget]
    exact ⟨db', rfl, h.valid.channelCreate hcreate, huuids,
      Displays.of_channelCreate h.valid hd hcreate⟩

end ChannelService

namespace BleRuntime

theorem onChannelAdded_links {w : World Links} (h : Consistent w) {db : Database}
    (hv : db.Valid) (huuids : UuidsDistinct db) {d : Device} {c : Channel}
    (hD : ∀ a u, Displays db a u ↔
      Displays w.db a u ∨ (a = d.address ∧ c.type = .display ∧ u = c.charUuid)) :
    (onChannelAdded linksEnv d c).After (fun _ w' => Consistent w') { w with db } := by
  have hother : ∀ b, b ≠ d.address → ∀ u, Displays w.db b u ↔ Displays db b u := fun b hb u => by
    rw [hD]
    exact ⟨Or.inl, fun h => h.resolve_right fun h => hb h.1⟩
  unfold onChannelAdded
  rw [Action.after_ite]
  split
  swap
  · rename_i hctrl
    apply h.of_rows hv huuids
    intro a u
    rw [hD]
    exact ⟨Or.inl, fun h => h.resolve_right fun h => hctrl h.2.1⟩
  rename_i hdisplay
  rw [Action.after_bind]
  apply isConnected_links d.address _
  intro w₁ hdb hm hev hcalls
  have hgood := (h.good d.address).evolved hev
  rw [Action.then_ok]
  split
  · unfold subscribeChannel
    rw [Action.after_bind, after_call]
    have hsub : Good ((Links.subscribe d.address c.charUuid w₁.outside).2.link d.address)
        (marked w d.address) (Displays db d.address) := by
      apply (subscribe_good hgood).congr
      intro u
      rw [hD]
      exact or_congr_right (by simp [hdisplay])
    have hc : ∀ w₂ : World Links, w₂.db = db → w₂.monitor = w.monitor →
        w₂.outside = (Links.subscribe d.address c.charUuid w₁.outside).2 → Consistent w₂ := by
      intro w₂ hdb₂ hm₂ hout
      refine h.of_call hv huuids hother hdb₂ hm₂ ?_ (hout ▸ hsub)
      rw [hout]
      exact hcalls.trans (Links.subscribe_calls _ _ _)
    change Action.Then _ _ (Links.subscribe d.address c.charUuid w₁.outside).1 _
    cases (Links.subscribe d.address c.charUuid w₁.outside).1 with
    | ok _ => exact hc _ hdb hm rfl
    | error _ => exact hc _ hdb hm rfl
  · rename_i hdown
    refine h.of_call hv huuids hother hdb hm hcalls (hgood.of_not_up ?_)
    simpa using hdown

theorem onChannelRemoved_links {w : World Links} (h : Consistent w) {db : Database}
    (hv : db.Valid) (huuids : UuidsDistinct db) {d : Device} {c : Channel}
    (hD : ∀ a u, Displays db a u ↔
      Displays w.db a u ∧ ¬(a = d.address ∧ c.type = .display ∧ u = c.charUuid)) :
    (onChannelRemoved linksEnv d c).After (fun _ w' => Consistent w') { w with db } := by
  have hother : ∀ b, b ≠ d.address → ∀ u, Displays w.db b u ↔ Displays db b u := fun b hb u => by
    rw [hD]
    exact ⟨fun h => ⟨h, fun h' => hb h'.1⟩, fun h => h.1⟩
  unfold onChannelRemoved
  rw [Action.after_ite]
  split
  swap
  · rename_i hctrl
    apply h.of_rows hv huuids
    intro a u
    rw [hD]
    exact ⟨fun h => ⟨h, fun h' => hctrl h'.2.1⟩, fun h => h.1⟩
  rename_i hdisplay
  rw [Action.after_bind, Action.after_modify, Action.then_ok, Action.after_bind]
  apply isConnected_links d.address _
  intro w₁ hdb hm hev hcalls
  have hgood := (h.good d.address).evolved hev
  rw [Action.then_ok]
  split
  · rw [after_call]
    refine h.of_call hv huuids hother hdb hm
      (hcalls.trans (Links.unsubscribe_calls _ c.charUuid _)) ?_
    apply (unsubscribe_good hgood).congr
    intro u
    rw [hD]
    exact and_congr_right fun _ => by simp [hdisplay]
  · rename_i hdown
    refine h.of_call hv huuids hother hdb hm hcalls (hgood.of_not_up ?_)
    simpa using hdown

end BleRuntime

theorem webAddChannel_links {w : World Links} (h : Consistent w) (presets : List ChannelPreset)
    (deviceId : ℕ) (name preset : String) :
    (Web.addChannel linksEnv presets deviceId name preset).After (fun _ w' => Consistent w') w := by
  unfold Web.addChannel
  rw [Action.after_bind, after_query_links, Action.then_ok]
  cases hget : Devices.getById w.db deviceId with
  | none => exact h
  | some d =>
    obtain ⟨hd, rfl⟩ := Devices.mem_of_getById hget
    dsimp only
    rw [Action.after_ite]
    split
    swap
    · exact h
    cases presets.find? fun p => p.charUuid = preset with
    | none => exact h
    | some p =>
      dsimp only
      rw [Action.after_bind, Action.after_tryCatch, Action.after_bind]
      refine (ChannelService.addChannel_links h hd name p.type p.charUuid p.dataFormat p.unit).mono
        ?_
      intro r w₁ hr
      cases r with
      | error e =>
        subst hr
        cases e <;> exact h
      | ok c =>
        obtain ⟨db', rfl, hv, huuids, hD⟩ := hr
        rw [Action.then_ok, Action.after_pure, Action.else_ok, Action.then_ok]
        exact (BleRuntime.onChannelAdded_links h hv huuids hD).bind_pure _

theorem webDeleteChannel_links {w : World Links} (h : Consistent w) (channelId : ℕ) :
    (Web.deleteChannel linksEnv channelId).After (fun _ w' => Consistent w') w := by
  unfold Web.deleteChannel
  rw [Action.after_bind, after_query_links, Action.then_ok]
  cases hget : Channels.getById w.db channelId with
  | none => exact h
  | some c =>
    obtain ⟨hc, rfl⟩ := Channels.mem_of_getById hget
    dsimp only
    rw [Action.after_bind, after_query_links, Action.then_ok]
    cases hgetd : Devices.getById w.db c.deviceId with
    | none => exact h
    | some d =>
      obtain ⟨hd, hdc⟩ := Devices.mem_of_getById hgetd
      have hcd : c.deviceId = d.id := hdc.symm
      dsimp only
      rw [Action.after_bind, after_execute_links]
      cases hdel : Channels.delete w.db c.id with
      | error e => exact h
      | ok db' =>
        have huuids : UuidsDistinct db' := by
          obtain rfl := Channels.delete_ok hdel
          exact uuidsDistinct_filter h.uuids _ rfl
        rw [Except.map]
        dsimp only
        have hnot := Displays.of_channelDelete h.valid h.uuids hc hd hcd hdel
        rw [Action.then_ok]
        exact (BleRuntime.onChannelRemoved_links h (h.valid.channelDelete hdel) huuids
          hnot).bind_pure _

/-- One operation, whatever it raises and whatever the links do meanwhile. -/
theorem perform_consistent {w : World Links} {op : Operation} (h : Consistent w)
    (hok : attemptsUnmarked w op = true) : Consistent (op.perform w).2 := by
  have hp := consistent_prepare h op
  have hpending : ∀ a ∈ (op.prepare w).outside.pending, marked (op.prepare w) a = false := by
    intro a ha
    have hmark := List.all_eq_true.mp hok a ha
    rw [Bool.not_eq_true'] at hmark
    exact hmark
  change op.program.After (fun _ w' => Consistent w') (op.prepare w)
  cases op with
  | link e => exact link_consistent hp e
  | activate pending script => exact BleRuntime.activate_links hp hpending
  | tick now script => exact (BleRuntime.monitorTick_links hp now).mono fun _ _ hr => hr.1
  | addChannel presets deviceId name preset script =>
    exact (webAddChannel_links hp presets deviceId name preset).bind_pure _
  | deleteChannel channelId script => exact (webDeleteChannel_links hp channelId).bind_pure _
  | addDevice ownerUserId address name addrType pending script =>
    exact (addDevice_links hp ownerUserId address name addrType (hpending address)).bind_pure _
  | removeDevice deviceId script => exact removeDevice_links hp deviceId
  | scanWindow script => exact BleRuntime.disconnectAll_links hp

theorem run_consistent {w : World Links}
    (h : operations.Run (fun w op => attemptsUnmarked w op = true) w) : Consistent w := by
  refine h.invariant ?_ ?_
  · rintro w ⟨hv, huuids, hm, hl⟩
    refine ⟨hv, huuids, fun a => ?_⟩
    rw [hl a]
    trivial
  · intro w op w' hc hok hstep
    cases hstep
    exact perform_consistent hc hok

/-- After a completed tick, a link that was up throughout is subscribed to the display
channels of its device, except where the latest subscribe raised. -/
theorem subscriptions_follow {w : World Links}
    (hrun : operations.Run (fun w op => attemptsUnmarked w op = true) w) (now : ℚ)
    (script : List Moment) (hok : ((Operation.tick now script).perform w).1 = .ok ())
    {d : Device} (hd : d ∈ ((Operation.tick now script).perform w).2.db.devices)
    (hup : (w.outside.link d.address).isUp = true)
    (hkept : d.address ∉ ((Operation.tick now script).perform w).2.outside.drops) :
    ∃ subs failed,
      ((Operation.tick now script).perform w).2.outside.link d.address = .up subs failed ∧
      (∀ u ∈ subs, Listed ((Operation.tick now script).perform w).2.db d u) ∧
      ∀ u, Listed ((Operation.tick now script).perform w).2.db d u → u ∈ subs ∨ u ∈ failed := by
  have htick : Action.After _ _ _ :=
    BleRuntime.monitorTick_links (consistent_prepare (run_consistent hrun) (.tick now script)) now
  obtain ⟨hc, hrows, hmarked⟩ := htick
  obtain ⟨d₀, hd₀, hid, haddr⟩ := hrows.exists_device hd
  obtain ⟨hup', hmark⟩ := hmarked hok d₀ hd₀ (haddr ▸ hup) (haddr ▸ hkept)
  rw [haddr] at hup' hmark
  obtain ⟨subs, failed, hlink⟩ := BleRuntime.Link.exists_of_isUp hup'
  have hgood := (hc.good d.address).congr (Displays.listed hc.valid hd)
  rw [hlink] at hgood
  exact ⟨subs, failed, hlink, hgood.1, hgood.2 hmark⟩

def sensorAddress : Address := "A4:C1:38:00:00:01"

/-- One registered sensor with one display channel, the server just started. -/
def oneSensor : World Links where
  db :=
    { devices := [⟨1, sensorAddress, .publicAddr, "sensor", none, 1, none⟩]
      channels := [⟨1, 1, "t", .display, "2a6e", "int16_le", none⟩]
      nextDevice := 2
      nextChannel := 2 }
  outside := {}

theorem oneSensor_init : operations.init oneSensor := by
  refine ⟨?_, by unfold UuidsDistinct; decide +kernel, fun _ => rfl, fun _ => rfl⟩
  constructor <;> decide +kernel

theorem subscriptions_follow_oneSensor :
    let r := (Operation.tick 0 []).perform ((Operation.activate [] []).perform oneSensor).2
    ∃ d ∈ r.2.db.devices, ∃ subs failed, r.2.outside.link d.address = .up subs failed ∧
      (∀ u ∈ subs, Listed r.2.db d u) ∧ ∀ u, Listed r.2.db d u → u ∈ subs ∨ u ∈ failed :=
  have hrun : operations.Run (fun w op => attemptsUnmarked w op = true) _ :=
    .step (.activate [] []) (.init oneSensor_init) (by decide +kernel) rfl
  have hd : (⟨1, sensorAddress, .publicAddr, "sensor", none, 1, some 0⟩ : Device) ∈ _ := by
    decide +kernel
  ⟨_, hd, subscriptions_follow hrun 0 [] (by decide +kernel) hd (by decide +kernel)
    (by decide +kernel)⟩

def sensorPreset : ChannelPreset := ⟨"Temperature", "2a6e", .display, "int16_le", none⟩

/-- The sensor is removed and registered again before the next tick; the second connect times
out, and its attempt comes up under the old mark. -/
def removedAndAdded : List Operation :=
  [.addDevice 1 sensorAddress "sensor" (some .publicAddr) false [], .tick 0 [],
    .removeDevice 1 [], .addDevice 1 sensorAddress "sensor" (some .publicAddr) true [],
    .addChannel [sensorPreset] 2 "t" "2a6e" [], .link (.comeUp sensorAddress)]

/-- A tick that completes leaves a display channel neither subscribed nor tried. -/
def missesChannel (w : World Links) (op : Operation) : Bool :=
  let r := op.perform w
  r.1 = .ok () && r.2.db.devices.any fun d =>
    (w.outside.link d.address).isUp && !decide (d.address ∈ r.2.outside.drops) &&
      r.2.outside.link d.address = .up [] [] &&
      (Channels.listByDevice r.2.db d.id).any fun c => c.type = .display

theorem subscription_missed : ¬∀ w, operations.Reachable w → ∀ now script,
    ((Operation.tick now script).perform w).1 = .ok () →
    ∀ d ∈ ((Operation.tick now script).perform w).2.db.devices,
      (w.outside.link d.address).isUp = true →
      d.address ∉ ((Operation.tick now script).perform w).2.outside.drops →
      ∃ subs failed,
        ((Operation.tick now script).perform w).2.outside.link d.address = .up subs failed ∧
        (∀ u ∈ subs, Listed ((Operation.tick now script).perform w).2.db d u) ∧
        ∀ u, Listed ((Operation.tick now script).perform w).2.db d u →
          u ∈ subs ∨ u ∈ failed := by
  intro hall
  have hinit : operations.init { db := {}, outside := {} } :=
    ⟨.empty, List.nodup_nil, fun _ => rfl, fun _ => rfl⟩
  obtain ⟨w, hw, hmiss⟩ := System.exists_reachable_of_replay hinit removedAndAdded
    (p := fun w => missesChannel w (.tick 1 [])) (by decide +kernel)
  unfold missesChannel at hmiss
  simp only [Bool.and_eq_true, decide_eq_true_eq, List.any_eq_true, Bool.not_eq_true',
    decide_eq_false_iff_not] at hmiss
  obtain ⟨hok, d, hd, ⟨⟨hup, hkept⟩, hlink⟩, c, hc, hdisplay⟩ := hmiss
  obtain ⟨subs, failed, hlink', -, hcovered⟩ := hall w hw 1 [] hok d hd hup hkept
  rw [hlink] at hlink'
  cases hlink'
  rcases hcovered c.charUuid ⟨c, hc, hdisplay, rfl⟩ with h | h <;> cases h

end HomeServer.Services
