import HomeServer.Ble.Links
import HomeServer.Services.MonitorTick
import HomeServer.Services.Requests

/-! What is subscribed on a link, against the display channels of its device: one invariant
for each address, kept by every call and every operation. -/
namespace HomeServer.Services
open HomeServer.Db HomeServer.Ble HomeServer.Lib

def linksEnv : Env Links where
  ble := Links.manager
  onStatus := fun _ _ l => (.ok (), l)
  sqlError := fun l => (none, l)
  wallClock := fun l => (0, l)

section Rules
variable {α : Type} {w : World Links}

@[simp] theorem after_query_links (f : Database → α) (Q : Except Err α → World Links → Prop) :
    (query linksEnv f).After Q w ↔ Q (.ok (f w.db)) w := Iff.rfl

theorem after_execute_links (f : Database → Except Err (α × Database))
    (Q : Except Err α → World Links → Prop) :
    (execute linksEnv f).After Q w ↔ match f w.db with
      | .ok (a, db) => Q (.ok a) { w with db }
      | .error e => Q (.error e) w := by
  unfold execute
  rw [Action.after_bind, after_query_links, Action.then_ok, id]
  cases f w.db <;> rfl

end Rules

def Displays (db : Database) (a : Address) (u : Uuid) : Prop :=
  ∃ d ∈ db.devices, d.address = a ∧ ∃ c ∈ db.channels, c.deviceId = d.id ∧ c.type = .display ∧
    c.charUuid = u

/-- The entry of the monitor says that the display channels are subscribed. -/
def marked (w : World Links) (a : Address) : Bool := (w.monitor a).any (·.subscribed)

/-- A link is subscribed to nothing but display channels, an attempt is under way only where
the monitor knows that nothing is subscribed, and where it holds all to be subscribed each
one is, or its latest subscribe raised. -/
def Good (link : Link) (marked : Bool) (D : Uuid → Prop) : Prop :=
  match link with
  | .down => True
  | .attempting => marked = false
  | .up subs failed => (∀ u ∈ subs, D u) ∧ (marked = true → ∀ u, D u → u ∈ subs ∨ u ∈ failed)

theorem Good.evolved {b : Address} {l l' : Links} {m : Bool} {D : Uuid → Prop}
    (h : Good (l.link b) m D) (he : Links.EvolvedAt b l l') : Good (l'.link b) m D := by
  rcases he.link with hs | ⟨hd, -⟩ | ⟨ha, hu⟩
  · rw [hs]
    exact h
  · rw [hd]
    trivial
  · rw [ha] at h
    rw [hu]
    refine ⟨by simp, fun hm => ?_⟩
    rw [h] at hm
    cases hm

theorem Good.unmark {link : Link} {m : Bool} {D : Uuid → Prop} (h : Good link m D) :
    Good link false D := by
  cases link with
  | down => trivial
  | attempting => rfl
  | up subs failed => exact ⟨h.1, fun h => nomatch h⟩

theorem Good.congr {link : Link} {m : Bool} {D D' : Uuid → Prop} (h : Good link m D)
    (hD : ∀ u, D u ↔ D' u) : Good link m D' := by
  have : D = D' := funext fun u => propext (hD u)
  exact this ▸ h

def Live (a : Address) (l : Links) (P : List Uuid → List Uuid → Prop) : Prop :=
  (l.link a = .down ∧ a ∈ l.drops) ∨ ∃ subs failed, l.link a = .up subs failed ∧ P subs failed

theorem Live.advance {a : Address} {l l' : Links} {P : List Uuid → List Uuid → Prop}
    (h : Live a l P) (he : Links.EvolvedAt a l l') : Live a l' P := by
  rcases h with ⟨hd, hin⟩ | ⟨subs, failed, hu, hP⟩
  · rcases he.link with hs | ⟨hd', -⟩ | ⟨ha, -⟩
    · exact Or.inl ⟨hs.trans hd, he.drops hin⟩
    · exact Or.inl ⟨hd', he.drops hin⟩
    · rw [hd] at ha
      cases ha
  · rcases he.link with hs | ⟨hd', hin⟩ | ⟨ha, -⟩
    · exact Or.inr ⟨subs, failed, hs.trans hu, hP⟩
    · exact Or.inl ⟨hd', hin (by rw [hu]; rfl)⟩
    · rw [hu] at ha
      cases ha

/-- What one `subscribe` leaves, whether it raises or not. -/
theorem subscribe_live {a : Address} {u : Uuid} {l : Links} {P : List Uuid → List Uuid → Prop}
    (h : Live a l P) : Live a (Links.subscribe a u l).2 fun subs failed =>
      ∃ subs₀ failed₀, P subs₀ failed₀ ∧ (∀ x ∈ subs, x ∈ subs₀ ∨ x = u) ∧
        (∀ x, x ∈ subs₀ ∨ x ∈ failed₀ → x ∈ subs ∨ x ∈ failed) ∧ (u ∈ subs ∨ u ∈ failed) := by
  have h' := h.advance (l.evolvedAt_advance a)
  unfold Links.subscribe
  dsimp only
  rcases h' with ⟨hd, hin⟩ | ⟨subs, failed, hu, hP⟩
  · rw [hd]
    exact Or.inl ⟨hd, hin⟩
  · rw [hu]
    dsimp only
    split
    · refine Or.inr ⟨subs, u :: failed, Links.set_self _ a _, subs, failed, hP, fun x hx => Or.inl hx,
        fun x hx => hx.imp id (.tail _), Or.inr (.head _)⟩
    · refine Or.inr ⟨u :: subs, failed.filter (· ≠ u), Links.set_self _ a _, subs, failed, hP,
        fun x hx => (List.mem_cons.mp hx).symm, fun x hx => ?_, Or.inl (.head _)⟩
      by_cases hxu : x = u
      · exact Or.inl (hxu ▸ .head _)
      · exact hx.imp (.tail _) fun hx => List.mem_filter.mpr ⟨hx, by simpa using hxu⟩

theorem Live.mono {a : Address} {l : Links} {P P' : List Uuid → List Uuid → Prop}
    (h : Live a l P) (himp : ∀ subs failed, P subs failed → P' subs failed) : Live a l P' :=
  h.imp id fun ⟨subs, failed, hu, hP⟩ => ⟨subs, failed, hu, himp subs failed hP⟩

def Listed (db : Database) (d : Device) (u : Uuid) : Prop :=
  ∃ c ∈ Channels.listByDevice db d.id, c.type = .display ∧ c.charUuid = u

/-- The rows of devices and channels are the same up to `last_connected_at`. -/
structure SameRows (db db' : Database) : Prop where
  devices : db'.devices.map (fun d => (d.id, d.address)) = db.devices.map fun d => (d.id, d.address)
  channels : db'.channels = db.channels
  valid : db.Valid → db'.Valid

theorem SameRows.refl (db : Database) : SameRows db db := ⟨rfl, rfl, id⟩

theorem SameRows.trans {db db' db'' : Database} (h : SameRows db db') (h' : SameRows db' db'') :
    SameRows db db'' :=
  ⟨h'.devices.trans h.devices, h'.channels.trans h.channels, h'.valid ∘ h.valid⟩

theorem sameRows_touch (db : Database) (now : Timestamp) (i : ℕ) :
    SameRows db (Devices.touchLastConnected db now i) := by
  refine ⟨?_, rfl, fun h => h.touch now i⟩
  exact Devices.map_touchLastConnected (fun _ _ => rfl) db now i

private theorem exists_row {ds ds' : List Device}
    (h : ds'.map (fun d => (d.id, d.address)) = ds.map fun d => (d.id, d.address)) {d : Device}
    (hd : d ∈ ds') : ∃ d' ∈ ds, d'.id = d.id ∧ d'.address = d.address := by
  have hmem : (d.id, d.address) ∈ ds.map fun d => (d.id, d.address) := by
    rw [← h]
    exact List.mem_map.mpr ⟨d, hd, rfl⟩
  obtain ⟨d', hd', heq⟩ := List.mem_map.mp hmem
  exact ⟨d', hd', congrArg Prod.fst heq, congrArg Prod.snd heq⟩

theorem SameRows.exists_device {db db' : Database} (h : SameRows db db') {d : Device}
    (hd : d ∈ db'.devices) : ∃ d' ∈ db.devices, d'.id = d.id ∧ d'.address = d.address :=
  exists_row h.devices hd

theorem SameRows.keeps_device {db db' : Database} (h : SameRows db db') {d : Device}
    (hd : d ∈ db.devices) : ∃ d' ∈ db'.devices, d'.id = d.id ∧ d'.address = d.address :=
  exists_row h.devices.symm hd

theorem SameRows.displays {db db' : Database} (h : SameRows db db') (a : Address) (u : Uuid) :
    Displays db a u ↔ Displays db' a u := by
  constructor
  · rintro ⟨d, hd, rfl, c, hc, hcd, hdisp⟩
    obtain ⟨d', hd', hid, haddr⟩ := exists_row h.devices.symm hd
    exact ⟨d', hd', haddr, c, h.channels ▸ hc, hcd.trans hid.symm, hdisp⟩
  · rintro ⟨d, hd, rfl, c, hc, hcd, hdisp⟩
    obtain ⟨d', hd', hid, haddr⟩ := exists_row h.devices hd
    exact ⟨d', hd', haddr, c, h.channels ▸ hc, hcd.trans hid.symm, hdisp⟩

/-- What a step of an operation that concerns `a` leaves alone. -/
structure Local (a : Address) (w w' : World Links) : Prop where
  monitor : ∀ b, b ≠ a → w'.monitor b = w.monitor b
  links : Links.Calls a w.outside w'.outside

theorem Local.refl (a : Address) (w : World Links) : Local a w w := ⟨fun _ _ => rfl, .refl a _⟩

theorem Local.trans {a : Address} {w w' w'' : World Links} (h : Local a w w')
    (h' : Local a w' w'') : Local a w w'' :=
  ⟨fun b hb => (h'.monitor b hb).trans (h.monitor b hb), h.links.trans h'.links⟩

theorem local_set (a : Address) (w : World Links) (s : DeviceMonitorState) :
    Local a w { w with monitor := Function.update w.monitor a (some s) } :=
  ⟨fun _ hb => Function.update_of_ne hb _ _, .refl _ _⟩

@[simp] theorem marked_set (a : Address) (w : World Links) (s : DeviceMonitorState) :
    marked { w with monitor := Function.update w.monitor a (some s) } a = s.subscribed := by
  simp [marked]

namespace BleRuntime

/-- Whatever a subscribe raises, each display channel is tried on a link that stays up. -/
theorem subscribeDisplayChannels_links (d : Device) {w : World Links} {subs₀ failed₀ : List Uuid}
    (hup : w.outside.link d.address = .up subs₀ failed₀) :
    (subscribeDisplayChannels linksEnv d).After
      (fun r w' => r = .ok () ∧ w'.db = w.db ∧ w'.monitor = w.monitor ∧
        Links.Calls d.address w.outside w'.outside ∧
        Live d.address w'.outside fun subs failed =>
          (∀ u ∈ subs, u ∈ subs₀ ∨ Listed w.db d u) ∧
            ∀ u, Listed w.db d u → u ∈ subs ∨ u ∈ failed) w := by
  unfold subscribeDisplayChannels
  rw [Action.after_bind, after_query_links, Action.then_ok]
  refine Action.after_forM (fun cs w₁ => (∀ c ∈ cs, c ∈ Channels.listByDevice w.db d.id) ∧
    w₁.db = w.db ∧ w₁.monitor = w.monitor ∧ Links.Calls d.address w.outside w₁.outside ∧
    Live d.address w₁.outside fun subs failed =>
      (∀ u ∈ subs, u ∈ subs₀ ∨ Listed w.db d u) ∧
        ∀ u, Listed w.db d u → (∃ c ∈ cs, c.type = .display ∧ c.charUuid = u) ∨
          u ∈ subs ∨ u ∈ failed) ?_ ?_ _ _ ⟨fun _ h => h, rfl, rfl, .refl _ _, ?_⟩
  · rintro w₁ ⟨-, hdb, hm, hcalls, hlive⟩
    refine ⟨rfl, hdb, hm, hcalls, hlive.mono fun subs failed h => ⟨h.1, fun u hu => ?_⟩⟩
    exact (h.2 u hu).resolve_left (by simp)
  · rintro c cs w₁ ⟨hmem, hdb, hm, hcalls, hlive⟩
    have hrest : ∀ x ∈ cs, x ∈ Channels.listByDevice w.db d.id := fun x hx => hmem x (.tail _ hx)
    rw [Action.after_ite]
    split
    · rename_i hdisplay
      have hcalls' := hcalls.trans (Links.subscribe_calls d.address c.charUuid w₁.outside)
      have hlive' : Live d.address (Links.subscribe d.address c.charUuid w₁.outside).2
          fun subs failed => (∀ u ∈ subs, u ∈ subs₀ ∨ Listed w.db d u) ∧
            ∀ u, Listed w.db d u → (∃ c ∈ cs, c.type = .display ∧ c.charUuid = u) ∨
              u ∈ subs ∨ u ∈ failed := by
        apply (subscribe_live hlive).mono
        rintro subs failed ⟨subs₁, failed₁, ⟨hsub, hall⟩, hnew, hkeep, hc⟩
        refine ⟨fun u hu => ?_, fun u hu => ?_⟩
        · rcases hnew u hu with h | rfl
          · exact hsub u h
          · exact Or.inr ⟨c, hmem c (.head _), hdisplay, rfl⟩
        · rcases hall u hu with ⟨c', hc', hd', rfl⟩ | h
          · rcases List.mem_cons.mp hc' with rfl | hc'
            · exact Or.inr hc
            · exact Or.inl ⟨c', hc', hd', rfl⟩
          · exact Or.inr (hkeep u h)
      unfold subscribeChannel
      rw [after_ignoringErrors, Action.after_bind, after_call]
      change Action.Then _ _ (Links.subscribe d.address c.charUuid w₁.outside).1 _
      cases (Links.subscribe d.address c.charUuid w₁.outside).1 with
      | ok _ => exact ⟨hrest, hdb, hm, hcalls', hlive'⟩
      | error _ => exact ⟨hrest, hdb, hm, hcalls', hlive'⟩
    · rename_i hctrl
      refine ⟨hrest, hdb, hm, hcalls, hlive.mono fun subs failed h => ⟨h.1, fun u hu => ?_⟩⟩
      rcases h.2 u hu with ⟨c', hc', hd', rfl⟩ | h
      · rcases List.mem_cons.mp hc' with rfl | hc'
        · exact absurd hd' hctrl
        · exact Or.inl ⟨c', hc', hd', rfl⟩
      · exact Or.inr h
  · exact Or.inr ⟨subs₀, failed₀, hup, fun u hu => Or.inl hu,
      fun u ⟨c, hc, hd, hu⟩ => Or.inl ⟨c, hc, hd, hu⟩⟩

theorem linksEnv_quiet : linksEnv.Quiet := ⟨fun _ _ l => ⟨l, rfl⟩, fun l => ⟨l, rfl⟩⟩

theorem touchLastConnected_links (i : ℕ) (w : World Links) :
    (touchLastConnected linksEnv i).After
      (fun r w' => r = .ok () ∧ SameRows w.db w'.db ∧ w'.monitor = w.monitor ∧
        w'.outside = w.outside) w := by
  unfold touchLastConnected
  rw [Action.after_bind, after_log, Action.then_ok, Action.after_bind, after_ask, Action.then_ok,
    after_execute_links]
  exact ⟨rfl, sameRows_touch _ _ i, rfl, rfl⟩

theorem setStatus_links (d : Device) {s : DeviceMonitorState} (status : Status) {w : World Links}
    (hs : w.monitor d.address = some s) :
    (setStatus linksEnv d.id d.address status).After
      (fun r w' => r = .ok () ∧ w'.db = w.db ∧ w'.outside = w.outside ∧
        w'.monitor = Function.update w.monitor d.address
          (some { s with lastStatus := some status })) w := by
  have hspec := setStatus_spec linksEnv_quiet (d := d) hs status
  have hrest : (setStatus linksEnv d.id d.address status).After
      (fun _ w' => w'.db = w.db ∧ w'.outside = w.outside) w := by
    unfold setStatus
    rw [Action.after_bind, after_stateOf, Action.then_ok, Action.after_ite]
    split
    · exact ⟨rfl, rfl⟩
    · exact ⟨rfl, rfl⟩
  exact ⟨hspec.1, hrest.1, hrest.2, hspec.2.monitor⟩

/-- All display channels of `a` are subscribed on its link or were tried, or it just dropped. -/
structure Settled (a : Address) (w : World Links) : Prop where
  marked : marked w a = true
  live : Live a w.outside fun subs failed =>
    (∀ u ∈ subs, Displays w.db a u) ∧ ∀ u, Displays w.db a u → u ∈ subs ∨ u ∈ failed

theorem Settled.good {a : Address} {w : World Links} (h : Settled a w) :
    Good (w.outside.link a) (HomeServer.Services.marked w a) (Displays w.db a) := by
  rcases h.live with ⟨hd, -⟩ | ⟨subs, failed, hu, hsub, hall⟩
  · rw [hd]
    trivial
  · rw [hu]
    exact ⟨hsub, fun _ => hall⟩

theorem Settled.isUp {a : Address} {w : World Links} (h : Settled a w)
    (hkept : a ∉ w.outside.drops) : (w.outside.link a).isUp = true := by
  rcases h.live with ⟨-, hin⟩ | ⟨subs, failed, hu, -⟩
  · exact absurd hin hkept
  · rw [hu]
    rfl

theorem marked_of_monitor {w : World Links} {a : Address} {s : DeviceMonitorState}
    (h : w.monitor a = some s) : marked w a = s.subscribed := by
  unfold marked
  rw [h]
  rfl

theorem subscribeOnce_links {d : Device} {w : World Links} {s : DeviceMonitorState}
    {subs₀ failed₀ : List Uuid} (hs : w.monitor d.address = some s)
    (hup : w.outside.link d.address = .up subs₀ failed₀)
    (hD : ∀ u, Displays w.db d.address u ↔ Listed w.db d u)
    (hgood : Good (w.outside.link d.address) (marked w d.address) (Displays w.db d.address)) :
    (subscribeOnce linksEnv d).After
      (fun r w' => r = .ok () ∧ w'.db = w.db ∧ Local d.address w w' ∧
        w'.monitor d.address = some { s with subscribed := true } ∧
        Live d.address w'.outside fun subs failed =>
          (∀ u ∈ subs, Displays w.db d.address u) ∧
            ∀ u, Displays w.db d.address u → u ∈ subs ∨ u ∈ failed) w := by
  rw [hup, marked_of_monitor hs] at hgood
  unfold subscribeOnce
  rw [Action.after_bind, after_stateOf, Action.then_ok, hs, Option.getD_some, Action.after_ite]
  split
  · rename_i hsub
    have hsame : { s with subscribed := true } = s := by rw [← hsub]
    exact ⟨rfl, rfl, .refl _ w, hsame ▸ hs, Or.inr ⟨subs₀, failed₀, hup, hgood.1, hgood.2 hsub⟩⟩
  · refine (subscribeDisplayChannels_links d hup).bind_ok ?_
    rintro w₁ ⟨hdb, hm, hcalls, hlive⟩
    rw [after_updateState, hm, hs, Option.getD_some]
    refine ⟨rfl, hdb, ⟨fun b hb => Function.update_of_ne hb _ _, hcalls⟩,
      Function.update_self _ _ _, hlive.mono fun subs failed h => ⟨fun u hu => ?_, fun u hu => ?_⟩⟩
    · exact (h.1 u hu).elim (hgood.1 u) (hD u).mpr
    · exact h.2 u ((hD u).mp hu)

theorem onConnected_links {d : Device} {w : World Links} {s : DeviceMonitorState}
    {subs₀ failed₀ : List Uuid} (hs : w.monitor d.address = some s)
    (hup : w.outside.link d.address = .up subs₀ failed₀)
    (hD : ∀ u, Displays w.db d.address u ↔ Listed w.db d u)
    (hgood : Good (w.outside.link d.address) (marked w d.address) (Displays w.db d.address)) :
    (onConnected linksEnv d).After
      (fun r w' => r = .ok () ∧ SameRows w.db w'.db ∧ Local d.address w w' ∧
        Settled d.address w') w := by
  unfold onConnected
  refine (subscribeOnce_links hs hup hD hgood).bind_ok ?_
  rintro w₁ ⟨hdb₁, hloc₁, hm₁, hlive⟩
  rw [Action.after_bind, after_updateState, Action.then_ok, hm₁, Option.getD_some]
  generalize hw₂ : ({ w₁ with monitor := Function.update w₁.monitor d.address _ } : World Links) = w₂
  have hm₂ : w₂.monitor d.address =
      some { s with subscribed := true, backoffS := reconnectBaseS, nextRetryAt := 0 } := by
    rw [← hw₂]
    exact Function.update_self _ _ _
  have hloc₂ : Local d.address w w₂ := by
    rw [← hw₂]
    exact hloc₁.trans ⟨fun b hb => Function.update_of_ne hb _ _, .refl _ _⟩
  have hout₂ : w₂.outside = w₁.outside := by rw [← hw₂]
  have hdb₂ : w₂.db = w.db := by rw [← hw₂]; exact hdb₁
  have hfinal : ∀ w₃ : World Links, SameRows w.db w₃.db → w₃.monitor = w₂.monitor →
      w₃.outside = w₂.outside → (setStatus linksEnv d.id d.address .connected).After
        (fun r w' => r = .ok () ∧ SameRows w.db w'.db ∧ Local d.address w w' ∧
          Settled d.address w') w₃ := by
    intro w₃ hrows hm₃ hout₃
    rw [← hm₃] at hm₂
    apply (setStatus_links d .connected hm₂).mono
    rintro r w₄ ⟨rfl, hdb₄, hout₄, hm₄⟩
    have hm : w₄.monitor d.address = some
        { s with
          lastStatus := some .connected, subscribed := true, backoffS := reconnectBaseS
          nextRetryAt := 0 } := by
      rw [hm₄, Function.update_self]
    refine ⟨rfl, hdb₄ ▸ hrows, ⟨fun b hb => ?_, ?_⟩, marked_of_monitor hm, ?_⟩
    · rw [hm₄, Function.update_of_ne hb, hm₃]
      exact hloc₂.monitor b hb
    · rw [hout₄, hout₃]
      exact hloc₂.links
    · rw [hout₄, hout₃, hout₂]
      refine hlive.mono fun subs failed h => ⟨fun u hu => ?_, fun u hu => ?_⟩
      · exact ((hdb₄ ▸ hrows).displays d.address u).mp (h.1 u hu)
      · exact h.2 u (((hdb₄ ▸ hrows).displays d.address u).mpr hu)
  unfold touchUnlessConnected
  rw [Action.after_bind, Action.after_bind, after_stateOf, Action.then_ok, Action.after_ite]
  split
  · exact hfinal w₂ (hdb₂ ▸ .refl _) rfl rfl
  · apply (touchLastConnected_links d.id w₂).mono
    rintro r w₃ ⟨rfl, hrows, hm₃, hout₃⟩
    exact hfinal w₃ (hdb₂ ▸ hrows) hm₃ hout₃

theorem reportDrop_links {now : ℚ} {d : Device} {w : World Links} {s : DeviceMonitorState}
    (hs : w.monitor d.address = some s) :
    (reportDrop linksEnv now d).After
      (fun r w' => r = .ok () ∧ SameRows w.db w'.db ∧ w'.outside = w.outside ∧
        Local d.address w w' ∧ marked w' d.address = s.subscribed) w := by
  have hfinal : ∀ w₁ : World Links, SameRows w.db w₁.db → w₁.monitor = w.monitor →
      w₁.outside = w.outside →
      (do updateState d.address fun s =>
            { s with backoffS := reconnectBaseS, nextRetryAt := now + reconnectBaseS }
          setStatus linksEnv d.id d.address .disconnected : Runtime Links Unit).After
        (fun r w' => r = .ok () ∧ SameRows w.db w'.db ∧ w'.outside = w.outside ∧
          Local d.address w w' ∧ marked w' d.address = s.subscribed) w₁ := by
    intro w₁ hrows hm hout
    rw [Action.after_bind, after_updateState, Action.then_ok, hm, hs, Option.getD_some]
    apply (setStatus_links d .disconnected (Function.update_self _ _ _)).mono
    rintro r w₂ ⟨rfl, hdb₂, hout₂, hm₂⟩
    have hentry : w₂.monitor d.address = some
        { s with
          lastStatus := some .disconnected, backoffS := reconnectBaseS
          nextRetryAt := now + reconnectBaseS } := by
      rw [hm₂, Function.update_self]
    refine ⟨rfl, hdb₂ ▸ hrows, hout₂.trans hout, ⟨fun b hb => ?_, ?_⟩,
      (marked_of_monitor hentry).trans rfl⟩
    · rw [hm₂, Function.update_of_ne hb]
      exact Function.update_of_ne hb _ _
    · rw [hout₂.trans hout]
      exact .refl _ _
  unfold reportDrop
  rw [Action.after_bind, after_stateOf, Action.then_ok, Action.after_bind, Action.after_ite]
  split
  · apply (touchLastConnected_links d.id w).mono
    rintro r w₁ ⟨rfl, hrows, hm, hout⟩
    exact hfinal w₁ hrows hm hout
  · exact hfinal w (.refl _) rfl rfl

theorem ensureConnecting_good {a : Address} {l : Links} {D : Uuid → Prop}
    (h : Good (l.link a) false D) : Good ((Links.ensureConnecting a l).2.link a) false D := by
  have h' := h.evolved (l.evolvedAt_advance a)
  unfold Links.ensureConnecting
  dsimp only
  split
  · exact h'
  · split
    · rw [Links.set_self]
      rfl
    · exact h'

theorem isConnected_links (a : Address) (w : World Links) {Q : Except Err Bool → World Links → Prop}
    (h : ∀ w', w'.db = w.db → w'.monitor = w.monitor → Links.EvolvedAt a w.outside w'.outside →
      Links.Calls a w.outside w'.outside → Q (.ok (w'.outside.link a).isUp) w') :
    (isConnected linksEnv a).After Q w :=
  h { w with
      outside := w.outside.advance.2
      trace := w.trace ++ [.linked a (w.outside.advance.2.link a).isUp] }
    rfl rfl (w.outside.evolvedAt_advance a) (Links.calls_advance a _)

theorem Link.exists_of_isUp {link : Link} (h : link.isUp = true) :
    ∃ subs failed, link = .up subs failed := by
  cases link with
  | up subs failed => exact ⟨subs, failed, rfl⟩
  | down | attempting => cases h

theorem retryConnect_links {now : ℚ} {d : Device} {w : World Links} {s : DeviceMonitorState}
    (hs : w.monitor d.address = some s) (hsub : s.subscribed = false)
    (hD : ∀ u, Displays w.db d.address u ↔ Listed w.db d u)
    (hgood : Good (w.outside.link d.address) false (Displays w.db d.address)) :
    (retryConnect linksEnv now d).After
      (fun _ w' => SameRows w.db w'.db ∧ Local d.address w w' ∧
        Good (w'.outside.link d.address) (marked w' d.address) (Displays w'.db d.address)) w := by
  unfold retryConnect
  refine (setStatus_links d .reconnecting hs).bind_ok ?_
  rintro w₁ ⟨hdb₁, hout₁, hm₁⟩
  have hentry₁ : w₁.monitor d.address = some { s with lastStatus := some .reconnecting } := by
    rw [hm₁, Function.update_self]
  have hloc₁ : Local d.address w w₁ :=
    ⟨fun b hb => by rw [hm₁, Function.update_of_ne hb], hout₁ ▸ .refl _ _⟩
  rw [← hdb₁, ← hout₁] at hgood
  unfold ensureConnecting
  rw [Action.after_bind, Action.after_bind, after_log, Action.then_ok, after_call]
  generalize hw₂ : ({ w₁ with
      trace := w₁.trace ++ [.ensured d.address]
      outside := (linksEnv.ble.ensureConnecting d.address d.addrType w₁.outside).2 } :
    World Links) = w₂
  have hmon₂ : w₂.monitor = w₁.monitor := by rw [← hw₂]
  have hdb₂ : w₂.db = w₁.db := by rw [← hw₂]
  have hout₂ : w₂.outside = (Links.ensureConnecting d.address w₁.outside).2 := by rw [← hw₂]; rfl
  have hgood₂ : Good (w₂.outside.link d.address) false (Displays w₂.db d.address) := by
    rw [hout₂, hdb₂]
    exact ensureConnecting_good hgood
  have hloc₂ : Local d.address w w₂ :=
    hloc₁.trans ⟨fun b _ => by rw [hmon₂], hout₂ ▸ Links.ensureConnecting_calls _ _⟩
  rw [← hmon₂] at hentry₁
  have hunmarked : marked w₂ d.address = false := (marked_of_monitor hentry₁).trans hsub
  have hrows₂ : SameRows w.db w₂.db := by rw [hdb₂, hdb₁]; exact .refl _
  cases hans : (linksEnv.ble.ensureConnecting d.address d.addrType w₁.outside).1 with
  | error e => exact ⟨hrows₂, hloc₂, hunmarked ▸ hgood₂⟩
  | ok u =>
    rw [Action.then_ok, Action.after_bind]
    apply isConnected_links d.address w₂
    intro w₃ hdb₃ hm₃ hev hcalls
    have hgood₃ : Good (w₃.outside.link d.address) false (Displays w₃.db d.address) :=
      hdb₃ ▸ hgood₂.evolved hev
    have hloc₃ : Local d.address w w₃ := hloc₂.trans ⟨fun b _ => by rw [hm₃], hcalls⟩
    have hrows₃ : SameRows w.db w₃.db := hdb₃ ▸ hrows₂
    rw [← hm₃] at hentry₁
    have hunmarked₃ : marked w₃ d.address = false := (marked_of_monitor hentry₁).trans hsub
    rw [Action.then_ok]
    split
    · rename_i hup
      obtain ⟨subs, failed, hlink⟩ := Link.exists_of_isUp hup
      have hD₃ : ∀ u, Displays w₃.db d.address u ↔ Listed w₃.db d u := by
        rw [hdb₃, hdb₂, hdb₁]
        exact hD
      apply (onConnected_links hentry₁ hlink hD₃ (hunmarked₃ ▸ hgood₃)).mono
      rintro r w₄ ⟨-, hrows₄, hloc₄, hsettled⟩
      exact ⟨hrows₃.trans hrows₄, hloc₃.trans hloc₄, hsettled.good⟩
    · rw [Action.after_bind, after_updateState, Action.then_ok, hentry₁, Option.getD_some,
        after_updateState]
      refine ⟨hrows₃, hloc₃.trans ((local_set _ _ _).trans (local_set _ _ _)), ?_⟩
      simpa [marked_set, hsub] using hgood₃

/-- One device of a tick keeps the invariant of its address and touches no other. -/
theorem tickDevice_links {now : ℚ} {d : Device} {w : World Links}
    (hD : ∀ u, Displays w.db d.address u ↔ Listed w.db d u)
    (hgood : Good (w.outside.link d.address) (marked w d.address) (Displays w.db d.address)) :
    (tickDevice linksEnv now d).After
      (fun _ w' => SameRows w.db w'.db ∧ Local d.address w w' ∧
        Good (w'.outside.link d.address) (marked w' d.address) (Displays w'.db d.address) ∧
        ((w.outside.link d.address).isUp = true → d.address ∉ w'.outside.drops →
          Settled d.address w')) w := by
  unfold tickDevice
  rw [Action.after_bind, after_updateState, Action.then_ok, id]
  generalize hw₁ : ({ w with monitor := Function.update w.monitor d.address _ } : World Links) = w₁
  have hentry₁ : w₁.monitor d.address = some ((w.monitor d.address).getD {}) := by
    rw [← hw₁]
    exact Function.update_self _ _ _
  have hdb₁ : w₁.db = w.db := by rw [← hw₁]
  have hout₁ : w₁.outside = w.outside := by rw [← hw₁]
  have hloc₁ : Local d.address w w₁ := by
    rw [← hw₁]
    exact local_set _ _ _
  have hmark₁ : marked w₁ d.address = marked w d.address := by
    rw [marked_of_monitor hentry₁]
    unfold marked
    cases w.monitor d.address <;> rfl
  rw [← hdb₁, ← hout₁, ← hmark₁] at hgood
  rw [Action.after_bind]
  apply isConnected_links d.address w₁
  intro w₂ hdb₂ hm₂ hev hcalls
  have hgood₂ := hdb₂ ▸ hgood.evolved hev
  have hloc₂ : Local d.address w w₂ := hloc₁.trans ⟨fun b _ => by rw [hm₂], hcalls⟩
  have hrows₂ : SameRows w.db w₂.db := by rw [hdb₂, hdb₁]; exact .refl _
  have hD₂ : ∀ u, Displays w₂.db d.address u ↔ Listed w₂.db d u := by
    rw [hdb₂, hdb₁]
    exact hD
  rw [← hm₂] at hentry₁
  have hmark₂ : marked w₂ d.address = marked w₁ d.address := by
    unfold marked
    rw [hm₂]
  rw [← hmark₂] at hgood₂
  rw [Action.then_ok]
  split
  · rename_i hup
    obtain ⟨subs, failed, hlink⟩ := Link.exists_of_isUp hup
    apply (onConnected_links hentry₁ hlink hD₂ hgood₂).mono
    rintro r w₃ ⟨-, hrows₃, hloc₃, hsettled⟩
    exact ⟨hrows₂.trans hrows₃, hloc₂.trans hloc₃, hsettled.good, fun _ _ => hsettled⟩
  rename_i hdown
  have hdrop : (w.outside.link d.address).isUp = true → d.address ∈ w₂.outside.drops := by
    intro hup
    rw [← hout₁] at hup
    rcases hev.link with hs | ⟨-, hin⟩ | ⟨-, hu⟩
    · rw [hs] at hdown
      exact absurd hup hdown
    · exact hin hup
    · rw [hu] at hdown
      exact absurd rfl hdown
  have hclose : ∀ w' : World Links, Local d.address w₂ w' →
      (w.outside.link d.address).isUp = true → d.address ∉ w'.outside.drops →
        Settled d.address w' :=
    fun w' hloc hup hnot => absurd (hloc.links.drops _ (hdrop hup)) hnot
  rw [Action.after_bind, after_updateState, Action.then_ok, hentry₁, Option.getD_some,
    Action.after_bind, after_stateOf, Action.then_ok]
  generalize hw₃ : ({ w₂ with monitor := Function.update w₂.monitor d.address _ } : World Links) = w₃
  have hentry₃ : w₃.monitor d.address =
      some { (w.monitor d.address).getD {} with subscribed := false } := by
    rw [← hw₃]
    exact Function.update_self _ _ _
  have hdb₃ : w₃.db = w₂.db := by rw [← hw₃]
  have hout₃ : w₃.outside = w₂.outside := by rw [← hw₃]
  have hloc₃ : Local d.address w₂ w₃ := by
    rw [← hw₃]
    exact local_set _ _ _
  have hgood₃ : Good (w₃.outside.link d.address) false (Displays w₃.db d.address) := by
    rw [hdb₃, hout₃]
    exact hgood₂.unmark
  have hunmarked₃ : marked w₃ d.address = false := marked_of_monitor hentry₃
  have hrows₃ : SameRows w.db w₃.db := hdb₃ ▸ hrows₂
  rw [Action.after_ite, Action.after_ite]
  split
  · apply (reportDrop_links hentry₃).mono
    rintro r w₄ ⟨-, hrows₄, hout₄, hloc₄, hmark₄⟩
    refine ⟨hrows₃.trans hrows₄, hloc₂.trans (hloc₃.trans hloc₄), ?_,
      fun hup hnot => hclose w₄ (hloc₃.trans hloc₄) hup hnot⟩
    rw [hout₄, hmark₄]
    exact hgood₃.congr fun u => hrows₄.displays d.address u
  split
  · have hD₃ : ∀ u, Displays w₃.db d.address u ↔ Listed w₃.db d u := hdb₃ ▸ hD₂
    apply (retryConnect_links hentry₃ rfl hD₃ hgood₃).mono
    rintro r w₄ ⟨hrows₄, hloc₄, hgood₄⟩
    exact ⟨hrows₃.trans hrows₄, hloc₂.trans (hloc₃.trans hloc₄), hgood₄,
      fun hup hnot => hclose w₄ (hloc₃.trans hloc₄) hup hnot⟩
  · exact ⟨hrows₃, hloc₂.trans hloc₃, hunmarked₃ ▸ hgood₃,
      fun hup hnot => hclose w₃ hloc₃ hup hnot⟩

end BleRuntime
end HomeServer.Services
