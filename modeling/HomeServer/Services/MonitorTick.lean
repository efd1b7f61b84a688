import HomeServer.Services.BleRuntime

/-! One pass of the reconnect monitor, device by device: what it does to the entry of the
device and which calls it makes. -/
namespace HomeServer.Services
open HomeServer.Db HomeServer.Ble HomeServer.Lib

def DeviceMonitorState.linkUp : DeviceMonitorState :=
  { lastStatus := some .connected, backoffS := reconnectBaseS, nextRetryAt := 0, subscribed := true }

namespace BleRuntime
variable {β : Type} {E : Env β} {w w' w'' : World β} {now : ℚ} {d : Device}

def announce (d : Device) (s : DeviceMonitorState) (status : Status) : List Event :=
  if s.lastStatus = some status then [] else [.status d.id status]

def connectedEvents (d : Device) (s : DeviceMonitorState) : List Event :=
  if s.lastStatus = some .connected then [] else [.touched d.id, .status d.id .connected]

/-- The monitor ends with entry `s` for `a` and all others as before, having made the calls
`events`. -/
structure Ran (w : World β) (a : Address) (s : DeviceMonitorState) (events : List Event)
    (w' : World β) : Prop where
  monitor : w'.monitor = Function.update w.monitor a (some s)
  trace : w'.trace = w.trace ++ events

theorem Ran.trans {a : Address} {s s' : DeviceMonitorState} {es es' : List Event}
    (h : Ran w a s es w') (h' : Ran w' a s' es' w'') : Ran w a s' (es ++ es') w'' := by
  constructor
  · rw [h'.monitor, h.monitor, Function.update_idem]
  · rw [h'.trace, h.trace, List.append_assoc]

theorem Ran.entry {a : Address} {s : DeviceMonitorState} {es : List Event}
    (h : Ran w a s es w') : w'.monitor a = some s := by
  rw [h.monitor, Function.update_self]

theorem Ran.refl {a : Address} {s : DeviceMonitorState} (hs : w.monitor a = some s) :
    Ran w a s [] w :=
  ⟨by rw [← hs, Function.update_eq_self], by rw [List.append_nil]⟩

theorem Ran.log {a : Address} {s : DeviceMonitorState} {es : List Event}
    (h : Ran w a s es w') (e : Event) (b : β) :
    Ran w a s (es ++ [e]) { w' with outside := b, trace := w'.trace ++ [e] } :=
  ⟨h.monitor, by rw [← List.append_assoc, ← h.trace]⟩

theorem Ran.set {a : Address} {s : DeviceMonitorState} {es : List Event}
    (h : Ran w a s es w') (s' : DeviceMonitorState) :
    Ran w a s' es { w' with monitor := Function.update w'.monitor a (some s') } :=
  ⟨by rw [h.monitor, Function.update_idem], h.trace⟩

/-- Whatever a subscribe raises is passed over, and neither the monitor nor the database is
touched. -/
theorem subscribeEach_spec (E : Env β) (d : Device) (cs : List Channel) (w : World β) :
    (forM cs fun c =>
        if c.type = .display then ignoringErrors (subscribeChannel E d.address c)
        else pure () : Runtime β Unit).After
      (fun r w' => r = .ok () ∧ w'.monitor = w.monitor ∧ w'.trace = w.trace ∧ w'.db = w.db) w := by
  refine Action.after_forM
    (fun _ w' => w'.monitor = w.monitor ∧ w'.trace = w.trace ∧ w'.db = w.db)
    (fun _ h => ⟨rfl, h⟩) (fun c cs w₁ h => ?_) _ _ ⟨rfl, rfl, rfl⟩
  rw [Action.after_ite]
  split
  · unfold subscribeChannel
    rw [after_ignoringErrors, Action.after_bind, after_call]
    cases (E.ble.subscribe d.address c.charUuid c.id w₁.outside).1 <;> exact h
  · exact h

theorem subscribeDisplayChannels_spec (hE : E.Quiet) (d : Device) (w : World β) :
    (subscribeDisplayChannels E d).After
      (fun r w' => r = .ok () ∧ w'.monitor = w.monitor ∧ w'.trace = w.trace ∧ w'.db = w.db) w := by
  unfold subscribeDisplayChannels
  rw [Action.after_bind]
  apply after_query hE _
  intro b
  exact subscribeEach_spec E d _ _

theorem touchLastConnected_spec (hE : E.Quiet) (deviceId : ℕ) (w : World β) :
    (touchLastConnected E deviceId).After
      (fun r w' => r = .ok () ∧ w'.monitor = w.monitor ∧
        w'.trace = w.trace ++ [.touched deviceId]) w := by
  unfold touchLastConnected
  rw [Action.after_bind, after_log, Action.then_ok, Action.after_bind, after_ask, Action.then_ok]
  exact after_execute hE _ fun b => ⟨rfl, rfl, rfl⟩

theorem setStatus_spec (hE : E.Quiet) {s : DeviceMonitorState} (hs : w.monitor d.address = some s)
    (status : Status) :
    (setStatus E d.id d.address status).After
      (fun r w' => r = .ok () ∧
        Ran w d.address { s with lastStatus := some status } (announce d s status) w') w := by
  unfold setStatus announce
  rw [Action.after_bind, after_stateOf, Action.then_ok, hs, Option.getD_some, Action.after_ite]
  split
  · rename_i heq
    have hsame : { s with lastStatus := some status } = s := by rw [← heq]
    rw [hsame]
    exact ⟨rfl, Ran.refl hs⟩
  · obtain ⟨b, hb⟩ := hE.status d.id status w.outside
    simp only [Action.after_bind, after_updateState, after_log, after_call, Action.then_ok, hb, hs]
    exact ⟨trivial, rfl, rfl⟩

theorem subscribeOnce_spec (hE : E.Quiet) {s : DeviceMonitorState}
    (hs : w.monitor d.address = some s) :
    (subscribeOnce E d).After
      (fun r w' => r = .ok () ∧ Ran w d.address { s with subscribed := true } [] w') w := by
  unfold subscribeOnce
  rw [Action.after_bind, after_stateOf, Action.then_ok, hs, Option.getD_some, Action.after_ite]
  split
  · rename_i hsub
    have hsame : { s with subscribed := true } = s := by rw [← hsub]
    exact ⟨rfl, hsame.symm ▸ Ran.refl hs⟩
  · refine (subscribeDisplayChannels_spec hE d w).bind_ok ?_
    rintro w₁ ⟨hm, ht, -⟩
    rw [after_updateState, hm, hs, Option.getD_some]
    exact ⟨rfl, rfl, by simp [ht]⟩

theorem touchUnlessConnected_spec (hE : E.Quiet) {s : DeviceMonitorState}
    (hs : w.monitor d.address = some s) :
    (touchUnlessConnected E d).After
      (fun r w' => r = .ok () ∧ Ran w d.address s
        (if s.lastStatus = some .connected then [] else [.touched d.id]) w') w := by
  unfold touchUnlessConnected
  rw [Action.after_bind, after_stateOf, Action.then_ok, hs, Option.getD_some, Action.after_ite]
  split
  · exact ⟨rfl, Ran.refl hs⟩
  · apply (touchLastConnected_spec hE d.id w).mono
    rintro r w₁ ⟨rfl, hm, ht⟩
    exact ⟨rfl, by rw [hm, ← hs, Function.update_eq_self], ht⟩

theorem onConnected_spec (hE : E.Quiet) {s : DeviceMonitorState}
    (hs : w.monitor d.address = some s) :
    (onConnected E d).After
      (fun r w' => r = .ok () ∧ Ran w d.address .linkUp (connectedEvents d s) w') w := by
  have hevents : connectedEvents d s =
      (if s.lastStatus = some .connected then [] else [.touched d.id]) ++
        announce d s .connected := by
    unfold connectedEvents announce
    split <;> rfl
  unfold onConnected
  refine (subscribeOnce_spec hE hs).bind_ok fun w₁ h₁ => ?_
  rw [Action.after_bind, after_updateState, Action.then_ok, h₁.entry, Option.getD_some]
  have h₂ := h₁.set { s with subscribed := true, backoffS := reconnectBaseS, nextRetryAt := 0 }
  refine (touchUnlessConnected_spec hE h₂.entry).bind_ok fun w₃ h₃ => ?_
  refine (setStatus_spec hE h₃.entry .connected).mono fun r w₄ h₄ => ⟨h₄.1, ?_⟩
  rw [hevents]
  exact (h₂.trans h₃).trans h₄.2

/-- What one pass does for one device, by what `is_connected` answers and what was reported
last. -/
inductive DeviceStep (now : ℚ) (d : Device) (s : DeviceMonitorState) :
    List Event → Except Err Unit → DeviceMonitorState → Prop
  | connected : DeviceStep now d s (.linked d.address true :: connectedEvents d s) (.ok ()) .linkUp
  | dropped (h : s.lastStatus = none ∨ s.lastStatus = some .connected) :
      DeviceStep now d s
        (.linked d.address false ::
          (if s.lastStatus = some .connected then [.touched d.id] else []) ++
            [.status d.id .disconnected])
        (.ok ())
        { lastStatus := some .disconnected, nextRetryAt := now + reconnectBaseS }
  | waiting (h : ¬(s.lastStatus = none ∨ s.lastStatus = some .connected))
      (hnow : now < s.nextRetryAt) :
      DeviceStep now d s [.linked d.address false] (.ok ()) { s with subscribed := false }
  | reconnected (h : ¬(s.lastStatus = none ∨ s.lastStatus = some .connected))
      (hnow : s.nextRetryAt ≤ now) :
      DeviceStep now d s
        (.linked d.address false :: announce d s .reconnecting ++
          [.ensured d.address, .linked d.address true, .touched d.id, .status d.id .connected])
        (.ok ()) .linkUp
  | missed (h : ¬(s.lastStatus = none ∨ s.lastStatus = some .connected))
      (hnow : s.nextRetryAt ≤ now) :
      DeviceStep now d s
        (.linked d.address false :: announce d s .reconnecting ++
          [.ensured d.address, .linked d.address false])
        (.ok ())
        { lastStatus := some .reconnecting
          backoffS := min (s.backoffS * reconnectFactor) reconnectCapS
          nextRetryAt := now + min (s.backoffS * reconnectFactor) reconnectCapS }
  | raised (h : ¬(s.lastStatus = none ∨ s.lastStatus = some .connected))
      (hnow : s.nextRetryAt ≤ now) (e : Err) :
      DeviceStep now d s
        (.linked d.address false :: announce d s .reconnecting ++ [.ensured d.address])
        (.error e) { s with lastStatus := some .reconnecting, subscribed := false }

theorem reportDrop_spec (hE : E.Quiet) {s : DeviceMonitorState}
    (hs : w.monitor d.address = some s)
    (h : s.lastStatus = none ∨ s.lastStatus = some .connected) :
    (reportDrop E now d).After
      (fun r w' => r = .ok () ∧ Ran w d.address
        { s with
          lastStatus := some .disconnected
          backoffS := reconnectBaseS
          nextRetryAt := now + reconnectBaseS }
        ((if s.lastStatus = some .connected then [.touched d.id] else []) ++
          [.status d.id .disconnected]) w') w := by
  have hnot : ¬s.lastStatus = some .disconnected := by rcases h with h | h <;> simp [h]
  have hfinal : ∀ (es : List Event) (w₁ : World β), Ran w d.address s es w₁ →
      (do updateState d.address fun s =>
            { s with backoffS := reconnectBaseS, nextRetryAt := now + reconnectBaseS }
          setStatus E d.id d.address .disconnected : Runtime β Unit).After
        (fun r w' => r = .ok () ∧ Ran w d.address
          { s with
            lastStatus := some .disconnected
            backoffS := reconnectBaseS
            nextRetryAt := now + reconnectBaseS }
          (es ++ [.status d.id .disconnected]) w') w₁ := by
    intro es w₁ h₁
    rw [Action.after_bind, after_updateState, Action.then_ok, h₁.entry, Option.getD_some]
    have h₂ := h₁.set { s with backoffS := reconnectBaseS, nextRetryAt := now + reconnectBaseS }
    refine (setStatus_spec hE h₂.entry .disconnected).mono fun r w₃ h₃ => ⟨h₃.1, ?_⟩
    have hev : announce d { s with backoffS := reconnectBaseS, nextRetryAt := now + reconnectBaseS }
        .disconnected = [.status d.id .disconnected] := if_neg hnot
    exact hev ▸ h₂.trans h₃.2
  unfold reportDrop
  rw [Action.after_bind, after_stateOf, Action.then_ok, hs, Option.getD_some, Action.after_bind,
    Action.after_ite]
  split
  · apply (touchLastConnected_spec hE d.id w).mono
    rintro r w₁ ⟨rfl, hm, ht⟩
    exact hfinal [.touched d.id] w₁ ⟨by rw [hm, ← hs, Function.update_eq_self], ht⟩
  · exact hfinal [] w (Ran.refl hs)

/-- The attempt of a device whose retry is due, once its link was seen down. -/
theorem retryConnect_spec (hE : E.Quiet) {s : DeviceMonitorState}
    (hdue : ¬(s.lastStatus = none ∨ s.lastStatus = some .connected)) (hnow : s.nextRetryAt ≤ now)
    (h : Ran w d.address { s with subscribed := false } [.linked d.address false] w') :
    (retryConnect E now d).After
      (fun r w' => (r = .ok () ∨ ∃ b, (E.ble.ensureConnecting d.address d.addrType b).1 = r) ∧
        ∃ es s', DeviceStep now d s es r s' ∧ Ran w d.address s' es w') w' := by
  unfold retryConnect
  refine (setStatus_spec hE h.entry .reconnecting).bind_ok fun w₁ h₁ => ?_
  have h₂ := (h.trans h₁).log (.ensured d.address) (E.ble.ensureConnecting d.address d.addrType
    w₁.outside).2
  unfold ensureConnecting
  rw [Action.after_bind, Action.after_bind, after_log, Action.then_ok, after_call]
  cases hcall : (E.ble.ensureConnecting d.address d.addrType w₁.outside).1 with
  | error e =>
    refine ⟨Or.inr ⟨_, hcall⟩, _, _, .raised hdue hnow e, ?_⟩
    simpa [hcall, announce] using h₂
  | ok u =>
    rw [Action.then_ok, Action.after_bind, after_isConnected, Action.then_ok]
    generalize hb : (E.ble.isConnected d.address _).1 = up
    have h₃ := h₂.log (.linked d.address up) (E.ble.isConnected d.address
      (E.ble.ensureConnecting d.address d.addrType w₁.outside).2).2
    cases up with
    | true =>
      apply (onConnected_spec hE h₃.entry).mono
      rintro r w₄ ⟨rfl, h₄⟩
      refine ⟨Or.inl rfl, _, _, .reconnected hdue hnow, ?_⟩
      simpa [connectedEvents, announce] using h₃.trans h₄
    | false =>
      have h₄ := (h₃.set { s with
        lastStatus := some .reconnecting
        backoffS := min (s.backoffS * reconnectFactor) reconnectCapS
        subscribed := false }).set
        { lastStatus := some .reconnecting
          backoffS := min (s.backoffS * reconnectFactor) reconnectCapS
          nextRetryAt := now + min (s.backoffS * reconnectFactor) reconnectCapS }
      rw [if_neg Bool.false_ne_true, Action.after_bind, after_updateState, Action.then_ok,
        after_updateState]
      refine ⟨Or.inl rfl, _, _, .missed hdue hnow, ?_⟩
      simpa [(h.trans h₁).entry, announce] using h₄

/-- The only call of a tick that can raise is `ensure_connecting`. -/
theorem tickDevice_spec (hE : E.Quiet) (now : ℚ) (d : Device) (w : World β) :
    (tickDevice E now d).After
      (fun r w' => (r = .ok () ∨ ∃ b, (E.ble.ensureConnecting d.address d.addrType b).1 = r) ∧
        ∃ es s', DeviceStep now d ((w.monitor d.address).getD {}) es r s' ∧
          Ran w d.address s' es w') w := by
  have h₁ : Ran w d.address ((w.monitor d.address).getD {}) [] { w with
      monitor := Function.update w.monitor d.address (some ((w.monitor d.address).getD {})) } :=
    ⟨rfl, (List.append_nil _).symm⟩
  unfold tickDevice
  rw [Action.after_bind, after_updateState, Action.then_ok, id]
  generalize (w.monitor d.address).getD {} = s at h₁ ⊢
  generalize ({ w with monitor := Function.update w.monitor d.address (some s) } : World β) = w₁
    at h₁ ⊢
  rw [Action.after_bind, after_isConnected, Action.then_ok]
  generalize hb : (E.ble.isConnected d.address _).1 = up
  have h₂ := h₁.log (.linked d.address up) (E.ble.isConnected d.address w₁.outside).2
  cases up with
  | true =>
    apply (onConnected_spec hE h₂.entry).mono
    rintro r w₃ ⟨rfl, h₃⟩
    exact ⟨Or.inl rfl, _, _, .connected, h₂.trans h₃⟩
  | false =>
    rw [if_neg Bool.false_ne_true, Action.after_bind, after_updateState, Action.then_ok,
      Action.after_bind, after_stateOf, Action.then_ok, h₂.entry, Option.getD_some]
    have h₃ := h₂.set { s with subscribed := false }
    rw [h₃.entry, Option.getD_some, Action.after_ite, Action.after_ite]
    split
    · rename_i hdrop
      apply (reportDrop_spec hE h₃.entry hdrop).mono
      rintro r w₄ ⟨rfl, h₄⟩
      exact ⟨Or.inl rfl, _, _, .dropped hdrop, h₃.trans h₄⟩
    rename_i hdue
    split
    · rename_i hnow
      exact retryConnect_spec hE hdue hnow h₃
    · rename_i hnow
      exact ⟨Or.inl rfl, _, _, .waiting hdue (not_le.mp hnow), h₃⟩

def concerns (i : ℕ) (a : Address) : Event → Bool
  | .status j _ | .touched j => j = i
  | .ensured b | .linked b _ => b = a

theorem DeviceStep.concerns {s s' : DeviceMonitorState} {es : List Event} {r : Except Err Unit}
    (h : DeviceStep now d s es r s') :
    ∀ e ∈ es, BleRuntime.concerns d.id d.address e = true := by
  have hannounce : ∀ e ∈ announce d s .reconnecting,
      BleRuntime.concerns d.id d.address e = true := by
    unfold announce
    split <;> simp [BleRuntime.concerns]
  cases h with
  | connected =>
    unfold connectedEvents
    split <;> simp [BleRuntime.concerns]
  | dropped => split <;> simp [BleRuntime.concerns]
  | waiting => simp [BleRuntime.concerns]
  | reconnected | missed | raised =>
    simp only [List.cons_append, List.forall_mem_cons, List.forall_mem_append]
    exact ⟨by simp [BleRuntime.concerns], hannounce, by simp [BleRuntime.concerns]⟩

theorem DeviceStep.filter_self {s s' : DeviceMonitorState} {es : List Event}
    {r : Except Err Unit} (h : DeviceStep now d s es r s') :
    es.filter (BleRuntime.concerns d.id d.address) = es :=
  List.filter_eq_self.mpr h.concerns

theorem DeviceStep.filter_other {s s' : DeviceMonitorState} {es : List Event}
    {r : Except Err Unit} (h : DeviceStep now d s es r s') {i : ℕ} {a : Address}
    (hi : d.id ≠ i) (ha : d.address ≠ a) : es.filter (BleRuntime.concerns i a) = [] := by
  rw [List.filter_eq_nil_iff]
  intro e he
  have hd := h.concerns e he
  cases e <;> simp_all [BleRuntime.concerns]

/-- A tick for one registered device: it is passed over only when an earlier device raised. -/
inductive TickStep (now : ℚ) (d : Device) (s : Option DeviceMonitorState) :
    List Event → Except Err Unit → Option DeviceMonitorState → Prop
  | skipped (e : Err) : TickStep now d s [] (.error e) s
  | stepped {es : List Event} {r r' : Except Err Unit} {s' : DeviceMonitorState}
      (h : DeviceStep now d (s.getD {}) es r s') (hr : r' = .ok () → r = .ok ()) :
      TickStep now d s es r' (some s')

/-- The state in which the loop of a tick starts. -/
def pruned (w : World β) : World β :=
  { w with
    monitor := fun address =>
      if w.db.devices.any fun d => d.address = address then w.monitor address else none }

theorem after_monitorTick (hE : E.Quiet) (now : ℚ) {Q : Except Err Unit → World β → Prop}
    (h : ∀ b, (forM w.db.devices (tickDevice E now)).After Q { pruned w with outside := b }) :
    (monitorTick E now).After Q w := by
  unfold monitorTick openConn
  rw [Action.after_bind]
  apply after_query hE _
  intro b
  rw [Action.then_ok, Action.after_bind]
  apply after_query hE _
  intro b'
  rw [Action.then_ok, Action.after_bind, Action.after_modify, Action.then_ok]
  exact h b'

theorem monitorTick_device (hE : E.Quiet) (now : ℚ) (hv : w.db.Valid) (hd : d ∈ w.db.devices) :
    (monitorTick E now).After
      (fun r w' => ∃ es,
        w'.trace.filter (concerns d.id d.address) =
          w.trace.filter (concerns d.id d.address) ++ es ∧
        TickStep now d (w.monitor d.address) es r (w'.monitor d.address)) w := by
  have hother : ∀ x ∈ w.db.devices, x ≠ d → x.id ≠ d.id ∧ x.address ≠ d.address :=
    fun x hx hne => ⟨fun h => hne (hv.eq_of_id hx hd h), fun h => hne (hv.eq_of_address hx hd h)⟩
  have hentry : (pruned w).monitor d.address = w.monitor d.address := by
    unfold pruned
    exact if_pos (by simpa using ⟨d, hd, rfl⟩)
  apply after_monitorTick hE now
  intro b
  refine Action.after_forM (fun xs w₁ => (∀ x ∈ xs, x ∈ w.db.devices) ∧ xs.Nodup ∧ ∃ es,
    w₁.trace.filter (concerns d.id d.address) =
      w.trace.filter (concerns d.id d.address) ++ es ∧
    if d ∈ xs then es = [] ∧ w₁.monitor d.address = w.monitor d.address
    else ∃ s', DeviceStep now d ((w.monitor d.address).getD {}) es (.ok ()) s' ∧
      w₁.monitor d.address = some s') ?_ ?_ _ _
    ⟨fun _ h => h, hv.deviceIds.of_map, [], (List.append_nil _).symm, ?_⟩
  · rintro w₁ ⟨-, -, es, htrace, s', hs', hm⟩
    exact ⟨es, htrace, hm ▸ .stepped hs' fun _ => rfl⟩
  · rintro x xs w₁ ⟨hmem, hnodup, es, htrace, hcase⟩
    obtain ⟨hx, hrest⟩ := List.nodup_cons.mp hnodup
    apply (tickDevice_spec hE now x w₁).mono
    rintro r w₂ ⟨-, fs, s', hstep, hran⟩
    by_cases hxd : x = d
    · subst hxd
      rw [if_pos (List.mem_cons_self)] at hcase
      obtain ⟨rfl, hsame⟩ := hcase
      have htrace₂ : w₂.trace.filter (concerns x.id x.address) =
          w.trace.filter (concerns x.id x.address) ++ fs := by
        rw [hran.trace, List.filter_append, htrace, hstep.filter_self, List.append_nil]
      rw [hsame] at hstep
      cases r with
      | ok u =>
        exact ⟨fun y hy => hmem y (.tail _ hy), hrest, fs, htrace₂, by
          rw [if_neg hx]; exact ⟨s', hstep, hran.entry⟩⟩
      | error e => exact ⟨fs, htrace₂, hran.entry ▸ .stepped hstep fun h => nomatch h⟩
    · obtain ⟨hid, haddr⟩ := hother x (hmem x (.head _)) hxd
      have htrace₂ : w₂.trace.filter (concerns d.id d.address) =
          w.trace.filter (concerns d.id d.address) ++ es := by
        rw [hran.trace, List.filter_append, htrace, hstep.filter_other hid haddr, List.append_nil]
      have hmon : w₂.monitor d.address = w₁.monitor d.address := by
        rw [hran.monitor, Function.update_of_ne (Ne.symm haddr)]
      have hin : d ∈ x :: xs ↔ d ∈ xs := by simp [Ne.symm hxd]
      cases r with
      | ok u =>
        refine ⟨fun y hy => hmem y (.tail _ hy), hrest, es, htrace₂, ?_⟩
        rw [hmon]
        simpa only [hin] using hcase
      | error e =>
        by_cases hdx : d ∈ xs
        · rw [if_pos (hin.mpr hdx)] at hcase
          obtain ⟨rfl, hsame⟩ := hcase
          exact ⟨[], htrace₂, hmon.trans hsame ▸ .skipped e⟩
        · rw [if_neg (mt hin.mp hdx)] at hcase
          obtain ⟨s'', hs'', hm⟩ := hcase
          exact ⟨es, htrace₂, hmon.trans hm ▸ .stepped hs'' fun h => nomatch h⟩
  · rw [if_pos hd]
    exact ⟨rfl, hentry⟩

def reports (i : ℕ) : Event → Bool
  | .status j _ | .touched j => j = i
  | .ensured _ | .linked _ _ => false

theorem concerns_of_reports {i : ℕ} {e : Event} (h : reports i e = true) (a : Address) :
    concerns i a e = true := by
  cases e <;> simp_all [reports, concerns]

theorem DeviceStep.not_reports {s s' : DeviceMonitorState} {es : List Event}
    {r : Except Err Unit} (h : DeviceStep now d s es r s') {i : ℕ} (hi : d.id ≠ i) :
    es.filter (reports i) = [] := by
  rw [List.filter_eq_nil_iff]
  intro e he hr
  have hd := h.concerns e he
  cases e <;> simp_all [reports, BleRuntime.concerns]

/-- Nothing is reported of an id that no listed device has. -/
theorem monitorTick_unlisted (hE : E.Quiet) (now : ℚ) {i : ℕ}
    (hi : ∀ x ∈ w.db.devices, x.id ≠ i) :
    (monitorTick E now).After
      (fun _ w' => w'.trace.filter (reports i) = w.trace.filter (reports i)) w := by
  apply after_monitorTick hE now
  intro b
  refine Action.after_forM
    (fun xs w₁ => (∀ x ∈ xs, x.id ≠ i) ∧
      w₁.trace.filter (reports i) = w.trace.filter (reports i))
    (fun _ h => h.2) ?_ _ _ ⟨hi, rfl⟩
  rintro x xs w₁ ⟨hx, htrace⟩
  apply (tickDevice_spec hE now x w₁).mono
  rintro r w₂ ⟨-, es, s', hstep, hran⟩
  have htrace₂ : w₂.trace.filter (reports i) = w.trace.filter (reports i) := by
    rw [hran.trace, List.filter_append, hstep.not_reports (hx x (.head _)), htrace,
      List.append_nil]
  cases r with
  | ok u => exact ⟨fun y hy => hx y (.tail _ hy), htrace₂⟩
  | error e => exact htrace₂

/-- A tick leaves no entry of an unlisted address, and one of each listed address if it
completes. -/
theorem monitorTick_monitor (hE : E.Quiet) (now : ℚ) (w : World β) :
    (monitorTick E now).After
      (fun r w' => (∀ a, (w'.monitor a).isSome → ∃ d ∈ w.db.devices, d.address = a) ∧
        (r = .ok () → ∀ d ∈ w.db.devices, (w'.monitor d.address).isSome)) w := by
  apply after_monitorTick hE now
  intro b
  refine Action.after_forM (fun xs w₁ => (∀ x ∈ xs, x ∈ w.db.devices) ∧
    (∀ a, (w₁.monitor a).isSome → ∃ d ∈ w.db.devices, d.address = a) ∧
    ∀ d ∈ w.db.devices, d ∉ xs → (w₁.monitor d.address).isSome) ?_ ?_ _ _
    ⟨fun _ h => h, ?_, fun d hd hnot => absurd hd hnot⟩
  · rintro w₁ ⟨-, hsome, hall⟩
    exact ⟨hsome, fun _ d hd => hall d hd (by simp)⟩
  · rintro x xs w₁ ⟨hmem, hsome, hall⟩
    apply (tickDevice_spec hE now x w₁).mono
    rintro r w₂ ⟨-, es, s', -, hran⟩
    have hsome₂ : ∀ a, (w₂.monitor a).isSome → ∃ d ∈ w.db.devices, d.address = a := by
      intro a ha
      by_cases hax : a = x.address
      · exact ⟨x, hmem x (.head _), hax.symm⟩
      · rw [hran.monitor, Function.update_of_ne hax] at ha
        exact hsome a ha
    cases r with
    | ok u =>
      refine ⟨fun y hy => hmem y (.tail _ hy), hsome₂, fun d hd hnot => ?_⟩
      by_cases hdx : d.address = x.address
      · rw [hdx, hran.entry]
        rfl
      · rw [hran.monitor, Function.update_of_ne hdx]
        exact hall d hd fun h => (List.mem_cons.mp h).elim (fun h => hdx (h ▸ rfl)) hnot
    | error e => exact ⟨hsome₂, fun h => nomatch h⟩
  · intro a ha
    simp only [pruned] at ha
    split at ha
    · rename_i hany
      simpa using hany
    · cases ha

/-- A tick completes as long as `ensure_connecting` returns. -/
theorem monitorTick_returns (hE : E.Quiet)
    (hble : ∀ a t b, ∃ b', E.ble.ensureConnecting a t b = (.ok (), b')) (now : ℚ) (w : World β) :
    (monitorTick E now).After (fun r _ => r = .ok ()) w := by
  apply after_monitorTick hE now
  intro b
  refine Action.after_forM (fun _ _ => True) (fun _ _ => rfl) (fun x xs w₁ _ => ?_) _ _ trivial
  apply (tickDevice_spec hE now x w₁).mono
  rintro r w₂ ⟨hr | ⟨b', hb'⟩, -⟩
  · rw [hr]
    trivial
  · obtain ⟨b'', hb''⟩ := hble x.address x.addrType b'
    rw [← hb', hb'']
    trivial

end BleRuntime
end HomeServer.Services
