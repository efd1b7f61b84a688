import HomeServer.Services.MonitorTick

/-! A tick in which chosen calls raise: what the pass does for one device, as a function of its
own entry, link and faults. -/
namespace HomeServer.Services
open HomeServer.Db HomeServer.Ble HomeServer.Lib

/-- What raises, by the device that it is called for. -/
structure Faults where
  ensureConnecting : Address → Option Err := fun _ => none
  onStatus : ℕ → Status → Option Err := fun _ _ => none
  touchLastConnected : Address → Option Err := fun _ => none
  subscribe : Address → Uuid → Option Err := fun _ _ => none

/-- The links of a tick, and what was subscribed. The clock is read only to touch the device
whose link was looked at last, so the statement that follows is that of its touch. -/
structure Bench where
  links : Address → Bool
  subscriptions : List (Address × Uuid × ℕ) := []
  current : Address := ""
  touching : Bool := false

def raised : Option Err → Except Err Unit
  | some e => .error e
  | none => .ok ()

/-- `comesUp` is what `is_connected` answers after an attempt that does not raise. -/
def benchEnv (f : Faults) (comesUp : Address → Bool) : Env Bench where
  ble := {
    startScan := fun _ b => (.ok [], b)
    connect := fun _ _ b => (.ok (), b)
    ensureConnecting := fun a _ b => (raised (f.ensureConnecting a),
      { b with links := Function.update b.links a (comesUp a) })
    disconnect := fun a b => (.ok (), { b with links := Function.update b.links a false })
    isConnected := fun a b => (b.links a, { b with current := a })
    read := fun _ _ b => (.ok [], b)
    write := fun _ _ _ b => (.ok (), b)
    subscribe := fun a u k b => match f.subscribe a u with
      | some e => (.error e, b)
      | none => (.ok (), { b with subscriptions := b.subscriptions ++ [(a, u, k)] })
    unsubscribe := fun _ _ b => (.ok (), b) }
  onStatus := fun i status b => (raised (f.onStatus i status), b)
  sqlError := fun b =>
    if b.touching then (f.touchLastConnected b.current, { b with touching := false })
    else (none, b)
  wallClock := fun b => (0, { b with touching := true })

/-- The subscribed channels of one device: the entries of `_subscribed`, and the calls. -/
structure DeviceSubscriptions where
  entries : Uuid → Option Channel
  calls : List (Uuid × ℕ)

def subscriptionsOf (w : World Bench) (a : Address) : DeviceSubscriptions where
  entries u := w.subscribed (a, u)
  calls := (w.outside.subscriptions.filter fun x => x.1 = a).map Prod.snd

namespace DeviceSubscriptions

def subscribe (f : Faults) (a : Address) (s : DeviceSubscriptions) (c : Channel) :
    DeviceSubscriptions :=
  if c.type = .display ∧ f.subscribe a c.charUuid = none then
    { entries := Function.update s.entries c.charUuid (some c)
      calls := s.calls ++ [(c.charUuid, c.id)] }
  else s

def subscribeAll (f : Faults) (a : Address) (s : DeviceSubscriptions) (channels : List Channel) :
    DeviceSubscriptions :=
  channels.foldl (subscribe f a) s

end DeviceSubscriptions

namespace BleRuntime

/-- What the pass does for one device: how it ends, the entry it leaves, the calls it is
observed by, and whether it went through the display channels. -/
structure Outcome where
  result : Except Err Unit
  entry : DeviceMonitorState
  events : List Event
  subscribes : Bool

namespace Outcome

def after (es : List Event) (o : Outcome) : Outcome := { o with events := es ++ o.events }

def ofConnected (f : Faults) (d : Device) (s : DeviceMonitorState) : Outcome :=
  if s.lastStatus = some .connected then ⟨.ok (), .linkUp, [], !s.subscribed⟩
  else match f.touchLastConnected d.address with
    | some e => ⟨.error e, { DeviceMonitorState.linkUp with lastStatus := s.lastStatus },
        [.touched d.id], !s.subscribed⟩
    | none => ⟨raised (f.onStatus d.id .connected), .linkUp,
        [.touched d.id, .status d.id .connected], !s.subscribed⟩

def ofDrop (f : Faults) (now : ℚ) (d : Device) (s : DeviceMonitorState) : Outcome :=
  if s.lastStatus = some .connected then
    match f.touchLastConnected d.address with
    | some e => ⟨.error e, { s with subscribed := false }, [.touched d.id], false⟩
    | none => ⟨raised (f.onStatus d.id .disconnected),
        { lastStatus := some .disconnected, nextRetryAt := now + reconnectBaseS },
        [.touched d.id, .status d.id .disconnected], false⟩
  else ⟨raised (f.onStatus d.id .disconnected),
    { lastStatus := some .disconnected, nextRetryAt := now + reconnectBaseS },
    [.status d.id .disconnected], false⟩

/-- An attempt, once reconnecting was reported. -/
def ofAttempt (f : Faults) (comesUp : Address → Bool) (now : ℚ) (d : Device)
    (s : DeviceMonitorState) : Outcome :=
  match f.ensureConnecting d.address with
  | some e => ⟨.error e, s, [.ensured d.address], false⟩
  | none =>
    after [.ensured d.address, .linked d.address (comesUp d.address)]
      (if comesUp d.address then ofConnected f d s
      else ⟨.ok (), { s with
          backoffS := min (s.backoffS * reconnectFactor) reconnectCapS
          nextRetryAt := now + min (s.backoffS * reconnectFactor) reconnectCapS }, [], false⟩)

def ofRetry (f : Faults) (comesUp : Address → Bool) (now : ℚ) (d : Device)
    (s : DeviceMonitorState) : Outcome :=
  let retrying := { s with lastStatus := some .reconnecting, subscribed := false }
  if s.lastStatus = some .reconnecting then ofAttempt f comesUp now d retrying
  else match f.onStatus d.id .reconnecting with
    | some e => ⟨.error e, retrying, [.status d.id .reconnecting], false⟩
    | none => after [.status d.id .reconnecting] (ofAttempt f comesUp now d retrying)

def ofTick (f : Faults) (comesUp : Address → Bool) (now : ℚ) (up : Bool) (d : Device)
    (s : DeviceMonitorState) : Outcome :=
  after [.linked d.address up]
    (if up then ofConnected f d s
    else if s.lastStatus = none ∨ s.lastStatus = some .connected then ofDrop f now d s
    else if s.nextRetryAt ≤ now then ofRetry f comesUp now d s
    else ⟨.ok (), { s with subscribed := false }, [], false⟩)

end Outcome

/-- The work done for `d`, which nothing else in the world shows. -/
structure Did (f : Faults) (d : Device) (s : DeviceMonitorState) (events : List Event)
    (subscribes : Bool) (w w' : World Bench) : Prop where
  ran : Ran w d.address s events w'
  subscriptions : subscriptionsOf w' d.address =
    if subscribes then
      (subscriptionsOf w d.address).subscribeAll f d.address (Channels.listByDevice w.db d.id)
    else subscriptionsOf w d.address
  others : ∀ a, a ≠ d.address → subscriptionsOf w' a = subscriptionsOf w a
  links : ∀ a, a ≠ d.address → w'.outside.links a = w.outside.links a
  channels : w'.db.channels = w.db.channels
  idle : w'.outside.touching = false
  current : w'.outside.current = d.address

/-- The state of a world in the midst of the work for `d`. -/
structure Looking (d : Device) (s : DeviceMonitorState) (w : World Bench) : Prop where
  entry : w.monitor d.address = some s
  idle : w.outside.touching = false
  current : w.outside.current = d.address

section Device
variable {f : Faults} {comesUp : Address → Bool} {w w' w'' : World Bench} {d : Device}
  {s s' : DeviceMonitorState} {es es' : List Event} {b b' : Bool} {now : ℚ}

theorem Looking.did (h : Looking d s w) : Did f d s [] false w w :=
  ⟨.refl h.entry, rfl, fun _ _ => rfl, fun _ _ => rfl, rfl, h.idle, h.current⟩

theorem Did.looking (h : Did f d s es b w w') : Looking d s w' :=
  ⟨h.ran.entry, h.idle, h.current⟩

/-- The display channels are gone through at most once. -/
theorem Did.trans (h : Did f d s es b w w') (h' : Did f d s' es' b' w' w'')
    (hb : b = false ∨ b' = false) : Did f d s' (es ++ es') (b || b') w w'' where
  ran := h.ran.trans h'.ran
  subscriptions := by
    have hlist : Channels.listByDevice w'.db d.id = Channels.listByDevice w.db d.id := by
      unfold Channels.listByDevice
      rw [h.channels]
    rw [h'.subscriptions, h.subscriptions, hlist]
    rcases hb with rfl | rfl <;> simp
  others a ha := (h'.others a ha).trans (h.others a ha)
  links a ha := (h'.links a ha).trans (h.links a ha)
  channels := h'.channels.trans h.channels
  idle := h'.idle
  current := h'.current

theorem Did.then (h : Did f d s es b w w') (h' : Did f d s' es' false w' w'') :
    Did f d s' (es ++ es') b w w'' := by
  have := h.trans h' (Or.inr rfl)
  rwa [Bool.or_false] at this

theorem after_query_bench {α : Type} (h : w.outside.touching = false) (g : Database → α)
    (Q : Except Err α → World Bench → Prop) :
    (query (benchEnv f comesUp) g).After Q w ↔ Q (.ok (g w.db)) w := by
  have hsql : (benchEnv f comesUp).sqlError w.outside = (none, w.outside) := by simp [benchEnv, h]
  rw [after_query_asked, hsql]

theorem updateState_did (h : Looking d s w) (g : DeviceMonitorState → DeviceMonitorState) :
    (updateState d.address g).After
      (fun r w' => r = .ok () ∧ Did f d (g s) [] false w w') w := by
  rw [after_updateState, h.entry, Option.getD_some]
  exact ⟨rfl, (Ran.refl h.entry).set (g s), rfl, fun _ _ => rfl, fun _ _ => rfl, rfl, h.idle,
    h.current⟩

theorem touchLastConnected_did (h : Looking d s w) :
    (touchLastConnected (benchEnv f comesUp) d.id).After
      (fun r w' => r = raised (f.touchLastConnected d.address) ∧
        Did f d s [.touched d.id] false w w') w := by
  have hdid : ∀ db : Database, db.channels = w.db.channels →
      Did f d s [.touched d.id] false w { w with
        db
        outside := { w.outside with touching := false }
        trace := w.trace ++ [.touched d.id] } := fun db hdb =>
    ⟨⟨(Ran.refl h.entry).monitor, rfl⟩, rfl, fun _ _ => rfl, fun _ _ => rfl, hdb, rfl, h.current⟩
  have hsql : (benchEnv f comesUp).sqlError ((benchEnv f comesUp).wallClock w.outside).2 =
      (f.touchLastConnected d.address, { w.outside with touching := false }) := by
    rw [← h.current]
    rfl
  unfold touchLastConnected execute
  rw [Action.after_bind, after_log, Action.then_ok, Action.after_bind, after_ask, Action.then_ok,
    Action.after_bind, after_query_asked, hsql]
  cases f.touchLastConnected d.address with
  | some e => exact ⟨rfl, hdid _ rfl⟩
  | none => exact ⟨rfl, hdid _ rfl⟩

theorem setStatus_did (h : Looking d s w) (status : Status) :
    (setStatus (benchEnv f comesUp) d.id d.address status).After
      (fun r w' => r = (if s.lastStatus = some status then .ok ()
          else raised (f.onStatus d.id status)) ∧
        Did f d { s with lastStatus := some status } (announce d s status) false w w') w := by
  unfold setStatus announce
  rw [Action.after_bind, after_stateOf, Action.then_ok, h.entry, Option.getD_some,
    Action.after_ite]
  split
  · rename_i heq
    have hsame : { s with lastStatus := some status } = s := by rw [← heq]
    rw [hsame]
    exact ⟨rfl, h.did⟩
  · refine (updateState_did (f := f) h fun s => { s with lastStatus := some status }).bind_ok
      fun w₁ h₁ => ?_
    rw [Action.after_bind, after_log, Action.then_ok, after_call]
    refine ⟨rfl, ?_⟩
    exact { h₁ with ran := h₁.ran.log (.status d.id status) _ }

theorem subscriptionsOf_subscribed (w : World Bench) (d : Device) (c : Channel) (a : Address) :
    subscriptionsOf { w with
        outside := { w.outside with
          subscriptions := w.outside.subscriptions ++ [(d.address, c.charUuid, c.id)] }
        subscribed := Function.update w.subscribed (d.address, c.charUuid) (some c) } a =
      if a = d.address then
        { entries := Function.update (subscriptionsOf w a).entries c.charUuid (some c)
          calls := (subscriptionsOf w a).calls ++ [(c.charUuid, c.id)] }
      else subscriptionsOf w a := by
  by_cases ha : a = d.address
  · rw [if_pos ha, ha]
    unfold subscriptionsOf
    congr 1
    · funext u
      by_cases hu : u = c.charUuid <;> simp [hu]
    · simp
  · rw [if_neg ha]
    unfold subscriptionsOf
    congr 1
    · funext u
      simp [ha]
    · simp [Ne.symm ha]

theorem subscribeDisplayChannels_did (h : Looking d s w) :
    (subscribeDisplayChannels (benchEnv f comesUp) d).After
      (fun r w' => r = .ok () ∧ Did f d s [] true w w') w := by
  unfold subscribeDisplayChannels
  rw [Action.after_bind, after_query_bench h.idle, Action.then_ok]
  generalize hall : (subscriptionsOf w d.address).subscribeAll f d.address
    (Channels.listByDevice w.db d.id) = all
  refine Action.after_forM (fun cs w₁ => w₁.monitor = w.monitor ∧ w₁.trace = w.trace ∧
      w₁.db = w.db ∧ w₁.outside.links = w.outside.links ∧ Looking d s w₁ ∧
      (∀ a, a ≠ d.address → subscriptionsOf w₁ a = subscriptionsOf w a) ∧
      (subscriptionsOf w₁ d.address).subscribeAll f d.address cs = all) ?_ ?_ _ _
    ⟨rfl, rfl, rfl, rfl, h, fun _ _ => rfl, hall⟩
  · rintro w₁ ⟨hm, ht, hdb, hl, h₁, ho, hsubs⟩
    refine ⟨rfl, ⟨?_, ?_⟩, ?_, ho, fun a _ => congrFun hl a, congrArg _ hdb, h₁.idle, h₁.current⟩
    · rw [hm, ← h.entry, Function.update_eq_self]
    · rw [ht, List.append_nil]
    · rw [if_pos rfl, hall]
      exact hsubs
  · rintro c cs w₁ ⟨hm, ht, hdb, hl, h₁, ho, hsubs⟩
    have hcons : ((subscriptionsOf w₁ d.address).subscribe f d.address c).subscribeAll f d.address
        cs = all := hsubs
    have hskip : (subscriptionsOf w₁ d.address).subscribe f d.address c =
        subscriptionsOf w₁ d.address →
        (subscriptionsOf w₁ d.address).subscribeAll f d.address cs = all := fun hsame =>
      hsame ▸ hcons
    rw [Action.after_ite]
    split
    · rename_i hdisplay
      unfold subscribeChannel
      rw [after_ignoringErrors, Action.after_bind, after_call]
      cases hf : f.subscribe d.address c.charUuid with
      | some e =>
        have hcall : (benchEnv f comesUp).ble.subscribe d.address c.charUuid c.id w₁.outside =
            (.error e, w₁.outside) := by simp [benchEnv, hf]
        rw [hcall]
        refine ⟨hm, ht, hdb, hl, h₁, ho, hskip ?_⟩
        simp [DeviceSubscriptions.subscribe, hf]
      | none =>
        have hcall : (benchEnv f comesUp).ble.subscribe d.address c.charUuid c.id w₁.outside =
            (.ok (), { w₁.outside with subscriptions :=
              w₁.outside.subscriptions ++ [(d.address, c.charUuid, c.id)] }) := by
          simp [benchEnv, hf]
        rw [hcall]
        refine ⟨hm, ht, hdb, hl, ⟨h₁.entry, h₁.idle, h₁.current⟩, fun a ha => ?_, ?_⟩
        · exact (subscriptionsOf_subscribed w₁ d c a).trans ((if_neg ha).trans (ho a ha))
        · rw [← hcons]
          congr 1
          refine (subscriptionsOf_subscribed w₁ d c d.address).trans ?_
          simp [DeviceSubscriptions.subscribe, hdisplay, hf]
    · rename_i hnot
      refine ⟨hm, ht, hdb, hl, h₁, ho, hskip ?_⟩
      simp [DeviceSubscriptions.subscribe, hnot]

theorem subscribeOnce_did (h : Looking d s w) :
    (subscribeOnce (benchEnv f comesUp) d).After
      (fun r w' => r = .ok () ∧
        Did f d { s with subscribed := true } [] (!s.subscribed) w w') w := by
  unfold subscribeOnce
  rw [Action.after_bind, after_stateOf, Action.then_ok, h.entry, Option.getD_some,
    Action.after_ite]
  split
  · rename_i hsub
    have hsame : { s with subscribed := true } = s := by rw [← hsub]
    rw [hsame, hsub]
    exact ⟨rfl, h.did⟩
  · rename_i hsub
    rw [Bool.not_eq_true] at hsub
    rw [hsub]
    refine (subscribeDisplayChannels_did h).bind_ok fun w₁ h₁ => ?_
    apply (updateState_did (f := f) h₁.looking fun s => { s with subscribed := true }).mono
    rintro r w₂ ⟨hr, h₂⟩
    exact ⟨hr, h₁.then h₂⟩

theorem touchUnlessConnected_did (h : Looking d s w) :
    (touchUnlessConnected (benchEnv f comesUp) d).After
      (fun r w' => r = (if s.lastStatus = some .connected then .ok ()
          else raised (f.touchLastConnected d.address)) ∧
        Did f d s (if s.lastStatus = some .connected then [] else [.touched d.id]) false w w')
      w := by
  unfold touchUnlessConnected
  rw [Action.after_bind, after_stateOf, Action.then_ok, h.entry, Option.getD_some,
    Action.after_ite]
  split
  · exact ⟨rfl, h.did⟩
  · exact touchLastConnected_did h

def Ended (f : Faults) (d : Device) (o : Outcome) (w : World Bench) (r : Except Err Unit)
    (w' : World Bench) : Prop :=
  r = o.result ∧ Did f d o.entry o.events o.subscribes w w'

theorem Ended.after {o : Outcome} {r : Except Err Unit} (h : Did f d s es false w w')
    (h' : Ended f d o w' r w'') : Ended f d (o.after es) w r w'' := by
  have hd := h.trans h'.2 (Or.inl rfl)
  rw [Bool.false_or] at hd
  exact ⟨h'.1, hd⟩

theorem onConnected_ended (h : Looking d s w) :
    (onConnected (benchEnv f comesUp) d).After (Ended f d (.ofConnected f d s) w) w := by
  unfold onConnected
  refine (subscribeOnce_did h).bind_ok fun w₁ h₁ => ?_
  refine (updateState_did (f := f) h₁.looking
    fun s => { s with backoffS := reconnectBaseS, nextRetryAt := 0 }).bind_ok fun w₂ h₂ => ?_
  have hd₂ := h₁.then h₂
  refine (touchUnlessConnected_did hd₂.looking).bind (fun _ w₃ h₃ => ?_) fun e w₃ h₃ => ?_
  · have hd₃ := hd₂.then h₃.2
    apply (setStatus_did hd₃.looking .connected).mono
    rintro r w₄ ⟨hr, h₄⟩
    have hd₄ := hd₃.then h₄
    have htouch := h₃.1
    unfold Ended Outcome.ofConnected
    by_cases hc : s.lastStatus = some .connected
    · simp only [hc, if_true] at hr hd₄ ⊢
      simp only [announce, if_true, List.append_nil] at hd₄
      exact ⟨hr, hd₄⟩
    · simp only [hc, if_false] at hr hd₄ htouch ⊢
      cases hf : f.touchLastConnected d.address with
      | some e => rw [hf] at htouch; cases htouch
      | none =>
        simp only [announce, hc, if_false, List.nil_append] at hd₄
        exact ⟨hr, hd₄⟩
  · have hd₃ := hd₂.then h₃.2
    have htouch := h₃.1
    unfold Ended Outcome.ofConnected
    by_cases hc : s.lastStatus = some .connected
    · simp only [hc, if_true] at htouch
      cases htouch
    · simp only [hc, if_false] at htouch hd₃ ⊢
      cases hf : f.touchLastConnected d.address with
      | none => rw [hf] at htouch; cases htouch
      | some e' =>
        rw [hf] at htouch
        exact ⟨htouch, hd₃⟩

theorem reportDrop_ended (h : Looking d { s with subscribed := false } w)
    (hdrop : s.lastStatus = none ∨ s.lastStatus = some .connected) :
    (reportDrop (benchEnv f comesUp) now d).After (Ended f d (.ofDrop f now d s) w) w := by
  -- what follows the touch, which a first look at the device does without
  have hne : s.lastStatus ≠ some .disconnected := by rcases hdrop with h | h <;> simp [h]
  have hrest : ∀ (es : List Event) (w₁ : World Bench),
      Did f d { s with subscribed := false } es false w w₁ →
      (do updateState d.address fun s =>
            { s with backoffS := reconnectBaseS, nextRetryAt := now + reconnectBaseS }
          setStatus (benchEnv f comesUp) d.id d.address .disconnected : Runtime Bench Unit).After
        (Ended f d ⟨raised (f.onStatus d.id .disconnected),
          { lastStatus := some .disconnected, nextRetryAt := now + reconnectBaseS },
          es ++ [.status d.id .disconnected], false⟩ w) w₁ := by
    intro es w₁ h₁
    refine (updateState_did (f := f) h₁.looking fun s =>
      { s with backoffS := reconnectBaseS, nextRetryAt := now + reconnectBaseS }).bind_ok
      fun w₂ h₂ => ?_
    have hd₂ := h₁.then h₂
    apply (setStatus_did hd₂.looking .disconnected).mono
    rintro r w₃ ⟨hr, h₃⟩
    have hd₃ := hd₂.then h₃
    simp only [announce, hne, if_false, List.append_nil] at hr hd₃
    exact ⟨hr, hd₃⟩
  unfold reportDrop
  rw [Action.after_bind, after_stateOf, Action.then_ok, h.entry, Option.getD_some,
    Action.after_bind, Action.after_ite]
  unfold Outcome.ofDrop
  split
  · apply (touchLastConnected_did h).mono
    rintro r w₁ ⟨rfl, h₁⟩
    cases hf : f.touchLastConnected d.address with
    | some e => exact ⟨rfl, h₁⟩
    | none => exact hrest [.touched d.id] w₁ h₁
  · exact hrest [] w h.did

theorem attempt_ended (h : Looking d s w) :
    (do ensureConnecting (benchEnv f comesUp) d
        if ← isConnected (benchEnv f comesUp) d.address then onConnected (benchEnv f comesUp) d
        else
          updateState d.address fun s =>
            { s with backoffS := min (s.backoffS * reconnectFactor) reconnectCapS }
          updateState d.address fun s => { s with nextRetryAt := now + s.backoffS } :
        Runtime Bench Unit).After (Ended f d (.ofAttempt f comesUp now d s) w) w := by
  have hensured : Did f d s [.ensured d.address] false w { w with
      outside := { w.outside with
        links := Function.update w.outside.links d.address (comesUp d.address) }
      trace := w.trace ++ [.ensured d.address] } :=
    ⟨⟨(Ran.refl h.entry).monitor, rfl⟩, rfl, fun _ _ => rfl,
      fun a ha => Function.update_of_ne ha _ _, rfl, h.idle, h.current⟩
  have hcall : (ensureConnecting (benchEnv f comesUp) d).After
      (fun r w' => r = raised (f.ensureConnecting d.address) ∧
        Did f d s [.ensured d.address] false w w' ∧
        w'.outside.links d.address = comesUp d.address) w := by
    unfold ensureConnecting
    rw [Action.after_bind, after_log, Action.then_ok, after_call]
    exact ⟨rfl, hensured, Function.update_self _ _ _⟩
  unfold Outcome.ofAttempt
  refine hcall.bind (fun _ w₁ h₁ => ?_) fun e w₁ h₁ => ?_
  · obtain ⟨hr, h₁, hlink⟩ := h₁
    cases hf : f.ensureConnecting d.address with
    | some e => rw [hf] at hr; cases hr
    | none =>
      have hup : ((benchEnv f comesUp).ble.isConnected d.address w₁.outside).1 =
          comesUp d.address := hlink
      rw [Action.after_bind, after_isConnected, Action.then_ok, hup]
      have h₂ : Did f d s [.ensured d.address, .linked d.address (comesUp d.address)] false w
          { w₁ with
            outside := ((benchEnv f comesUp).ble.isConnected d.address w₁.outside).2
            trace := w₁.trace ++ [.linked d.address (comesUp d.address)] } :=
        { h₁ with ran := h₁.ran.log _ _, current := rfl }
      simp only
      rw [Action.after_ite]
      split
      · apply (onConnected_ended h₂.looking).mono
        exact fun r w₃ h₃ => .after h₂ h₃
      · refine (updateState_did (f := f) h₂.looking fun s =>
          { s with backoffS := min (s.backoffS * reconnectFactor) reconnectCapS }).bind_ok
          fun w₃ h₃ => ?_
        apply (updateState_did (f := f) h₃.looking fun s =>
          { s with nextRetryAt := now + s.backoffS }).mono
        rintro r w₄ ⟨hr, h₄⟩
        exact .after h₂ ⟨hr, h₃.then h₄⟩
  · obtain ⟨hr, h₁, -⟩ := h₁
    cases hf : f.ensureConnecting d.address with
    | none => rw [hf] at hr; cases hr
    | some e' =>
      rw [hf] at hr
      exact ⟨hr, h₁⟩

theorem retryConnect_ended (h : Looking d { s with subscribed := false } w) :
    (retryConnect (benchEnv f comesUp) now d).After (Ended f d (.ofRetry f comesUp now d s) w)
      w := by
  unfold retryConnect Outcome.ofRetry
  refine (setStatus_did h .reconnecting).bind (fun _ w₁ h₁ => ?_) fun e w₁ h₁ => ?_
  · apply (attempt_ended h₁.2.looking).mono
    intro r w₂ h₂
    have hafter := Ended.after h₁.2 h₂
    have hr := h₁.1
    by_cases hc : s.lastStatus = some .reconnecting
    · simp only [hc, if_true]
      simp only [announce, hc, if_true] at hafter
      exact hafter
    · simp only [hc, if_false] at hr ⊢
      cases hf : f.onStatus d.id .reconnecting with
      | some e => rw [hf] at hr; cases hr
      | none =>
        simp only [announce, hc, if_false] at hafter
        exact hafter
  · have hr := h₁.1
    by_cases hc : s.lastStatus = some .reconnecting
    · simp only [hc, if_true] at hr
      cases hr
    · simp only [hc, if_false] at hr ⊢
      cases hf : f.onStatus d.id .reconnecting with
      | none => rw [hf] at hr; cases hr
      | some e' =>
        rw [hf] at hr
        have h₂ := h₁.2
        simp only [announce, hc, if_false] at h₂
        exact ⟨hr, h₂⟩

/-- The pass for one device is its outcome, and a function of its own entry and link. -/
theorem tickDevice_ended (hidle : w.outside.touching = false) :
    (tickDevice (benchEnv f comesUp) now d).After
      (Ended f d (.ofTick f comesUp now (w.outside.links d.address) d
        ((w.monitor d.address).getD {})) w) w := by
  unfold tickDevice Outcome.ofTick
  rw [Action.after_bind, after_updateState, Action.then_ok, Action.after_bind, after_isConnected,
    Action.then_ok]
  generalize (w.monitor d.address).getD {} = s
  have hup : ((benchEnv f comesUp).ble.isConnected d.address w.outside).1 =
    w.outside.links d.address := rfl
  have h₁ : Did f d s [.linked d.address (w.outside.links d.address)] false w { w with
      monitor := Function.update w.monitor d.address (some s)
      outside := ((benchEnv f comesUp).ble.isConnected d.address w.outside).2
      trace := w.trace ++ [.linked d.address (w.outside.links d.address)] } :=
    ⟨⟨rfl, rfl⟩, rfl, fun _ _ => rfl, fun _ _ => rfl, rfl, hidle, rfl⟩
  simp only [hup]
  rw [Action.after_ite]
  split
  · apply (onConnected_ended h₁.looking).mono
    exact fun r w₂ h₂ => .after h₁ h₂
  · refine (updateState_did (f := f) h₁.looking fun s => { s with subscribed := false }).bind_ok
      fun w₂ h₂ => ?_
    have hd₂ := h₁.then h₂
    rw [Action.after_bind, after_stateOf, Action.then_ok, hd₂.looking.entry, Option.getD_some,
      Action.after_ite, Action.after_ite]
    split
    · rename_i hdrop
      apply (reportDrop_ended hd₂.looking hdrop).mono
      exact fun r w₃ h₃ => .after hd₂ h₃
    split
    · apply (retryConnect_ended hd₂.looking).mono
      exact fun r w₃ h₃ => .after hd₂ h₃
    · exact ⟨rfl, hd₂⟩

end Device
end BleRuntime
end HomeServer.Services
