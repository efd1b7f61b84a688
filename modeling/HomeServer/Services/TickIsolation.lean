import HomeServer.Services.StatusTrace
import HomeServer.Services.TickFaults

/-! Two runs of a tick, with and without one device whose calls raise: what the others show for
it. -/
namespace HomeServer.Services
open HomeServer.Db HomeServer.Ble HomeServer.Lib

/-- Only calls for `d` raise. -/
structure Faults.Only (f : Faults) (d : Device) : Prop where
  ensureConnecting : ∀ a, a ≠ d.address → f.ensureConnecting a = none
  onStatus : ∀ i, i ≠ d.id → ∀ status, f.onStatus i status = none
  touchLastConnected : ∀ a, a ≠ d.address → f.touchLastConnected a = none
  subscribe : ∀ a, a ≠ d.address → ∀ u, f.subscribe a u = none

namespace BleRuntime

/-- What a tick shows of a device: its entry, the statuses reported and the attempts made for
it, and what is subscribed on it. -/
structure DeviceView where
  entry : Option DeviceMonitorState
  statuses : List Status
  attempts : ℕ
  subscriptions : DeviceSubscriptions

def view (w : World Bench) (x : Device) : DeviceView where
  entry := w.monitor x.address
  statuses := w.trace.filterMap (statusOf x.id)
  attempts := w.trace.count (.ensured x.address)
  subscriptions := subscriptionsOf w x.address

/-- The pass for `d` comes to a call that raises and is not passed over. -/
def Reaches (f : Faults) (comesUp : Address → Bool) (now : ℚ) (up : Bool) (d : Device)
    (s : DeviceMonitorState) : Prop :=
  let connecting := f.touchLastConnected d.address ≠ none ∨ f.onStatus d.id .connected ≠ none
  if up then s.lastStatus ≠ some .connected ∧ connecting
  else match s.lastStatus with
    | none => f.onStatus d.id .disconnected ≠ none
    | some .connected =>
      f.touchLastConnected d.address ≠ none ∨ f.onStatus d.id .disconnected ≠ none
    | some .disconnected => s.nextRetryAt ≤ now ∧ (f.onStatus d.id .reconnecting ≠ none ∨
      f.ensureConnecting d.address ≠ none ∨ comesUp d.address = true ∧ connecting)
    | some .reconnecting => s.nextRetryAt ≤ now ∧
      (f.ensureConnecting d.address ≠ none ∨ comesUp d.address = true ∧ connecting)

/-- There is nothing to do for a device: it is up and was reported so, or it is down and waits
for its retry. -/
def NothingToDo (now : ℚ) (up : Bool) : Option DeviceMonitorState → Prop
  | none => False
  | some s =>
    if up then s = .linkUp
    else (s.lastStatus = some .disconnected ∨ s.lastStatus = some .reconnecting) ∧
      now < s.nextRetryAt ∧ s.subscribed = false

def Apart (x y : Device) : Prop := x.id ≠ y.id ∧ x.address ≠ y.address

theorem Apart.symm {x y : Device} (h : Apart x y) : Apart y x := ⟨h.1.symm, h.2.symm⟩

/-- Two worlds are the same for a device: in what they show of it, and in what the pass for it
reads. -/
structure SameFor (x : Device) (w w' : World Bench) : Prop where
  view : view w' x = view w x
  link : w'.outside.links x.address = w.outside.links x.address
  channels : Channels.listByDevice w'.db x.id = Channels.listByDevice w.db x.id

/-- No call for `x` raises, but for subscribes. -/
structure Faultless (f : Faults) (x : Device) : Prop where
  ensureConnecting : f.ensureConnecting x.address = none
  onStatus : ∀ status, f.onStatus x.id status = none
  touchLastConnected : f.touchLastConnected x.address = none

def outcome (f : Faults) (comesUp : Address → Bool) (now : ℚ) (w : World Bench) (x : Device) :
    Outcome :=
  .ofTick f comesUp now (w.outside.links x.address) x ((w.monitor x.address).getD {})

/-- What is shown of a device after its pass. -/
def viewAfter (f : Faults) (comesUp : Address → Bool) (now : ℚ) (w : World Bench) (x : Device) :
    DeviceView where
  entry := some (outcome f comesUp now w x).entry
  statuses := (view w x).statuses ++
    (outcome f comesUp now w x).events.filterMap (statusOf x.id)
  attempts := (view w x).attempts + (outcome f comesUp now w x).events.count (.ensured x.address)
  subscriptions :=
    if (outcome f comesUp now w x).subscribes then
      (subscriptionsOf w x.address).subscribeAll f x.address (Channels.listByDevice w.db x.id)
    else subscriptionsOf w x.address

section Passes
variable {f : Faults} {comesUp : Address → Bool} {now : ℚ} {w w' w'' : World Bench}
  {d x y : Device} {s : DeviceMonitorState} {up : Bool}

theorem Faultless.of_only (hf : f.Only d) (h : Apart d x) : Faultless f x :=
  ⟨hf.ensureConnecting _ h.2.symm, hf.onStatus _ h.1.symm, hf.touchLastConnected _ h.2.symm⟩

theorem raised_eq_ok {e : Option Err} : raised e = .ok () ↔ e = none := by
  cases e <;> simp [raised]

theorem ofConnected_ok (f : Faults) (d : Device) (s : DeviceMonitorState) :
    (Outcome.ofConnected f d s).result = .ok () ↔ s.lastStatus = some .connected ∨
      f.touchLastConnected d.address = none ∧ f.onStatus d.id .connected = none := by
  unfold Outcome.ofConnected
  split
  · rename_i hc
    simp [hc]
  · rename_i hc
    cases htouch : f.touchLastConnected d.address <;> simp [hc, raised_eq_ok]

theorem ofAttempt_ok (f : Faults) (comesUp : Address → Bool) (now : ℚ) (d : Device)
    (hs : s.lastStatus = some .reconnecting) :
    (Outcome.ofAttempt f comesUp now d s).result = .ok () ↔ f.ensureConnecting d.address = none ∧
      (comesUp d.address = true →
        f.touchLastConnected d.address = none ∧ f.onStatus d.id .connected = none) := by
  unfold Outcome.ofAttempt
  cases hensure : f.ensureConnecting d.address with
  | some e => simp
  | none =>
    cases comesUp d.address with
    | false => simp [Outcome.after]
    | true => simp [Outcome.after, ofConnected_ok, hs]

theorem outcome_ok (f : Faults) (comesUp : Address → Bool) (now : ℚ) (up : Bool) (d : Device)
    (s : DeviceMonitorState) :
    (Outcome.ofTick f comesUp now up d s).result = .ok () ↔
      ¬Reaches f comesUp now up d s := by
  unfold Outcome.ofTick Outcome.after Reaches
  cases up with
  | true =>
    simp only [if_true, ofConnected_ok]
    tauto
  | false =>
    simp only [Bool.false_eq_true, if_false]
    rcases hlast : s.lastStatus with - | (- | - | -)
    · simp [Outcome.ofDrop, hlast, raised_eq_ok]
    · cases htouch : f.touchLastConnected d.address <;>
        simp [Outcome.ofDrop, hlast, htouch, raised_eq_ok]
    · by_cases hnow : s.nextRetryAt ≤ now
      · simp only [hnow, hlast, Outcome.ofRetry, if_true]
        simp [ofAttempt_ok]
      · simp [hnow]
    · by_cases hnow : s.nextRetryAt ≤ now
      · cases hstatus : f.onStatus d.id .reconnecting with
        | some e => simp [hnow, hlast, hstatus, Outcome.ofRetry]
        | none =>
          simp only [hnow, hlast, hstatus, Outcome.ofRetry, Outcome.after, if_true]
          simp [ofAttempt_ok]
      · simp [hnow]

theorem SameFor.refl (x : Device) (w : World Bench) : SameFor x w w := ⟨rfl, rfl, rfl⟩

theorem SameFor.trans (h : SameFor x w w') (h' : SameFor x w' w'') : SameFor x w w'' :=
  ⟨h'.view.trans h.view, h'.link.trans h.link, h'.channels.trans h.channels⟩

theorem SameFor.viewAfter (h : SameFor x w w') :
    viewAfter f comesUp now w' x = viewAfter f comesUp now w x := by
  have hentry : w'.monitor x.address = w.monitor x.address := congrArg DeviceView.entry h.view
  have hsubs : subscriptionsOf w' x.address = subscriptionsOf w x.address :=
    congrArg DeviceView.subscriptions h.view
  have hout : outcome f comesUp now w' x = outcome f comesUp now w x := by
    unfold outcome
    rw [hentry, h.link]
  unfold BleRuntime.viewAfter
  rw [hout, hsubs, h.channels, h.view]

theorem ofConnected_concerns (f : Faults) (d : Device) (s : DeviceMonitorState) :
    ∀ e ∈ (Outcome.ofConnected f d s).events, concerns d.id d.address e = true := by
  unfold Outcome.ofConnected
  split
  · simp
  · cases f.touchLastConnected d.address <;> simp [concerns]

theorem ofAttempt_concerns (f : Faults) (comesUp : Address → Bool) (now : ℚ) (d : Device)
    (s : DeviceMonitorState) :
    ∀ e ∈ (Outcome.ofAttempt f comesUp now d s).events, concerns d.id d.address e = true := by
  unfold Outcome.ofAttempt Outcome.after
  cases f.ensureConnecting d.address with
  | some e => simp [concerns]
  | none =>
    cases comesUp d.address with
    | false => simp [concerns]
    | true => simpa [concerns] using ofConnected_concerns f d s

theorem ofTick_concerns (f : Faults) (comesUp : Address → Bool) (now : ℚ) (up : Bool) (d : Device)
    (s : DeviceMonitorState) :
    ∀ e ∈ (Outcome.ofTick f comesUp now up d s).events, concerns d.id d.address e = true := by
  have hdrop : ∀ e ∈ (Outcome.ofDrop f now d s).events, concerns d.id d.address e = true := by
    unfold Outcome.ofDrop
    split
    · cases f.touchLastConnected d.address <;> simp [concerns]
    · simp [concerns]
  have hretry : ∀ e ∈ (Outcome.ofRetry f comesUp now d s).events,
      concerns d.id d.address e = true := by
    unfold Outcome.ofRetry Outcome.after
    split
    · exact ofAttempt_concerns f comesUp now d _
    · cases f.onStatus d.id .reconnecting with
      | some e => simp [concerns]
      | none => simpa [concerns] using ofAttempt_concerns f comesUp now d _
  unfold Outcome.ofTick Outcome.after
  simp only [List.cons_append, List.nil_append, List.forall_mem_cons]
  refine ⟨by simp [concerns], ?_⟩
  split
  · exact ofConnected_concerns f d s
  split
  · exact hdrop
  split
  · exact hretry
  · simp

/-- The pass for one device is not seen of another. -/
theorem Did.sameFor {es : List Event} {b : Bool} (h : Did f y s es b w w')
    (hes : ∀ e ∈ es, concerns y.id y.address e = true) (hyx : Apart y x) : SameFor x w w' := by
  have hstatuses : es.filterMap (statusOf x.id) = [] := by
    rw [List.filterMap_eq_nil_iff]
    intro e he
    have hy := hes e he
    cases e <;> simp_all [concerns, statusOf, Apart]
  have hattempts : es.count (.ensured x.address) = 0 := by
    rw [List.count_eq_zero]
    intro he
    exact hyx.2.symm (by simpa [concerns] using hes _ he)
  constructor
  · unfold view
    rw [h.ran.monitor, h.ran.trace, h.others _ hyx.2.symm, List.filterMap_append, hstatuses,
      List.append_nil, List.count_append, hattempts, Nat.add_zero,
      Function.update_of_ne hyx.2.symm]
  · exact h.links _ hyx.2.symm
  · unfold Channels.listByDevice
    rw [h.channels]

theorem tickDevice_view (hidle : w.outside.touching = false) (now : ℚ) (x : Device) :
    (tickDevice (benchEnv f comesUp) now x).After
      (fun r w' => r = (outcome f comesUp now w x).result ∧ w'.outside.touching = false ∧
        view w' x = viewAfter f comesUp now w x ∧ ∀ y, Apart x y → SameFor y w w') w := by
  apply (tickDevice_ended hidle).mono
  rintro r w' ⟨hr, hdid⟩
  refine ⟨hr, hdid.idle, ?_, fun y hxy => hdid.sameFor (ofTick_concerns _ _ _ _ _ _) hxy⟩
  unfold view viewAfter
  rw [hdid.ran.entry, hdid.ran.trace, hdid.subscriptions, List.filterMap_append,
    List.count_append]
  rfl

/-- A stretch of devices none of which raises: each shows what its own pass makes of it. -/
theorem forM_view (comesUp : Address → Bool) (now : ℚ) {xs : List Device}
    (hapart : xs.Pairwise Apart) (hok : ∀ x ∈ xs, Faultless f x)
    (hidle : w.outside.touching = false) :
    (forM xs (tickDevice (benchEnv f comesUp) now)).After
      (fun r w' => r = .ok () ∧ w'.outside.touching = false ∧
        (∀ x ∈ xs, view w' x = viewAfter f comesUp now w x) ∧
        ∀ y, (∀ x ∈ xs, Apart x y) → SameFor y w w') w := by
  induction xs generalizing w with
  | nil => exact ⟨rfl, hidle, by simp, fun y _ => .refl y w⟩
  | cons x xs ih =>
    obtain ⟨hx, hxs⟩ := List.pairwise_cons.mp hapart
    have hresult : (outcome f comesUp now w x).result = .ok () := by
      have hfree := hok x (.head _)
      unfold outcome
      rw [outcome_ok]
      unfold Reaches
      simp only [hfree.ensureConnecting, hfree.onStatus, hfree.touchLastConnected]
      split
      · simp
      · split <;> simp
    rw [List.forM_cons]
    refine (tickDevice_view hidle now x).bind (fun _ w₁ h₁ => ?_) fun e w₁ h₁ => ?_
    · obtain ⟨-, hidle₁, hview, hsame⟩ := h₁
      apply (ih hxs (fun y hy => hok y (.tail _ hy)) hidle₁).mono
      rintro r w₂ ⟨hr, hidle₂, hviews, hsame₂⟩
      refine ⟨hr, hidle₂, fun y hy => ?_, fun y hy => ?_⟩
      · rcases List.mem_cons.mp hy with rfl | hy
        · have hlater := hsame₂ y fun z hz => (hx z hz).symm
          exact hlater.view.trans hview
        · exact (hviews y hy).trans (hsame y (hx y hy)).viewAfter
      · exact (hsame y (hy x (.head _))).trans (hsame₂ y fun z hz => hy z (.tail _ hz))
    · rw [hresult] at h₁
      cases h₁.1

/-- The reports and the attempts only grow, so what is shown stays as it is when there are none
and the entry stays. -/
theorem viewAfter_eq_view (f : Faults) (comesUp : Address → Bool) (now : ℚ) (w : World Bench)
    (x : Device) : viewAfter f comesUp now w x = view w x ↔
      w.monitor x.address = some (outcome f comesUp now w x).entry ∧
      (outcome f comesUp now w x).events.filterMap (statusOf x.id) = [] ∧
      (outcome f comesUp now w x).events.count (.ensured x.address) = 0 ∧
      ((outcome f comesUp now w x).subscribes = true →
        (subscriptionsOf w x.address).subscribeAll f x.address
          (Channels.listByDevice w.db x.id) = subscriptionsOf w x.address) := by
  unfold viewAfter view
  rw [DeviceView.mk.injEq]
  dsimp only
  constructor
  · rintro ⟨hentry, hstatuses, hattempts, hsubs⟩
    refine ⟨hentry.symm, by simpa using hstatuses, by omega, fun hb => ?_⟩
    rw [if_pos hb] at hsubs
    exact hsubs
  · rintro ⟨hentry, hstatuses, hattempts, hsubs⟩
    refine ⟨hentry.symm, by rw [hstatuses, List.append_nil], by omega, ?_⟩
    split
    · rename_i hb
      exact hsubs hb
    · rfl

theorem ensured_mem_ofAttempt (f : Faults) (comesUp : Address → Bool) (now : ℚ) (d : Device)
    (s : DeviceMonitorState) :
    .ensured d.address ∈ (Outcome.ofAttempt f comesUp now d s).events := by
  unfold Outcome.ofAttempt Outcome.after
  cases f.ensureConnecting d.address <;> simp

theorem ensured_mem_ofRetry (hfree : Faultless f d) (comesUp : Address → Bool) (now : ℚ)
    (s : DeviceMonitorState) :
    .ensured d.address ∈ (Outcome.ofRetry f comesUp now d s).events := by
  unfold Outcome.ofRetry
  split
  · exact ensured_mem_ofAttempt f comesUp now d _
  · rw [hfree.onStatus]
    exact List.mem_append_right _ (ensured_mem_ofAttempt f comesUp now d _)

theorem viewAfter_nothingToDo (hfree : Faultless f x) :
    viewAfter f comesUp now w x = view w x ↔
      NothingToDo now (w.outside.links x.address) (w.monitor x.address) := by
  rw [viewAfter_eq_view]
  unfold outcome
  generalize w.outside.links x.address = up
  generalize w.monitor x.address = entry
  have htouch := hfree.touchLastConnected
  unfold Outcome.ofTick Outcome.after
  cases entry with
  | none => cases up <;> simp [Outcome.ofConnected, Outcome.ofDrop, htouch, statusOf, NothingToDo]
  | some s =>
    simp only [Option.getD_some]
    cases up with
    | true =>
      simp only [if_true, NothingToDo]
      by_cases hc : s.lastStatus = some .connected
      · simp only [Outcome.ofConnected, hc, if_true]
        constructor
        · exact fun h => Option.some.inj h.1
        · rintro rfl
          simp [statusOf, DeviceMonitorState.linkUp]
      · have hne : s ≠ .linkUp := fun h => hc (h ▸ rfl)
        simp [Outcome.ofConnected, hc, htouch, statusOf, hne]
    | false =>
      simp only [Bool.false_eq_true, if_false, NothingToDo]
      by_cases hdrop : s.lastStatus = none ∨ s.lastStatus = some .connected
      · have hnot : ¬(s.lastStatus = some .disconnected ∨ s.lastStatus = some .reconnecting) := by
          rcases hdrop with h | h <;> simp [h]
        have hstatus : (.status x.id .disconnected : Event) ∈
            (Outcome.ofDrop f now x s).events := by
          unfold Outcome.ofDrop
          rw [htouch]
          split <;> simp
        rw [if_pos hdrop]
        constructor
        · intro h
          have hnone := List.filterMap_eq_nil_iff.mp h.2.1 _ (List.mem_append_right _ hstatus)
          simp [statusOf] at hnone
        · exact fun h => absurd h.1 hnot
      · rw [if_neg hdrop]
        by_cases hnow : s.nextRetryAt ≤ now
        · rw [if_pos hnow]
          constructor
          · intro h
            have hensured := ensured_mem_ofRetry hfree comesUp now s
            exact absurd (List.mem_append_right _ hensured) (List.count_eq_zero.mp h.2.2.1)
          · exact fun h => absurd h.2.1 (not_lt.mpr hnow)
        · have hwaits : s.lastStatus = some .disconnected ∨ s.lastStatus = some .reconnecting := by
            rcases hlast : s.lastStatus with - | (- | - | -) <;> simp_all
          rw [if_neg hnow]
          constructor
          · intro h
            have hsame := Option.some.inj h.1
            exact ⟨hwaits, not_le.mp hnow, by rw [hsame]⟩
          · rintro ⟨-, -, hsub⟩
            have hsame : { s with subscribed := false } = s := by rw [← hsub]
            rw [hsame]
            exact ⟨rfl, by simp [statusOf], by simp, by simp⟩

theorem apart_of_valid {db : Database} (hv : db.Valid) : db.devices.Pairwise Apart :=
  (List.pairwise_map.mp hv.deviceIds).and (List.pairwise_map.mp hv.addresses)

theorem after_monitorTick_bench (hidle : w.outside.touching = false) (now : ℚ)
    (Q : Except Err Unit → World Bench → Prop) :
    (monitorTick (benchEnv f comesUp) now).After Q w ↔
      (forM w.db.devices (tickDevice (benchEnv f comesUp) now)).After Q (pruned w) := by
  unfold monitorTick openConn
  rw [Action.after_bind, after_query_bench hidle, Action.then_ok, Action.after_bind,
    after_query_bench hidle, Action.then_ok, Action.after_bind, Action.after_modify,
    Action.then_ok]
  rfl

theorem sameFor_pruned {db : Database} (hx : x ∈ db.devices)
    (hchannels : Channels.listByDevice db x.id = Channels.listByDevice w.db x.id) :
    SameFor x w (pruned { w with db }) := by
  have hentry : (pruned { w with db }).monitor x.address = w.monitor x.address :=
    if_pos (by simpa using ⟨x, hx, rfl⟩)
  refine ⟨?_, rfl, hchannels⟩
  unfold view
  rw [hentry]
  rfl

/-- With nobody raising, each listed device shows what its own pass makes of it. -/
theorem monitorTick_without (f : Faults) (comesUp : Address → Bool) (db : Database)
    (hidle : w.outside.touching = false) (now : ℚ)
    (hapart : db.devices.Pairwise Apart) (hok : ∀ x ∈ db.devices, Faultless f x)
    (hchannels : ∀ x ∈ db.devices,
      Channels.listByDevice db x.id = Channels.listByDevice w.db x.id) :
    (monitorTick (benchEnv f comesUp) now).After
      (fun _ w' => ∀ x ∈ db.devices, view w' x = viewAfter f comesUp now w x)
      { w with db } := by
  rw [after_monitorTick_bench (w := { w with db }) hidle]
  apply (forM_view (w := pruned { w with db }) comesUp now hapart hok hidle).mono
  rintro r w' ⟨-, -, hviews, -⟩ x hx
  exact (hviews x hx).trans (sameFor_pruned hx (hchannels x hx)).viewAfter

/-- What raises in the pass for `d` leaves the devices before it as they are after their own
passes, and those after it as they were. -/
theorem monitorTick_with (comesUp : Address → Bool) (hidle : w.outside.touching = false) (now : ℚ)
    {earlier later : List Device} (hlist : w.db.devices = earlier ++ d :: later)
    (hapart : w.db.devices.Pairwise Apart)
    (hok : ∀ x ∈ earlier ++ later, Faultless f x) :
    (monitorTick (benchEnv f comesUp) now).After
      (fun _ w' => (∀ x ∈ earlier, view w' x = viewAfter f comesUp now w x) ∧
        ∀ x ∈ later, view w' x = if (outcome f comesUp now w d).result = .ok ()
          then viewAfter f comesUp now w x else view w x) w := by
  have hpruned : ∀ x ∈ w.db.devices, SameFor x w (pruned w) := fun x hx => sameFor_pruned hx rfl
  rw [after_monitorTick_bench hidle]
  rw [hlist] at hapart hpruned ⊢
  obtain ⟨hearlier, hrest, hcross⟩ := List.pairwise_append.mp hapart
  obtain ⟨hd, hlater⟩ := List.pairwise_cons.mp hrest
  rw [List.forM_append]
  have hfirst := forM_view (w := pruned w) comesUp now hearlier
    (fun x hx => hok x (List.mem_append_left _ hx)) hidle
  refine hfirst.bind_ok ?_
  rintro w₁ ⟨hidle₁, hviews₁, hsame₁⟩
  have hpast : ∀ x ∈ earlier, view w₁ x = viewAfter f comesUp now w x := fun x hx =>
    (hviews₁ x hx).trans (hpruned x (List.mem_append_left _ hx)).viewAfter
  have hcoming : ∀ x ∈ d :: later, SameFor x w w₁ := fun x hx =>
    (hpruned x (List.mem_append_right _ hx)).trans (hsame₁ x fun y hy => hcross y hy x hx)
  have hout : outcome f comesUp now w₁ d = outcome f comesUp now w d := by
    have hsame := hcoming d (.head _)
    have hentry : w₁.monitor d.address = w.monitor d.address :=
      congrArg DeviceView.entry hsame.view
    unfold outcome
    rw [hentry, hsame.link]
  rw [List.forM_cons]
  refine (tickDevice_view hidle₁ now d).bind (fun _ w₂ h₂ => ?_) fun e w₂ h₂ => ?_
  · obtain ⟨hr, hidle₂, -, hsame₂⟩ := h₂
    rw [hout] at hr
    have hok' : ∀ x ∈ later, Faultless f x := fun x hx => hok x (List.mem_append_right _ hx)
    apply (forM_view comesUp now hlater hok' hidle₂).mono
    rintro r w₃ ⟨-, -, hviews₃, hsame₃⟩
    constructor
    · intro x hx
      have hdx := (hcross x hx d (.head _)).symm
      have hkept := (hsame₂ x hdx).trans
        (hsame₃ x fun y hy => (hcross x hx y (.tail _ hy)).symm)
      exact hkept.view.trans (hpast x hx)
    · intro x hx
      rw [if_pos hr.symm, hviews₃ x hx]
      exact ((hcoming x (.tail _ hx)).trans (hsame₂ x (hd x hx))).viewAfter
  · obtain ⟨hr, -, -, hsame₂⟩ := h₂
    rw [hout] at hr
    have hraised : ¬(outcome f comesUp now w d).result = .ok () := by
      rw [← hr]
      exact fun h => nomatch h
    constructor
    · intro x hx
      exact (hsame₂ x (hcross x hx d (.head _)).symm).view.trans (hpast x hx)
    · intro x hx
      rw [if_neg hraised]
      exact ((hcoming x (.tail _ hx)).trans (hsame₂ x (hd x hx))).view

theorem listByDevice_deleted {db db' : Database} {i : ℕ} (h : Devices.delete db i = .ok db')
    {j : ℕ} (hij : i ≠ j) : Channels.listByDevice db' j = Channels.listByDevice db j := by
  obtain rfl := Devices.delete_ok h
  unfold Channels.listByDevice
  rw [List.filter_filter]
  apply List.filter_congr
  intro c _
  by_cases hc : c.deviceId = j
  · simp [hc, hij.symm]
  · simp [hc]

/-- The other devices show the same whether `d`, the only one for which calls raise, is listed
or not, exactly if the pass for `d` comes to no such call, or nothing is to be done for those
after it. Whatever a subscribe raises is of no account. -/
theorem others_undisturbed (hf : f.Only d) (hv : w.db.Valid)
    (hidle : w.outside.touching = false) {earlier later : List Device}
    (hlist : w.db.devices = earlier ++ d :: later) {db : Database}
    (hdb : Devices.delete w.db d.id = .ok db) (now : ℚ) :
    (∀ x ∈ earlier ++ later,
      view ((monitorTick (benchEnv f comesUp) now).exec w).2 x =
        view ((monitorTick (benchEnv f comesUp) now).exec { w with db }).2 x) ↔
      ¬Reaches f comesUp now (w.outside.links d.address) d ((w.monitor d.address).getD {}) ∨
        ∀ x ∈ later, NothingToDo now (w.outside.links x.address) (w.monitor x.address) := by
  have hapart := apart_of_valid hv
  have hothers : ∀ x ∈ earlier ++ later, Apart d x := by
    rw [hlist] at hapart
    obtain ⟨-, hrest, hcross⟩ := List.pairwise_append.mp hapart
    intro x hx
    rcases List.mem_append.mp hx with hx | hx
    · exact (hcross x hx d (.head _)).symm
    · exact (List.pairwise_cons.mp hrest).1 x hx
  have hok : ∀ x ∈ earlier ++ later, Faultless f x := fun x hx => .of_only hf (hothers x hx)
  have hremaining : db.devices = earlier ++ later := by
    rw [Devices.delete_ok hdb]
    dsimp only
    rw [hlist, List.filter_append, List.filter_cons_of_neg (by simp)]
    have hkeep : ∀ xs : List Device, (∀ x ∈ xs, Apart d x) →
        xs.filter (fun x => decide (x.id ≠ d.id)) = xs := by
      intro xs hxs
      rw [List.filter_eq_self]
      exact fun x hx => by simpa using (hxs x hx).1.symm
    rw [hkeep earlier fun x hx => hothers x (List.mem_append_left _ hx),
      hkeep later fun x hx => hothers x (List.mem_append_right _ hx)]
  have hwith := monitorTick_with comesUp hidle now hlist hapart hok
  have hwithout := monitorTick_without f comesUp db hidle now
    (apart_of_valid (hv.deviceDelete hdb)) (hremaining ▸ hok) (hremaining ▸ fun x hx =>
      listByDevice_deleted hdb (hothers x hx).1)
  unfold Action.After at hwith hwithout
  rw [hremaining] at hwithout
  generalize ((monitorTick (benchEnv f comesUp) now).exec w).2 = w₁ at hwith ⊢
  generalize ((monitorTick (benchEnv f comesUp) now).exec { w with db }).2 = w₂ at hwithout ⊢
  rw [← outcome_ok]
  by_cases hr : (outcome f comesUp now w d).result = .ok ()
  · refine ⟨fun _ => Or.inl hr, fun _ x hx => ?_⟩
    rw [hwithout x hx]
    rcases List.mem_append.mp hx with hx | hx
    · exact hwith.1 x hx
    · rw [hwith.2 x hx, if_pos hr]
  · have hidleFor : ∀ x ∈ later, view w₁ x = view w₂ x ↔
        NothingToDo now (w.outside.links x.address) (w.monitor x.address) := by
      intro x hx
      have hx' := List.mem_append_right earlier hx
      rw [hwithout x hx', hwith.2 x hx, if_neg hr, eq_comm, viewAfter_nothingToDo (hok x hx')]
    constructor
    · intro hall
      exact Or.inr fun x hx => (hidleFor x hx).mp (hall x (List.mem_append_right _ hx))
    · rintro (hr' | hall) x hx
      · exact absurd hr' hr
      · rcases List.mem_append.mp hx with hx | hx
        · rw [hwith.1 x hx, hwithout x (List.mem_append_left _ hx)]
        · exact (hidleFor x hx).mpr (hall x hx)

end Passes

def deskLamp : Device :=
  { id := 1, address := "aa", addrType := .publicAddr, name := "desk", ownerUserId := 1 }

def shelfLamp : Device :=
  { id := 2, address := "bb", addrType := .publicAddr, name := "shelf", ownerUserId := 1 }

def twoLamps : World Bench where
  db := { devices := [deskLamp, shelfLamp], nextDevice := 3 }
  outside := { links := fun _ => true }

theorem twoLamps_valid : twoLamps.db.Valid := by
  constructor <;> decide

def silentFor (d : Device) : Faults where
  onStatus i _ := if i = d.id then some .timeoutError else none

theorem silentFor_only (d : Device) : (silentFor d).Only d :=
  ⟨fun _ _ => rfl, fun _ hi _ => if_neg hi, fun _ _ => rfl, fun _ _ _ => rfl⟩

/-- Behind the last lamp there is nobody to be disturbed. -/
theorem others_undisturbed_last : ∃ db, Devices.delete twoLamps.db 2 = .ok db ∧
    view ((monitorTick (benchEnv (silentFor shelfLamp) fun _ => true) 0).exec twoLamps).2
        deskLamp =
      view ((monitorTick (benchEnv (silentFor shelfLamp) fun _ => true) 0).exec
        { twoLamps with db }).2 deskLamp := by
  have hlist : twoLamps.db.devices = [deskLamp] ++ shelfLamp :: [] := rfl
  refine ⟨_, rfl, ?_⟩
  exact (others_undisturbed (silentFor_only shelfLamp) twoLamps_valid rfl hlist rfl 0).mpr
    (Or.inr fun x hx => nomatch hx) deskLamp (.head _)

/-- The callback raises for the first lamp, and the tick does not come to the second. -/
theorem second_disturbed : (silentFor deskLamp).Only deskLamp ∧
    ∃ db, Devices.delete twoLamps.db 1 = .ok db ∧
    view ((monitorTick (benchEnv (silentFor deskLamp) fun _ => true) 0).exec twoLamps).2
        shelfLamp ≠
      view ((monitorTick (benchEnv (silentFor deskLamp) fun _ => true) 0).exec
        { twoLamps with db }).2 shelfLamp := by
  refine ⟨silentFor_only deskLamp, _, rfl, fun hsame => ?_⟩
  have hstatuses := congrArg DeviceView.statuses hsame
  revert hstatuses
  decide +kernel

end BleRuntime
end HomeServer.Services
