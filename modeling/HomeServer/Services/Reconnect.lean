import HomeServer.Services.MonitorTick

/-! Runs of the reconnect monitor. Between two ticks the tables and the links may become
anything; only the monitor's own entries are carried over. -/
namespace HomeServer.Services
open HomeServer.Db HomeServer.Ble HomeServer.Lib

namespace BleRuntime
variable {β : Type} {E : Env β}

/-- What a tick finds: the time, the tables and the state of everything outside. -/
structure TickInput (β : Type) where
  now : ℚ
  db : Database
  valid : db.Valid
  outside : β

/-- What a tick did: `world` is the state after it, with the calls of this tick alone. -/
structure TickRecord (β : Type) where
  now : ℚ
  devices : List Device
  outcome : Except Err Unit
  world : World β

def observe (w : World β) (t : TickInput β) : World β :=
  { w with db := t.db, outside := t.outside, trace := [] }

def tickRecord (E : Env β) (w : World β) (t : TickInput β) : TickRecord β :=
  let out := (monitorTick E t.now).exec (observe w t)
  { now := t.now, devices := t.db.devices, outcome := out.1, world := out.2 }

def runTicks (E : Env β) : World β → List (TickInput β) → List (TickRecord β)
  | _, [] => []
  | w, t :: ts => tickRecord E w t :: runTicks E (tickRecord E w t).world ts

def runEnd (E : Env β) (w : World β) (ts : List (TickInput β)) : World β :=
  ts.foldl (fun w t => (tickRecord E w t).world) w

theorem runTicks_append (w : World β) (ts us : List (TickInput β)) :
    runTicks E w (ts ++ us) = runTicks E w ts ++ runTicks E (runEnd E w ts) us := by
  induction ts generalizing w with
  | nil => rfl
  | cons t ts ih =>
    rw [List.cons_append, runTicks, runTicks, List.cons_append, ih]
    rfl

theorem length_runTicks (w : World β) (ts : List (TickInput β)) :
    (runTicks E w ts).length = ts.length := by
  induction ts generalizing w with
  | nil => rfl
  | cons t ts ih => rw [runTicks, List.length_cons, ih, List.length_cons]

theorem runEnd_append (w : World β) (ts us : List (TickInput β)) :
    runEnd E w (ts ++ us) = runEnd E (runEnd E w ts) us := List.foldl_append

theorem runTicks_concat (w : World β) (ts : List (TickInput β)) (t : TickInput β) :
    runTicks E w (ts ++ [t]) = runTicks E w ts ++ [tickRecord E (runEnd E w ts) t] :=
  runTicks_append w ts [t]

theorem mem_runTicks {w : World β} {ts : List (TickInput β)} {r : TickRecord β}
    (h : r ∈ runTicks E w ts) : ∃ t ∈ ts, ∃ w', r = tickRecord E w' t := by
  induction ts generalizing w with
  | nil => cases h
  | cons t ts ih =>
    rcases List.mem_cons.mp h with rfl | h
    · exact ⟨t, .head _, w, rfl⟩
    · obtain ⟨u, hu, w', rfl⟩ := ih h
      exact ⟨u, .tail _ hu, w', rfl⟩

def Registered (i : ℕ) (a : Address) (t : TickInput β) : Prop :=
  ∃ d ∈ t.db.devices, d.id = i ∧ d.address = a

theorem tickRecord_step (hE : E.Quiet) {i : ℕ} {a : Address} (w : World β) {t : TickInput β}
    (hreg : Registered i a t) : ∃ d : Device, d.id = i ∧ d.address = a ∧
      TickStep t.now d (w.monitor a) ((tickRecord E w t).world.trace.filter (concerns i a))
        (tickRecord E w t).outcome ((tickRecord E w t).world.monitor a) := by
  obtain ⟨d, hd, rfl, rfl⟩ := hreg
  obtain ⟨es, htrace, hstep⟩ := monitorTick_device hE t.now (w := observe w t) t.valid hd
  rw [show (observe w t).trace = [] from rfl, List.filter_nil, List.nil_append] at htrace
  exact ⟨d, rfl, rfl, htrace ▸ hstep⟩

theorem mem_trace_iff {i : ℕ} {a : Address} {e : Event} (he : concerns i a e = true)
    (es : List Event) : e ∈ es ↔ e ∈ es.filter (concerns i a) := by
  rw [List.mem_filter]
  exact ⟨fun h => ⟨h, he⟩, fun h => h.1⟩

theorem filter_of_concerns {i : ℕ} {a : Address} {p : Event → Bool}
    (hp : ∀ e, p e = true → concerns i a e = true) (es : List Event) :
    es.filter p = (es.filter (concerns i a)).filter p := by
  rw [List.filter_filter]
  apply List.filter_congr
  intro e _
  by_cases h : p e = true
  · simp [h, hp e h]
  · simp [h]

/-! The retry schedule. -/

/-- The times of the `ensure_connecting` calls for an address. -/
def retryTimes (a : Address) (records : List (TickRecord β)) : List ℚ :=
  records.flatMap fun r => (r.world.trace.filter (· = .ensured a)).map fun _ => r.now

/-- The first of the times at or after `due`, then the first later one at or after it plus
`min (2 ^ (j + 1)) 60`, and so on. -/
def schedule (j : ℕ) (due : ℚ) : List ℚ → List ℚ
  | [] => []
  | t :: ts => if t < due then schedule j due ts
      else t :: schedule (j + 1) (t + min (2 ^ (j + 1)) 60) ts

def FreshFor (a : Address) (w : World β) : Prop :=
  ∀ s, w.monitor a = some s → s.lastStatus = none ∨ s.lastStatus = some .connected

/-- The entry of a device that has been tried `j` times since the drop. -/
structure Retrying (a : Address) (j : ℕ) (due : ℚ) (w : World β) : Prop where
  entry : ∃ s, w.monitor a = some s ∧
    ¬(s.lastStatus = none ∨ s.lastStatus = some .connected) ∧
    s.backoffS = min (2 ^ j) 60 ∧ s.nextRetryAt = due

theorem backoff_doubles (j : ℕ) :
    min (min ((2 : ℚ) ^ j) 60 * reconnectFactor) reconnectCapS = min (2 ^ (j + 1)) 60 := by
  unfold reconnectFactor reconnectCapS
  rw [pow_succ]
  rcases le_total ((2 : ℚ) ^ j) 60 with h | h
  · rw [min_eq_left h]
  · rw [min_eq_right h, min_eq_right (by norm_num), min_eq_right (by linarith)]

theorem DeviceStep.linkUp_of_linked {now : ℚ} {d : Device} {s s' : DeviceMonitorState}
    {es : List Event} {r : Except Err Unit} (h : DeviceStep now d s es r s')
    (hup : .linked d.address true ∈ es) : s' = .linkUp := by
  have hannounce : ∀ status, .linked d.address true ∉ announce d s status := by
    intro status
    unfold announce
    split <;> simp
  cases h with
  | connected | reconnected => rfl
  | dropped => split_ifs at hup <;> simp at hup
  | waiting => simp at hup
  | missed | raised => simp [hannounce] at hup

theorem fresh_of_linked (hE : E.Quiet) {i : ℕ} {a : Address} {w : World β} {t : TickInput β}
    (hreg : Registered i a t) (hup : .linked a true ∈ (tickRecord E w t).world.trace) :
    FreshFor a (tickRecord E w t).world := by
  obtain ⟨d, rfl, rfl, hstep⟩ := tickRecord_step hE w hreg
  rw [mem_trace_iff (i := d.id) (a := d.address) (by simp [concerns])] at hup
  intro s hs
  rw [hs] at hstep
  generalize (tickRecord E w t).world.trace.filter _ = es at hstep hup
  generalize (tickRecord E w t).outcome = r at hstep
  generalize hs' : some s = s' at hstep
  cases hstep with
  | skipped e => cases hup
  | stepped h hr =>
    cases Option.some.inj hs'
    rw [h.linkUp_of_linked hup]
    exact Or.inr rfl

theorem retryTimes_cons (a : Address) (r : TickRecord β) (rs : List (TickRecord β)) :
    retryTimes a (r :: rs) =
      ((r.world.trace.filter (· = .ensured a)).map fun _ => r.now) ++ retryTimes a rs :=
  List.flatMap_cons

/-- A completed tick that never sees the link of the device up. -/
theorem tick_unlinked (hE : E.Quiet) {i : ℕ} {a : Address} {w : World β} {t : TickInput β}
    (hreg : Registered i a t) (hok : (tickRecord E w t).outcome = .ok ())
    (hdown : .linked a true ∉ (tickRecord E w t).world.trace) :
    ∃ (d : Device) (es : List Event) (s' : DeviceMonitorState), d.id = i ∧ d.address = a ∧
      (tickRecord E w t).world.trace.filter (· = .ensured a) = es.filter (· = .ensured a) ∧
      (tickRecord E w t).world.monitor a = some s' ∧ .linked a true ∉ es ∧
      DeviceStep t.now d ((w.monitor a).getD {}) es (.ok ()) s' := by
  obtain ⟨d, rfl, rfl, hstep⟩ := tickRecord_step hE w hreg
  have hfilter := filter_of_concerns (i := d.id) (a := d.address) (p := (· = .ensured d.address))
    (by simp [concerns]) (tickRecord E w t).world.trace
  rw [mem_trace_iff (i := d.id) (a := d.address) (by simp [concerns])] at hdown
  rw [hok] at hstep
  generalize (tickRecord E w t).world.trace.filter (concerns d.id d.address) = es at *
  generalize (tickRecord E w t).world.monitor d.address = s' at *
  cases hstep with
  | stepped h hr =>
    have hr' := hr rfl
    subst hr'
    exact ⟨d, es, _, rfl, rfl, hfilter, rfl, hdown, h⟩

theorem tick_fresh (hE : E.Quiet) {i : ℕ} {a : Address} {w : World β} {t : TickInput β}
    (hreg : Registered i a t) (hok : (tickRecord E w t).outcome = .ok ())
    (hdown : .linked a true ∉ (tickRecord E w t).world.trace) (hfresh : FreshFor a w) :
    (tickRecord E w t).world.trace.filter (· = .ensured a) = [] ∧
      Retrying a 0 (t.now + 1) (tickRecord E w t).world := by
  obtain ⟨d, es, s', rfl, rfl, hes, hs', hnot, hstep⟩ := tick_unlinked hE hreg hok hdown
  have hlast : ((w.monitor d.address).getD {}).lastStatus = none ∨
      ((w.monitor d.address).getD {}).lastStatus = some .connected := by
    cases hm : w.monitor d.address with
    | none => exact Or.inl rfl
    | some s => exact hfresh s hm
  rw [hes]
  cases hstep with
  | connected => simp at hnot
  | dropped h =>
    refine ⟨by split <;> simp, ⟨_, hs', by simp, by norm_num [reconnectBaseS], rfl⟩⟩
  | waiting h | reconnected h | missed h => exact absurd hlast h

theorem tick_retrying (hE : E.Quiet) {i : ℕ} {a : Address} {w : World β} {t : TickInput β}
    (hreg : Registered i a t) (hok : (tickRecord E w t).outcome = .ok ())
    (hdown : .linked a true ∉ (tickRecord E w t).world.trace) {j : ℕ} {due : ℚ}
    (hretry : Retrying a j due w) :
    if t.now < due then
      (tickRecord E w t).world.trace.filter (· = .ensured a) = [] ∧
        Retrying a j due (tickRecord E w t).world
    else
      (tickRecord E w t).world.trace.filter (· = .ensured a) = [.ensured a] ∧
        Retrying a (j + 1) (t.now + min (2 ^ (j + 1)) 60) (tickRecord E w t).world := by
  obtain ⟨d, es, s', rfl, rfl, hes, hs', hnot, hstep⟩ := tick_unlinked hE hreg hok hdown
  obtain ⟨s, hs, hlast, hback, rfl⟩ := hretry.entry
  rw [hs, Option.getD_some] at hstep
  rw [hes]
  cases hstep with
  | connected => simp at hnot
  | dropped h => exact absurd h hlast
  | reconnected => simp at hnot
  | waiting h hnow =>
    rw [if_pos hnow]
    exact ⟨by simp, ⟨_, hs', hlast, hback, rfl⟩⟩
  | missed h hnow =>
    have hannounce : (announce d s .reconnecting).filter (· = .ensured d.address) = [] := by
      unfold announce
      split <;> simp
    rw [hback, backoff_doubles] at hs'
    rw [if_neg (not_lt.mpr hnow)]
    exact ⟨by simp [hannounce], ⟨_, hs', by simp, rfl, rfl⟩⟩

theorem retryTimes_retrying (hE : E.Quiet) {i : ℕ} {a : Address} {ts : List (TickInput β)}
    {w : World β} {j : ℕ} {due : ℚ} (hretry : Retrying a j due w)
    (hreg : ∀ t ∈ ts, Registered i a t) (hok : ∀ r ∈ runTicks E w ts, r.outcome = .ok ())
    (hdown : ∀ r ∈ runTicks E w ts, .linked a true ∉ r.world.trace) :
    retryTimes a (runTicks E w ts) = schedule j due (ts.map TickInput.now) := by
  induction ts generalizing w j due with
  | nil => rfl
  | cons t ts ih =>
    rw [runTicks] at hok hdown ⊢
    have hstep := tick_retrying hE (hreg t (.head _)) (hok _ (.head _)) (hdown _ (.head _)) hretry
    rw [retryTimes_cons, List.map_cons, schedule]
    have htail : ∀ {j due}, Retrying a j due (tickRecord E w t).world →
        retryTimes a (runTicks E (tickRecord E w t).world ts) =
          schedule j due (ts.map TickInput.now) := fun h =>
      ih h (fun u hu => hreg u (.tail _ hu)) (fun r hr => hok r (.tail _ hr))
        fun r hr => hdown r (.tail _ hr)
    split_ifs at hstep ⊢
    · rw [hstep.1, htail hstep.2]
      rfl
    · rw [hstep.1, htail hstep.2]
      rfl

/-- From the tick that sees the drop on, the calls of `ensure_connecting` come at the times of
the schedule, whatever was seen before and whatever the other devices do. -/
theorem retry_schedule (hE : E.Quiet) {w : World β} {i : ℕ} {a : Address}
    (before later : List (TickInput β)) (t₀ : TickInput β)
    (hreg : ∀ t ∈ before ++ t₀ :: later, Registered i a t)
    (hok : ∀ r ∈ runTicks E w (before ++ t₀ :: later), r.outcome = .ok ())
    (hstart : before = [] ∧ FreshFor a w ∨
      ∃ r ∈ (runTicks E w before).getLast?, .linked a true ∈ r.world.trace)
    (hdown : ∀ r ∈ (runTicks E w (before ++ t₀ :: later)).drop before.length,
      .linked a true ∉ r.world.trace) :
    retryTimes a ((runTicks E w (before ++ t₀ :: later)).drop before.length) =
      schedule 0 (t₀.now + 1) (later.map TickInput.now) := by
  have hdrop : (runTicks E w (before ++ t₀ :: later)).drop before.length =
      runTicks E (runEnd E w before) (t₀ :: later) := by
    rw [runTicks_append, List.drop_append_of_le_length (by rw [length_runTicks])]
    rw [List.drop_eq_nil_of_le (by rw [length_runTicks]), List.nil_append]
  rw [runTicks_append] at hok
  rw [hdrop] at hdown ⊢
  have hfresh : FreshFor a (runEnd E w before) := by
    rcases hstart with ⟨rfl, hfresh⟩ | ⟨r, hr, hup⟩
    · exact hfresh
    rcases List.eq_nil_or_concat before with rfl | ⟨ts, t, rfl⟩
    · cases hr
    rw [List.concat_eq_append] at hr hreg ⊢
    rw [runTicks_concat, List.getLast?_concat] at hr
    cases hr
    rw [runEnd_append]
    exact fresh_of_linked hE (hreg t (by simp)) hup
  have hreg' : ∀ t ∈ t₀ :: later, Registered i a t := fun t ht =>
    hreg t (List.mem_append_right _ ht)
  have hok' : ∀ r ∈ runTicks E (runEnd E w before) (t₀ :: later), r.outcome = .ok () :=
    fun r hr => hok r (List.mem_append_right _ hr)
  rw [runTicks] at hdown hok' ⊢
  obtain ⟨hnone, hretry⟩ := tick_fresh hE (hreg' _ (.head _)) (hok' _ (.head _))
    (hdown _ (.head _)) hfresh
  rw [retryTimes_cons, hnone]
  exact retryTimes_retrying hE hretry (fun t ht => hreg' t (.tail _ ht))
    (fun r hr => hok' r (.tail _ hr)) fun r hr => hdown r (.tail _ hr)

/-- A backend whose single link is up or down, and a silent callback. -/
def switchEnv : Env Bool where
  ble := {
    startScan := fun _ b => (.ok [], b)
    connect := fun _ _ b => (.ok (), b)
    ensureConnecting := fun _ _ b => (.ok (), b)
    disconnect := fun _ _ => (.ok (), false)
    isConnected := fun _ b => (b, b)
    read := fun _ _ b => (.ok [], b)
    write := fun _ _ _ b => (.ok (), b)
    subscribe := fun _ _ _ b => (.ok (), b)
    unsubscribe := fun _ _ b => (.ok (), b) }
  onStatus := fun _ _ b => (.ok (), b)
  sqlError := fun b => (none, b)
  wallClock := fun b => (0, b)

theorem switchEnv_quiet : switchEnv.Quiet := ⟨fun _ _ b => ⟨b, rfl⟩, fun b => ⟨b, rfl⟩⟩

def oneDevice : Database where
  devices := [{ id := 1, address := "aa", addrType := .publicAddr, name := "lamp", ownerUserId := 1 }]
  nextDevice := 2

theorem oneDevice_valid : oneDevice.Valid := by
  constructor <;> decide

def tickAt (now : ℚ) (up : Bool) : TickInput Bool := ⟨now, oneDevice, oneDevice_valid, up⟩

theorem retry_schedule_oneDevice :
    retryTimes "aa" ((runTicks switchEnv { db := oneDevice, outside := true }
      ([tickAt 0 true] ++ tickAt 1 false :: [1, 2, 3, 4, 7, 8].map (tickAt · false))).drop 1) =
      [2, 4, 8] := by
  have hreg : ∀ t ∈ [tickAt 0 true] ++ tickAt 1 false :: [1, 2, 3, 4, 7, 8].map (tickAt · false),
      Registered 1 "aa" t := by
    simp [tickAt, Registered, oneDevice]
  refine (retry_schedule switchEnv_quiet [tickAt 0 true] _ _ hreg (by decide +kernel)
    (Or.inr (by decide +kernel)) (by decide +kernel)).trans ?_
  decide +kernel

end BleRuntime
end HomeServer.Services
