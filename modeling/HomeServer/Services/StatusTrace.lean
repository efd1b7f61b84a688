import HomeServer.Services.Reconnect

/-! The statuses that a run of ticks reports for one device, the timestamps written with
them, and the entries of the monitor. -/
namespace HomeServer.Services
open HomeServer.Db HomeServer.Ble HomeServer.Lib

namespace BleRuntime
variable {β : Type} {E : Env β}

def statusOf (i : ℕ) : Event → Option Status
  | .status j status => if j = i then some status else none
  | .touched _ | .ensured _ | .linked _ _ => none

/-- The steps between two reports; `none` is a device not reported yet. -/
def Follows : Option Status → Status → Prop
  | none, .connected | none, .disconnected
  | some .connected, .disconnected
  | some .disconnected, .reconnecting | some .disconnected, .connected
  | some .reconnecting, .connected => True
  | _, _ => False

def Legal : Option Status → List Status → Prop
  | _, [] => True
  | last, s :: ss => Follows last s ∧ Legal (some s) ss

def lastReport (last : Option Status) (ss : List Status) : Option Status :=
  ss.foldl (fun _ s => some s) last

/-- The reports `ss` with the writes of `last_connected_at` that belong to them: before each
connected, and before a disconnected that follows a connected. -/
def withTouches (i : ℕ) : Option Status → List Status → List Event
  | _, [] => []
  | last, s :: ss =>
    (if s = .connected ∨ s = .disconnected ∧ last = some .connected then [.touched i] else []) ++
      .status i s :: withTouches i (some s) ss

theorem legal_append (last : Option Status) (ss us : List Status) :
    Legal last (ss ++ us) ↔ Legal last ss ∧ Legal (lastReport last ss) us := by
  induction ss generalizing last with
  | nil => simp [Legal, lastReport]
  | cons s ss ih => simp only [List.cons_append, Legal, ih, lastReport, List.foldl_cons, and_assoc]

theorem lastReport_append (last : Option Status) (ss us : List Status) :
    lastReport last (ss ++ us) = lastReport (lastReport last ss) us := List.foldl_append

theorem withTouches_append (i : ℕ) (last : Option Status) (ss us : List Status) :
    withTouches i last (ss ++ us) =
      withTouches i last ss ++ withTouches i (lastReport last ss) us := by
  induction ss generalizing last with
  | nil => rfl
  | cons s ss ih =>
    simp only [List.cons_append, withTouches, ih, lastReport, List.foldl_cons, List.append_assoc]

/-- What a stretch of calls `es` reports for device `i`, from the last status before it to
the last one after it. -/
structure Reports (i : ℕ) (last : Option Status) (es : List Event) (last' : Option Status) :
    Prop where
  legal : Legal last (es.filterMap (statusOf i))
  end_eq : last' = lastReport last (es.filterMap (statusOf i))
  events : es.filter (reports i) = withTouches i last (es.filterMap (statusOf i))

theorem Reports.append {i : ℕ} {last last' last'' : Option Status} {es fs : List Event}
    (h : Reports i last es last') (h' : Reports i last' fs last'') :
    Reports i last (es ++ fs) last'' := by
  obtain rfl := h.end_eq
  constructor
  · rw [List.filterMap_append, legal_append]
    exact ⟨h.legal, h'.legal⟩
  · rw [List.filterMap_append, lastReport_append]
    exact h'.end_eq
  · rw [List.filterMap_append, List.filter_append, withTouches_append, h.events, h'.events]

theorem statusOf_of_reports {i : ℕ} {e : Event} {s : Status} (h : statusOf i e = some s) :
    reports i e = true := by
  cases e <;> simp_all [statusOf, BleRuntime.reports]

/-- Calls that report nothing of device `i`. -/
theorem Reports.none {i : ℕ} {last : Option Status} {es : List Event}
    (h : es.filter (reports i) = []) : Reports i last es last := by
  have hnone : es.filterMap (statusOf i) = [] := by
    rw [List.filterMap_eq_nil_iff]
    intro e he
    by_contra hs
    obtain ⟨s, hs⟩ := Option.ne_none_iff_exists'.mp hs
    exact List.filter_eq_nil_iff.mp h e he (statusOf_of_reports hs)
  constructor <;> rw [hnone]
  · trivial
  · rfl
  · exact h

theorem DeviceStep.reported {now : ℚ} {d : Device} {s s' : DeviceMonitorState} {es : List Event}
    {r : Except Err Unit} (h : DeviceStep now d s es r s') :
    Reports d.id s.lastStatus es s'.lastStatus := by
  generalize hlast : s.lastStatus = last
  cases h with
  | connected =>
    unfold connectedEvents
    rw [hlast]
    rcases last with - | (- | - | -) <;> constructor <;>
      simp [List.filterMap_cons, statusOf, BleRuntime.reports, Legal, Follows, lastReport, withTouches,
        DeviceMonitorState.linkUp]
  | dropped hdrop =>
    rw [hlast] at hdrop ⊢
    rcases hdrop with rfl | rfl <;> constructor <;>
      simp [List.filterMap_cons, statusOf, BleRuntime.reports, Legal, Follows, lastReport, withTouches]
  | waiting => exact hlast ▸ .none (by simp [BleRuntime.reports])
  | reconnected hdue | missed hdue | raised hdue =>
    unfold announce
    rw [hlast] at hdue ⊢
    rcases last with - | (- | - | -)
    · simp at hdue
    · simp at hdue
    all_goals
      constructor <;>
        simp [List.filterMap_cons, statusOf, BleRuntime.reports, Legal, Follows, lastReport, withTouches,
          DeviceMonitorState.linkUp]

theorem DeviceStep.linked_of_connected {now : ℚ} {d : Device} {s s' : DeviceMonitorState}
    {es : List Event} {r : Except Err Unit} (h : DeviceStep now d s es r s')
    (hc : .status d.id .connected ∈ es) : .linked d.address true ∈ es := by
  have hannounce : .status d.id .connected ∉ announce d s .reconnecting := by
    unfold announce
    split <;> simp
  cases h with
  | connected => exact .head _
  | dropped => split_ifs at hc <;> simp at hc
  | waiting => simp at hc
  | reconnected => simp
  | missed | raised => simp [hannounce] at hc

/-- Only the calls that concern a device say anything about it. -/
theorem Reports.of_filter {i : ℕ} {a : Address} {last last' : Option Status} {es : List Event}
    (h : Reports i last (es.filter (concerns i a)) last') : Reports i last es last' := by
  have hstatus : es.filterMap (statusOf i) = (es.filter (concerns i a)).filterMap (statusOf i) := by
    rw [List.filterMap_filter]
    apply List.filterMap_congr
    intro e _
    cases hs : statusOf i e with
    | none => simp
    | some s => rw [concerns_of_reports (statusOf_of_reports hs) a]; simp
  have hreports := filter_of_concerns (fun e he => concerns_of_reports (i := i) he a) es
  constructor
  · rw [hstatus]
    exact h.legal
  · rw [hstatus]
    exact h.end_eq
  · rw [hreports, hstatus]
    exact h.events

def lastStatus (w : World β) (a : Address) : Option Status :=
  (w.monitor a).bind DeviceMonitorState.lastStatus

theorem tick_reports (hE : E.Quiet) {i : ℕ} {a : Address} {w : World β} {t : TickInput β}
    (hreg : Registered i a t) :
    Reports i (lastStatus w a) (tickRecord E w t).world.trace
      (lastStatus (tickRecord E w t).world a) := by
  obtain ⟨d, rfl, rfl, hstep⟩ := tickRecord_step hE w hreg
  apply Reports.of_filter (a := d.address)
  unfold lastStatus
  generalize (tickRecord E w t).world.trace.filter _ = es at hstep ⊢
  generalize (tickRecord E w t).world.monitor d.address = s' at hstep ⊢
  generalize (tickRecord E w t).outcome = r at hstep
  cases hstep with
  | skipped e => exact .none rfl
  | stepped h hr =>
    have hr := h.reported
    cases hs : w.monitor d.address with
    | none => simpa [hs] using hr
    | some s => simpa [hs] using hr

theorem tick_linked (hE : E.Quiet) {i : ℕ} {a : Address} {w : World β} {t : TickInput β}
    (hreg : Registered i a t) (hc : .status i .connected ∈ (tickRecord E w t).world.trace) :
    .linked a true ∈ (tickRecord E w t).world.trace := by
  obtain ⟨d, rfl, rfl, hstep⟩ := tickRecord_step hE w hreg
  rw [mem_trace_iff (i := d.id) (a := d.address) (by simp [concerns])] at hc ⊢
  generalize (tickRecord E w t).world.trace.filter _ = es at hstep hc ⊢
  generalize (tickRecord E w t).world.monitor d.address = s' at hstep
  generalize (tickRecord E w t).outcome = r at hstep
  cases hstep with
  | skipped e => cases hc
  | stepped h hr => exact h.linked_of_connected hc

def Unlisted (i : ℕ) (t : TickInput β) : Prop := ∀ d ∈ t.db.devices, d.id ≠ i

theorem tick_unlisted (hE : E.Quiet) {i : ℕ} {w : World β} {t : TickInput β}
    (hi : Unlisted i t) : (tickRecord E w t).world.trace.filter (reports i) = [] :=
  monitorTick_unlisted hE t.now (w := observe w t) hi

def allCalls (records : List (TickRecord β)) : List Event := records.flatMap fun r => r.world.trace

theorem run_reports (hE : E.Quiet) {i : ℕ} {a : Address} {ts : List (TickInput β)}
    (hreg : ∀ t ∈ ts, Registered i a t) (w : World β) :
    Reports i (lastStatus w a) (allCalls (runTicks E w ts)) (lastStatus (runEnd E w ts) a) := by
  induction ts generalizing w with
  | nil => exact .none rfl
  | cons t ts ih =>
    have htick := tick_reports hE (w := w) (hreg t (.head _))
    exact htick.append (ih (fun u hu => hreg u (.tail _ hu)) _)

theorem run_unlisted (hE : E.Quiet) {i : ℕ} {ts : List (TickInput β)}
    (hi : ∀ t ∈ ts, Unlisted i t) (w : World β) :
    (allCalls (runTicks E w ts)).filter (reports i) = [] := by
  induction ts generalizing w with
  | nil => rfl
  | cons t ts ih =>
    rw [runTicks, allCalls, List.flatMap_cons, List.filter_append, tick_unlisted hE (hi t (.head _)),
      List.nil_append]
    exact ih (fun u hu => hi u (.tail _ hu)) _

/-- A device that is registered under one id: it gets its row between two ticks, when no row
has its address, and may lose it for good. -/
structure StaysRegistered (i : ℕ) (a : Address) (pre post gone : List (TickInput β)) : Prop where
  before : ∀ t ∈ pre, Unlisted i t
  free : ∀ t ∈ pre.getLast?, ∀ d ∈ t.db.devices, d.address ≠ a
  during : ∀ t ∈ post, Registered i a t
  after : ∀ t ∈ gone, Unlisted i t

theorem tick_unregistered (hE : E.Quiet) {a : Address} {w : World β} {t : TickInput β}
    (ha : ∀ d ∈ t.db.devices, d.address ≠ a) : (tickRecord E w t).world.monitor a = none := by
  have h := (monitorTick_monitor hE t.now (observe w t)).1 a
  cases hm : (tickRecord E w t).world.monitor a with
  | none => rfl
  | some s =>
    obtain ⟨d, hd, hda⟩ := h (Option.isSome_iff_exists.mpr ⟨s, hm⟩)
    exact absurd hda (ha d hd)

theorem lastStatus_before (hE : E.Quiet) {i : ℕ} {a : Address}
    {pre post gone : List (TickInput β)} (hreg : StaysRegistered i a pre post gone)
    {w : World β} (hw : ∀ s, w.monitor a = some s → s.lastStatus = none) :
    lastStatus (runEnd E w pre) a = none := by
  rcases List.eq_nil_or_concat pre with rfl | ⟨ts, t, rfl⟩
  · change lastStatus w a = none
    unfold lastStatus
    cases hm : w.monitor a with
    | none => rfl
    | some s => exact hw s hm
  · have hfree := hreg.free t (by simp)
    rw [List.concat_eq_append, runEnd_append]
    change (BleRuntime.lastStatus (tickRecord E _ t).world a) = none
    unfold lastStatus
    rw [tick_unregistered hE hfree]
    rfl

theorem legal_chain {last : Option Status} {ss : List Status} (h : Legal last ss) :
    ss.IsChain fun s s' => s ≠ s' ∧ Follows (some s) s' := by
  induction ss generalizing last with
  | nil => exact .nil
  | cons s ss ih =>
    have hrest := ih h.2
    cases ss with
    | nil => exact .singleton s
    | cons s' ss =>
      refine .cons_cons ⟨?_, h.2.1⟩ hrest
      rintro rfl
      have := h.2.1
      cases s <;> exact this

theorem legal_head {ss : List Status} (h : Legal none ss) :
    ∀ s ∈ ss.head?, s = .connected ∨ s = .disconnected := by
  cases ss with
  | nil => simp
  | cons s ss =>
    have := h.1
    cases s <;> simp_all [Follows]

/-- The reports of a run about one device, the timestamps written with them, the links they
rest on, and the entries that the ticks leave. -/
theorem status_trace (hE : E.Quiet) {w : World β} {i : ℕ} {a : Address}
    (hw : ∀ s, w.monitor a = some s → s.lastStatus = none) (pre post gone : List (TickInput β))
    (hreg : StaysRegistered i a pre post gone) :
    let records := runTicks E w (pre ++ post ++ gone)
    let statuses := (allCalls records).filterMap (statusOf i)
    (∀ s ∈ statuses.head?, s = .connected ∨ s = .disconnected) ∧
      (statuses.IsChain fun s s' => s ≠ s' ∧ Follows (some s) s') ∧
      (∀ r ∈ records, .status i .connected ∈ r.world.trace → .linked a true ∈ r.world.trace) ∧
      (allCalls records).filter (reports i) = withTouches i none statuses ∧
      (∀ r ∈ records, r.outcome = .ok () →
        ∀ b, (r.world.monitor b).isSome ↔ ∃ d ∈ r.devices, d.address = b) ∧
      ((∀ b t s, ∃ s', E.ble.ensureConnecting b t s = (.ok (), s')) →
        ∀ r ∈ records, r.outcome = .ok ()) := by
  intro records statuses
  have hsplit : allCalls records = allCalls (runTicks E w pre) ++
      (allCalls (runTicks E (runEnd E w pre) post) ++
        allCalls (runTicks E (runEnd E w (pre ++ post)) gone)) := by
    unfold allCalls records
    rw [runTicks_append, runTicks_append, List.flatMap_append, List.flatMap_append,
      List.append_assoc]
  have hreports : Reports i none (allCalls records)
      (lastStatus (runEnd E (runEnd E w pre) post) a) := by
    have hpre : Reports i none (allCalls (runTicks E w pre)) none :=
      .none (run_unlisted hE hreg.before w)
    have hpost := run_reports hE hreg.during (runEnd E w pre)
    rw [lastStatus_before hE hreg hw] at hpost
    rw [hsplit]
    exact hpre.append (hpost.append (.none (run_unlisted hE hreg.after _)))
  refine ⟨legal_head hreports.legal, legal_chain hreports.legal, ?_, hreports.events, ?_, ?_⟩
  · intro r hr hc
    obtain ⟨t, ht, w', rfl⟩ := mem_runTicks hr
    rw [List.append_assoc, List.mem_append, List.mem_append] at ht
    have hgone : ¬Unlisted i t := fun hi =>
      List.filter_eq_nil_iff.mp (tick_unlisted hE hi) _ hc (by simp [reports])
    rcases ht with ht | ht | ht
    · exact absurd (hreg.before t ht) hgone
    · exact tick_linked hE (hreg.during t ht) hc
    · exact absurd (hreg.after t ht) hgone
  · intro r hr hok b
    obtain ⟨t, ht, w', rfl⟩ := mem_runTicks hr
    obtain ⟨hlisted, hall⟩ := monitorTick_monitor hE t.now (observe w' t)
    constructor
    · exact hlisted b
    · rintro ⟨d, hd, rfl⟩
      exact hall hok d hd
  · intro hble r hr
    obtain ⟨t, ht, w', rfl⟩ := mem_runTicks hr
    exact monitorTick_returns hE hble t.now (observe w' t)

theorem status_trace_oneDevice :
    let records := runTicks switchEnv { db := oneDevice, outside := true }
      ([] ++ [tickAt 0 true, tickAt 1 false, tickAt 3 false, tickAt 4 true] ++ [])
    (allCalls records).filterMap (statusOf 1) =
        [.connected, .disconnected, .reconnecting, .connected] ∧
      (allCalls records).filter (reports 1) =
        withTouches 1 none [.connected, .disconnected, .reconnecting, .connected] := by
  intro records
  have hstatuses : (allCalls records).filterMap (statusOf 1) =
      [.connected, .disconnected, .reconnecting, .connected] := by decide +kernel
  have hreg : StaysRegistered 1 "aa" []
      [tickAt 0 true, tickAt 1 false, tickAt 3 false, tickAt 4 true] [] :=
    ⟨by simp, by simp, by simp [tickAt, Registered, oneDevice], by simp⟩
  have htrace := status_trace switchEnv_quiet (w := { db := oneDevice, outside := true })
    (by simp) [] _ [] hreg
  exact ⟨hstatuses, hstatuses ▸ htrace.2.2.2.1⟩

end BleRuntime
end HomeServer.Services
