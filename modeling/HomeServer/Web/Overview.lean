import HomeServer.Services.ChannelService
import HomeServer.Web.Live

/-! The dashboard: the page that `index` serves and what it hears. -/
namespace HomeServer.Web
open HomeServer.Db HomeServer.Lib HomeServer.Lib.Overwrites HomeServer.Services
open Analytics (Widget channelWidget displays mem_displays)

/-- `index`: the devices with their statuses and the widgets of their channels. -/
def index (db : Database) (isConnected : Address → Bool) : List (Device × Bool × List Widget) :=
  let controlStates : Dict ℕ Bool := writeAll ∅ (db.devices.flatMap fun d =>
    ChannelService.controlStates db (Channels.listByDevice db d.id))
  db.devices.map fun d => (d, isConnected d.address,
    (Channels.listByDevice db d.id).map fun c => channelWidget c controlStates.lookup 70 true)

def chartId : Widget → Option ℕ
  | .chart channelId _ _ _ => some channelId
  | _ => none

def flagId : Widget → Option ℕ
  | .flag channelId _ => some channelId
  | _ => none

def enumId : Widget → Option ℕ
  | .enum channelId _ => some channelId
  | _ => none

def subscriptions (widgets : List Widget) : List ℕ :=
  widgets.filterMap chartId ++ widgets.filterMap flagId ++ widgets.filterMap enumId

def widgets (page : List (Device × Bool × List Widget)) : List Widget :=
  page.flatMap fun row => row.2.2

section Page
variable {db : Database} {isConnected : Address → Bool} {i : ℕ}

/-- Each display channel has a widget that subscribes to it, a controller none. -/
theorem channelWidget_subscribes (c : Channel) (controlStates : ℕ → Option Bool) (height : ℕ)
    (showStats : Bool) :
    i ∈ subscriptions [channelWidget c controlStates height showStats] ↔
      c.type = .display ∧ c.id = i := by
  unfold channelWidget
  split_ifs with hflag hdisplay hswitch
  · simp [subscriptions, chartId, flagId, enumId, hflag, eq_comm]
  · cases Units.parseEnumUnit c.unit <;>
      simp [subscriptions, chartId, flagId, enumId, hdisplay, eq_comm]
  · simp [subscriptions, chartId, flagId, enumId, hdisplay]
  · simp [subscriptions, chartId, flagId, enumId, hdisplay]

theorem mem_subscriptions {ws : List Widget} :
    i ∈ subscriptions ws ↔ ∃ widget ∈ ws, i ∈ subscriptions [widget] := by
  simp only [subscriptions, List.mem_append, List.mem_filterMap, List.mem_singleton,
    exists_eq_left]
  constructor
  · rintro ((⟨w, hw, h⟩ | ⟨w, hw, h⟩) | ⟨w, hw, h⟩)
    · exact ⟨w, hw, Or.inl (Or.inl h)⟩
    · exact ⟨w, hw, Or.inl (Or.inr h)⟩
    · exact ⟨w, hw, Or.inr h⟩
  · rintro ⟨w, hw, (h | h) | h⟩
    · exact Or.inl (Or.inl ⟨w, hw, h⟩)
    · exact Or.inl (Or.inr ⟨w, hw, h⟩)
    · exact Or.inr ⟨w, hw, h⟩

/-- The dashboard subscribes to the display channels of all devices. -/
theorem mem_subscriptions_index (hv : db.Valid) :
    i ∈ subscriptions (widgets (index db isConnected)) ↔ ∃ c ∈ displays db, c.id = i := by
  rw [mem_subscriptions]
  constructor
  · rintro ⟨widget, hwidget, hi⟩
    obtain ⟨row, hrow, hwidget⟩ := List.mem_flatMap.mp hwidget
    obtain ⟨d, -, rfl⟩ := List.mem_map.mp hrow
    obtain ⟨c, hc, rfl⟩ := List.mem_map.mp hwidget
    obtain ⟨hdisplay, hid⟩ := (channelWidget_subscribes c _ _ _).mp hi
    exact ⟨c, mem_displays.mpr ⟨List.mem_of_mem_filter hc, hdisplay⟩, hid⟩
  · rintro ⟨c, hc, rfl⟩
    obtain ⟨hmem, hdisplay⟩ := mem_displays.mp hc
    obtain ⟨d, hd, hdc⟩ := hv.channelDevice c hmem
    refine ⟨_, List.mem_flatMap.mpr ⟨_, List.mem_map_of_mem hd, List.mem_map_of_mem ?_⟩,
      (channelWidget_subscribes c _ _ _).mpr ⟨hdisplay, rfl⟩⟩
    exact List.mem_filter.mpr ⟨hmem, decide_eq_true hdc.symm⟩

end Page

section Feed
open Live
variable {σ τ : Type} [Sub τ] [LE τ] [DecidableLE τ] {S : Rooms.Server Sid String σ}
  {s s' : Server σ τ} {es : List (Event τ)} {db : Database} {isConnected : Address → Bool}
  {sid : Sid}

/-- What a client does that has the dashboard open: `io()`, then the subscriptions of `init`. -/
def openDashboard (sid : Sid) (page : List (Device × Bool × List Widget)) : List (Event τ) :=
  .connect sid true ::
    (subscriptions (widgets page)).map fun i => .subscribeChannel sid (some (toString i))

/-- **The dashboard hears its display channels.** A client that has the page open that was served
of the tables `db`, and stays connected, is sent all readings that are delivered on a display
channel of the page once it has subscribed to it, and none of other channels, those among them that
were added since. -/
theorem dashboard_hears (hS : S.Lawful) (h0 : (Live.system S).init s) (hrooms : OwnRooms S.own es)
    (h : (Live.system S).replay (fun _ _ => true) s es = some s') (hv : db.Valid)
    (hown : es.filter (fun e => e.sid? = some sid) = openDashboard sid (index db isConnected)) :
    (∀ c ∈ displays db, ∃ before after,
      es = before ++ .subscribeChannel sid (some (toString c.id)) :: after ∧
      (received s' sid).filter (fun p => p.channelId = c.id) =
        (readings (tablesAfter s.service.db before) after).filter fun p => p.channelId = c.id) ∧
      ∀ p ∈ received s' sid, ∃ c ∈ displays db, c.id = p.channelId := by
  have hreceived : received s' sid = readingsFor sid s.service.db [] es := by
    rw [(Kept.init hS h0).received_replay hS hrooms h, received_init h0, List.nil_append]
  have hmine : ∀ e, e ∈ es → e.sid? = some sid → e ∈ openDashboard sid (index db isConnected) := by
    intro e he hsid
    rw [← hown]
    exact List.mem_filter.mpr ⟨he, decide_eq_true hsid⟩
  have hsubscribed : ∀ i, .subscribeChannel sid (some (toString i)) ∈ es ↔
      ∃ c ∈ displays db, c.id = i := by
    intro i
    have hpage : i ∈ subscriptions (widgets (index db isConnected)) ↔ ∃ c ∈ displays db, c.id = i :=
      mem_subscriptions_index hv
    rw [← hpage]
    constructor
    · intro he
      have hmem := hmine _ he rfl
      obtain ⟨j, hj, heq⟩ := List.mem_map.mp ((List.mem_cons.mp hmem).resolve_left nofun)
      obtain rfl : j = i := by
        injection heq with _ htext
        exact ChannelService.toString_injective (Option.some.inj htext)
      exact hj
    · intro hi
      have hmem : (.subscribeChannel sid (some (toString i)) : Event τ) ∈
          openDashboard sid (index db isConnected) :=
        .tail _ (List.mem_map.mpr ⟨i, hi, rfl⟩)
      rw [← hown] at hmem
      exact List.mem_of_mem_filter hmem
  have hstays : ∀ e ∈ es, ∀ i : ℕ, e ≠ .unsubscribeChannel sid (some (toString i)) ∧
      e ≠ .disconnect sid := by
    have hopens : ∀ e : Event τ, e ∈ openDashboard sid (index db isConnected) → ∀ i : ℕ,
        e ≠ .unsubscribeChannel sid (some (toString i)) ∧ e ≠ .disconnect sid := by
      intro e he i
      rcases List.mem_cons.mp he with rfl | hmem
      · simp
      · obtain ⟨j, -, rfl⟩ := List.mem_map.mp hmem
        simp
    intro e he i
    constructor
    · intro heq
      exact (hopens e (hmine e he (by rw [heq]; rfl)) i).1 heq
    · intro heq
      exact (hopens e (hmine e he (by rw [heq]; rfl)) i).2 heq
  refine ⟨fun c hc => ?_, fun p hp => ?_⟩
  · obtain ⟨before, after, heq, hfirst⟩ :=
      List.eq_append_cons_of_mem ((hsubscribed c.id).mpr ⟨c, hc, rfl⟩)
    refine ⟨before, after, heq, ?_⟩
    have hlater : ∀ e ∈ after, e ≠ .unsubscribeChannel sid (some (toString c.id)) ∧
        e ≠ .disconnect sid := by
      intro e he
      refine hstays e ?_ c.id
      rw [heq]
      exact List.mem_append_right _ (.tail _ he)
    have hnow : Subscribed sid c.id
        ([] ++ before ++ [.subscribeChannel sid (some (toString c.id))]) :=
      Rooms.since_concat.mpr (Or.inl rfl)
    rw [hreceived, heq, readingsFor_append, List.filter_append,
      readingsFor_not_subscribed Rooms.not_since_nil hfirst, List.nil_append, readingsFor,
      List.filter_append, readingsFor_subscribed hnow hlater]
    rfl
  · by_contra hno
    have hnever : .subscribeChannel sid (some (toString p.channelId)) ∉ es := fun he =>
      hno ((hsubscribed p.channelId).mp he)
    have hnone : (received s' sid).filter (fun q => q.channelId = p.channelId) = [] := by
      rw [hreceived]
      exact readingsFor_not_subscribed Rooms.not_since_nil hnever _
    have hmem : p ∈ (received s' sid).filter (fun q => q.channelId = p.channelId) :=
      List.mem_filter.mpr ⟨hp, decide_eq_true rfl⟩
    rw [hnone] at hmem
    cases hmem

end Feed

/-- The dashboard of two flags is open when a third channel is added. -/
def flagsOpen : List (Live.Event ℤ) :=
  .connect "a" true :: .notify (ChannelService.flagNotify 1 1 0) ::
    (subscriptions (widgets (index ChannelService.flagDb fun _ => true))).map
      (fun i => .subscribeChannel "a" (some (toString i))) ++
    [.tables { ChannelService.flagDb with
        channels := ChannelService.flagDb.channels ++
          [⟨3, 1, "battery", .display, "2a19", "uint8", some "%"⟩] },
      .notify (ChannelService.flagNotify 3 90 1), .notify (ChannelService.flagNotify 2 1 2)]

theorem dashboard_hears_flags : ∃ s',
    (Live.system Live.sidRooms).replay (fun _ _ => true) Live.flagServer flagsOpen =
      some s' ∧
    (∀ c ∈ displays ChannelService.flagDb, ∃ before after,
      flagsOpen = before ++ .subscribeChannel "a" (some (toString c.id)) :: after ∧
      (Live.received s' "a").filter (fun p => p.channelId = c.id) =
        (Live.readings (Live.tablesAfter ChannelService.flagDb before) after).filter
          fun p => p.channelId = c.id) ∧
      ∀ p ∈ Live.received s' "a", ∃ c ∈ displays ChannelService.flagDb, c.id = p.channelId := by
  have hsome : ((Live.system Live.sidRooms).replay (fun _ _ => true) Live.flagServer
      flagsOpen).isSome = true := by decide +kernel
  obtain ⟨s', hrun⟩ := Option.isSome_iff_exists.mp hsome
  have h0 : (Live.system Live.sidRooms).init Live.flagServer := rfl
  have hv : ChannelService.flagDb.Valid := by
    constructor <;> decide +kernel
  have hown : flagsOpen.filter (fun e => e.sid? = some "a") =
      openDashboard "a" (index ChannelService.flagDb fun _ => true) := rfl
  have hrooms : Live.OwnRooms Live.sidRooms.own flagsOpen := by
    apply Live.ownRooms_sidRooms
    intro sid hsid
    have ha : sid = "a" := by simpa [flagsOpen] using hsid
    rw [ha]
    decide
  exact ⟨s', hrun, dashboard_hears (Rooms.Table.server_lawful id) h0 hrooms hrun hv hown⟩

end HomeServer.Web
