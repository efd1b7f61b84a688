import HomeServer.Dashboard.Charts

/-! The state and the toasts of a flag, for every moment at which the stored state arrives among
the live readings. -/
namespace HomeServer.Dashboard
open HomeServer.Lib HomeServer.Db
variable {page page' : Page} {i : ℕ} {es : List Event}

def responsesOf (i : ℕ) (es : List Event) : List (Option PyFloat) :=
  es.filterMap fun
    | .flag channelId value _ => if channelId = i then some value else none
    | _ => none

/-- What is known of the flag: the last live reading, or else the response. -/
def lastKnown (i : ℕ) (es : List Event) : Option (Option PyFloat) :=
  ((readingsOf i es).getLast?.map fun p => some p.value).or (responsesOf i es).getLast?

def knownOn (i : ℕ) (es : List Event) : Bool := (lastKnown i es).any isOn

def ShowsValue (i : ℕ) (page : Page) (value : Option PyFloat) : Prop :=
  ∃ flag shown, page.flags i = some flag ∧ flag.shown = some shown ∧
    shown.led = isOn value ∧ shown.state = stateText value

/-- After the events `es` comes `e`, a live reading or the response of flag `i`: the flag shows
what is last known of it, and a toast is popped for a rising edge of the live feed only. -/
def FollowsFlag (i : ℕ) (es : List Event) (page : Page) (e : Event) (page' : Page) : Prop :=
  match e with
  | .reading channelId value timestamp _ => channelId = i →
      (∃ known, lastKnown i (es ++ [e]) = some known ∧ ShowsValue i page' known) ∧
        ∃ flag, page.flags i = some flag ∧ page'.toasts = page.toasts ++
          if value.atLeast flagOn && !knownOn i es then [⟨flag.name, timestamp⟩] else []
  | .flag channelId _ _ => channelId = i →
      (∃ known, lastKnown i (es ++ [e]) = some known ∧ ShowsValue i page' known) ∧
        page'.toasts = page.toasts
  | _ => True

def responseFits (i : ℕ) (es : List Event) (value : Option PyFloat) : Bool :=
  (readingsOf i es).getLast?.all fun p => value.any fun v => isOn (some v) = isOn (some p.value)

theorem responsesOf_append (i : ℕ) (es fs : List Event) :
    responsesOf i (es ++ fs) = responsesOf i es ++ responsesOf i fs := List.filterMap_append

theorem lastKnown_reading (es : List Event) (value : PyFloat) (timestamp : Timestamp) (now : ℤ) :
    lastKnown i (es ++ [.reading i value timestamp now]) = some (some value) := by
  have hlast : readingsOf i [.reading i value timestamp now] = [⟨timestamp, value⟩] := by
    simp [readingsOf]
  unfold lastKnown
  rw [readingsOf_append, hlast, List.getLast?_concat]
  rfl

theorem lastKnown_flag (es : List Event) (value : Option PyFloat) (lastOnAt : Option Timestamp) :
    lastKnown i (es ++ [.flag i value lastOnAt]) =
      ((readingsOf i es).getLast?.map fun p => some p.value).or (some value) := by
  have hnone : readingsOf i [.flag i value lastOnAt] = [] := rfl
  have hlast : responsesOf i [.flag i value lastOnAt] = [value] := by simp [responsesOf]
  unfold lastKnown
  rw [readingsOf_append, hnone, List.append_nil, responsesOf_append, hlast, List.getLast?_concat]

theorem lastKnown_other {e : Event} (hreading : readingsOf i [e] = [])
    (hresponse : responsesOf i [e] = []) (es : List Event) :
    lastKnown i (es ++ [e]) = lastKnown i es := by
  unfold lastKnown
  rw [readingsOf_append, hreading, List.append_nil, responsesOf_append, hresponse, List.append_nil]

theorem chartReading_flags (page : Page) (channelId : ℕ) (value : PyFloat) (timestamp : Timestamp)
    (now : ℤ) :
    ∃ charts, page.chartReading channelId value timestamp now = { page with charts } := by
  unfold Page.chartReading
  split
  · exact ⟨page.charts, rfl⟩
  · exact ⟨_, rfl⟩

theorem foldl_loadChart_flags (cs : List ℕ) (page : Page) :
    (cs.foldl Page.loadChart page).flags = page.flags := by
  induction cs generalizing page with
  | nil => rfl
  | cons c cs ih =>
    have hload : (page.loadChart c).flags = page.flags := by
      unfold Page.loadChart
      split <;> rfl
    rw [List.foldl_cons, ih, hload]

def FlagKept (i : ℕ) (es : List Event) (page : Page) : Prop :=
  ∃ flag, page.flags i = some flag ∧ flag.on = knownOn i es

theorem FlagKept.other {e : Event} (h : FlagKept i es page) (hflags : page'.flags i = page.flags i)
    (hreading : readingsOf i [e] = []) (hresponse : responsesOf i [e] = []) :
    FlagKept i (es ++ [e]) page' := by
  obtain ⟨flag, hflag, hon⟩ := h
  refine ⟨flag, hflags.trans hflag, ?_⟩
  unfold knownOn
  rw [lastKnown_other hreading hresponse]
  exact hon

/-- A live reading shows itself, and pops a toast where the entry said off. -/
theorem reading_spec {flag : Flag} (hflag : page.flags i = some flag) (value : PyFloat)
    (timestamp : Timestamp) (now : ℤ)
    (hs : page.step (.reading i value timestamp now) = some page') :
    (∃ flag', page'.flags i = some flag' ∧ flag'.on = isOn (some value)) ∧
      ShowsValue i page' (some value) ∧
      page'.toasts = page.toasts ++
        if value.atLeast flagOn && !flag.on then [⟨flag.name, timestamp⟩] else [] := by
  cases hs
  obtain ⟨charts, hchart⟩ := chartReading_flags page i value timestamp now
  rw [hchart]
  unfold Page.flagReading
  dsimp only
  rw [hflag]
  refine ⟨⟨_, Function.update_self _ _ _, rfl⟩,
    ⟨_, _, Function.update_self _ _ _, rfl, rfl, rfl⟩, ?_⟩
  dsimp only
  split
  · rfl
  · exact (List.append_nil _).symm

theorem flag_spec {value : Option PyFloat} {lastOnAt : Option Timestamp}
    (hs : page.step (.flag i value lastOnAt) = some page') :
    (∃ flag', page'.flags i = some flag' ∧ flag'.on = isOn value) ∧
      ShowsValue i page' value ∧ page'.toasts = page.toasts := by
  cases Page.moves_of_step hs with
  | flag =>
    exact ⟨⟨_, Function.update_self _ _ _, rfl⟩, ⟨_, _, Function.update_self _ _ _, rfl, rfl, rfl⟩,
      rfl⟩

/-- An event that is neither a live reading nor a response of the flag leaves it alone. -/
theorem step_other {e : Event} (hreading : readingsOf i [e] = [])
    (hresponse : responsesOf i [e] = []) (hs : page.step e = some page')
    (h : FlagKept i es page) : FlagKept i (es ++ [e]) page' := by
  cases Page.moves_of_step hs with
  | click window =>
    have hflags : (page.clicked window).flags = page.flags :=
      foldl_loadChart_flags page.canvases _
    exact h.other (congrFun hflags i) rfl rfl
  | history => exact h.other rfl rfl rfl
  | historyFailed => exact h.other rfl rfl rfl
  | @flag channelId =>
    have hne : i ≠ channelId := by
      intro hi
      simp [responsesOf, hi] at hresponse
    exact h.other (Function.update_of_ne hne _ _) hreading hresponse
  | @flagFailed channelId flag hflag =>
    by_cases hi : i = channelId
    · subst hi
      obtain ⟨flag', hflag', hon⟩ := h
      rw [hflag] at hflag'
      cases hflag'
      refine ⟨_, Function.update_self _ _ _, ?_⟩
      unfold knownOn
      rw [lastKnown_other hreading hresponse]
      exact hon
    · exact h.other (Function.update_of_ne hi _ _) hreading hresponse
  | reading channelId value timestamp now =>
    have hne : i ≠ channelId := by
      rintro rfl
      simp [readingsOf] at hreading
    obtain ⟨charts, hchart⟩ := chartReading_flags page channelId value timestamp now
    rw [hchart]
    unfold Page.flagReading
    dsimp only
    split
    · exact h.other rfl hreading hresponse
    · exact h.other (Function.update_of_ne hne _ _) hreading hresponse

theorem responseFits_iff {value : Option PyFloat} : responseFits i es value = true ↔
    ∀ p, (readingsOf i es).getLast? = some p → ∃ v, value = some v ∧
      isOn (some v) = isOn (some p.value) := by
  unfold responseFits
  rw [Option.all_eq_true]
  apply forall₂_congr
  intro p _
  rw [Option.any_eq_true]
  simp only [decide_eq_true_eq]

theorem knownOn_flag {value : Option PyFloat} (h : responseFits i es value = true)
    (lastOnAt : Option Timestamp) : knownOn i (es ++ [.flag i value lastOnAt]) = isOn value := by
  unfold knownOn
  rw [lastKnown_flag]
  cases hlast : (readingsOf i es).getLast? with
  | none => rfl
  | some p =>
    obtain ⟨v, hv, hsame⟩ := responseFits_iff.mp h p hlast
    rw [hv]
    exact hsame.symm

/-- Over one event the entry keeps to what is known, a response that fits included. -/
theorem FlagKept.step {e : Event} (h : FlagKept i es page)
    (hfits : ∀ value lastOnAt, e = .flag i value lastOnAt → responseFits i es value = true)
    (hs : page.step e = some page') : FlagKept i (es ++ [e]) page' := by
  by_cases hreading : readingsOf i [e] = []
  · by_cases hresponse : responsesOf i [e] = []
    · exact step_other hreading hresponse hs h
    · obtain ⟨value, lastOnAt, rfl⟩ : ∃ value lastOnAt, e = .flag i value lastOnAt := by
        cases e with
        | flag channelId value lastOnAt =>
          by_cases hi : channelId = i
          · exact ⟨value, lastOnAt, by rw [hi]⟩
          · exact absurd (by simp [responsesOf, hi]) hresponse
        | click | history | historyFailed | flagFailed | reading => exact absurd rfl hresponse
      obtain ⟨⟨flag, hflag, hon⟩, -, -⟩ := flag_spec hs
      exact ⟨flag, hflag, hon.trans (knownOn_flag (hfits value lastOnAt rfl) lastOnAt).symm⟩
  · obtain ⟨value, timestamp, now, rfl⟩ : ∃ value timestamp now,
        e = .reading i value timestamp now := by
      cases e with
      | reading channelId value timestamp now =>
        by_cases hi : channelId = i
        · exact ⟨value, timestamp, now, by rw [hi]⟩
        · exact absurd (by simp [readingsOf, hi]) hreading
      | click | history | historyFailed | flag | flagFailed => exact absurd rfl hreading
    obtain ⟨flag, hflag, -⟩ := h
    obtain ⟨⟨flag', hflag', hon⟩, -, -⟩ := reading_spec hflag value timestamp now hs
    refine ⟨flag', hflag', ?_⟩
    unfold knownOn
    rw [lastKnown_reading]
    exact hon

/-- Each response that comes after live readings carries the state of the last of them. -/
def ResponsesFit (i : ℕ) (es : List Event) : Prop :=
  ∀ before value lastOnAt after, es = before ++ .flag i value lastOnAt :: after →
    responseFits i before value = true

theorem ResponsesFit.of_append {fs : List Event} (h : ResponsesFit i (es ++ fs)) :
    ResponsesFit i es := by
  intro before value lastOnAt after hes
  apply h before value lastOnAt (after ++ fs)
  rw [hes, List.append_assoc, List.cons_append]

def FollowsThroughout (i : ℕ) (page : Page) (es : List Event) : Prop :=
  ∀ before e after u u', es = before ++ e :: after →
    dashboard.replay (fun _ _ => true) page before = some u → dashboard.step u e = some u' →
      FollowsFlag i before u e u'

theorem flagKept_run (h : dashboard.init page) (hi : (page.flags i).isSome)
    (hrun : dashboard.replay (fun _ _ => true) page es = some page') (hfit : ResponsesFit i es) :
    FlagKept i es page' := by
  obtain ⟨window, canvases, flagNames, -, rfl⟩ := h
  refine System.replay_induction (P := fun es u => ResponsesFit i es → FlagKept i es u)
    (fun _ => ?_) (fun es u e u' ih _ hs hfit => ?_) hrun hfit
  · unfold Page.opened at hi ⊢
    rw [foldl_addCanvas] at hi ⊢
    obtain ⟨flag, hflag⟩ := Option.isSome_iff_exists.mp hi
    refine ⟨flag, hflag, ?_⟩
    obtain ⟨name, -, hname⟩ := Option.map_eq_some_iff.mp hflag
    rw [← hname]
    rfl
  · apply (ih hfit.of_append).step _ hs
    intro value lastOnAt he
    exact hfit es value lastOnAt [] (by rw [he])

theorem ShowsValue.unique {value value' : Option PyFloat} (h : ShowsValue i page value)
    (h' : ShowsValue i page value') :
    isOn value = isOn value' ∧ stateText value = stateText value' := by
  obtain ⟨flag, shown, hflag, hshown, hled, hstate⟩ := h
  obtain ⟨flag', shown', hflag', hshown', hled', hstate'⟩ := h'
  rw [hflag] at hflag'
  cases hflag'
  rw [hshown] at hshown'
  cases hshown'
  exact ⟨hled.symm.trans hled', hstate.symm.trans hstate'⟩

theorem stateText_some_ne (v : PyFloat) : stateText none ≠ stateText (some v) := by
  unfold stateText
  dsimp only
  split <;> decide

/-- In a run a flag shows the last state received and pops one toast for each rising edge of the
live feed, exactly when the stored state comes before the live readings or agrees with the last of
them. -/
theorem one_toast_per_edge (h : dashboard.init page) (hi : (page.flags i).isSome)
    (hrun : dashboard.replay (fun _ _ => true) page es = some page') :
    FollowsThroughout i page es ↔ ResponsesFit i es := by
  constructor
  · rintro hfollows before value lastOnAt after rfl
    obtain ⟨u, u', hu, -, hs, -⟩ := System.replay_split hrun
    have hflag : _ → _ ∧ _ := hfollows before _ after u u' rfl hu hs
    obtain ⟨⟨known, hknown, hshows⟩, -⟩ := hflag rfl
    obtain ⟨-, hvalue, -⟩ := flag_spec hs
    obtain ⟨hon, htext⟩ := hvalue.unique hshows
    rw [lastKnown_flag] at hknown
    rw [responseFits_iff]
    intro p hp
    rw [hp] at hknown
    cases hknown
    cases value with
    | none => exact absurd htext (stateText_some_ne p.value)
    | some v => exact ⟨v, rfl, hon⟩
  · rintro hfit before e after u u' rfl hu hs
    have hbefore : FlagKept i before u := flagKept_run h hi hu hfit.of_append
    obtain ⟨flag, hflag, hon⟩ := hbefore
    cases e with
    | click | history | historyFailed | flagFailed => trivial
    | flag channelId value lastOnAt =>
      rintro rfl
      obtain ⟨-, hshows, htoasts⟩ := flag_spec hs
      refine ⟨?_, htoasts⟩
      rw [lastKnown_flag]
      cases hlast : (readingsOf channelId before).getLast? with
      | none => exact ⟨value, rfl, hshows⟩
      | some p =>
        have hagrees := hfit before value lastOnAt after rfl
        obtain ⟨v, rfl, hsame⟩ := responseFits_iff.mp hagrees p hlast
        obtain ⟨flag', shown, hflag', hshown, hled, hstate⟩ := hshows
        have htext : stateText (some v) = stateText (some p.value) := by
          have hsame : v.atLeast flagOn = p.value.atLeast flagOn := hsame
          simp only [stateText, hsame]
        exact ⟨_, rfl, flag', shown, hflag', hshown, hled.trans hsame, hstate.trans htext⟩
    | reading channelId value timestamp now =>
      rintro rfl
      obtain ⟨-, hshows, htoasts⟩ := reading_spec hflag value timestamp now hs
      refine ⟨⟨_, lastKnown_reading before value timestamp now, hshows⟩, flag, hflag, ?_⟩
      rw [htoasts, hon]

def doorPage : Page := .opened none [] fun i => if i = 7 then some "door" else none

theorem doorPage_init : dashboard.init doorPage := ⟨_, _, _, List.nodup_nil, rfl⟩

def doorOpen (timestamp : Timestamp) : Event := .reading 7 (.finite 1) timestamp (1000 * timestamp)

def doorOpens : List Event := [.flag 7 (some (.finite 0)) none, doorOpen 5, doorOpen 6]

theorem one_toast_per_edge_door : ∃ page : Page, page.toasts = [⟨"door", 5⟩] ∧
    FollowsThroughout 7 doorPage doorOpens := by
  have hreplay : (dashboard.replay (fun _ _ => true) doorPage doorOpens).map (fun page =>
      page.toasts) = some [⟨"door", 5⟩] := by
    decide +kernel
  obtain ⟨page, hrun, htoasts⟩ := Option.map_eq_some_iff.mp hreplay
  refine ⟨page, htoasts, (one_toast_per_edge doorPage_init rfl hrun).mpr ?_⟩
  intro before value lastOnAt after hes
  cases before with
  | nil => rfl
  | cons e before =>
    have htail := (List.cons.inj hes).2
    have hmem : Event.flag 7 value lastOnAt ∈ [doorOpen 5, doorOpen 6] := by
      rw [htail]
      exact List.mem_append_right _ (.head _)
    simp [doorOpen] at hmem

/-- The door opens while the stored state is still on its way: there is a second toast for the
same edge. -/
theorem two_toasts_one_edge : ¬∀ page es page' i, dashboard.init page →
    (page.flags i).isSome → dashboard.replay (fun _ _ => true) page es = some page' →
      FollowsThroughout i page es := by
  intro hall
  have hopens : (dashboard.replay (fun _ _ => true) doorPage
      [doorOpen 5, .flag 7 (some (.finite 0)) none]).bind (fun page =>
        (dashboard.step page (doorOpen 6)).map fun page' => (page.toasts, page'.toasts)) =
      some ([⟨"door", 5⟩], [⟨"door", 5⟩, ⟨"door", 6⟩]) := by
    decide +kernel
  obtain ⟨page, hrun, hopens⟩ := Option.bind_eq_some_iff.mp hopens
  obtain ⟨page', hs, htoasts⟩ := Option.map_eq_some_iff.mp hopens
  have hwhole := System.replay_concat hrun rfl hs
  have hfollows : _ → _ ∧ _ :=
    hall doorPage _ page' 7 doorPage_init rfl hwhole _ _ [] page page' rfl hrun hs
  obtain ⟨-, flag, -, hpopped⟩ := hfollows rfl
  simp only [Prod.mk.injEq] at htoasts
  rw [htoasts.1, htoasts.2] at hpopped
  revert hpopped
  have hknown : knownOn 7 [doorOpen 5, .flag 7 (some (.finite 0)) none] = true := by decide +kernel
  rw [hknown, Bool.not_true, Bool.and_false, if_neg Bool.false_ne_true]
  decide

end HomeServer.Dashboard
