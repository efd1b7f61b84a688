import HomeServer.Dashboard.Page

/-! Which response the points of a chart come from, over every order of clicks, responses and live
readings. -/
namespace HomeServer.Dashboard
open HomeServer.Lib
variable {page page' : Page} {i k : ℕ} {es : List Event} {f : Fetch} {fetches : List Fetch}

def readingsOf (i : ℕ) (es : List Event) : List Point :=
  es.filterMap fun
    | .reading channelId value timestamp _ =>
      if channelId = i then some ⟨timestamp, value⟩ else none
    | _ => none

theorem readingsOf_append (i : ℕ) (es fs : List Event) :
    readingsOf i (es ++ fs) = readingsOf i es ++ readingsOf i fs := List.filterMap_append

/-- `f`, at place `k`, is the most recent request of channel `i`. -/
structure LatestFetch (fetches : List Fetch) (i k : ℕ) (f : Fetch) : Prop where
  fetch : fetches[k]? = some f
  channel : f.channelId = i
  last : ∀ j g, fetches[j]? = some g → g.channelId = i → j ≤ k

def livesOf (i : ℕ) (es : List Event) : List (Point × ℤ) :=
  es.filterMap fun
    | .reading channelId value timestamp now =>
      if channelId = i then some (⟨timestamp, value⟩, now) else none
    | _ => none

/-- A response and the live readings after it: each is appended, and what the window no longer
holds then is taken off the front. -/
def followed (window : Option Window) (response : List Point) (lives : List (Point × ℤ)) :
    List Point :=
  lives.foldl (fun points live => Page.trim window live.2 (points ++ [live.1])) response

/-- The points are those of the response to request `k`, followed by the live readings received
after it. -/
def ShowsResponse (i k : ℕ) (window : Option Window) (es : List Event) (page : Page) : Prop :=
  ∃ before readings after, es = before ++ .history k readings :: after ∧
    page.charts i = some (followed window readings (livesOf i after))

/-- A response to a superseded request comes before the latest one is answered. -/
def inRequestOrder (page : Page) : Event → Bool
  | .history k _ =>
    match page.fetches[k]? with
    | none => true
    | some f => (page.fetches.filter fun g => g.channelId = f.channelId).getLast?.all fun g =>
        g.answer ≠ .answered
  | _ => true

theorem LatestFetch.getLast?_filter (h : LatestFetch fetches i k f) :
    (fetches.filter fun g => g.channelId = i).getLast? = some f := by
  obtain ⟨hk, hget⟩ := List.getElem?_eq_some_iff.mp h.fetch
  have hsplit : fetches = fetches.take k ++ f :: fetches.drop (k + 1) := by
    rw [← hget, ← List.drop_eq_getElem_cons hk, List.take_append_drop]
  have hrest : (fetches.drop (k + 1)).filter (fun g => g.channelId = i) = [] := by
    rw [List.filter_eq_nil_iff]
    intro g hg hch
    obtain ⟨j, hj⟩ := List.mem_iff_getElem?.mp hg
    rw [List.getElem?_drop] at hj
    have hle := h.last _ g hj (of_decide_eq_true hch)
    omega
  have hkept : decide (f.channelId = i) = true := decide_eq_true h.channel
  rw [hsplit, List.filter_append, List.filter_cons, if_pos hkept, hrest, List.getLast?_concat]

/-- Requests made later are later. -/
theorem LatestFetch.mem_of_append {news : List Fetch} (h : LatestFetch (fetches ++ news) i k f)
    (hnew : ∃ g ∈ news, g.channelId = i) : f ∈ news := by
  obtain ⟨g, hg, hch⟩ := hnew
  obtain ⟨j, hj⟩ := List.mem_iff_getElem?.mp hg
  have hplace : (fetches ++ news)[fetches.length + j]? = some g := by
    rw [List.getElem?_append_right (by omega), Nat.add_sub_cancel_left]
    exact hj
  have hle := h.last _ g hplace hch
  have hfetch := h.fetch
  rw [List.getElem?_append_right (by omega)] at hfetch
  exact List.mem_of_getElem? hfetch

/-- An answer changes neither the channels nor the order of the requests. -/
theorem LatestFetch.of_modify {k' : ℕ} {answer : Answer}
    (h : LatestFetch (fetches.modify k' fun f => { f with answer }) i k f) :
    ∃ f₀, LatestFetch fetches i k f₀ ∧ f = if k' = k then { f₀ with answer } else f₀ := by
  have hfetch := h.fetch
  rw [List.getElem?_modify, Option.map_eq_map, Option.map_eq_some_iff] at hfetch
  obtain ⟨f₀, hf₀, hf⟩ := hfetch
  have hchannel : f₀.channelId = f.channelId := by
    rw [← hf]
    split <;> rfl
  refine ⟨f₀, ⟨hf₀, hchannel.trans h.channel, fun j g hg hch => ?_⟩, hf.symm⟩
  have hplace : (fetches.modify k' fun f => { f with answer })[j]? =
      some (if k' = j then { g with answer } else g) := by
    rw [List.getElem?_modify, hg]
    rfl
  refine h.last j _ hplace ?_
  rw [← hch]
  split <;> rfl

theorem foldl_loadChart (cs : List ℕ) (page : Page) (h : ∀ i ∈ cs, (page.charts i).isSome) :
    cs.foldl Page.loadChart page = { page with
      fetches := page.fetches ++ cs.map fun i => ⟨i, page.currentWindow, .pending⟩ } := by
  induction cs generalizing page with
  | nil => simp
  | cons i cs ih =>
    obtain ⟨points, hpoints⟩ := Option.isSome_iff_exists.mp (h i (.head _))
    have hload : page.loadChart i = { page with
        fetches := page.fetches ++ [{ channelId := i, window := page.currentWindow }] } := by
      unfold Page.loadChart
      rw [hpoints]
    rw [List.foldl_cons, hload, ih]
    · simp
    · exact fun j hj => h j (.tail _ hj)

theorem foldl_addCanvas (cs : List ℕ) (page : Page) :
    cs.foldl Page.addCanvas page = { page with
      canvases := page.canvases ++ cs
      charts := fun i => if i ∈ cs then some [] else page.charts i
      fetches := page.fetches ++ cs.map fun i => ⟨i, page.currentWindow, .pending⟩ } := by
  induction cs generalizing page with
  | nil => simp
  | cons c cs ih =>
    have hadd : page.addCanvas c = { page with
        canvases := page.canvases ++ [c]
        charts := Function.update page.charts c (some [])
        fetches := page.fetches ++ [{ channelId := c, window := page.currentWindow }] } := by
      unfold Page.addCanvas Page.loadChart
      dsimp only
      rw [Function.update_self]
    rw [List.foldl_cons, hadd, ih]
    simp only [List.append_assoc, List.singleton_append, List.map_cons, Page.mk.injEq, true_and,
      and_true]
    funext i
    by_cases hi : i = c
    · simp [hi]
    · simp [hi]

/-- What holds of chart `i` after the events `es`. -/
structure ChartKept (i : ℕ) (es : List Event) (page : Page) : Prop where
  canvas : i ∈ page.canvases
  charts : ∀ j ∈ page.canvases, (page.charts j).isSome
  current : ∀ k f, LatestFetch page.fetches i k f → f.window = page.currentWindow
  shown : ∀ k f, LatestFetch page.fetches i k f → f.answer = .answered →
    ShowsResponse i k f.window es page

theorem chartKept_opened {window : Option Window} {canvases : List ℕ}
    {flagNames : ℕ → Option String} (hi : i ∈ canvases) :
    ChartKept i [] (Page.opened window canvases flagNames) := by
  unfold Page.opened
  rw [foldl_addCanvas]
  have hasked : ∀ k f, LatestFetch
      ([] ++ canvases.map fun i => ⟨i, window, .pending⟩) i k f →
      f.window = window ∧ f.answer = .pending := by
    intro k f hf
    obtain ⟨j, -, hj⟩ := List.mem_map.mp (List.mem_of_getElem? hf.fetch)
    rw [← hj]
    exact ⟨rfl, rfl⟩
  constructor
  · exact hi
  · intro j hj
    have hmem : j ∈ canvases := hj
    simp [hmem]
  · exact fun k f hf => (hasked k f hf).1
  · intro k f hf hans
    rw [(hasked k f hf).2] at hans
    cases hans

theorem ShowsResponse.concat {window : Option Window} (h : ShowsResponse i k window es page)
    (e : Event) (hcharts : ∀ points, page.charts i = some points →
      page'.charts i = some (followed window points (livesOf i [e]))) :
    ShowsResponse i k window (es ++ [e]) page' := by
  obtain ⟨before, readings, after, hes, hpoints⟩ := h
  refine ⟨before, readings, after ++ [e], ?_, ?_⟩
  · rw [hes, List.append_assoc, List.cons_append]
  · have hlives : livesOf i (after ++ [e]) = livesOf i after ++ livesOf i [e] :=
      List.filterMap_append
    rw [hcharts _ hpoints, hlives, followed, followed, followed, List.foldl_append]

/-- An event that leaves the charts and their requests alone. -/
theorem ChartKept.unchanged (h : ChartKept i es page) {e : Event}
    (hwindow : page'.currentWindow = page.currentWindow)
    (hcanvases : page'.canvases = page.canvases) (hcharts : page'.charts = page.charts)
    (hfetches : page'.fetches = page.fetches) (hlives : livesOf i [e] = []) :
    ChartKept i (es ++ [e]) page' := by
  constructor
  · exact hcanvases ▸ h.canvas
  · rw [hcanvases, hcharts]
    exact h.charts
  · rw [hfetches, hwindow]
    exact h.current
  · intro k f hf hans
    rw [hfetches] at hf
    apply (h.shown k f hf hans).concat
    intro points hpoints
    rw [hcharts, hlives]
    exact hpoints

theorem ChartKept.clicked (h : ChartKept i es page) (window : Window) :
    ChartKept i (es ++ [.click window]) (page.clicked window) := by
  unfold Page.clicked
  rw [foldl_loadChart page.canvases { page with currentWindow := some window } h.charts]
  have hasked : ∀ k f, LatestFetch (page.fetches ++ page.canvases.map fun i =>
      ⟨i, some window, .pending⟩) i k f →
      f.window = some window ∧ f.answer = .pending := by
    intro k f hf
    have hmem := hf.mem_of_append ⟨_, List.mem_map_of_mem h.canvas, rfl⟩
    obtain ⟨j, -, hj⟩ := List.mem_map.mp hmem
    rw [← hj]
    exact ⟨rfl, rfl⟩
  constructor
  · exact h.canvas
  · exact h.charts
  · exact fun k f hf => (hasked k f hf).1
  · intro k f hf hans
    rw [(hasked k f hf).2] at hans
    cases hans

theorem ChartKept.loaded (h : ChartKept i es page) {f₀ : Fetch} {readings : List Point}
    (hf₀ : page.fetches[k]? = some f₀) (hok : inRequestOrder page (.history k readings) = true) :
    ChartKept i (es ++ [.history k readings]) (page.loaded k f₀.channelId readings) := by
  have hlives : livesOf i [.history k readings] = [] := rfl
  constructor
  · exact h.canvas
  · intro j hj
    by_cases hch : j = f₀.channelId
    · simp [Page.loaded, hch]
    · simpa [Page.loaded, hch] using h.charts j hj
  · intro k' f hf
    obtain ⟨f₁, hf₁, hf⟩ := hf.of_modify
    have hcurrent := h.current k' f₁ hf₁
    rw [hf]
    split <;> exact hcurrent
  · intro k' f hf hans
    obtain ⟨f₁, hf₁, hf⟩ := hf.of_modify
    by_cases hk : k = k'
    · -- the response to the latest request
      subst hk
      have hsame : f₀ = f₁ := Option.some.inj (hf₀.symm.trans hf₁.fetch)
      refine ⟨es, readings, [], rfl, ?_⟩
      rw [hsame, ← hf₁.channel]
      exact Function.update_self _ _ _
    · -- a superseded one, of another chart since this chart has its latest response
      rw [if_neg hk] at hf
      subst hf
      have hother : i ≠ f₀.channelId := by
        intro hch
        simp only [inRequestOrder, hf₀] at hok
        rw [← hch, hf₁.getLast?_filter] at hok
        simp [hans] at hok
      apply (h.shown k' f hf₁ hans).concat
      intro points hpoints
      rw [hlives]
      exact (Function.update_of_ne hother _ _).trans hpoints

theorem ChartKept.failed (h : ChartKept i es page) :
    ChartKept i (es ++ [.historyFailed k]) (page.setAnswer k .failed) := by
  have hlives : livesOf i [.historyFailed k] = [] := rfl
  constructor
  · exact h.canvas
  · exact h.charts
  · intro k' f hf
    obtain ⟨f₁, hf₁, hf⟩ := hf.of_modify
    have hcurrent := h.current k' f₁ hf₁
    rw [hf]
    split <;> exact hcurrent
  · intro k' f hf hans
    obtain ⟨f₁, hf₁, hf⟩ := hf.of_modify
    subst hf
    split at hans
    · cases hans
    · rename_i hk
      rw [if_neg hk]
      apply (h.shown k' f₁ hf₁ hans).concat
      intro points hpoints
      rw [hlives]
      exact hpoints

theorem ChartKept.reading (h : ChartKept i es page) (channelId : ℕ) (value : PyFloat)
    (timestamp : Db.Timestamp) (now : ℤ) :
    ChartKept i (es ++ [.reading channelId value timestamp now])
      (page.chartReading channelId value timestamp now) := by
  unfold Page.chartReading
  by_cases hi : channelId = i
  · subst hi
    obtain ⟨points, hpoints⟩ := Option.isSome_iff_exists.mp (h.charts _ h.canvas)
    rw [hpoints]
    dsimp only
    have hlives : livesOf channelId [.reading channelId value timestamp now] =
        [(⟨timestamp, value⟩, now)] := by
      simp [livesOf]
    constructor
    · exact h.canvas
    · intro j hj
      by_cases hch : j = channelId
      · simp [hch]
      · simpa [hch] using h.charts j hj
    · exact h.current
    · intro k f hf hans
      apply (h.shown k f hf hans).concat
      intro points' hpoints'
      rw [hpoints] at hpoints'
      cases hpoints'
      rw [hlives, h.current k f hf]
      exact Function.update_self _ _ _
  · have hlives : livesOf i [.reading channelId value timestamp now] = [] := by
      simp [livesOf, hi]
    cases hother : page.charts channelId with
    | none => exact h.unchanged rfl rfl rfl rfl hlives
    | some points =>
      dsimp only
      constructor
      · exact h.canvas
      · intro j hj
        by_cases hch : j = channelId
        · simp [hch]
        · simpa [hch] using h.charts j hj
      · exact h.current
      · intro k f hf hans
        apply (h.shown k f hf hans).concat
        intro points' hpoints'
        rw [hlives]
        exact (Function.update_of_ne (Ne.symm hi) _ _).trans hpoints'

theorem flagReading_charts (page : Page) (channelId : ℕ) (value : PyFloat)
    (timestamp : Db.Timestamp) :
    ∃ flags toasts, page.flagReading channelId value timestamp = { page with flags, toasts } := by
  unfold Page.flagReading
  split
  · exact ⟨page.flags, page.toasts, rfl⟩
  · exact ⟨_, _, rfl⟩

theorem ChartKept.step {e : Event} (h : ChartKept i es page)
    (hok : inRequestOrder page e = true) (hs : page.step e = some page') :
    ChartKept i (es ++ [e]) page' := by
  cases Page.moves_of_step hs with
  | click window => exact h.clicked window
  | history readings hf => exact h.loaded hf hok
  | historyFailed => exact h.failed
  | flag => exact h.unchanged rfl rfl rfl rfl rfl
  | flagFailed => exact h.unchanged rfl rfl rfl rfl rfl
  | reading channelId value timestamp now =>
    have hread := h.reading channelId value timestamp now
    obtain ⟨flags, toasts, hflag⟩ :=
      flagReading_charts (page.chartReading channelId value timestamp now) channelId value timestamp
    rw [hflag]
    exact ⟨hread.canvas, hread.charts, hread.current, hread.shown⟩

/-- In a run whose responses keep to the order of the requests, a chart shows the response to its
latest request, made for the selected window, from the moment it has it. -/
theorem chart_shows_window (h : dashboard.init page)
    (hrun : dashboard.replay inRequestOrder page es = some page') (hi : i ∈ page.canvases)
    (hf : LatestFetch page'.fetches i k f) (hans : f.answer = .answered) :
    f.window = page'.currentWindow ∧ ShowsResponse i k f.window es page' := by
  obtain ⟨window, canvases, flagNames, -, rfl⟩ := h
  have hcanvas : i ∈ canvases := by
    unfold Page.opened at hi
    rw [foldl_addCanvas] at hi
    exact hi
  have hkept := System.replay_induction (P := fun es page => ChartKept i es page)
    (chartKept_opened hcanvas) (fun es t e t' ht hok hs => ht.step hok hs) hrun
  exact ⟨hkept.current k f hf, hkept.shown k f hf hans⟩

def onePage : Page := .opened (some .minute) [3] fun _ => none

theorem onePage_init : dashboard.init onePage :=
  ⟨_, _, _, List.nodup_singleton 3, rfl⟩

def yesterday : Point := ⟨1000, .finite 17⟩

def weekSelected : List Event :=
  [.click .week, .history 0 [], .history 1 [yesterday], .reading 3 (.finite 20) 87400 87400000]

theorem chart_shows_window_week : ∃ page : Page,
    page.charts 3 = some [yesterday, ⟨87400, .finite 20⟩] ∧ page.currentWindow = some .week ∧
      ShowsResponse 3 1 (some .week) weekSelected page := by
  have hreplay : (dashboard.replay inRequestOrder onePage weekSelected).map (fun page =>
      (page.charts 3, page.currentWindow, page.fetches)) =
      some (some [yesterday, ⟨87400, .finite 20⟩], some .week,
        [⟨3, some .minute, .answered⟩, ⟨3, some .week, .answered⟩]) := by
    decide +kernel
  obtain ⟨page, hrun, hpage⟩ := Option.map_eq_some_iff.mp hreplay
  simp only [Prod.mk.injEq] at hpage
  obtain ⟨hchart, hwindow, hfetches⟩ := hpage
  have hlatest : LatestFetch page.fetches 3 1 ⟨3, some .week, .answered⟩ := by
    rw [hfetches]
    refine ⟨rfl, rfl, fun j g hg _ => ?_⟩
    have hlt := (List.getElem?_eq_some_iff.mp hg).1
    exact Nat.lt_succ_iff.mp hlt
  exact ⟨page, hchart, hwindow,
    (chart_shows_window onePage_init hrun (.head _) hlatest rfl).2⟩

def Quiet (page : Page) (i : ℕ) : Prop :=
  ∀ f ∈ page.fetches, f.channelId = i → f.answer ≠ .pending

def weekLate : List Event :=
  [.history 0 [], .click .week, .click .minute, .history 2 [], .history 1 [yesterday]]

theorem week_shown_late : ¬∀ page es page', dashboard.init page →
    dashboard.replay (fun _ _ => true) page es = some page' → ∀ i ∈ page.canvases,
      Quiet page' i → ∀ k f, LatestFetch page'.fetches i k f → f.answer = .answered →
        f.window = page'.currentWindow ∧ ShowsResponse i k f.window es page' := by
  intro hall
  have hreplay : (dashboard.replay (fun _ _ => true) onePage weekLate).map (fun page =>
      (page.charts 3, page.fetches)) =
      some (some [yesterday], [⟨3, some .minute, .answered⟩, ⟨3, some .week, .answered⟩,
        ⟨3, some .minute, .answered⟩]) := by
    decide +kernel
  obtain ⟨page, hrun, hpage⟩ := Option.map_eq_some_iff.mp hreplay
  simp only [Prod.mk.injEq] at hpage
  obtain ⟨hchart, hfetches⟩ := hpage
  have hquiet : Quiet page 3 := by
    unfold Quiet
    rw [hfetches]
    decide
  have hlatest : LatestFetch page.fetches 3 2 ⟨3, some .minute, .answered⟩ := by
    rw [hfetches]
    refine ⟨rfl, rfl, fun j g hg _ => ?_⟩
    have hlt := (List.getElem?_eq_some_iff.mp hg).1
    exact Nat.lt_succ_iff.mp hlt
  obtain ⟨-, before, readings, after, hes, hpoints⟩ :=
    hall onePage weekLate page onePage_init hrun 3 (.head _) hquiet 2 _ hlatest rfl
  have hmem : Event.history 2 readings ∈ weekLate := by
    rw [hes]
    exact List.mem_append_right _ (.head _)
  have hempty : readings = [] := by simpa [weekLate] using hmem
  have hlive : livesOf 3 before ++ livesOf 3 (.history 2 readings :: after) = [] := by
    have happend : livesOf 3 (before ++ .history 2 readings :: after) =
        livesOf 3 before ++ livesOf 3 (.history 2 readings :: after) := List.filterMap_append
    rw [← happend, ← hes]
    rfl
  have hafter : livesOf 3 after = [] := (List.append_eq_nil_iff.mp hlive).2
  rw [hchart, hempty, hafter] at hpoints
  cases hpoints

end HomeServer.Dashboard
