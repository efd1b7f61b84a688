import HomeServer.Dashboard.Merged
import HomeServer.Services.HistoryWindow

/-! The merged charts over every order of clicks, responses and live readings: the axis spans the
points, and each dataset is the series of its own channel. -/
namespace HomeServer.Dashboard
open HomeServer.Db HomeServer.Lib HomeServer.Lib.Overwrites
open HomeServer.Web.Analytics (DeviceEntry)

namespace MergedPage
variable {m m' : MergedPage}

section Opened

def placesFrom (n : ℕ) (canvases : List (List DeviceEntry)) : List (ℕ × Sub) :=
  (canvases.zipIdx n).flatMap fun canvas =>
    canvas.1.zipIdx.map fun ch => (ch.1.channelId, ⟨canvas.2, ch.2⟩)

def newChart (channels : List DeviceEntry) : MergedChart where
  datasets := channels.map fun ch => { label := ch.deviceName }

def newLoad (window : Option Window) (place : ℕ × Sub) : Load where
  channelId := place.1
  sub := place.2
  window := window

theorem map_zipIdx_fst {α β : Type*} (f : α → β) (l : List α) (n : ℕ) :
    (l.zipIdx n).map (fun p => f p.1) = l.map f := by
  conv_rhs => rw [← List.zipIdx_map_fst n l, List.map_map]
  rfl

theorem subscribe_eq (m : MergedPage) (channelId : ℕ) (sub : Sub) :
    m.subscribe channelId sub = { m with
      bySub := m.bySub.insert channelId sub
      loads := m.loads ++ [newLoad m.page.currentWindow (channelId, sub)] } := by
  unfold subscribe loadChart
  dsimp only
  rw [Finmap.lookup_insert]
  rfl

theorem foldl_subscribe (places : List (ℕ × Sub)) (m : MergedPage) :
    places.foldl (fun m place => m.subscribe place.1 place.2) m = { m with
      bySub := writeAll m.bySub places
      loads := m.loads ++ places.map (newLoad m.page.currentWindow) } := by
  induction places generalizing m with
  | nil => simp [writeAll]
  | cons place places ih =>
    rw [List.foldl_cons, subscribe_eq, ih]
    simp [writeAll]

/-- With the channels of a canvas all different, each has the dataset at its own index. -/
theorem addCanvas_eq {channels : List DeviceEntry}
    (h : (channels.map DeviceEntry.channelId).Nodup) (m : MergedPage) :
    m.addCanvas channels = { m with
      charts := m.charts ++ [newChart channels]
      bySub := writeAll m.bySub (placesFrom m.charts.length [channels])
      loads := m.loads ++ (placesFrom m.charts.length [channels]).map
        (newLoad m.page.currentWindow) } := by
  have hkeys : (channels.zipIdx.map fun ch => (ch.1.channelId, ch.2)).map Prod.fst =
      channels.map DeviceEntry.channelId := by
    rw [List.map_map, ← map_zipIdx_fst DeviceEntry.channelId channels 0]
    rfl
  have hplaces : placesFrom m.charts.length [channels] = channels.map fun ch =>
      (ch.channelId, ⟨m.charts.length, ((chartMap channels).lookup ch.channelId).getD 0⟩) := by
    have hindex : ∀ ch ∈ channels.zipIdx,
        (chartMap channels).lookup ch.1.channelId = some ch.2 := by
      intro ch hch
      unfold chartMap
      rw [lookup_writeAll_of_nodup (hkeys ▸ h)]
      exact List.mem_map_of_mem hch
    unfold placesFrom
    rw [← map_zipIdx_fst _ channels 0]
    simp only [List.zipIdx_cons, List.zipIdx_nil, List.flatMap_cons, List.flatMap_nil,
      List.append_nil]
    apply List.map_congr_left
    intro ch hch
    rw [hindex ch hch, Option.getD_some]
  have hfold := foldl_subscribe (placesFrom m.charts.length [channels])
    { m with charts := m.charts ++ [newChart channels] }
  rw [hplaces, List.foldl_map] at hfold
  unfold addCanvas
  rw [hplaces]
  exact hfold

theorem foldl_addCanvas {canvases : List (List DeviceEntry)}
    (h : ∀ channels ∈ canvases, (channels.map DeviceEntry.channelId).Nodup) (m : MergedPage) :
    canvases.foldl addCanvas m = { m with
      charts := m.charts ++ canvases.map newChart
      bySub := writeAll m.bySub (placesFrom m.charts.length canvases)
      loads := m.loads ++ (placesFrom m.charts.length canvases).map
        (newLoad m.page.currentWindow) } := by
  induction canvases generalizing m with
  | nil => simp [placesFrom, writeAll]
  | cons channels canvases ih =>
    have hsplit : placesFrom m.charts.length (channels :: canvases) =
        placesFrom m.charts.length [channels] ++ placesFrom (m.charts.length + 1) canvases := by
      simp [placesFrom]
    rw [List.foldl_cons, addCanvas_eq (h channels (.head _)),
      ih fun channels hmem => h channels (.tail _ hmem), hsplit]
    simp [writeAll_append]

theorem mem_placesFrom {n : ℕ} {canvases : List (List DeviceEntry)} {i : ℕ} {sub : Sub} :
    (i, sub) ∈ placesFrom n canvases ↔ ∃ channels ch, n ≤ sub.chart ∧
      canvases[sub.chart - n]? = some channels ∧ channels[sub.datasetIndex]? = some ch ∧
        ch.channelId = i := by
  unfold placesFrom
  simp only [List.mem_flatMap, List.mem_map, Prod.exists, List.mem_zipIdx_iff_le_and_getElem?_sub,
    Prod.mk.injEq]
  constructor
  · rintro ⟨channels, g, ⟨hle, hget⟩, ch, d, ⟨-, hch⟩, rfl, rfl⟩
    exact ⟨channels, ch, hle, hget, hch, rfl⟩
  · rintro ⟨channels, ch, hle, hget, hch, rfl⟩
    exact ⟨channels, sub.chart, ⟨hle, hget⟩, ch, sub.datasetIndex, ⟨Nat.zero_le _, hch⟩, rfl, rfl⟩

theorem keys_placesFrom (n : ℕ) (canvases : List (List DeviceEntry)) :
    (placesFrom n canvases).map Prod.fst = canvases.flatten.map DeviceEntry.channelId := by
  induction canvases generalizing n with
  | nil => rfl
  | cons channels canvases ih =>
    have hhead : (channels.zipIdx.map fun ch => (ch.1.channelId, (⟨n, ch.2⟩ : Sub))).map Prod.fst =
        channels.map DeviceEntry.channelId := by
      rw [List.map_map, ← map_zipIdx_fst DeviceEntry.channelId channels 0]
      rfl
    unfold placesFrom at ih ⊢
    rw [List.zipIdx_cons, List.flatMap_cons, List.map_append, hhead, ih, List.flatten_cons,
      List.map_append]

/-- Each channel has a dataset of its own, which its requests are for, and a window is selected as
soon as there is one. -/
structure Placed (m : MergedPage) : Prop where
  dataset : ∀ i sub, m.bySub.lookup i = some sub → ∃ chart ds,
    m.charts[sub.chart]? = some chart ∧ chart.datasets[sub.datasetIndex]? = some ds
  own : ∀ i j sub, m.bySub.lookup i = some sub → m.bySub.lookup j = some sub → i = j
  loads : ∀ l ∈ m.loads, m.bySub.lookup l.channelId = some l.sub
  window : ∀ i sub, m.bySub.lookup i = some sub → m.page.currentWindow.isSome

def canvases (groups : Web.Analytics.Merged) : List (List DeviceEntry) :=
  groups.numericGroups.map Web.Analytics.ChannelGroup.devices

section Groups
variable {groups : Web.Analytics.Merged} (h : (groups.entries.map DeviceEntry.channelId).Nodup)
include h

theorem nodup_canvases : ((canvases groups).flatten.map DeviceEntry.channelId).Nodup := by
  unfold Web.Analytics.Merged.entries at h
  rw [List.flatMap_append, List.map_append] at h
  unfold canvases
  rw [← List.flatMap_def]
  exact (List.nodup_append.mp h).1

theorem opened_eq : ∃ page : Page, (canvases groups ≠ [] → page.currentWindow.isSome) ∧
    opened groups =
      { page
        charts := (canvases groups).map newChart
        bySub := writeAll ∅ (placesFrom 0 (canvases groups))
        loads := (placesFrom 0 (canvases groups)).map (newLoad page.currentWindow) } := by
  have heach : ∀ channels ∈ canvases groups, (channels.map DeviceEntry.channelId).Nodup := by
    intro channels hmem
    exact (nodup_canvases h).sublist ((List.sublist_flatten_of_mem hmem).map _)
  have hopened := foldl_addCanvas heach
  unfold canvases at hopened
  unfold opened
  rw [hopened]
  refine ⟨_, fun hne => ?_, rfl⟩
  have hgroups : ¬(groups.numericGroups = [] ∧ groups.flagGroups = []) := by
    rintro ⟨hnil, -⟩
    unfold canvases at hne
    rw [hnil] at hne
    exact hne rfl
  dsimp only
  rw [if_neg hgroups]
  rfl

theorem lookup_opened {i : ℕ} {sub : Sub} : (opened groups).bySub.lookup i = some sub ↔
    ∃ channels ch, (canvases groups)[sub.chart]? = some channels ∧
      channels[sub.datasetIndex]? = some ch ∧ ch.channelId = i := by
  obtain ⟨page, -, heq⟩ := opened_eq h
  have hkeys : ((placesFrom 0 (canvases groups)).map Prod.fst).Nodup := by
    rw [keys_placesFrom]
    exact nodup_canvases h
  rw [heq]
  dsimp only
  rw [lookup_writeAll_of_nodup hkeys, mem_placesFrom]
  simp

theorem placed_opened : (opened groups).Placed := by
  obtain ⟨page, hwindow, heq⟩ := opened_eq h
  constructor
  · intro i sub hsub
    obtain ⟨channels, ch, hchannels, hch, -⟩ := (lookup_opened h).mp hsub
    rw [heq]
    refine ⟨newChart channels, { label := ch.deviceName }, ?_, ?_⟩
    · simp [hchannels]
    · simp [newChart, hch]
  · intro i j sub hi hj
    obtain ⟨channels, ch, hchannels, hch, rfl⟩ := (lookup_opened h).mp hi
    obtain ⟨channels', ch', hchannels', hch', rfl⟩ := (lookup_opened h).mp hj
    rw [hchannels] at hchannels'
    cases hchannels'
    rw [hch] at hch'
    cases hch'
    rfl
  · intro l hl
    rw [heq] at hl ⊢
    obtain ⟨place, hplace, rfl⟩ := List.mem_map.mp hl
    apply (lookup_writeAll_of_nodup _).mpr hplace
    rw [keys_placesFrom]
    exact nodup_canvases h
  · intro i sub hsub
    obtain ⟨channels, -, hchannels, -⟩ := (lookup_opened h).mp hsub
    rw [heq]
    apply hwindow
    intro hnil
    rw [hnil] at hchannels
    cases hchannels

/-- A page opens without a point. -/
theorem data_opened (sub : Sub) : (opened groups).data sub = [] := by
  obtain ⟨page, -, heq⟩ := opened_eq h
  have hempty : ∀ channels (d : ℕ) (ds : Dataset),
      (newChart channels).datasets[d]? = some ds → ds.data = [] := by
    intro channels d ds hds
    unfold newChart at hds
    rw [List.getElem?_map] at hds
    obtain ⟨ch, -, rfl⟩ := Option.map_eq_some_iff.mp hds
    rfl
  rw [heq]
  unfold data
  dsimp only
  rw [List.getElem?_map]
  cases (canvases groups)[sub.chart]? with
  | none => rfl
  | some channels =>
    rw [Option.map_some, Option.bind_some]
    cases hds : (newChart channels).datasets[sub.datasetIndex]? with
    | none => rfl
    | some ds => exact hempty channels _ ds hds

end Groups
end Opened

section Data
variable {sub sub' : Sub} {i : ℕ}

theorem getElem?_setData (m : MergedPage) (sub : Sub) (data : List Dot) (k : ℕ) :
    (m.setData sub data).charts[k]? = m.charts[k]?.map fun chart =>
      if sub.chart = k then chart.setData sub.datasetIndex data else chart := by
  unfold setData
  rw [List.getElem?_modify]
  rfl

theorem MergedChart.getElem?_setData (chart : MergedChart) (d k : ℕ) (data : List Dot) :
    (chart.setData d data).datasets[k]? = chart.datasets[k]?.map fun ds =>
      if d = k then { ds with data } else ds := by
  unfold MergedChart.setData
  rw [List.getElem?_modify]
  rfl

theorem data_setData (hplaced : m.Placed) (hsub : m.bySub.lookup i = some sub)
    (data : List Dot) : (m.setData sub data).data sub = data := by
  obtain ⟨chart, ds, hchart, hds⟩ := hplaced.dataset i sub hsub
  unfold MergedPage.data
  rw [getElem?_setData, hchart]
  simp [MergedChart.getElem?_setData, hds]

theorem data_setData_of_ne (h : sub ≠ sub') (data : List Dot) :
    (m.setData sub data).data sub' = m.data sub' := by
  unfold MergedPage.data
  rw [getElem?_setData]
  by_cases hchart : sub.chart = sub'.chart
  · have hindex : sub.datasetIndex ≠ sub'.datasetIndex := by
      intro heq
      cases sub
      cases sub'
      dsimp only at hchart heq
      rw [hchart, heq] at h
      exact h rfl
    cases m.charts[sub'.chart]? with
    | none => rfl
    | some chart => simp [hchart, MergedChart.getElem?_setData, hindex]
  · cases m.charts[sub'.chart]? with
    | none => rfl
    | some chart => simp [hchart]

theorem Placed.setData (h : m.Placed) (sub : Sub) (data : List Dot) :
    (m.setData sub data).Placed := by
  constructor
  · intro i sub' hsub'
    obtain ⟨chart, ds, hchart, hds⟩ := h.dataset i sub' hsub'
    rw [getElem?_setData, hchart, Option.map_some]
    split_ifs
    · refine ⟨_, if sub.datasetIndex = sub'.datasetIndex then { ds with data } else ds, rfl, ?_⟩
      rw [MergedChart.getElem?_setData, hds]
      rfl
    · exact ⟨chart, ds, rfl, hds⟩
  · exact h.own
  · exact h.loads
  · exact h.window

theorem Placed.setAnswer (h : m.Placed) (k : ℕ) (answer : Answer) :
    (m.setAnswer k answer).Placed := by
  refine ⟨h.dataset, h.own, fun l hl => ?_, h.window⟩
  obtain ⟨j, hj⟩ := List.mem_iff_getElem?.mp hl
  unfold MergedPage.setAnswer at hj
  rw [List.getElem?_modify, Option.map_eq_map, Option.map_eq_some_iff] at hj
  obtain ⟨l', hl', rfl⟩ := hj
  have hload := h.loads l' (List.mem_of_getElem? hl')
  by_cases hk : k = j
  · rw [if_pos hk]
    exact hload
  · rw [if_neg hk]
    exact hload

theorem Placed.withPage (h : m.Placed) {page : Page}
    (hwindow : page.currentWindow = m.page.currentWindow) : { m with page }.Placed := by
  refine ⟨h.dataset, h.own, h.loads, fun i sub hsub => ?_⟩
  dsimp only
  rw [hwindow]
  exact h.window i sub hsub

/-- Reloading asks for the charts and changes nothing else. -/
theorem Placed.foldl_loadChart (cs : List ℕ) (h : m.Placed) :
    ∃ loads, cs.foldl loadChart m = { m with loads } ∧ { m with loads }.Placed := by
  induction cs generalizing m with
  | nil => exact ⟨m.loads, rfl, h⟩
  | cons i cs ih =>
    rw [List.foldl_cons]
    unfold loadChart
    cases hsub : m.bySub.lookup i with
    | none => exact ih h
    | some sub =>
      dsimp only
      apply ih (m := { m with
        loads := m.loads ++ [{ channelId := i, sub, window := m.page.currentWindow }] })
      refine ⟨h.dataset, h.own, fun l hl => ?_, h.window⟩
      rcases List.mem_append.mp hl with hmem | hmem
      · exact h.loads l hmem
      · rw [List.mem_singleton.mp hmem]
        exact hsub

theorem Placed.clicked (h : m.Placed) (window : Window) :
    ∃ loads, m.clicked window =
        { m with page := { m.page with currentWindow := some window }, loads } ∧
      (m.clicked window).Placed := by
  have hpage : { m with page := { m.page with currentWindow := some window } }.Placed :=
    ⟨h.dataset, h.own, h.loads, fun _ _ _ => rfl⟩
  unfold MergedPage.clicked
  obtain ⟨loads, heq, hplaced⟩ := hpage.foldl_loadChart (m.bySub.keys.sort (· ≤ ·))
  exact ⟨loads, heq, heq ▸ hplaced⟩

theorem Placed.chartReading (h : m.Placed) (channelId : ℕ) (value : PyFloat)
    (timestamp : Timestamp) (now : ℤ) : (m.chartReading channelId value timestamp now).Placed := by
  unfold MergedPage.chartReading
  split
  · exact h
  · exact h.setData _ _

theorem Placed.step {e : Event} (h : m.Placed) (hs : m.step e = some m') : m'.Placed := by
  cases moves_of_step hs with
  | click window =>
    obtain ⟨-, -, hclicked⟩ := h.clicked window
    exact hclicked
  | history => exact (h.setAnswer _ _).setData _ _
  | historyFailed => exact h.setAnswer _ _
  | flag hwindow | flagFailed hwindow => exact h.withPage hwindow
  | reading channelId value timestamp now hwindow =>
    apply (h.chartReading channelId value timestamp now).withPage
    rw [hwindow, chartReading_page]

end Data
end MergedPage

/-- What an event does to the charts: a response takes the place of what is shown of its channel, a
live reading is the latest of its second and ends what is before the window. -/
inductive Effect
  | response (channelId : ℕ) (readings : List Point)
  | reading (channelId : ℕ) (value : PyFloat) (timestamp : Timestamp) (since : ℤ)

/-- The value shown of each millisecond. -/
abbrev View := ℤ → Option PyFloat

def Effect.apply (views : ℕ → View) : Effect → ℕ → View
  | .response i readings =>
    Function.update views i (Series.valueAt (readings.map fun p => (tsToMs p.label, p.value)))
  | .reading i value timestamp since => Function.update views i fun x =>
    if since ≤ x then if x = tsToMs timestamp then some value else views i x else none

namespace MergedPage
variable {m m' : MergedPage} {e : Event}

def effect (m : MergedPage) : Event → Option Effect
  | .history k readings => m.loads[k]?.map fun l => .response l.channelId readings
  | .reading channelId value timestamp now => m.page.currentWindow.map fun w =>
    .reading channelId value timestamp (now - windowMs w)
  | _ => none

def effects : MergedPage → List Event → List Effect
  | _, [] => []
  | m, e :: es => (m.effect e).toList ++ match m.step e with
    | some m' => effects m' es
    | none => []

/-- A live reading is not older than what its dataset ends with, and a response has at most one
point of each second. -/
def inTime (m : MergedPage) : Event → Bool
  | .history _ readings => (readings.map Point.label).Nodup
  | .reading channelId _ timestamp _ => (m.bySub.lookup channelId).all fun sub =>
    Series.NotBefore (m.data sub) (tsToMs timestamp)
  | _ => true

/-- What the server answers for a window is in time at any time. -/
theorem inTime_windowed {db : Database} {i : ℕ} {window : String} {w b now : ℤ}
    {points : List (PyFloat × Timestamp)}
    (hspec : Services.ChannelService.observationWindows.lookup window = some (w, b))
    (haveraged : Readings.Averaged (Readings.ofChannel db i))
    (hpoints : Services.ChannelService.getHistoryWindowed db i window now = .ok points) (k : ℕ) :
    m.inTime (.history k (points.map fun p => ⟨p.2, p.1⟩)) = true := by
  obtain ⟨hb, -, -⟩ := Services.ChannelService.window_sizes hspec
  rw [Services.ChannelService.getHistoryWindowed_eq hspec,
    Readings.downsampleSince_eq hb haveraged] at hpoints
  cases hpoints
  have hincreasing := (Readings.bucketing_pointsOf hb
    (haveraged.filter fun r => now - w ≤ r.recordedAt)).increasing
  apply decide_eq_true
  rw [List.map_map]
  exact List.pairwise_map.mpr (hincreasing.imp fun hlt => hlt.ne)

def Shows (m : MergedPage) (views : ℕ → View) : Prop :=
  ∀ i sub, m.bySub.lookup i = some sub → Series.Ascending (m.data sub) ∧
    ∀ x, Series.valueAt (m.data sub) x = views i x

theorem Shows.setData {views : ℕ → View} {i : ℕ} {sub : Sub} {data : List Dot} {view : View}
    (hplaced : m.Placed) (h : m.Shows views) (hsub : m.bySub.lookup i = some sub)
    (hascending : Series.Ascending data) (hview : ∀ x, Series.valueAt data x = view x) :
    (m.setData sub data).Shows (Function.update views i view) := by
  intro j sub' hsub'
  by_cases hj : j = i
  · subst hj
    have hsame : sub' = sub := by
      have heq : m.bySub.lookup j = some sub' := hsub'
      rw [hsub] at heq
      exact (Option.some.inj heq).symm
    rw [hsame, data_setData hplaced hsub, Function.update_self]
    exact ⟨hascending, hview⟩
  · have hne : sub ≠ sub' := by
      rintro rfl
      exact hj (hplaced.own j i sub hsub' hsub)
    rw [data_setData_of_ne hne, Function.update_of_ne hj]
    exact h j sub' hsub'

theorem Shows.update {views : ℕ → View} {i : ℕ} (h : m.Shows views)
    (hnone : m.bySub.lookup i = none) (view : View) :
    m.Shows (Function.update views i view) := by
  intro j sub hsub
  have hj : j ≠ i := by
    rintro rfl
    rw [hnone] at hsub
    cases hsub
  rw [Function.update_of_ne hj]
  exact h j sub hsub

theorem trim_spec {data : List Dot} (h : Series.Ascending data) {w : Window} {now : ℤ} :
    Series.Ascending (trim (some w) now data) ∧ ∀ x, Series.valueAt (trim (some w) now data) x =
      if now - windowMs w ≤ x then Series.valueAt data x else none :=
  Series.dropBefore_spec h (now - windowMs w)

/-- One event does to what is shown what its effect does. -/
theorem Shows.step {views : ℕ → View} (hplaced : m.Placed) (h : m.Shows views)
    (hok : m.inTime e = true) (hs : m.step e = some m') :
    m'.Shows ((m.effect e).toList.foldl Effect.apply views) := by
  cases moves_of_step hs with
  | click window =>
    obtain ⟨loads, heq, -⟩ := hplaced.clicked window
    rw [heq]
    exact h
  | history readings hl =>
    rename_i k l
    have hsub := hplaced.loads l (List.mem_of_getElem? hl)
    have hnodup : (readings.map Point.label).Nodup := of_decide_eq_true hok
    have hinj : Function.Injective tsToMs := fun a b hab =>
      mul_left_cancel₀ (by decide : (1000 : ℤ) ≠ 0) hab
    have hkeys : ((readings.map fun p => (tsToMs p.label, p.value)).map Prod.fst).Nodup := by
      have hcomp := hnodup.map hinj
      rw [List.map_map] at hcomp ⊢
      exact hcomp
    obtain ⟨hascending, hvalue⟩ := Series.insertionSort_spec hkeys
    have heffect : m.effect (.history k readings) = some (.response l.channelId readings) := by
      rw [effect, hl, Option.map_some]
    rw [heffect]
    exact Shows.setData (m := m.setAnswer k .answered) (hplaced.setAnswer k .answered) h hsub
      hascending hvalue
  | historyFailed | flag | flagFailed => exact h
  | reading channelId value timestamp now =>
    have heffect : m.effect (.reading channelId value timestamp now) =
        m.page.currentWindow.map fun w =>
          .reading channelId value timestamp (now - windowMs w) := rfl
    rw [heffect]
    unfold chartReading
    cases hsub : m.bySub.lookup channelId with
    | none =>
      cases m.page.currentWindow with
      | none => exact h
      | some w => exact h.update hsub _
    | some sub =>
      obtain ⟨w, hw⟩ := Option.isSome_iff_exists.mp (hplaced.window channelId sub hsub)
      have hnot : Series.NotBefore (m.data sub) (tsToMs timestamp) := by
        simp only [inTime, hsub, Option.all_some] at hok
        exact of_decide_eq_true hok
      obtain ⟨hold, hviews⟩ := h channelId sub hsub
      obtain ⟨hrecorded, hvalue⟩ := Series.record_spec (a := value) hold hnot
      obtain ⟨hascending, htrimmed⟩ := @trim_spec _ hrecorded w now
      rw [hw]
      apply Shows.setData hplaced h hsub hascending
      intro x
      rw [htrimmed, hvalue, hviews]

theorem Shows.run {views : ℕ → View} {es : List Event} (hplaced : m.Placed) (h : m.Shows views)
    (hrun : mergedView.replay inTime m es = some m') :
    m'.Shows ((effects m es).foldl Effect.apply views) := by
  induction es generalizing m views with
  | nil =>
    cases hrun
    exact h
  | cons e es ih =>
    simp only [System.replay] at hrun
    split_ifs at hrun with hok
    obtain ⟨t, ht, hrest⟩ := Option.bind_eq_some_iff.mp hrun
    have heffects : effects m (e :: es) = (m.effect e).toList ++ effects t es := by
      have hstep : m.step e = some t := ht
      rw [effects, hstep]
    rw [heffects, List.foldl_append]
    exact ih (hplaced.step ht) (h.step hplaced hok ht) hrest

def labels (m : MergedPage) : List (List String) :=
  m.charts.map fun chart => chart.datasets.map Dataset.label

theorem labels_setData (m : MergedPage) (sub : Sub) (data : List Dot) :
    (m.setData sub data).labels = m.labels := by
  apply List.ext_getElem?
  intro k
  have hdatasets : ∀ chart : MergedChart,
      (chart.setData sub.datasetIndex data).datasets.map Dataset.label =
        chart.datasets.map Dataset.label := by
    intro chart
    apply List.ext_getElem?
    intro d
    rw [List.getElem?_map, List.getElem?_map, MergedChart.getElem?_setData, Option.map_map]
    congr 1
    funext ds
    rw [Function.comp_apply]
    split_ifs <;> rfl
  unfold labels
  rw [List.getElem?_map, List.getElem?_map, getElem?_setData, Option.map_map]
  congr 1
  funext chart
  rw [Function.comp_apply]
  split_ifs
  · exact hdatasets chart
  · rfl

/-- No event moves a channel to another dataset or renames one. -/
theorem frame_step (hplaced : m.Placed) (hs : m.step e = some m') :
    m'.bySub = m.bySub ∧ m'.labels = m.labels := by
  cases moves_of_step hs with
  | click window =>
    obtain ⟨loads, heq, -⟩ := hplaced.clicked window
    rw [heq]
    exact ⟨rfl, rfl⟩
  | history readings => exact ⟨rfl, labels_setData _ _ _⟩
  | historyFailed | flag | flagFailed => exact ⟨rfl, rfl⟩
  | reading channelId value timestamp now =>
    unfold chartReading
    cases m.bySub.lookup channelId with
    | none => exact ⟨rfl, rfl⟩
    | some sub => exact ⟨rfl, labels_setData m sub _⟩

theorem frame_run {ok : MergedPage → Event → Bool} {es : List Event} (hplaced : m.Placed)
    (hrun : mergedView.replay ok m es = some m') :
    m'.Placed ∧ m'.bySub = m.bySub ∧ m'.labels = m.labels := by
  apply System.replay_invariant (P := fun t =>
    t.Placed ∧ t.bySub = m.bySub ∧ t.labels = m.labels) _ ⟨hplaced, rfl, rfl⟩ hrun
  rintro t e t' ⟨ht, hbySub, hlabels⟩ hs
  obtain ⟨hbySub', hlabels'⟩ := frame_step ht hs
  exact ⟨ht.step hs, hbySub'.trans hbySub, hlabels'.trans hlabels⟩

end MergedPage

/-- In any order of events the axis of a chart spans the points of all its datasets, and is left to
the chart while there are none. -/
theorem axis_spans_points {m : MergedPage} (h : mergedView.Reachable m) :
    ∀ chart ∈ m.charts,
      (∀ a b, chart.xRange = some (a, b) ↔
        IsLeast {x | x ∈ chart.xs} a ∧ IsGreatest {x | x ∈ chart.xs} b) ∧
      (chart.xRange = none ↔ ∀ ds ∈ chart.datasets, ds.data = []) := by
  have hfitted : m.Placed ∧ ∀ chart ∈ m.charts, chart.Fitted := by
    apply System.Reachable.invariant _ _ h
    · rintro _ ⟨db, hdb, rfl⟩
      have honce := (Web.Analytics.complete (tables_valid hdb)).once
      refine ⟨MergedPage.placed_opened honce, ?_⟩
      obtain ⟨page, -, heq⟩ := MergedPage.opened_eq honce
      rw [heq]
      intro chart hchart
      obtain ⟨channels, -, rfl⟩ := List.mem_map.mp hchart
      unfold MergedChart.Fitted
      symm
      change (MergedPage.newChart channels).fitXRange = none
      rw [MergedChart.fitXRange_eq_none]
      intro ds hds
      obtain ⟨ch, -, rfl⟩ := List.mem_map.mp hds
      rfl
    · rintro m e m' ⟨hplaced, hall⟩ hs
      refine ⟨hplaced.step hs, ?_⟩
      have hset : ∀ (m : MergedPage) sub data, (∀ chart ∈ m.charts, chart.Fitted) →
          ∀ chart ∈ (m.setData sub data).charts, chart.Fitted := by
        intro m sub data hall chart hchart
        obtain ⟨k, hk⟩ := List.mem_iff_getElem?.mp hchart
        rw [MergedPage.getElem?_setData] at hk
        obtain ⟨chart', hchart', rfl⟩ := Option.map_eq_some_iff.mp hk
        split_ifs
        · exact MergedChart.fitted_setData _ _
        · exact hall chart' (List.mem_of_getElem? hchart')
      cases MergedPage.moves_of_step hs with
      | click window =>
        obtain ⟨loads, heq, -⟩ := hplaced.clicked window
        rw [heq]
        exact hall
      | history => exact hset _ _ _ hall
      | historyFailed | flag | flagFailed => exact hall
      | reading =>
        unfold MergedPage.chartReading
        split
        · exact hall
        · exact hset _ _ _ hall
  intro chart hchart
  have hrange : chart.xRange = chart.fitXRange := hfitted.2 chart hchart
  rw [hrange]
  exact ⟨fun a b => MergedChart.fitXRange_eq_some, MergedChart.fitXRange_eq_none⟩

/-- Whatever comes in time and in any order, the dataset that a chart draws under the name of a
device is the series of what the responses and the live readings of its channel have left to
show. -/
theorem merged_shows {db : Database} (hdb : tables.Reachable db) {es : List Event}
    {m : MergedPage} (hrun : mergedView.replay MergedPage.inTime
      (.opened (Web.Analytics.merged db)) es = some m) {k d : ℕ}
    {g : Web.Analytics.ChannelGroup} {dev : DeviceEntry}
    (hg : (Web.Analytics.merged db).numericGroups[k]? = some g)
    (hdev : g.devices[d]? = some dev) :
    ∃ chart ds, m.charts[k]? = some chart ∧ chart.datasets[d]? = some ds ∧
      ds.label = dev.deviceName ∧ Series.Ascending ds.data ∧
      ∀ x, Series.valueAt ds.data x =
        (MergedPage.effects (.opened (Web.Analytics.merged db)) es).foldl Effect.apply
          (fun _ _ => none) dev.channelId x := by
  have honce := (Web.Analytics.complete (tables_valid hdb)).once
  have hopened := MergedPage.placed_opened honce
  have hchannels : (MergedPage.canvases (Web.Analytics.merged db))[k]? = some g.devices := by
    unfold MergedPage.canvases
    rw [List.getElem?_map, hg]
    rfl
  have hsub : (MergedPage.opened (Web.Analytics.merged db)).bySub.lookup dev.channelId =
      some ⟨k, d⟩ := (MergedPage.lookup_opened honce).mpr ⟨g.devices, dev, hchannels, hdev, rfl⟩
  have hempty : (MergedPage.opened (Web.Analytics.merged db)).Shows fun _ _ => none := by
    intro i sub _
    rw [MergedPage.data_opened honce]
    exact ⟨Series.Ascending.nil, fun x => rfl⟩
  have hshows := hempty.run hopened hrun
  obtain ⟨hplaced, hbySub, hlabels⟩ := MergedPage.frame_run hopened hrun
  rw [← hbySub] at hsub
  obtain ⟨hascending, hviews⟩ := hshows dev.channelId ⟨k, d⟩ hsub
  obtain ⟨chart, ds, hchart, hds⟩ := hplaced.dataset dev.channelId ⟨k, d⟩ hsub
  have hdata : m.data ⟨k, d⟩ = ds.data := by
    unfold MergedPage.data
    dsimp only at hchart hds ⊢
    rw [hchart, Option.bind_some, hds]
    rfl
  have hlabel : ds.label = dev.deviceName := by
    obtain ⟨page, -, heq⟩ := MergedPage.opened_eq honce
    have hnow : m.labels[k]?.bind (fun names => names[d]?) = some ds.label := by
      unfold MergedPage.labels
      dsimp only at hchart hds
      rw [List.getElem?_map, hchart, Option.map_some, Option.bind_some, List.getElem?_map, hds,
        Option.map_some]
    rw [hlabels, heq] at hnow
    unfold MergedPage.labels MergedPage.newChart at hnow
    simp [hchannels, hdev] at hnow
    exact hnow.symm
  rw [hdata] at hascending hviews
  exact ⟨chart, ds, hchart, hds, hlabel, hascending, hviews⟩

def secondOfCellar : List Event :=
  [.history 0 [⟨86399, .finite 18⟩], .reading 2 (.finite 20) 86400 86400100,
    .reading 2 (.finite 21) 86400 86400900]

/-- The latest of the two readings is drawn under the name of the cellar. -/
theorem merged_shows_cellar : ∃ (m : MergedPage) (chart : MergedChart) (ds : Dataset),
    m.charts[0]? = some chart ∧ chart.datasets[1]? = some ds ∧ ds.label = "Boiler room" ∧
      Series.valueAt ds.data 86400000 = some (.finite 21) := by
  have hruns : (mergedView.replay MergedPage.inTime
      (.opened (Web.Analytics.merged (Web.Analytics.heated "°C" "°C"))) secondOfCellar).isSome =
        true := by
    decide +kernel
  obtain ⟨m, hrun⟩ := Option.isSome_iff_exists.mp hruns
  have hgroups : (Web.Analytics.merged (Web.Analytics.heated "°C" "°C")).numericGroups =
      [⟨"Heat", some "°C", [⟨1, "Porch"⟩, ⟨2, "Boiler room"⟩]⟩] := by
    decide +kernel
  obtain ⟨chart, ds, hchart, hds, hlabel, -, hviews⟩ :=
    merged_shows (Web.Analytics.heated_reachable "°C" "°C") hrun (k := 0) (d := 1)
      (congrArg (fun groups => groups[0]?) hgroups) rfl
  refine ⟨m, chart, ds, hchart, hds, hlabel, ?_⟩
  rw [hviews]
  decide +kernel

/-- The axis after these events. -/
theorem axis_spans_points_cellar : ∃ m : MergedPage, m.charts ≠ [] ∧ ∀ chart ∈ m.charts,
    (∀ a b, chart.xRange = some (a, b) ↔
      IsLeast {x | x ∈ chart.xs} a ∧ IsGreatest {x | x ∈ chart.xs} b) ∧
    (chart.xRange = none ↔ ∀ ds ∈ chart.datasets, ds.data = []) := by
  have hruns : (mergedView.replay (fun _ _ => true)
      (.opened (Web.Analytics.merged (Web.Analytics.heated "°C" "°C"))) secondOfCellar).map
        (fun m => m.charts.length) = some 1 := by
    decide +kernel
  obtain ⟨m, hrun, hlength⟩ := Option.map_eq_some_iff.mp hruns
  have hinit : mergedView.init (.opened (Web.Analytics.merged (Web.Analytics.heated "°C" "°C"))) :=
    ⟨_, Web.Analytics.heated_reachable "°C" "°C", rfl⟩
  have hreach : mergedView.Reachable m := (System.replay_run (.init hinit) hrun).reachable
  refine ⟨m, ?_, axis_spans_points hreach⟩
  rintro hnil
  rw [hnil] at hlength
  cases hlength

end HomeServer.Dashboard
