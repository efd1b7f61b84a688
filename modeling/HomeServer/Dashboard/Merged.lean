import HomeServer.Dashboard.Page
import HomeServer.Lib.Series
import HomeServer.Web.Analytics
import Mathlib.Data.Finset.Sort

/-! `analytics.js`: the charts that merge the channels of one characteristic, each with one dataset
for each device. The window selector and the flags are those of `dashboard.js`. -/
namespace HomeServer.Dashboard
open HomeServer.Db HomeServer.Lib HomeServer.Lib.Overwrites
open HomeServer.Web.Analytics (DeviceEntry)

/-- `{ x, y }`. -/
abbrev Dot := ℤ × PyFloat

structure Dataset where
  label : String
  data : List Dot := []
  deriving DecidableEq

/-- `xRange` is `min` and `max` of the x-axis, `none` where they are `undefined`. -/
structure MergedChart where
  datasets : List Dataset
  xRange : Option (ℤ × ℤ) := none
  deriving DecidableEq

/-- An entry of `bySub`: the canvas of the chart and `datasetIndex`. -/
structure Sub where
  chart : ℕ
  datasetIndex : ℕ
  deriving DecidableEq

/-- A request for the history of a channel, with the entry it was made for. -/
structure Load where
  channelId : ℕ
  sub : Sub
  window : Option Window
  answer : Answer := .pending
  deriving DecidableEq

/-- The keys of `bySub` are integers, which `Object.keys` puts in their order. -/
structure MergedPage where
  page : Page
  charts : List MergedChart := []
  bySub : Dict ℕ Sub := ∅
  loads : List Load := []

namespace MergedChart

def xs (chart : MergedChart) : List ℤ := chart.datasets.flatMap fun ds => ds.data.map Prod.fst

/-- Without a point `minX` and `maxX` stay infinite and the range is left to the chart. -/
def fitXRange (chart : MergedChart) : Option (ℤ × ℤ) :=
  match chart.xs.min?, chart.xs.max? with
  | some minX, some maxX => if minX ≤ maxX then some (minX, maxX) else none
  | _, _ => none

def setData (chart : MergedChart) (datasetIndex : ℕ) (data : List Dot) : MergedChart :=
  let chart := { chart with datasets := chart.datasets.modify datasetIndex fun ds =>
    { ds with data } }
  { chart with xRange := chart.fitXRange }

end MergedChart

namespace MergedPage

def data (m : MergedPage) (sub : Sub) : List Dot :=
  ((m.charts[sub.chart]?.bind fun chart => chart.datasets[sub.datasetIndex]?).map
    Dataset.data).getD []

def setData (m : MergedPage) (sub : Sub) (data : List Dot) : MergedPage :=
  { m with charts := m.charts.modify sub.chart fun chart => chart.setData sub.datasetIndex data }

def loadChart (m : MergedPage) (channelId : ℕ) : MergedPage :=
  match m.bySub.lookup channelId with
  | none => m
  | some sub => { m with loads := m.loads ++ [{ channelId, sub, window := m.page.currentWindow }] }

def subscribe (m : MergedPage) (channelId : ℕ) (sub : Sub) : MergedPage :=
  loadChart { m with bySub := m.bySub.insert channelId sub } channelId

def chartMap (channels : List DeviceEntry) : Dict ℕ ℕ :=
  writeAll ∅ (channels.zipIdx.map fun ch => (ch.1.channelId, ch.2))

def addCanvas (m : MergedPage) (channels : List DeviceEntry) : MergedPage :=
  let datasets := channels.map fun ch => { label := ch.deviceName }
  channels.foldl (fun m' ch => m'.subscribe ch.channelId
      ⟨m.charts.length, ((chartMap channels).lookup ch.channelId).getD 0⟩)
    { m with charts := m.charts ++ [{ datasets }] }

/-- `getAttribute(…) || fallback`. -/
def orDefault (text fallback : String) : String :=
  if text = "" then fallback else text

/-- The flags by their channels, with the title of their toasts. -/
def flagEntries (groups : List Web.Analytics.ChannelGroup) : Dict ℕ Flag :=
  writeAll ∅ (groups.flatMap fun g => g.devices.map fun dev =>
    (dev.channelId, { name := orDefault g.name "警示" ++ "（" ++ orDefault dev.deviceName "未知" ++ "）" }))

/-- `init`: the template has the selector, on the last minute, where there is any group. -/
def opened (groups : Web.Analytics.Merged) : MergedPage :=
  (groups.numericGroups.map Web.Analytics.ChannelGroup.devices).foldl addCanvas
    { page :=
        { currentWindow := if groups.numericGroups = [] ∧ groups.flagGroups = [] then none
            else some .minute
          flags := (flagEntries groups.flagGroups).lookup } }

def clicked (m : MergedPage) (window : Window) : MergedPage :=
  (m.bySub.keys.sort (· ≤ ·)).foldl loadChart
    { m with page := { m.page with currentWindow := some window } }

def setAnswer (m : MergedPage) (k : ℕ) (answer : Answer) : MergedPage :=
  { m with loads := m.loads.modify k fun l => { l with answer } }

def sorted (readings : List Point) : List Dot :=
  (readings.map fun p => (tsToMs p.label, p.value)).insertionSort fun a b => a.1 ≤ b.1

def loaded (m : MergedPage) (k : ℕ) (sub : Sub) (readings : List Point) : MergedPage :=
  (m.setAnswer k .answered).setData sub (sorted readings)

/-- Drop the points outside the window, or without a window the one beyond sixty. -/
def trim (window : Option Window) (now : ℤ) (data : List Dot) : List Dot :=
  match window with
  | some w => Series.dropBefore (now - windowMs w) data
  | none => if 60 < data.length then data.tail else data

/-- Readings of one second are collapsed to the latest. -/
def chartReading (m : MergedPage) (channelId : ℕ) (value : PyFloat) (timestamp : Timestamp)
    (now : ℤ) : MergedPage :=
  match m.bySub.lookup channelId with
  | none => m
  | some sub => m.setData sub (trim m.page.currentWindow now
      (Series.record (m.data sub) (tsToMs timestamp) value))

/-- `history` names a response by the place of its request in `loads`. -/
def step (m : MergedPage) : Event → Option MergedPage
  | .click window => if m.page.currentWindow.isSome then some (m.clicked window) else none
  | .history k readings =>
    match m.loads[k]? with
    | some l => if l.answer = .pending then some (m.loaded k l.sub readings) else none
    | none => none
  | .historyFailed k =>
    match m.loads[k]? with
    | some l => if l.answer = .pending then some (m.setAnswer k .failed) else none
    | none => none
  | .flag channelId value lastOnAt =>
    (m.page.step (.flag channelId value lastOnAt)).map fun page => { m with page }
  | .flagFailed channelId =>
    (m.page.step (.flagFailed channelId)).map fun page => { m with page }
  | .reading channelId value timestamp now =>
    let m := m.chartReading channelId value timestamp now
    some { m with page := m.page.flagReading channelId value timestamp }

/-- What an event that can happen does to the charts. -/
inductive Moves (m : MergedPage) : Event → MergedPage → Prop
  | click (window : Window) : Moves m (.click window) (m.clicked window)
  | history {k : ℕ} {l : Load} (readings : List Point) (load : m.loads[k]? = some l) :
    Moves m (.history k readings) (m.loaded k l.sub readings)
  | historyFailed {k : ℕ} : Moves m (.historyFailed k) (m.setAnswer k .failed)
  | flag {channelId : ℕ} {value : Option PyFloat} {lastOnAt : Option Timestamp} {page : Page}
      (window : page.currentWindow = m.page.currentWindow) :
    Moves m (.flag channelId value lastOnAt) { m with page }
  | flagFailed {channelId : ℕ} {page : Page}
      (window : page.currentWindow = m.page.currentWindow) :
    Moves m (.flagFailed channelId) { m with page }
  | reading (channelId : ℕ) (value : PyFloat) (timestamp : Timestamp) (now : ℤ) {page : Page}
      (window : page.currentWindow = m.page.currentWindow) :
    Moves m (.reading channelId value timestamp now)
      { m.chartReading channelId value timestamp now with page }

theorem chartReading_page (m : MergedPage) (channelId : ℕ) (value : PyFloat)
    (timestamp : Timestamp) (now : ℤ) :
    (m.chartReading channelId value timestamp now).page = m.page := by
  unfold chartReading
  split <;> rfl

theorem flagReading_window (page : Page) (channelId : ℕ) (value : PyFloat)
    (timestamp : Timestamp) :
    (page.flagReading channelId value timestamp).currentWindow = page.currentWindow := by
  unfold Page.flagReading
  split <;> rfl

theorem moves_of_step {m m' : MergedPage} {e : Event} (h : m.step e = some m') :
    Moves m e m' := by
  cases e with
  | click window =>
    simp only [step] at h
    split_ifs at h
    cases h
    exact .click window
  | history k readings =>
    simp only [step] at h
    split at h
    · rename_i l hl
      split_ifs at h
      cases h
      exact .history readings hl
    · cases h
  | historyFailed k =>
    simp only [step] at h
    split at h
    · split_ifs at h
      cases h
      exact .historyFailed
    · cases h
  | flag channelId value lastOnAt =>
    obtain ⟨page, hpage, rfl⟩ := Option.map_eq_some_iff.mp h
    apply Moves.flag
    cases Page.moves_of_step hpage
    rfl
  | flagFailed channelId =>
    obtain ⟨page, hpage, rfl⟩ := Option.map_eq_some_iff.mp h
    apply Moves.flagFailed
    cases Page.moves_of_step hpage
    rfl
  | reading channelId value timestamp now =>
    cases h
    apply Moves.reading
    rw [flagReading_window, chartReading_page]

end MergedPage

def mergedView : System MergedPage Event where
  init m := ∃ db, tables.Reachable db ∧ m = .opened (Web.Analytics.merged db)
  step := MergedPage.step

namespace MergedChart
variable {chart : MergedChart}

def Fitted (chart : MergedChart) : Prop := chart.xRange = chart.fitXRange

theorem fitted_setData (datasetIndex : ℕ) (data : List Dot) :
    (chart.setData datasetIndex data).Fitted := rfl

theorem fitXRange_eq_some {a b : ℤ} : chart.fitXRange = some (a, b) ↔
    IsLeast {x | x ∈ chart.xs} a ∧ IsGreatest {x | x ∈ chart.xs} b := by
  have hleast : ∀ a, chart.xs.min? = some a ↔ IsLeast {x | x ∈ chart.xs} a := fun a =>
    List.min?_eq_some_iff
  have hgreatest : ∀ b, chart.xs.max? = some b ↔ IsGreatest {x | x ∈ chart.xs} b := fun b =>
    List.max?_eq_some_iff
  rw [← hleast, ← hgreatest]
  unfold fitXRange
  cases hmin : chart.xs.min? with
  | none => simp
  | some minX =>
    cases hmax : chart.xs.max? with
    | none => simp
    | some maxX =>
      have hle : minX ≤ maxX := ((hleast minX).mp hmin).2 ((hgreatest maxX).mp hmax).1
      simp [hle]

theorem fitXRange_eq_none : chart.fitXRange = none ↔ ∀ ds ∈ chart.datasets, ds.data = [] := by
  have hxs : chart.xs = [] ↔ ∀ ds ∈ chart.datasets, ds.data = [] := by
    simp [xs]
  rw [← hxs]
  constructor
  · intro hnone
    by_contra hne
    obtain ⟨a, ha⟩ := Option.ne_none_iff_exists'.mp (mt List.min?_eq_none_iff.mp hne)
    obtain ⟨b, hb⟩ := Option.ne_none_iff_exists'.mp (mt List.max?_eq_none_iff.mp hne)
    have hsome := fitXRange_eq_some.mpr
      ⟨(List.min?_eq_some_iff (a := a)).mp ha, (List.max?_eq_some_iff (a := b)).mp hb⟩
    rw [hnone] at hsome
    cases hsome
  · intro hnil
    unfold fitXRange
    rw [hnil]
    rfl

end MergedChart
end HomeServer.Dashboard
