import HomeServer.Core.PyFloat
import HomeServer.Db.Tables
import HomeServer.Lib.Transition
import Mathlib.Logic.Function.Basic

/-! `dashboard.js`: the charts with their observation window and the 0/1 flags, by the callbacks
that the browser runs one at a time. The labels and values of a chart, which are pushed and
shifted together, are one list. -/
namespace HomeServer.Dashboard
open HomeServer.Db HomeServer.Lib

/-- Both texts of a timestamp, that of a row and that of the live feed, are read as one moment. -/
def tsToMs (timestamp : Timestamp) : ℤ := 1000 * timestamp

/-- The keys of `WINDOW_MS`. -/
inductive Window
  | minute
  | tenMinutes
  | hour
  | day
  | week
  deriving DecidableEq

def windowMs : Window → ℤ
  | .minute => 60000
  | .tenMinutes => 600000
  | .hour => 3600000
  | .day => 86400000
  | .week => 604800000

structure Point where
  label : Timestamp
  value : PyFloat
  deriving DecidableEq

/-- What has become of a `fetch`. -/
inductive Answer
  | pending
  | answered
  | failed
  deriving DecidableEq

/-- A request for the history of a channel. -/
structure Fetch where
  channelId : ℕ
  window : Option Window
  answer : Answer := .pending
  deriving DecidableEq

/-- The elements of a flag after `render`; without `last` the text is that no time is known. -/
structure Shown where
  led : Bool
  state : String
  last : Option Timestamp
  deriving DecidableEq

/-- An entry of `flags`, with its one request. Before the first `render` the elements are as the
template has them. -/
structure Flag where
  name : String
  lastOn : Option Timestamp := none
  on : Bool := false
  shown : Option Shown := none
  answer : Answer := .pending
  deriving DecidableEq

structure Toast where
  title : String
  timestamp : Timestamp
  deriving DecidableEq

/-- Without a window selector `currentWindow` is `null`. -/
structure Page where
  currentWindow : Option Window
  canvases : List ℕ := []
  charts : ℕ → Option (List Point) := fun _ => none
  fetches : List Fetch := []
  flags : ℕ → Option Flag := fun _ => none
  toasts : List Toast := []

/-- What reaches the page; a response is named by the place of its request. -/
inductive Event
  | click (window : Window)
  | history (k : ℕ) (readings : List Point)
  | historyFailed (k : ℕ)
  | flag (channelId : ℕ) (value : Option PyFloat) (lastOnAt : Option Timestamp)
  | flagFailed (channelId : ℕ)
  | reading (channelId : ℕ) (value : PyFloat) (timestamp : Timestamp) (now : ℤ)
  deriving DecidableEq

def flagOn : ℚ := 1 / 2

/-- `value != null && value >= FLAG_ON`. -/
def isOn (value : Option PyFloat) : Bool := value.any fun v => v.atLeast flagOn

def stateText (value : Option PyFloat) : String :=
  match value with
  | none => "尚無資料"
  | some v => if v.atLeast flagOn then "觸發中" else "正常"

def render (value : Option PyFloat) (lastOn : Option Timestamp) : Shown where
  led := isOn value
  state := stateText value
  last := lastOn

namespace Page

def loadChart (page : Page) (channelId : ℕ) : Page :=
  match page.charts channelId with
  | none => page
  | some _ => { page with fetches := page.fetches ++ [{ channelId, window := page.currentWindow }] }

def addCanvas (page : Page) (channelId : ℕ) : Page :=
  loadChart { page with
    canvases := page.canvases ++ [channelId]
    charts := Function.update page.charts channelId (some []) } channelId

/-- `init`, with the active button and the elements that the template has put on the page. -/
def opened (window : Option Window) (canvases : List ℕ) (flagNames : ℕ → Option String) : Page :=
  canvases.foldl addCanvas
    { currentWindow := window, flags := fun i => (flagNames i).map fun name => { name } }

def clicked (page : Page) (window : Window) : Page :=
  page.canvases.foldl loadChart { page with currentWindow := some window }

def setAnswer (page : Page) (k : ℕ) (answer : Answer) : Page :=
  { page with fetches := page.fetches.modify k fun f => { f with answer } }

def loaded (page : Page) (k : ℕ) (channelId : ℕ) (readings : List Point) : Page :=
  { page.setAnswer k .answered with
    charts := Function.update page.charts channelId (some readings) }

/-- Drop the points outside the window, or without a window the one beyond sixty. -/
def trim (window : Option Window) (now : ℤ) (points : List Point) : List Point :=
  match window with
  | some w => points.dropWhile fun p => tsToMs p.label < now - windowMs w
  | none => if 60 < points.length then points.tail else points

def chartReading (page : Page) (channelId : ℕ) (value : PyFloat) (timestamp : Timestamp)
    (now : ℤ) : Page :=
  match page.charts channelId with
  | none => page
  | some points => { page with
      charts := Function.update page.charts channelId
        (some (trim page.currentWindow now (points ++ [⟨timestamp, value⟩]))) }

/-- A toast is shown on the rising edge only. -/
def flagReading (page : Page) (channelId : ℕ) (value : PyFloat) (timestamp : Timestamp) : Page :=
  match page.flags channelId with
  | none => page
  | some flag =>
    let nowOn := value.atLeast flagOn
    let lastOn := if nowOn then some timestamp else flag.lastOn
    { page with
      toasts := if nowOn && !flag.on then page.toasts ++ [⟨flag.name, timestamp⟩] else page.toasts
      flags := Function.update page.flags channelId
        (some { flag with on := nowOn, lastOn, shown := some (render (some value) lastOn) }) }

/-- A response is taken once, and a click needs the window selector. -/
def step (page : Page) : Event → Option Page
  | .click window => if page.currentWindow.isSome then some (page.clicked window) else none
  | .history k readings =>
    match page.fetches[k]? with
    | some f => if f.answer = .pending then some (page.loaded k f.channelId readings) else none
    | none => none
  | .historyFailed k =>
    match page.fetches[k]? with
    | some f => if f.answer = .pending then some (page.setAnswer k .failed) else none
    | none => none
  | .flag channelId value lastOnAt =>
    match page.flags channelId with
    | some flag =>
      if flag.answer = .pending then
        some { page with
          flags := Function.update page.flags channelId (some { flag with
            answer := .answered, lastOn := lastOnAt, on := isOn value
            shown := some (render value lastOnAt) }) }
      else none
    | none => none
  | .flagFailed channelId =>
    match page.flags channelId with
    | some flag =>
      if flag.answer = .pending then
        some { page with
          flags := Function.update page.flags channelId (some { flag with answer := .failed }) }
      else none
    | none => none
  | .reading channelId value timestamp now =>
    some ((page.chartReading channelId value timestamp now).flagReading channelId value timestamp)

/-- What an event that can happen does. -/
inductive Moves (page : Page) : Event → Page → Prop
  | click (window : Window) (selector : page.currentWindow.isSome) :
    Moves page (.click window) (page.clicked window)
  | history {k : ℕ} {f : Fetch} (readings : List Point) (fetch : page.fetches[k]? = some f)
      (pending : f.answer = .pending) :
    Moves page (.history k readings) (page.loaded k f.channelId readings)
  | historyFailed {k : ℕ} {f : Fetch} (fetch : page.fetches[k]? = some f)
      (pending : f.answer = .pending) :
    Moves page (.historyFailed k) (page.setAnswer k .failed)
  | flag {channelId : ℕ} {flag : Flag} (value : Option PyFloat) (lastOnAt : Option Timestamp)
      (entry : page.flags channelId = some flag) (pending : flag.answer = .pending) :
    Moves page (.flag channelId value lastOnAt) { page with
      flags := Function.update page.flags channelId (some { flag with
        answer := .answered, lastOn := lastOnAt, on := isOn value
        shown := some (render value lastOnAt) }) }
  | flagFailed {channelId : ℕ} {flag : Flag} (entry : page.flags channelId = some flag)
      (pending : flag.answer = .pending) :
    Moves page (.flagFailed channelId) { page with
      flags := Function.update page.flags channelId (some { flag with answer := .failed }) }
  | reading (channelId : ℕ) (value : PyFloat) (timestamp : Timestamp) (now : ℤ) :
    Moves page (.reading channelId value timestamp now)
      ((page.chartReading channelId value timestamp now).flagReading channelId value timestamp)

theorem moves_of_step {page page' : Page} {e : Event} (h : page.step e = some page') :
    Moves page e page' := by
  cases e with
  | click window =>
    simp only [step] at h
    split_ifs at h with hselector
    cases h
    exact .click window hselector
  | history k readings =>
    simp only [step] at h
    split at h
    · rename_i f hf
      split_ifs at h with hpending
      cases h
      exact .history readings hf hpending
    · cases h
  | historyFailed k =>
    simp only [step] at h
    split at h
    · rename_i f hf
      split_ifs at h with hpending
      cases h
      exact .historyFailed hf hpending
    · cases h
  | flag channelId value lastOnAt =>
    simp only [step] at h
    split at h
    · rename_i flag hflag
      split_ifs at h with hpending
      cases h
      exact .flag value lastOnAt hflag hpending
    · cases h
  | flagFailed channelId =>
    simp only [step] at h
    split at h
    · rename_i flag hflag
      split_ifs at h with hpending
      cases h
      exact .flagFailed hflag hpending
    · cases h
  | reading channelId value timestamp now =>
    cases h
    exact .reading channelId value timestamp now

end Page

/-- Each canvas has a channel of its own. -/
def dashboard : System Page Event where
  init page := ∃ window canvases flagNames, canvases.Nodup ∧
    page = Page.opened window canvases flagNames
  step := Page.step

end HomeServer.Dashboard
