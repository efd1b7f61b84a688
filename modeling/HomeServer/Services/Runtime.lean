import HomeServer.Ble.Interface
import HomeServer.Lib.Action
import Mathlib.Logic.Function.Basic

/-! What the services act on: the database, the two dicts of `BleRuntime`, and everything
outside the process as one opaque state. -/
namespace HomeServer.Services
open HomeServer.Db HomeServer.Ble HomeServer.Lib

inductive Status
  | connected
  | reconnecting
  | disconnected
  deriving DecidableEq

/-- `_DeviceMonitorState`. -/
structure DeviceMonitorState where
  lastStatus : Option Status := none
  backoffS : ℚ := 1
  nextRetryAt : ℚ := 0
  subscribed : Bool := false
  deriving DecidableEq

/-- The calls that the reconnect monitor is observed by. -/
inductive Event
  | status (deviceId : ℕ) (status : Status)
  | touched (deviceId : ℕ)
  | ensured (address : Address)
  | linked (address : Address) (up : Bool)
  deriving DecidableEq

structure World (β : Type) where
  db : Database
  monitor : Address → Option DeviceMonitorState := fun _ => none
  subscribed : Address × Uuid → Option Channel := fun _ => none
  outside : β
  trace : List Event := []

/-- `sqlError` is asked before each statement, since any of them may find the file locked. -/
structure Env (β : Type) where
  ble : BLEManager β
  onStatus : ℕ → Status → Call β Unit
  sqlError : β → Option Err × β
  wallClock : β → Timestamp × β

abbrev Runtime (β α : Type) := Action (World β) Err α

variable {β : Type}

/-- Callbacks and statements do not raise. -/
structure Env.Quiet (E : Env β) : Prop where
  status : ∀ i s b, ∃ b', E.onStatus i s b = (.ok (), b')
  sql : ∀ b, ∃ b', E.sqlError b = (none, b')

def log (e : Event) : Runtime β Unit := modify fun w => { w with trace := w.trace ++ [e] }

def ask {α : Type} (f : β → α × β) : Runtime β α := do
  let w ← get
  set { w with outside := (f w.outside).2 }
  pure (f w.outside).1

def call {α : Type} (f : Call β α) : Runtime β α := do
  match ← ask f with
  | .ok a => pure a
  | .error e => throw e

def query {α : Type} (E : Env β) (f : Database → α) : Runtime β α := do
  match ← ask E.sqlError with
  | none => return f (← get).db
  | some e => throw e

def execute {α : Type} (E : Env β) (f : Database → Except Err (α × Database)) : Runtime β α := do
  match f (← query E id) with
  | .ok (a, db) =>
    modify fun w => { w with db }
    pure a
  | .error e => throw e

def isConnected (E : Env β) (address : Address) : Runtime β Bool := do
  let up ← ask (E.ble.isConnected address)
  log (.linked address up)
  pure up

/-- `except Exception: log.warning(...)`. -/
def ignoringErrors (m : Runtime β Unit) : Runtime β Unit := tryCatch m fun _ => pure ()

def stateOf (address : Address) : Runtime β DeviceMonitorState := do
  return ((← get).monitor address).getD {}

/-- Assign to the entry of `_monitor` for `address`, which `setdefault` has put there. -/
def updateState (address : Address) (f : DeviceMonitorState → DeviceMonitorState) :
    Runtime β Unit :=
  modify fun w => { w with
    monitor := Function.update w.monitor address (some (f ((w.monitor address).getD {}))) }

section Rules
variable {α : Type} {w : World β}

@[simp] theorem after_ask (f : β → α × β) (Q : Except Err α → World β → Prop) :
    (ask f).After Q w ↔ Q (.ok (f w.outside).1) { w with outside := (f w.outside).2 } := Iff.rfl

@[simp] theorem after_log (e : Event) (Q : Except Err Unit → World β → Prop) :
    (log e).After Q w ↔ Q (.ok ()) { w with trace := w.trace ++ [e] } := Iff.rfl

@[simp] theorem after_call (f : Call β α) (Q : Except Err α → World β → Prop) :
    (call f).After Q w ↔ Q (f w.outside).1 { w with outside := (f w.outside).2 } := by
  unfold call
  rw [Action.after_bind, after_ask]
  cases (f w.outside).1 <;> rfl

@[simp] theorem after_stateOf (address : Address)
    (Q : Except Err DeviceMonitorState → World β → Prop) :
    (stateOf address).After Q w ↔ Q (.ok ((w.monitor address).getD {})) w := Iff.rfl

@[simp] theorem after_updateState (address : Address)
    (f : DeviceMonitorState → DeviceMonitorState) (Q : Except Err Unit → World β → Prop) :
    (updateState address f).After Q w ↔ Q (.ok ()) { w with
      monitor := Function.update w.monitor address (some (f ((w.monitor address).getD {}))) } :=
  Iff.rfl

@[simp] theorem after_isConnected (E : Env β) (address : Address)
    (Q : Except Err Bool → World β → Prop) :
    (isConnected E address).After Q w ↔ Q (.ok (E.ble.isConnected address w.outside).1)
      { w with
        outside := (E.ble.isConnected address w.outside).2
        trace := w.trace ++ [.linked address (E.ble.isConnected address w.outside).1] } := Iff.rfl

@[simp] theorem after_ignoringErrors (m : Runtime β Unit) (Q : Except Err Unit → World β → Prop) :
    (ignoringErrors m).After Q w ↔ m.After (fun _ => Q (.ok ())) w := by
  unfold ignoringErrors
  rw [Action.after_tryCatch]
  unfold Action.After
  cases (m.exec w).1 <;> rfl

theorem after_query {E : Env β} (hE : E.Quiet) (f : Database → α)
    {Q : Except Err α → World β → Prop}
    (h : ∀ b, Q (.ok (f w.db)) { w with outside := b }) : (query E f).After Q w := by
  obtain ⟨b, hb⟩ := hE.sql w.outside
  unfold query
  rw [Action.after_bind, after_ask, hb]
  exact h b

theorem after_execute {E : Env β} (hE : E.Quiet) (f : Database → Except Err (α × Database))
    {Q : Except Err α → World β → Prop}
    (h : ∀ b, match f w.db with
      | .ok (a, db) => Q (.ok a) { w with outside := b, db }
      | .error e => Q (.error e) { w with outside := b }) : (execute E f).After Q w := by
  unfold execute
  rw [Action.after_bind]
  refine after_query hE id fun b => ?_
  have hb := h b
  rw [Action.then_ok, id]
  cases hf : f w.db with
  | ok r =>
    rw [hf] at hb
    exact hb
  | error e =>
    rw [hf] at hb
    exact hb

theorem after_query_asked (E : Env β) (f : Database → α) (Q : Except Err α → World β → Prop) :
    (query E f).After Q w ↔ match (E.sqlError w.outside).1 with
      | none => Q (.ok (f w.db)) { w with outside := (E.sqlError w.outside).2 }
      | some e => Q (.error e) { w with outside := (E.sqlError w.outside).2 } := by
  unfold query
  rw [Action.after_bind, after_ask, Action.then_ok]
  cases (E.sqlError w.outside).1 <;> rfl

theorem after_query_any (E : Env β) (f : Database → α) {Q : Except Err α → World β → Prop}
    (hok : ∀ b, (E.sqlError w.outside).1 = none → Q (.ok (f w.db)) { w with outside := b })
    (herr : ∀ e b, Q (.error e) { w with outside := b }) : (query E f).After Q w := by
  rw [after_query_asked]
  cases hsql : (E.sqlError w.outside).1 with
  | none => exact hok _ hsql
  | some e => exact herr e _

theorem after_execute_any (E : Env β) (f : Database → Except Err (α × Database))
    {Q : Except Err α → World β → Prop}
    (hok : ∀ a db b, (E.sqlError w.outside).1 = none → f w.db = .ok (a, db) →
      Q (.ok a) { w with outside := b, db })
    (herr : ∀ e b, Q (.error e) { w with outside := b }) : (execute E f).After Q w := by
  unfold execute
  rw [Action.after_bind]
  refine after_query_any E id (fun b hsql => ?_) fun e b => herr e b
  rw [Action.then_ok, id]
  cases hf : f w.db with
  | ok r => exact hok r.1 r.2 b hsql hf
  | error e => exact herr e b

end Rules
end HomeServer.Services
