import HomeServer.Ble.Interface
import HomeServer.Lib.OrderedDict
import Mathlib.Data.Finset.Basic

/-! `MockBLEManager`: the in-memory backend of the demo server and of the tests. -/
namespace HomeServer.Ble
open HomeServer.Db HomeServer.Lib

inductive MockBLEError
  | connectFailure (address : Address)
  | noReadValue (handle : Address) (charUuid : Uuid)
  | subscribeFailure (charUuid : Uuid) (handle : Address)
  | noSubscriber (handle : Address) (charUuid : Uuid)
  | notConnected (handle : Address)
  deriving DecidableEq

/-- Its callers tell none of these from another exception of a backend. -/
def MockBLEError.raised : MockBLEError → Err
  | .notConnected handle => .notConnected handle
  | .connectFailure _ | .noReadValue _ _ | .subscribeFailure _ _ | .noSubscriber _ _ =>
    .btleException

/-- A key without an entry in `_read_values` has the empty queue. -/
structure MockBLEManager where
  scanResults : List DiscoveredDevice := []
  failConnectFor : Finset Address := ∅
  failSubscribeFor : Finset Uuid := ∅
  scanError : Option Err := none
  readValues : Address × Uuid → List Bytes := fun _ => []
  writes : List (Address × Uuid × Bytes) := []
  connected : Finset Address := ∅
  subscriptions : OrderedDict (Address × Uuid) ℕ := .empty
  scanCalls : List ℚ := []
  connectCalls : List (Address × AddrType) := []

namespace MockBLEManager

/-- A method of the backend. -/
abbrev Method (α : Type) := MockBLEManager → Except MockBLEError α × MockBLEManager

def requireConnected (m : MockBLEManager) (handle : Address) : Except MockBLEError Unit :=
  if handle ∈ m.connected then .ok () else .error (.notConnected handle)

def startScan (durationS : ℚ) : Call MockBLEManager (List DiscoveredDevice) := fun m =>
  let m := { m with scanCalls := m.scanCalls ++ [durationS] }
  match m.scanError with
  | some e => (.error e, m)
  | none => (.ok m.scanResults, m)

def connect (address : Address) (addrType : AddrType) : Method Unit := fun m =>
  let m := { m with connectCalls := m.connectCalls ++ [(address, addrType)] }
  if address ∈ m.failConnectFor then (.error (.connectFailure address), m)
  else (.ok (), { m with connected := insert address m.connected })

/-- Links up at once, or stays down; never raises. -/
def ensureConnecting (address : Address) (addrType : AddrType) : Method Unit := fun m =>
  let m := { m with connectCalls := m.connectCalls ++ [(address, addrType)] }
  if address ∈ m.failConnectFor then (.ok (), m)
  else (.ok (), { m with connected := insert address m.connected })

def disconnect (handle : Address) : Method Unit := fun m =>
  (.ok (), { m with
    connected := m.connected.erase handle
    subscriptions := m.subscriptions.dropKeys fun key => key.1 = handle })

def isConnected (handle : Address) (m : MockBLEManager) : Bool × MockBLEManager :=
  (handle ∈ m.connected, m)

/-- The last value of a queue stays. -/
def read (handle : Address) (charUuid : Uuid) : Method Bytes := fun m =>
  match m.requireConnected handle with
  | .error e => (.error e, m)
  | .ok () =>
    match m.readValues (handle, charUuid) with
    | [] => (.error (.noReadValue handle charUuid), m)
    | [value] => (.ok value, m)
    | value :: queue => (.ok value, { m with
        readValues := fun key => if key = (handle, charUuid) then queue else m.readValues key })

def write (handle : Address) (charUuid : Uuid) (data : Bytes) : Method Unit := fun m =>
  match m.requireConnected handle with
  | .error e => (.error e, m)
  | .ok () => (.ok (), { m with writes := m.writes ++ [(handle, charUuid, data)] })

def subscribe (handle : Address) (charUuid : Uuid) (callback : ℕ) : Method Unit := fun m =>
  match m.requireConnected handle with
  | .error e => (.error e, m)
  | .ok () =>
    if charUuid ∈ m.failSubscribeFor then (.error (.subscribeFailure charUuid handle), m)
    else (.ok (), { m with subscriptions := m.subscriptions.set (handle, charUuid) callback })

def unsubscribe (handle : Address) (charUuid : Uuid) : Method Unit := fun m =>
  (.ok (), { m with subscriptions := m.subscriptions.pop (handle, charUuid) })

/-- A method as its callers see it. -/
def asCall {α : Type} (f : Method α) : Call MockBLEManager α := fun m =>
  ((f m).1.mapError MockBLEError.raised, (f m).2)

def manager : BLEManager MockBLEManager where
  startScan := startScan
  connect a t := asCall (connect a t)
  ensureConnecting a t := asCall (ensureConnecting a t)
  disconnect a := asCall (disconnect a)
  isConnected := isConnected
  read a u := asCall (read a u)
  write a u data := asCall (write a u data)
  subscribe a u callback := asCall (subscribe a u callback)
  unsubscribe a u := asCall (unsubscribe a u)

/-- Nothing is subscribed, linked or torn down from `m` to `m'`. -/
structure SameLinks (m m' : MockBLEManager) : Prop where
  connected : m'.connected = m.connected
  subscriptions : m'.subscriptions = m.subscriptions
  refused : m'.failSubscribeFor = m.failSubscribeFor

theorem SameLinks.refl (m : MockBLEManager) : SameLinks m m := ⟨rfl, rfl, rfl⟩

theorem connect_cases (m : MockBLEManager) (a : Address) (addrType : AddrType) :
    ((∃ e, (manager.connect a addrType m).1 = .error e) ∧
        SameLinks m (manager.connect a addrType m).2) ∨
      (manager.connect a addrType m).1 = .ok () ∧
        SameLinks { m with connected := insert a m.connected }
          (manager.connect a addrType m).2 := by
  by_cases hfail : a ∈ m.failConnectFor
  · simp [manager, asCall, connect, hfail, Except.mapError]
    constructor <;> rfl
  · simp [manager, asCall, connect, hfail, Except.mapError]
    constructor <;> rfl

theorem ensureConnecting_cases (m : MockBLEManager) (a : Address) (addrType : AddrType) :
    (manager.ensureConnecting a addrType m).1 = .ok () ∧
      (SameLinks m (manager.ensureConnecting a addrType m).2 ∨
        SameLinks { m with connected := insert a m.connected }
          (manager.ensureConnecting a addrType m).2) := by
  by_cases hfail : a ∈ m.failConnectFor
  · simp [manager, asCall, ensureConnecting, hfail, Except.mapError]
    exact Or.inl ⟨rfl, rfl, rfl⟩
  · simp [manager, asCall, ensureConnecting, hfail, Except.mapError]
    exact Or.inr ⟨rfl, rfl, rfl⟩

theorem write_links (m : MockBLEManager) (a : Address) (u : Uuid) (data : Bytes) :
    SameLinks m (manager.write a u data m).2 := by
  by_cases hup : a ∈ m.connected
  · simp [manager, asCall, write, requireConnected, hup]
    constructor <;> rfl
  · simp [manager, asCall, write, requireConnected, hup, SameLinks.refl]

/-- A `subscribe` raises on a link that is down and for a characteristic that is missing. -/
theorem subscribe_cases (m : MockBLEManager) (a : Address) (u : Uuid) (i : ℕ) :
    ((∃ e, manager.subscribe a u i m = (.error e, m)) ∧
        (a ∉ m.connected ∨ u ∈ m.failSubscribeFor)) ∨
      manager.subscribe a u i m =
          (.ok (), { m with subscriptions := m.subscriptions.set (a, u) i }) ∧
        a ∈ m.connected ∧ u ∉ m.failSubscribeFor := by
  by_cases hup : a ∈ m.connected
  · by_cases hfail : u ∈ m.failSubscribeFor
    · simp [manager, asCall, subscribe, requireConnected, hup, hfail, Except.mapError]
    · simp [manager, asCall, subscribe, requireConnected, hup, hfail, Except.mapError]
  · simp [manager, asCall, subscribe, requireConnected, hup, Except.mapError]

end MockBLEManager
end HomeServer.Ble
