import HomeServer.Ble.Interface
import HomeServer.Lib.Interrupted
import Mathlib.Data.List.Sort

/-! `apply_migrations` on an older `devices` table. Each statement commits by itself, so a run may
be cut off between any two of them and started again on what it left. -/
namespace HomeServer.Db
open HomeServer.Ble HomeServer.Lib

/-- The columns that older tables lack. -/
inductive Column
  | addrType
  | lastConnectedAt
  | label
  deriving DecidableEq

/-- A row, with `none` for the cells of columns that its table does not have. -/
structure OldRow where
  id : ℕ
  address : Address
  name : String
  ownerUserId : ℕ
  createdAt : Option Timestamp := none
  addrType : Option AddrType := none
  lastConnectedAt : Option (Option Timestamp) := none
  label : Option (Option String) := none
  deriving DecidableEq

namespace OldRow

def has (r : OldRow) : Column → Bool
  | .addrType => r.addrType.isSome
  | .lastConnectedAt => r.lastConnectedAt.isSome
  | .label => r.label.isSome

/-- The cell of a new column holds its default. -/
def addColumn (r : OldRow) : Column → OldRow
  | .addrType => { r with addrType := some .publicAddr }
  | .lastConnectedAt => { r with lastConnectedAt := some none }
  | .label => { r with label := some none }

def setAddrType (r : OldRow) (addrType : AddrType) : OldRow :=
  { r with addrType := r.addrType.map fun _ => addrType }

def only (columns : List Column) (r : OldRow) : OldRow :=
  { r with
    addrType := if .addrType ∈ columns then r.addrType else none
    lastConnectedAt := if .lastConnectedAt ∈ columns then r.lastConnectedAt else none
    label := if .label ∈ columns then r.label else none }

theorem has_addColumn (r : OldRow) (c c' : Column) :
    (r.addColumn c).has c' = (decide (c' = c) || r.has c') := by
  cases c <;> cases c' <;> rfl

@[simp] theorem id_addColumn (r : OldRow) (c : Column) : (r.addColumn c).id = r.id := by
  cases c <;> rfl

@[simp] theorem has_setAddrType (r : OldRow) (a : AddrType) (c : Column) :
    (r.setAddrType a).has c = r.has c := by
  cases c <;> simp [has, setAddrType]

theorem only_addColumn {columns : List Column} {c : Column} (h : c ∉ columns) (r : OldRow) :
    (r.addColumn c).only columns = r.only columns := by
  cases c <;> simp [only, addColumn, h]

theorem only_setAddrType {columns : List Column} (h : .addrType ∉ columns) (r : OldRow)
    (a : AddrType) : (r.setAddrType a).only columns = r.only columns := by
  simp [only, setAddrType, h]

end OldRow

/-- `columns` are the later columns that the table has, in their order. -/
@[ext] structure DevicesTable where
  columns : List Column
  rows : List OldRow
  shaped : ∀ r ∈ rows, ∀ c, r.has c = decide (c ∈ columns)
  ids : (rows.map OldRow.id).Nodup

namespace DevicesTable

def addColumn (t : DevicesTable) (c : Column) : DevicesTable where
  columns := t.columns ++ [c]
  rows := t.rows.map fun r => r.addColumn c
  shaped := by
    intro r hr c'
    obtain ⟨r₀, hr₀, rfl⟩ := List.mem_map.mp hr
    rw [OldRow.has_addColumn, t.shaped r₀ hr₀]
    by_cases hc : c' = c <;> simp [hc]
  ids := by
    have hids : (t.rows.map fun r => r.addColumn c).map OldRow.id = t.rows.map OldRow.id := by
      simp [Function.comp_def]
    exact hids ▸ t.ids

/-- `UPDATE devices SET addr_type = ? WHERE id = ?`. -/
def setAddrType (t : DevicesTable) (id : ℕ) (addrType : AddrType) : DevicesTable where
  columns := t.columns
  rows := t.rows.map fun r => if r.id = id then r.setAddrType addrType else r
  shaped := by
    intro r hr c
    obtain ⟨r₀, hr₀, rfl⟩ := List.mem_map.mp hr
    rw [← t.shaped r₀ hr₀]
    split <;> simp
  ids := by
    have hids : (t.rows.map fun r => if r.id = id then r.setAddrType addrType else r).map
        OldRow.id = t.rows.map OldRow.id := by
      rw [List.map_map]
      apply List.map_congr_left
      intro r _
      rw [Function.comp]
      split <;> rfl
    exact hids ▸ t.ids

def selected (t : DevicesTable) : List (ℕ × Address) := t.rows.map fun r => (r.id, r.address)

@[simp] theorem selected_addColumn (t : DevicesTable) (c : Column) :
    (t.addColumn c).selected = t.selected := by
  unfold selected addColumn
  rw [List.map_map]
  apply List.map_congr_left
  intro r _
  cases c <;> rfl

end DevicesTable

/-- The order in which SQLite returns the rows of a `SELECT` that asks for none. -/
structure SelectOrder where
  of : List (ℕ × Address) → List (ℕ × Address)
  perm : ∀ rows, (of rows).Perm rows

/-- The order of the index behind `UNIQUE (address)`, which holds all that is selected. -/
def byAddress : SelectOrder where
  of := List.insertionSort fun x y => x.2 ≤ y.2
  perm := List.perm_insertionSort _

section Source
variable (order : SelectOrder)

def tableInfo : Program DevicesTable Err (List Column) := statement fun t => (t.columns, t)

def alterAddColumn (c : Column) : Program DevicesTable Err Unit :=
  statement fun t => ((), t.addColumn c)

def selectRows : Program DevicesTable Err (List (ℕ × Address)) :=
  statement fun t => (order.of t.selected, t)

def updateAddrType (id : ℕ) (addrType : AddrType) : Program DevicesTable Err Unit :=
  statement fun t => ((), t.setAddrType id addrType)

def backfill (row : ℕ × Address) : Program DevicesTable Err Unit :=
  match inferAddrType row.2 with
  | .ok addrType => updateAddrType row.1 addrType
  | .error e => raise e

/-- What columns there are is read once, before anything is added. -/
def applyMigrations : Program DevicesTable Err Unit := do
  let cols ← tableInfo
  (if .addrType ∈ cols then pure ()
    else do
      alterAddColumn .addrType
      let rows ← selectRows order
      forM rows backfill)
  (if .lastConnectedAt ∈ cols then pure () else alterAddColumn .lastConnectedAt)
  if .label ∈ cols then pure () else alterAddColumn .label

/-- A run that nothing cuts off: how it ends, and the table. -/
def migrated (t : DevicesTable) : Except (Stop Err) Unit × DevicesTable :=
  let out := (applyMigrations order).exec ⟨t, none⟩
  (out.1, out.2.state)

def cutOffAfter (k : ℕ) (t : DevicesTable) : DevicesTable :=
  ((applyMigrations order).exec ⟨t, some k⟩).2.state

end Source

end HomeServer.Db
