import Mathlib.Data.List.Nodup
import Mathlib.Data.List.Sort
import Mathlib.Logic.Function.Basic

/-! Tables whose rows have a key of their own, as partial functions of the key. -/
namespace HomeServer.Lib.Keyed
variable {ρ κ : Type*}

section Rows
variable [DecidableEq κ] {key : ρ → κ} {rows : List ρ} {r : ρ} {k : κ}

def row (key : ρ → κ) (rows : List ρ) (k : κ) : Option ρ := rows.find? fun r => key r = k

@[simp] theorem row_nil : row key [] = fun _ => none := rfl

theorem row_eq_some_iff (h : (rows.map key).Nodup) :
    row key rows k = some r ↔ r ∈ rows ∧ key r = k := by
  constructor
  · intro hrow
    exact ⟨List.mem_of_find?_eq_some hrow, by simpa using List.find?_some hrow⟩
  · rintro ⟨hr, rfl⟩
    unfold row
    cases hfind : rows.find? fun s => key s = key r with
    | none => exact absurd (List.find?_eq_none.mp hfind r hr) (by simp)
    | some s =>
      have hs : s ∈ rows := List.mem_of_find?_eq_some hfind
      have hkey : key s = key r := by simpa using List.find?_some hfind
      rw [List.inj_on_of_nodup_map h hs hr hkey]

theorem row_eq_none_iff : row key rows k = none ↔ ∀ r ∈ rows, key r ≠ k := by
  simp [row]

theorem exists_row_iff (h : (rows.map key).Nodup) (p : ρ → Prop) :
    (∃ k r, row key rows k = some r ∧ p r) ↔ ∃ r ∈ rows, p r := by
  constructor
  · rintro ⟨k, r, hrow, hp⟩
    exact ⟨r, ((row_eq_some_iff h).mp hrow).1, hp⟩
  · rintro ⟨r, hr, hp⟩
    exact ⟨key r, r, (row_eq_some_iff h).mpr ⟨hr, rfl⟩, hp⟩

theorem row_append {new : ρ} (hnew : ∀ r ∈ rows, key r ≠ key new) :
    row key (rows ++ [new]) = Function.update (row key rows) (key new) (some new) := by
  funext k
  by_cases hk : k = key new
  · subst hk
    have hnone : row key rows (key new) = none := row_eq_none_iff.mpr hnew
    rw [Function.update_self]
    unfold row at hnone ⊢
    rw [List.find?_append, hnone]
    simp
  · rw [Function.update_of_ne hk]
    have hmiss : [new].find? (fun r => decide (key r = k)) = none := by simp [Ne.symm hk]
    unfold row
    rw [List.find?_append, hmiss, Option.or_none]

theorem row_filter (h : (rows.map key).Nodup) (p : ρ → Bool) (k : κ) :
    row key (rows.filter p) k = (row key rows k).filter p := by
  have hsub : ((rows.filter p).map key).Nodup := h.sublist (List.filter_sublist.map key)
  apply Option.ext
  intro r
  rw [row_eq_some_iff hsub, Option.filter_eq_some_iff, row_eq_some_iff h, List.mem_filter]
  tauto

theorem row_map {f : ρ → ρ} (hf : ∀ r, key (f r) = key r) (k : κ) :
    row key (rows.map f) k = (row key rows k).map f := by
  unfold row
  rw [List.find?_map]
  congr 2
  funext r
  simp [hf]

theorem row_filter_ne (h : (rows.map key).Nodup) (k₀ : κ) :
    row key (rows.filter fun r => key r ≠ k₀) = Function.update (row key rows) k₀ none := by
  funext k
  rw [row_filter h]
  by_cases hk : k = k₀
  · subst hk
    rw [Function.update_self, Option.filter_eq_none_iff]
    intro r hr
    simp [((row_eq_some_iff h).mp hr).2]
  · rw [Function.update_of_ne hk]
    cases hrow : row key rows k with
    | none => rfl
    | some r =>
      have hkey : key r = k := ((row_eq_some_iff h).mp hrow).2
      rw [Option.filter_some, if_pos (by simpa [hkey] using hk)]

/-- Only the row of one key is changed. -/
theorem row_map_at (h : (rows.map key).Nodup) {f : ρ → ρ} (hf : ∀ r, key (f r) = key r) (k₀ : κ) :
    row key (rows.map fun r => if key r = k₀ then f r else r) =
      Function.update (row key rows) k₀ ((row key rows k₀).map f) := by
  funext k
  rw [row_map fun r => by split_ifs <;> simp [hf]]
  cases hrow : row key rows k with
  | none =>
    by_cases hk : k = k₀
    · subst hk
      rw [Function.update_self, hrow]
      rfl
    · rw [Function.update_of_ne hk, hrow]
      rfl
  | some r =>
    have hkey : key r = k := ((row_eq_some_iff h).mp hrow).2
    by_cases hk : k = k₀
    · subst hk
      rw [Function.update_self, hrow, Option.map_some, if_pos hkey]
      rfl
    · rw [Function.update_of_ne hk, hrow, Option.map_some, if_neg (hkey ▸ hk)]

end Rows

/-- Rows in the order of their numbers are those of the numbers in turn. -/
theorem filterMap_range {key : ρ → ℕ} {rows : List ρ} {n : ℕ}
    (h : rows.Pairwise fun r s => key r < key s) (hn : ∀ r ∈ rows, key r < n) :
    (List.range n).filterMap (row key rows) = rows := by
  have hnodup : (rows.map key).Nodup := by
    rw [List.nodup_iff_pairwise_ne, List.pairwise_map]
    exact h.imp fun hlt => hlt.ne
  have hnumbers : ((List.range n).filterMap (row key rows)).Pairwise fun r s => key r < key s := by
    rw [List.pairwise_filterMap]
    refine List.pairwise_lt_range.imp fun {i j} hij r hr s hs => ?_
    rw [((row_eq_some_iff hnodup).mp hr).2, ((row_eq_some_iff hnodup).mp hs).2]
    exact hij
  have hirrefl : Std.Irrefl fun r s : ρ => key r < key s := ⟨fun r => lt_irrefl (key r)⟩
  have hantisymm : Std.Antisymm fun r s : ρ => key r < key s :=
    ⟨fun r s hrs hsr => absurd hsr hrs.asymm⟩
  refine hnumbers.eq_of_mem_iff h fun r => ?_
  rw [List.mem_filterMap]
  constructor
  · rintro ⟨i, -, hr⟩
    exact ((row_eq_some_iff hnodup).mp hr).1
  · intro hr
    exact ⟨key r, List.mem_range.mpr (hn r hr), (row_eq_some_iff hnodup).mpr ⟨hr, rfl⟩⟩

section Sorting
variable {α β : Type*} {r : α → α → Prop} {s : β → β → Prop} [DecidableRel r] [DecidableRel s]

theorem map_orderedInsert_of_le {f : α → β} {x : α} {l : List α}
    (h : ∀ a ∈ l, r x a ↔ s (f x) (f a)) :
    (l.orderedInsert r x).map f = (l.map f).orderedInsert s (f x) := by
  induction l with
  | nil => rfl
  | cons a l ih =>
    obtain ⟨ha, hl⟩ := List.forall_mem_cons.mp h
    rw [List.map_cons, List.orderedInsert_cons, List.orderedInsert_cons]
    by_cases hx : r x a
    · rw [if_pos hx, if_pos (ha.mp hx)]
      rfl
    · rw [if_neg hx, if_neg (mt ha.mpr hx), List.map_cons, ih hl]

/-- Sorting is stable: the order may break ties by the place in the list, or not at all. -/
theorem map_insertionSort_of_pairwise {f : α → β} {l : List α}
    (h : l.Pairwise fun a b => r a b ↔ s (f a) (f b)) :
    (l.insertionSort r).map f = (l.map f).insertionSort s := by
  induction l with
  | nil => rfl
  | cons a l ih =>
    obtain ⟨ha, hl⟩ := List.pairwise_cons.mp h
    rw [List.map_cons, List.insertionSort_cons, List.insertionSort_cons, ← ih hl]
    apply map_orderedInsert_of_le
    intro b hb
    exact ha b ((List.mem_insertionSort r).mp hb)

end Sorting
end HomeServer.Lib.Keyed
