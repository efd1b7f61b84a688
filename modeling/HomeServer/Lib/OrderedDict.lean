import Mathlib.Data.List.Nodup

/-! Dictionaries in insertion order: a key that is set again keeps its place. -/
namespace HomeServer.Lib
variable {κ ν : Type*} [DecidableEq κ]

structure OrderedDict (κ ν : Type*) where
  entries : List (κ × ν)
  nodup : (entries.map Prod.fst).Nodup

namespace OrderedDict

def empty : OrderedDict κ ν := ⟨[], List.nodup_nil⟩

def setEntry (k : κ) (v : ν) : List (κ × ν) → List (κ × ν)
  | [] => [(k, v)]
  | e :: es => if e.1 = k then (k, v) :: es else e :: setEntry k v es

theorem keys_setEntry (k : κ) (v : ν) (es : List (κ × ν)) :
    (setEntry k v es).map Prod.fst =
      if k ∈ es.map Prod.fst then es.map Prod.fst else es.map Prod.fst ++ [k] := by
  induction es with
  | nil => rfl
  | cons e es ih =>
    by_cases he : e.1 = k
    · rw [setEntry, if_pos he, List.map_cons, List.map_cons, he, if_pos List.mem_cons_self]
    · rw [setEntry, if_neg he, List.map_cons, ih, List.map_cons]
      have hmem : k ∈ e.1 :: es.map Prod.fst ↔ k ∈ es.map Prod.fst := by
        rw [List.mem_cons, or_iff_right (Ne.symm he)]
      by_cases hk : k ∈ es.map Prod.fst
      · rw [if_pos hk, if_pos (hmem.mpr hk)]
      · rw [if_neg hk, if_neg (mt hmem.mp hk), List.cons_append]

theorem nodup_setEntry (k : κ) (v : ν) {es : List (κ × ν)} (h : (es.map Prod.fst).Nodup) :
    ((setEntry k v es).map Prod.fst).Nodup := by
  rw [keys_setEntry]
  split_ifs with hk
  · exact h
  · rw [List.nodup_append]
    refine ⟨h, List.nodup_singleton k, fun a ha b hb hab => hk ?_⟩
    rw [← List.mem_singleton.mp hb, ← hab]
    exact ha

def set (d : OrderedDict κ ν) (k : κ) (v : ν) : OrderedDict κ ν :=
  ⟨setEntry k v d.entries, nodup_setEntry k v d.nodup⟩

def dropKeys (d : OrderedDict κ ν) (p : κ → Bool) : OrderedDict κ ν :=
  ⟨d.entries.filter fun e => !p e.1, d.nodup.sublist (List.filter_sublist.map _)⟩

def pop (d : OrderedDict κ ν) (k : κ) : OrderedDict κ ν := d.dropKeys fun k' => k' = k

def get? (d : OrderedDict κ ν) (k : κ) : Option ν :=
  (d.entries.find? fun e => e.1 = k).map Prod.snd

variable {d : OrderedDict κ ν} {k k' : κ} {v : ν}

theorem mem_entries_iff : (k, v) ∈ d.entries ↔ d.get? k = some v := by
  unfold get?
  constructor
  · intro hmem
    cases hfind : d.entries.find? fun e => e.1 = k with
    | none => exact absurd (List.find?_eq_none.mp hfind _ hmem) (by simp)
    | some e =>
      have he := List.mem_of_find?_eq_some hfind
      have hkey : e.1 = k := by simpa using List.find?_some hfind
      rw [List.inj_on_of_nodup_map d.nodup he hmem hkey, Option.map_some]
  · intro hget
    obtain ⟨e, hfind, rfl⟩ := Option.map_eq_some_iff.mp hget
    have hkey : e.1 = k := by simpa using List.find?_some hfind
    rw [← hkey]
    exact List.mem_of_find?_eq_some hfind

@[simp] theorem get?_set : (d.set k v).get? k' = if k' = k then some v else d.get? k' := by
  unfold get? set
  dsimp only
  induction d.entries with
  | nil =>
    rw [setEntry, List.find?_singleton]
    simp only [decide_eq_true_eq, eq_comm (a := k) (b := k')]
    split_ifs <;> rfl
  | cons e es ih =>
    by_cases he : e.1 = k
    · rw [setEntry, if_pos he, List.find?_cons, List.find?_cons, he]
      by_cases hk : k' = k
      · simp [hk]
      · simp [hk, Ne.symm hk]
    · rw [setEntry, if_neg he, List.find?_cons, List.find?_cons]
      by_cases hk : e.1 = k'
      · have hne : k' ≠ k := fun h => he (hk.trans h)
        simp [hk, hne]
      · simpa [hk] using ih

@[simp] theorem get?_dropKeys {p : κ → Bool} :
    (d.dropKeys p).get? k = if p k then none else d.get? k := by
  unfold get? dropKeys
  dsimp only
  rw [List.find?_filter]
  split_ifs with hp
  · rw [List.find?_eq_none.mpr, Option.map_none]
    intro e _
    by_cases hk : e.1 = k
    · simp [hk, hp]
    · simp [hk]
  · have hsame : (fun e : κ × ν => decide ((!p e.1) = true ∧ decide (e.1 = k) = true)) =
        fun e => decide (e.1 = k) := by
      funext e
      by_cases hk : e.1 = k
      · simp [hk, hp]
      · simp [hk]
    rw [hsame]

@[simp] theorem get?_pop : (d.pop k).get? k' = if k' = k then none else d.get? k' := by
  rw [pop, get?_dropKeys]
  simp

end OrderedDict
end HomeServer.Lib
