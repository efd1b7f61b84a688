import Mathlib.Algebra.BigOperators.Group.List.Basic
import Mathlib.Data.List.Dedup
import Mathlib.Data.List.Forall2
import Mathlib.Data.List.Induction
import Mathlib.Data.List.Sort

/-! Rows grouped by a key: the groups are a partition, and a quantity that grows with the key puts
them in the order of their keys. Rows are sorted in parts, and alike where orders agree. -/
namespace HomeServer.Lib.Grouping
variable {α κ β M : Type*}

section Groups
variable [DecidableEq κ] (f : α → κ)

def keys (rows : List α) : List κ := (rows.map f).dedup

def group (rows : List α) (k : κ) : List α := rows.filter fun r => f r = k

variable {f} {rows : List α} {k : κ}

@[simp] theorem mem_keys : k ∈ keys f rows ↔ ∃ r ∈ rows, f r = k := by
  simp [keys]

theorem nodup_keys : (keys f rows).Nodup := List.nodup_dedup _

@[simp] theorem mem_group {r : α} : r ∈ group f rows k ↔ r ∈ rows ∧ f r = k := by
  simp [group]

theorem group_ne_nil (hk : k ∈ keys f rows) : group f rows k ≠ [] := by
  obtain ⟨r, hr⟩ := mem_keys.mp hk
  exact List.ne_nil_of_mem (mem_group.mpr hr)

/-- Over all keys, the groups are the rows, each in one group. -/
theorem flatMap_group_perm {ks : List κ} (hks : ks.Nodup) (h : ∀ r ∈ rows, f r ∈ ks) :
    (ks.flatMap (group f rows)).Perm rows := by
  induction ks generalizing rows with
  | nil =>
    have hnil : rows = [] := List.eq_nil_iff_forall_not_mem.mpr fun r hr => nomatch h r hr
    rw [hnil]
    exact .nil
  | cons k ks ih =>
    obtain ⟨hk, hks⟩ := List.nodup_cons.mp hks
    have hothers : ∀ r ∈ rows.filter (fun r => ¬f r = k), f r ∈ ks := by
      intro r hr
      obtain ⟨hr, hne⟩ := List.mem_filter.mp hr
      exact (List.mem_cons.mp (h r hr)).resolve_left (of_decide_eq_true hne)
    have hsame : ∀ k' ∈ ks, group f (rows.filter fun r => ¬f r = k) k' = group f rows k' := by
      intro k' hk'
      unfold group
      rw [List.filter_filter]
      apply List.filter_congr
      intro r _
      by_cases hr : f r = k'
      · have hne : k' ≠ k := fun heq => hk (heq ▸ hk')
        simp [hr, hne]
      · simp [hr]
    have hrest := ih hks hothers
    rw [List.flatMap_congr hsame] at hrest
    rw [List.flatMap_cons]
    have hsplit := List.filter_append_perm (fun r => decide (f r = k)) rows
    simp only [← decide_not] at hsplit
    exact (hrest.append_left _).trans hsplit

theorem sum_groups [AddCommMonoid M] (g : α → M) {ks : List κ} (hks : ks.Nodup)
    (h : ∀ r ∈ rows, f r ∈ ks) :
    (ks.map fun k => ((group f rows k).map g).sum).sum = (rows.map g).sum := by
  have hperm := (flatMap_group_perm hks h).map g
  rw [List.map_flatMap] at hperm
  rw [← hperm.sum_eq, List.flatMap_def, List.sum_flatten, List.map_map]
  rfl

end Groups

section Collect
variable [DecidableEq κ] (f : α → κ)

def insertRow (groups : List (κ × List α)) (r : α) : List (κ × List α) :=
  if f r ∈ groups.map Prod.fst then
    groups.map fun g => if g.1 = f r then (g.1, g.2 ++ [r]) else g
  else groups ++ [(f r, [r])]

/-- Grouping in one pass, the groups in the order of their first rows. -/
def collect (rows : List α) : List (κ × List α) := rows.foldl (insertRow f) []

theorem collect_concat (rows : List α) (r : α) :
    collect f (rows ++ [r]) = insertRow f (collect f rows) r := List.foldl_concat ..

theorem keys_insertRow (groups : List (κ × List α)) (r : α) :
    (insertRow f groups r).map Prod.fst =
      if f r ∈ groups.map Prod.fst then groups.map Prod.fst else groups.map Prod.fst ++ [f r] := by
  unfold insertRow
  split_ifs
  · rw [List.map_map]
    apply List.map_congr_left
    intro g _
    rw [Function.comp_apply]
    split_ifs <;> rfl
  · rw [List.map_append, List.map_singleton]

variable {f} {rows : List α} {k : κ}

theorem mem_keys_collect : k ∈ (collect f rows).map Prod.fst ↔ ∃ r ∈ rows, f r = k := by
  induction rows using List.reverseRecOn with
  | nil => simp [collect]
  | append_singleton rows r ih =>
    have hrows : (∃ r' ∈ rows ++ [r], f r' = k) ↔ (∃ r' ∈ rows, f r' = k) ∨ f r = k := by
      simp only [List.mem_append, List.mem_singleton, or_and_right, exists_or, exists_eq_left]
    rw [collect_concat, keys_insertRow, hrows, ← ih]
    split_ifs with hmem
    · refine ⟨Or.inl, fun h => ?_⟩
      rcases h with h | rfl
      · exact h
      · exact hmem
    · rw [List.mem_append, List.mem_singleton, eq_comm]

theorem nodup_keys_collect : ((collect f rows).map Prod.fst).Nodup := by
  induction rows using List.reverseRecOn with
  | nil => exact List.nodup_nil
  | append_singleton rows r ih =>
    rw [collect_concat, keys_insertRow]
    split_ifs with hmem
    · exact ih
    · rw [← List.concat_eq_append]
      exact ih.concat hmem

/-- What is collected under a key is its group. -/
theorem eq_group_of_mem_collect {members : List α} (h : (k, members) ∈ collect f rows) :
    members = group f rows k := by
  induction rows using List.reverseRecOn generalizing members with
  | nil => cases h
  | append_singleton rows r ih =>
    have hgroup : group f (rows ++ [r]) k = group f rows k ++ if f r = k then [r] else [] := by
      unfold group
      rw [List.filter_append, List.filter_singleton]
      simp
    rw [collect_concat, insertRow] at h
    rw [hgroup]
    split_ifs at h with hmem
    · obtain ⟨g, hg, heq⟩ := List.mem_map.mp h
      by_cases hkey : g.1 = f r
      · rw [if_pos hkey] at heq
        obtain ⟨rfl, rfl⟩ := Prod.mk.inj heq
        rw [ih hg, if_pos hkey.symm]
      · rw [if_neg hkey] at heq
        rw [heq] at hg hkey
        rw [ih hg, if_neg (Ne.symm hkey), List.append_nil]
    · rcases List.mem_append.mp h with hold | hnew
      · have hne : f r ≠ k := fun heq => hmem (heq ▸ List.mem_map_of_mem hold)
        rw [ih hold, if_neg hne, List.append_nil]
      · obtain ⟨rfl, rfl⟩ := Prod.mk.inj (List.mem_singleton.mp hnew)
        have hnil : group f rows (f r) = [] := by
          rw [List.eq_nil_iff_forall_not_mem]
          intro r' hr'
          exact hmem (mem_keys_collect.mpr ⟨r', mem_group.mp hr'⟩)
        rw [hnil, if_pos rfl, List.nil_append]

theorem collect_ne_nil {members : List α} (h : (k, members) ∈ collect f rows) : members ≠ [] := by
  obtain ⟨r, hr, hkey⟩ := mem_keys_collect.mp (List.mem_map_of_mem h)
  rw [eq_group_of_mem_collect h]
  exact List.ne_nil_of_mem (mem_group.mpr ⟨hr, hkey⟩)

theorem flatMap_collect_perm : ((collect f rows).flatMap Prod.snd).Perm rows := by
  have hgroups : (collect f rows).flatMap Prod.snd =
      ((collect f rows).map Prod.fst).flatMap (group f rows) := by
    rw [List.flatMap_map]
    apply List.flatMap_congr
    intro g hg
    exact eq_group_of_mem_collect hg
  rw [hgroups]
  exact flatMap_group_perm nodup_keys_collect fun r hr => mem_keys_collect.mpr ⟨r, hr, rfl⟩

end Collect

section Sorted
variable [LinearOrder κ] {ks : List κ}

/-- Sorting what is made of the groups by a quantity that follows the keys is sorting the keys. -/
theorem insertionSort_map [LinearOrder β] {g : κ → α} {t : α → β}
    (ht : ∀ k ∈ ks, ∀ k' ∈ ks, k < k' → t (g k) < t (g k')) :
    (ks.map g).insertionSort (fun a b => t a ≤ t b) = (ks.insertionSort (· ≤ ·)).map g := by
  symm
  apply List.map_insertionSort
  intro k hk k' hk'
  constructor
  · intro hle
    rcases hle.lt_or_eq with hlt | rfl
    · exact (ht k hk k' hk' hlt).le
    · exact le_rfl
  · intro hle
    by_contra hlt
    exact absurd hle (not_le.mpr (ht k' hk' k hk (not_le.mp hlt)))

theorem pairwise_lt_insertionSort (hks : ks.Nodup) :
    (ks.insertionSort (· ≤ ·)).Pairwise (· < ·) := by
  have hnodup := (List.perm_insertionSort (· ≤ ·) ks).nodup_iff.mpr hks
  have hsorted := List.pairwise_insertionSort (· ≤ ·) ks
  exact (hsorted.and hnodup).imp fun h => lt_of_le_of_ne h.1 h.2

end Sorted

section Split
variable {r : α → α → Prop} [DecidableRel r] [Std.Total r] [IsTrans α r] {rows : List α}

/-- Rows that a predicate parts into earlier and later ones are sorted part by part. -/
theorem insertionSort_split (p : α → Bool)
    (hids : ∀ x ∈ rows, ∀ y ∈ rows, r x y → r y x → x = y)
    (hp : ∀ x ∈ rows, ∀ y ∈ rows, p x = true → p y = false → r x y) :
    (rows.filter p).insertionSort r ++ (rows.filter fun x => !p x).insertionSort r =
      rows.insertionSort r := by
  have hperm : ((rows.filter p).insertionSort r ++
      (rows.filter fun x => !p x).insertionSort r).Perm rows :=
    ((List.perm_insertionSort r _).append (List.perm_insertionSort r _)).trans
      (List.filter_append_perm p rows)
  have hsorted : ((rows.filter p).insertionSort r ++
      (rows.filter fun x => !p x).insertionSort r).Pairwise r := by
    apply List.pairwise_append.mpr
    refine ⟨List.pairwise_insertionSort r _, List.pairwise_insertionSort r _, ?_⟩
    intro x hx y hy
    obtain ⟨hx, hpx⟩ := List.mem_filter.mp ((List.mem_insertionSort r).mp hx)
    obtain ⟨hy, hpy⟩ := List.mem_filter.mp ((List.mem_insertionSort r).mp hy)
    exact hp x hx y hy hpx (by simpa using hpy)
  apply (hperm.trans (List.perm_insertionSort r rows).symm).eq_of_pairwise
    _ hsorted (List.pairwise_insertionSort r rows)
  intro x y hx hy
  exact hids x (hperm.mem_iff.mp hx) y ((List.mem_insertionSort r).mp hy)

end Split

section Paired
variable {R : α → β → Prop} {xs : List α} {ys : List β}

theorem exists_of_forall₂ (h : List.Forall₂ R xs ys) {x : α} (hx : x ∈ xs) : ∃ y ∈ ys, R x y := by
  induction h with
  | nil => cases hx
  | cons hxy _ ih =>
    rcases List.mem_cons.mp hx with rfl | hx
    · exact ⟨_, .head _, hxy⟩
    · obtain ⟨y, hy, hR⟩ := ih hx
      exact ⟨y, .tail _ hy, hR⟩

theorem exists_of_forall₂_right (h : List.Forall₂ R xs ys) {y : β} (hy : y ∈ ys) :
    ∃ x ∈ xs, R x y :=
  exists_of_forall₂ (List.Forall₂.flip (R := flip R) h) hy

theorem rel_getLast? (h : List.Forall₂ R xs ys) : Option.Rel R xs.getLast? ys.getLast? := by
  induction h with
  | nil => exact .none
  | cons hxy h ih =>
    rw [List.getLast?_cons, List.getLast?_cons]
    cases h with
    | nil => exact .some hxy
    | cons hxy' h' =>
      rw [List.getLast?_cons, List.getLast?_cons] at ih ⊢
      exact ih

end Paired

section Alike
variable {R : α → β → Prop} {f : α → κ} {g : β → κ} {xs : List α} {ys : List β}

theorem map_eq_map (h : List.Forall₂ R xs ys) (hfg : ∀ a b, R a b → f a = g b) :
    xs.map f = ys.map g := by
  induction h with
  | nil => rfl
  | cons hab _ ih => rw [List.map_cons, List.map_cons, hfg _ _ hab, ih]

theorem keys_eq_keys [DecidableEq κ] (h : List.Forall₂ R xs ys)
    (hfg : ∀ a b, R a b → f a = g b) : keys f xs = keys g ys :=
  congrArg List.dedup (map_eq_map h hfg)

end Alike

section Related
variable {R : α → β → Prop} {r : α → α → Prop} {s : β → β → Prop} [DecidableRel r]
  [DecidableRel s] {xs : List α} {ys : List β}

theorem forall₂_orderedInsert (hrs : ∀ a b, R a b → ∀ a' b', R a' b' → (r a a' ↔ s b b'))
    {a : α} {b : β} (hab : R a b) (h : List.Forall₂ R xs ys) :
    List.Forall₂ R (xs.orderedInsert r a) (ys.orderedInsert s b) := by
  induction h with
  | nil => exact .cons hab .nil
  | @cons a' b' xs ys hab' h ih =>
    have hiff := hrs a b hab a' b' hab'
    by_cases hr : r a a'
    · rw [List.orderedInsert_cons_of_le r xs hr, List.orderedInsert_cons_of_le s ys (hiff.mp hr)]
      exact .cons hab (.cons hab' h)
    · have hs : ¬s b b' := fun hs => hr (hiff.mpr hs)
      rw [List.orderedInsert_of_not_le r xs hr, List.orderedInsert_of_not_le s ys hs]
      exact .cons hab' ih

theorem forall₂_insertionSort (hrs : ∀ a b, R a b → ∀ a' b', R a' b' → (r a a' ↔ s b b'))
    (h : List.Forall₂ R xs ys) : List.Forall₂ R (xs.insertionSort r) (ys.insertionSort s) := by
  induction h with
  | nil => exact .nil
  | cons hab _ ih => exact forall₂_orderedInsert hrs hab ih

end Related
end HomeServer.Lib.Grouping
