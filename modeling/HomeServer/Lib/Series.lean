import HomeServer.Lib.Trimming
import Mathlib.Data.List.Sort
import Mathlib.Order.Defs.LinearOrder

/-! Series of samples in the order of their keys: a sample for the last key overwrites it, later ones
are appended, and old ones are dropped from the front. A series is the ordered list of a partial
function, and each operation is one on the function. -/
namespace HomeServer.Lib.Series
variable {κ α : Type*} [LinearOrder κ]

def Ascending (l : List (κ × α)) : Prop := l.Pairwise fun a b => a.1 < b.1

def valueAt (l : List (κ × α)) (k : κ) : Option α := (l.find? fun e => e.1 = k).map Prod.snd

def record (l : List (κ × α)) (k : κ) (a : α) : List (κ × α) :=
  match l.getLast? with
  | some e => if e.1 = k then l.dropLast ++ [(k, a)] else l ++ [(k, a)]
  | none => l ++ [(k, a)]

def dropBefore (k : κ) (l : List (κ × α)) : List (κ × α) := l.dropWhile fun e => e.1 < k

def NotBefore (l : List (κ × α)) (k : κ) : Prop := ∀ e ∈ l.getLast?, e.1 ≤ k

instance (l : List (κ × α)) (k : κ) : Decidable (NotBefore l k) :=
  inferInstanceAs (Decidable (∀ e ∈ l.getLast?, e.1 ≤ k))

variable {l l' : List (κ × α)} {k x : κ} {a : α}

theorem Ascending.nil : Ascending ([] : List (κ × α)) := List.Pairwise.nil

@[simp] theorem valueAt_nil : valueAt ([] : List (κ × α)) k = none := rfl

theorem valueAt_cons (e : κ × α) :
    valueAt (e :: l) k = if e.1 = k then some e.2 else valueAt l k := by
  unfold valueAt
  rw [List.find?_cons]
  by_cases hk : e.1 = k
  · simp [hk]
  · simp [hk]

theorem valueAt_append : valueAt (l ++ l') k = (valueAt l k).or (valueAt l' k) := by
  unfold valueAt
  rw [List.find?_append]
  cases l.find? fun e => decide (e.1 = k) <;> simp

theorem valueAt_eq_none : valueAt l k = none ↔ ∀ e ∈ l, e.1 ≠ k := by
  simp [valueAt]

theorem exists_mem_of_valueAt (h : valueAt l k = some a) : (k, a) ∈ l := by
  obtain ⟨e, he, rfl⟩ := Option.map_eq_some_iff.mp h
  have hkey := List.find?_some he
  rw [← of_decide_eq_true hkey]
  exact List.mem_of_find?_eq_some he

/-- In a series each key has one sample. -/
theorem Ascending.valueAt_eq (h : Ascending l) : valueAt l k = some a ↔ (k, a) ∈ l := by
  refine ⟨exists_mem_of_valueAt, fun hmem => ?_⟩
  induction l with
  | nil => cases hmem
  | cons e l ih =>
    obtain ⟨hfirst, hrest⟩ := List.pairwise_cons.mp h
    rw [valueAt_cons]
    rcases List.mem_cons.mp hmem with rfl | hmem
    · exact if_pos rfl
    · have hlt := hfirst (k, a) hmem
      rw [if_neg hlt.ne]
      exact ih hrest hmem

/-- A series is determined by its samples. -/
theorem Ascending.ext (h : Ascending l) (h' : Ascending l') (hsame : ∀ k, valueAt l k = valueAt l' k) :
    l = l' := by
  have hmem : ∀ e, e ∈ l ↔ e ∈ l' := by
    intro e
    have hkey := hsame e.1
    have hl := h.valueAt_eq (k := e.1) (a := e.2)
    have hl' := h'.valueAt_eq (k := e.1) (a := e.2)
    rw [← hl, ← hl', hkey]
  have hnodup : ∀ {m : List (κ × α)}, Ascending m → m.Nodup := fun hm =>
    hm.imp fun hlt heq => hlt.ne (congrArg Prod.fst heq)
  have hperm := (List.perm_ext_iff_of_nodup (hnodup h) (hnodup h')).mpr hmem
  exact hperm.eq_of_pairwise (fun a b _ _ hab hba => absurd hab hba.asymm) h h'

theorem Ascending.append (h : Ascending l) (hk : ∀ e ∈ l, e.1 < k) : Ascending (l ++ [(k, a)]) := by
  unfold Ascending
  rw [List.pairwise_append]
  refine ⟨h, List.pairwise_singleton _ _, fun e he b hb => ?_⟩
  rw [List.mem_singleton.mp hb]
  exact hk e he

theorem Ascending.lt_last {e : κ × α} (h : Ascending (l ++ [e])) : ∀ b ∈ l, b.1 < e.1 := by
  intro b hb
  exact (List.pairwise_append.mp h).2.2 b hb e (List.mem_singleton.mpr rfl)

/-- A sample is recorded at the end, in place of the last one if that has the same key. -/
theorem record_spec (h : Ascending l) (hk : NotBefore l k) :
    Ascending (record l k a) ∧
      ∀ x, valueAt (record l k a) x = if x = k then some a else valueAt l x := by
  have happend : ∀ l : List (κ × α), Ascending l → (∀ e ∈ l, e.1 < k) →
      Ascending (l ++ [(k, a)]) ∧
        ∀ x, valueAt (l ++ [(k, a)]) x = if x = k then some a else valueAt l x := by
    intro l hl hlt
    refine ⟨hl.append hlt, fun x => ?_⟩
    rw [valueAt_append, valueAt_cons, valueAt_nil]
    by_cases hx : x = k
    · have hnone : valueAt l x = none := by
        rw [valueAt_eq_none]
        intro e he heq
        exact (hlt e he).ne (heq.trans hx)
      rw [hnone, if_pos hx.symm, if_pos hx, Option.none_or]
    · rw [if_neg (Ne.symm hx), if_neg hx, Option.or_none]
  unfold record
  cases hlast : l.getLast? with
  | none =>
    have hnil := List.getLast?_eq_none_iff.mp hlast
    have hempty : ∀ e ∈ l, e.1 < k := by simp [hnil]
    exact happend l h hempty
  | some e =>
    have hsplit : l = l.dropLast ++ [e] := (List.dropLast_append_getLast? e hlast).symm
    have hle := hk e hlast
    have hbefore := (hsplit ▸ h : Ascending (l.dropLast ++ [e])).lt_last
    dsimp only
    split_ifs with hkey
    · have hfront : Ascending l.dropLast := h.sublist (List.dropLast_sublist l)
      rw [hkey] at hbefore
      obtain ⟨hascending, hvalue⟩ := happend l.dropLast hfront hbefore
      refine ⟨hascending, fun x => ?_⟩
      rw [hvalue]
      by_cases hx : x = k
      · rw [if_pos hx, if_pos hx]
      · have hother : valueAt l x = valueAt l.dropLast x := by
          rw [hsplit, valueAt_append, List.dropLast_concat, valueAt_cons, hkey,
            if_neg (Ne.symm hx), valueAt_nil, Option.or_none]
        rw [if_neg hx, if_neg hx, hother]
    · have hlt : e.1 < k := lt_of_le_of_ne hle hkey
      apply happend l h
      intro b hb
      rw [hsplit] at hb
      rcases List.mem_append.mp hb with hmem | hmem
      · exact (hbefore b hmem).trans hlt
      · rw [List.mem_singleton.mp hmem]
        exact hlt

/-- Dropping from the front leaves the samples from a key on. -/
theorem dropBefore_spec (h : Ascending l) (k : κ) :
    Ascending (dropBefore k l) ∧
      ∀ x, valueAt (dropBefore k l) x = if k ≤ x then valueAt l x else none := by
  have hfilter : dropBefore k l = l.filter fun e => !decide (e.1 < k) := by
    apply Trimming.dropWhile_eq_filter
    refine h.imp fun {a b} hab => ?_
    rw [decide_eq_true_eq, decide_eq_true_eq]
    exact hab.trans
  have hascending : Ascending (l.filter fun e => !decide (e.1 < k)) := h.filter _
  rw [hfilter]
  refine ⟨hascending, fun x => Option.ext fun a => ?_⟩
  rw [hascending.valueAt_eq]
  by_cases hx : k ≤ x
  · simp [hx, h.valueAt_eq]
  · simp [hx, not_le.mp hx]

theorem Ascending.tail (h : Ascending l) : Ascending l.tail := h.sublist (List.tail_sublist l)

/-- Samples with keys of their own make a series when they are sorted. -/
theorem insertionSort_spec (h : (l.map Prod.fst).Nodup) :
    Ascending (l.insertionSort fun a b => a.1 ≤ b.1) ∧
      ∀ x, valueAt (l.insertionSort fun a b => a.1 ≤ b.1) x = valueAt l x := by
  have hperm := List.perm_insertionSort (fun a b : κ × α => a.1 ≤ b.1) l
  have hsorted := List.pairwise_insertionSort (fun a b : κ × α => a.1 ≤ b.1) l
  have hkeys := (hperm.map Prod.fst).nodup_iff.mpr h
  have hascending : Ascending (l.insertionSort fun a b => a.1 ≤ b.1) :=
    (hsorted.and (List.pairwise_map.mp hkeys)).imp fun hab => lt_of_le_of_ne hab.1 hab.2
  have hunique : ∀ x a, valueAt l x = some a ↔ (x, a) ∈ l := by
    intro x a
    refine ⟨exists_mem_of_valueAt, fun hmem => ?_⟩
    cases hvalue : valueAt l x with
    | none => exact absurd rfl (valueAt_eq_none.mp hvalue (x, a) hmem)
    | some b =>
      have hsame := List.inj_on_of_nodup_map h (exists_mem_of_valueAt hvalue) hmem rfl
      rw [(Prod.mk.inj hsame).2]
  refine ⟨hascending, fun x => Option.ext fun a => ?_⟩
  rw [hascending.valueAt_eq, hunique, hperm.mem_iff]

end HomeServer.Lib.Series
