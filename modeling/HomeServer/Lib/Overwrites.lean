import Mathlib.Data.Finmap

/-! Dictionaries written entry by entry: of the entries with one key the last stays. -/
namespace HomeServer.Lib.Overwrites
variable {κ α : Type*} [DecidableEq κ]

abbrev Dict (κ α : Type*) := Finmap fun _ : κ => α

def writeAll (m : Dict κ α) (entries : List (κ × α)) : Dict κ α :=
  entries.foldl (fun m e => m.insert e.1 e.2) m

def last (entries : List (κ × α)) (k : κ) : Option α :=
  ((entries.filter fun e => e.1 = k).getLast?).map Prod.snd

variable {m : Dict κ α} {entries entries' : List (κ × α)} {k : κ}

theorem writeAll_append :
    writeAll m (entries ++ entries') = writeAll (writeAll m entries) entries' :=
  List.foldl_append

theorem last_cons (e : κ × α) :
    last (e :: entries) k = (last entries k).or (if e.1 = k then some e.2 else none) := by
  unfold last
  by_cases hk : e.1 = k
  · rw [List.filter_cons_of_pos (by simpa using hk), List.getLast?_cons, if_pos hk]
    cases (entries.filter fun e => e.1 = k).getLast? with
    | none => rfl
    | some e' => rfl
  · rw [List.filter_cons_of_neg (by simpa using hk), if_neg hk, Option.or_none]

theorem lookup_writeAll (m : Dict κ α) (entries : List (κ × α)) (k : κ) :
    (writeAll m entries).lookup k = (last entries k).or (m.lookup k) := by
  induction entries generalizing m with
  | nil => rfl
  | cons e entries ih =>
    have hrest := ih (m.insert e.1 e.2)
    rw [last_cons, Option.or_assoc]
    change (writeAll (m.insert e.1 e.2) entries).lookup k = _
    rw [hrest]
    by_cases hk : e.1 = k
    · rw [if_pos hk, ← hk, Finmap.lookup_insert, Option.some_or]
    · rw [if_neg hk, Finmap.lookup_insert_of_ne m (Ne.symm hk), Option.none_or]

/-- Of entries with keys of their own each is found. -/
theorem last_eq_some_of_nodup (h : (entries.map Prod.fst).Nodup) {a : α} :
    last entries k = some a ↔ (k, a) ∈ entries := by
  unfold last
  constructor
  · intro hlast
    obtain ⟨e, he, rfl⟩ := Option.map_eq_some_iff.mp hlast
    obtain ⟨hmem, hkey⟩ := List.mem_filter.mp (List.mem_of_getLast? he)
    rw [← of_decide_eq_true hkey]
    exact hmem
  · intro hmem
    have hfound : (k, a) ∈ entries.filter fun e => e.1 = k :=
      List.mem_filter.mpr ⟨hmem, decide_eq_true rfl⟩
    have hne := List.ne_nil_of_mem hfound
    obtain ⟨hlast, hkey⟩ := List.mem_filter.mp (List.getLast_mem hne)
    have hsame := List.inj_on_of_nodup_map h hlast hmem (of_decide_eq_true hkey)
    rw [List.getLast?_eq_some_getLast hne, hsame]
    rfl

theorem lookup_writeAll_of_nodup (h : (entries.map Prod.fst).Nodup) {a : α} :
    (writeAll ∅ entries).lookup k = some a ↔ (k, a) ∈ entries := by
  rw [lookup_writeAll, Finmap.lookup_empty, Option.or_none, last_eq_some_of_nodup h]

/-- Writing into a dictionary is overriding it by what is written. -/
theorem writeAll_eq_union : writeAll m entries = writeAll ∅ entries ∪ m := by
  apply Finmap.ext_lookup
  intro k
  rw [lookup_writeAll]
  cases hlast : last entries k with
  | none =>
    have hnew : k ∉ writeAll ∅ entries := by
      rw [← Finmap.lookup_eq_none, lookup_writeAll, hlast, Option.none_or, Finmap.lookup_empty]
    rw [Finmap.lookup_union_right hnew, Option.none_or]
  | some a =>
    have hfound : (writeAll ∅ entries).lookup k = some a := by
      rw [lookup_writeAll, hlast, Option.some_or]
    rw [Finmap.lookup_union_left (Finmap.mem_of_lookup_eq_some hfound), hfound, Option.some_or]

end HomeServer.Lib.Overwrites
