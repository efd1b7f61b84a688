import HomeServer.Db.Tables
import HomeServer.Lib.Grouping
import Mathlib.Data.List.Dedup
import Mathlib.Data.List.Forall2

/-! `downsample_since`: averages of the readings of a channel over fixed buckets of time, and
when they are numbers. -/
namespace HomeServer.Db

/-- `AVG`, where `none` is NULL: the average of nothing, or one that is not a number. -/
def sqlAvg (vs : List PyFloat) : Option PyFloat :=
  if vs = [] then none
  else match vs.foldl PyFloat.add (.finite 0) with
    | .nan => none
    | .inf negative => some (.inf negative)
    | x => some (.finite (x.toRat?.getD 0 / vs.length))

namespace Readings

/-- A row of the grouped query: `AVG(value)` and `MAX(recorded_at)`. -/
structure Bucket where
  value : Option PyFloat
  recordedAt : Timestamp

/-- SQLite divides integers toward zero. -/
def bucketOf (bucketSeconds : ℤ) (r : Reading) : ℤ := r.recordedAt.tdiv bucketSeconds

def aggregate (rows : List Reading) : Bucket where
  value := sqlAvg (rows.map Reading.value)
  recordedAt := (rows.map Reading.recordedAt).max?.getD 0

def bucketsSince (db : Database) (channelId : ℕ) (since : Timestamp) (bucketSeconds : ℤ) :
    List Bucket :=
  let rows := (ofChannel db channelId).filter fun r => since ≤ r.recordedAt
  let keys := (rows.map (bucketOf bucketSeconds)).dedup
  (keys.map fun k => aggregate (rows.filter fun r => bucketOf bucketSeconds r = k)).insertionSort
    fun b c => b.recordedAt ≤ c.recordedAt

/-- `float(None)` is a `TypeError`. -/
def Bucket.point (b : Bucket) : Except Err (PyFloat × Timestamp) :=
  match b.value with
  | some v => .ok (v, b.recordedAt)
  | none => .error .typeError

def downsampleSince (db : Database) (channelId : ℕ) (since : Timestamp) (bucketSeconds : ℤ) :
    Except Err (List (PyFloat × Timestamp)) :=
  (bucketsSince db channelId since bucketSeconds).mapM Bucket.point

end Readings

theorem sqlAvg_finite {vs : List PyFloat} (h : vs ≠ []) :
    (∃ v, sqlAvg vs = some v ∧ v.isFinite = true) ↔ ∀ v ∈ vs, v.isFinite = true := by
  have hsum := PyFloat.isFinite_foldl_add vs (.finite 0)
  unfold sqlAvg
  rw [if_neg h]
  cases hs : vs.foldl PyFloat.add (.finite 0) <;> rw [hs] at hsum <;>
    simpa [PyFloat.isFinite] using hsum

/-- Values without an average: one is not a number, or infinities cancel each other. -/
def Unaverageable (vs : List PyFloat) : Prop :=
  .nan ∈ vs ∨ .inf true ∈ vs ∧ .inf false ∈ vs

theorem unaverageable_add (x v : PyFloat) (vs : List PyFloat) :
    Unaverageable (x.add v :: vs) ↔ Unaverageable (x :: v :: vs) := by
  unfold Unaverageable
  cases x with
  | inf negative => cases v <;> cases negative <;> simp [PyFloat.add] <;> split <;> simp_all
  | nan | negZero | finite q => cases v <;> simp [PyFloat.add]

theorem foldl_add_eq_nan (vs : List PyFloat) (x : PyFloat) :
    vs.foldl PyFloat.add x = .nan ↔ Unaverageable (x :: vs) := by
  induction vs generalizing x with
  | nil => cases x <;> simp [Unaverageable]
  | cons v vs ih => rw [List.foldl_cons, ih, unaverageable_add]

theorem sqlAvg_eq_none {vs : List PyFloat} (h : vs ≠ []) :
    sqlAvg vs = none ↔ Unaverageable vs := by
  have hsum : vs.foldl PyFloat.add (.finite 0) = .nan ↔ Unaverageable vs := by
    rw [foldl_add_eq_nan]
    simp [Unaverageable]
  unfold sqlAvg
  rw [if_neg h, ← hsum]
  cases vs.foldl PyFloat.add (.finite 0) <;> simp

section Collecting
variable {α β ε : Type} {f : α → Except ε β} {xs : List α} {ys : List β}

theorem mapM_eq_ok_iff :
    xs.mapM f = .ok ys ↔ List.Forall₂ (fun x y => f x = .ok y) xs ys := by
  induction xs generalizing ys with
  | nil =>
    rw [List.mapM_nil, List.forall₂_nil_left_iff]
    exact ⟨fun h => (Except.ok.inj h).symm, fun h => congrArg Except.ok h.symm⟩
  | cons x xs ih =>
    rw [List.mapM_cons, List.forall₂_cons_left_iff]
    cases hx : f x with
    | error e => simp [bind, Except.bind]
    | ok y =>
      cases hxs : xs.mapM f with
      | error e => simp [bind, Except.bind, ← ih, hxs]
      | ok rest => simp [bind, Except.bind, pure, Except.pure, ← ih, hxs, eq_comm]

theorem exists_of_mapM (h : xs.mapM f = .ok ys) {x : α} (hx : x ∈ xs) : ∃ y ∈ ys, f x = .ok y :=
  Lib.Grouping.exists_of_forall₂ (mapM_eq_ok_iff.mp h) hx

theorem exists_of_mem_mapM (h : xs.mapM f = .ok ys) {y : β} (hy : y ∈ ys) :
    ∃ x ∈ xs, f x = .ok y :=
  Lib.Grouping.exists_of_forall₂_right (mapM_eq_ok_iff.mp h) hy

theorem exists_mapM (h : ∀ x ∈ xs, ∃ y, f x = .ok y) : ∃ ys, xs.mapM f = .ok ys := by
  induction xs with
  | nil => exact ⟨[], rfl⟩
  | cons x xs ih =>
    obtain ⟨⟨y, hy⟩, hxs⟩ := List.forall_mem_cons.mp h
    obtain ⟨ys, hys⟩ := ih hxs
    exact ⟨y :: ys, mapM_eq_ok_iff.mpr (.cons hy (mapM_eq_ok_iff.mp hys))⟩

end Collecting

namespace Readings
variable {db : Database} {i : ℕ} {since : Timestamp} {b : ℤ} {r : Reading}

def selected (db : Database) (channelId : ℕ) (since : Timestamp) : List Reading :=
  (ofChannel db channelId).filter fun r => since ≤ r.recordedAt

def bucketRows (db : Database) (channelId : ℕ) (since : Timestamp) (bucketSeconds : ℤ)
    (r : Reading) : List Reading :=
  (selected db channelId since).filter fun s => bucketOf bucketSeconds s = bucketOf bucketSeconds r

theorem mem_bucketRows_self (hr : r ∈ selected db i since) : r ∈ bucketRows db i since b r :=
  List.mem_filter.mpr ⟨hr, decide_eq_true rfl⟩

theorem bucketRows_ne_nil (hr : r ∈ selected db i since) :
    (bucketRows db i since b r).map Reading.value ≠ [] :=
  List.ne_nil_of_mem (List.mem_map_of_mem (mem_bucketRows_self hr))

theorem mem_bucketsSince {p : Bucket} : p ∈ bucketsSince db i since b ↔
    ∃ r ∈ selected db i since, p = aggregate (bucketRows db i since b r) := by
  unfold bucketsSince
  simp only [List.mem_insertionSort, List.mem_map, List.mem_dedup]
  constructor
  · rintro ⟨k, ⟨r, hr, rfl⟩, rfl⟩
    exact ⟨r, hr, rfl⟩
  · rintro ⟨r, hr, rfl⟩
    exact ⟨_, ⟨r, hr, rfl⟩, rfl⟩

theorem Bucket.point_of_value {p : Bucket} {v : PyFloat} (h : p.value = some v) :
    p.point = .ok (v, p.recordedAt) := by
  unfold Bucket.point
  rw [h]

theorem Bucket.point_of_none {p : Bucket} (h : p.value = none) : p.point = .error .typeError := by
  unfold Bucket.point
  rw [h]

theorem Bucket.recordedAt_of_point {p : Bucket} {q : PyFloat × Timestamp} (h : p.point = .ok q) :
    q.2 = p.recordedAt := by
  unfold Bucket.point at h
  split at h <;> cases h
  rfl

def NoAverage (db : Database) (channelId : ℕ) (since : Timestamp) (bucketSeconds : ℤ) : Prop :=
  ∃ r ∈ selected db channelId since,
    Unaverageable ((bucketRows db channelId since bucketSeconds r).map Reading.value)

theorem exists_downsampleSince_iff :
    (∃ points, downsampleSince db i since b = .ok points) ↔ ¬NoAverage db i since b := by
  constructor
  · rintro ⟨points, h⟩ ⟨r, hr, hbad⟩
    obtain ⟨p, -, hp⟩ := exists_of_mapM h (mem_bucketsSince.mpr ⟨r, hr, rfl⟩)
    rw [Bucket.point_of_none ((sqlAvg_eq_none (bucketRows_ne_nil hr)).mpr hbad)] at hp
    cases hp
  · intro h
    have hall : ∀ p ∈ bucketsSince db i since b, ∃ q, p.point = .ok q := by
      intro p hp
      obtain ⟨r, hr, rfl⟩ := mem_bucketsSince.mp hp
      have havg : sqlAvg ((bucketRows db i since b r).map Reading.value) ≠ none :=
        fun hnone => h ⟨r, hr, (sqlAvg_eq_none (bucketRows_ne_nil hr)).mp hnone⟩
      obtain ⟨v, hv⟩ := Option.ne_none_iff_exists'.mp havg
      exact ⟨_, Bucket.point_of_value hv⟩
    exact exists_mapM hall

end Readings
end HomeServer.Db
