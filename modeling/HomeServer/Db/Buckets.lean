import HomeServer.Db.Downsample
import HomeServer.Lib.Grouping
import Mathlib.Algebra.BigOperators.Group.List.Basic
import Mathlib.Order.Bounds.Basic

/-! What `downsample_since` computes of numbers: one point for each bucket of the epoch that holds
a selected reading, their mean at the time of the last of them. -/
namespace HomeServer.Db
open Lib

def Reading.number (r : Reading) : ℚ := r.value.toRat?.getD 0

theorem foldl_add_finite {vs : List PyFloat} (h : ∀ v ∈ vs, v.isFinite = true) (q : ℚ) :
    vs.foldl PyFloat.add (.finite q) = .finite (q + (vs.map fun v => v.toRat?.getD 0).sum) := by
  induction vs generalizing q with
  | nil => simp
  | cons v vs ih =>
    obtain ⟨hv, hvs⟩ := List.forall_mem_cons.mp h
    have hadd : PyFloat.add (.finite q) v = .finite (q + v.toRat?.getD 0) := by
      cases v with
      | negZero | finite r => rfl
      | nan | inf negative => simp [PyFloat.isFinite] at hv
    rw [List.foldl_cons, hadd, ih hvs, List.map_cons, List.sum_cons, add_assoc]

namespace Readings

/-- Bucket `k` is the `k`-th stretch of `b` seconds counted from the epoch. -/
def InBucket (b k : ℤ) (r : Reading) : Prop := k * b ≤ r.recordedAt ∧ r.recordedAt < k * b + b

instance (b k : ℤ) : DecidablePred (InBucket b k) := fun r =>
  inferInstanceAs (Decidable (k * b ≤ r.recordedAt ∧ r.recordedAt < k * b + b))

def bucket (b : ℤ) (rows : List Reading) (k : ℤ) : List Reading := rows.filter (InBucket b k)

def mean (rows : List Reading) : ℚ := (rows.map Reading.number).sum / rows.length

structure IsPoint (rows : List Reading) (p : PyFloat × Timestamp) : Prop where
  value : p.1 = .finite (mean rows)
  time : IsGreatest {t | ∃ r ∈ rows, r.recordedAt = t} p.2

/-- The points are those of the buckets `ks`, which are the ones that hold a row. -/
structure Bucketing (rows : List Reading) (b : ℤ) (ks : List ℤ)
    (points : List (PyFloat × Timestamp)) : Prop where
  buckets : ∀ k, k ∈ ks ↔ bucket b rows k ≠ []
  distinct : ks.Nodup
  each : List.Forall₂ (fun k p => IsPoint (bucket b rows k) p) ks points
  increasing : points.Pairwise fun p q => p.2 < q.2
  total : (ks.map fun k => (bucket b rows k).length * mean (bucket b rows k)).sum =
    (rows.map Reading.number).sum

def startsFrom (b : ℤ) (since : Timestamp) (p : PyFloat × Timestamp) : Bool :=
  since ≤ p.2 / b * b

section Rows
variable {rows : List Reading} {b k : ℤ}

/-- What `downsample_since` needs of the readings to be an average over the epoch. -/
def Averaged (rows : List Reading) : Prop :=
  ∀ r ∈ rows, r.value.isFinite = true ∧ 0 ≤ r.recordedAt

def lastTime (rows : List Reading) : Timestamp := (rows.map Reading.recordedAt).max?.getD 0

def pointOf (rows : List Reading) : PyFloat × Timestamp := (.finite (mean rows), lastTime rows)

theorem bucketOf_eq_iff (hb : 1 ≤ b) {r : Reading} (hr : 0 ≤ r.recordedAt) :
    bucketOf b r = k ↔ InBucket b k r := by
  unfold bucketOf InBucket
  rw [Int.tdiv_eq_ediv_of_nonneg hr, Int.ediv_eq_iff_of_pos (by omega)]

theorem group_eq_bucket (hb : 1 ≤ b) (h : Averaged rows) (k : ℤ) :
    Grouping.group (bucketOf b) rows k = bucket b rows k := by
  apply List.filter_congr
  intro r hr
  simpa using bucketOf_eq_iff hb (h r hr).2

theorem isGreatest_lastTime (h : rows ≠ []) :
    IsGreatest {t | ∃ r ∈ rows, r.recordedAt = t} (lastTime rows) := by
  unfold lastTime
  cases hmax : (rows.map Reading.recordedAt).max? with
  | none => exact absurd (List.map_eq_nil_iff.mp (List.max?_eq_none_iff.mp hmax)) h
  | some t =>
    obtain ⟨hmem, hle⟩ := List.max?_eq_some_iff.mp hmax
    constructor
    · exact List.mem_map.mp hmem
    · rintro _ ⟨r, hr, rfl⟩
      exact hle _ (List.mem_map_of_mem hr)

theorem isPoint_pointOf (h : rows ≠ []) : IsPoint rows (pointOf rows) :=
  ⟨rfl, isGreatest_lastTime h⟩

theorem lastTime_mem (h : bucket b rows k ≠ []) :
    k * b ≤ lastTime (bucket b rows k) ∧ lastTime (bucket b rows k) < k * b + b := by
  obtain ⟨r, hr, htime⟩ := (isGreatest_lastTime h).1
  have hin := of_decide_eq_true (List.mem_filter.mp hr).2
  unfold InBucket at hin
  rwa [htime] at hin

/-- An average of numbers is a point. -/
theorem point_aggregate (h : Averaged rows) (hne : rows ≠ []) :
    (aggregate rows).point = .ok (pointOf rows) := by
  have hfinite : ∀ v ∈ rows.map Reading.value, v.isFinite = true := by
    intro v hv
    obtain ⟨r, hr, rfl⟩ := List.mem_map.mp hv
    exact (h r hr).1
  have hvalue : (aggregate rows).value = some (.finite (mean rows)) := by
    unfold aggregate sqlAvg
    rw [if_neg (by simpa using hne), foldl_add_finite hfinite, List.map_map, List.length_map,
      zero_add]
    rfl
  unfold Bucket.point
  rw [hvalue]
  rfl

theorem mem_keys_iff (hb : 1 ≤ b) (h : Averaged rows) :
    k ∈ Grouping.keys (bucketOf b) rows ↔ bucket b rows k ≠ [] := by
  rw [← group_eq_bucket hb h, Grouping.mem_keys]
  constructor
  · intro hk
    exact Grouping.group_ne_nil (Grouping.mem_keys.mpr hk)
  · intro hne
    obtain ⟨r, hr⟩ := List.exists_mem_of_ne_nil _ hne
    exact ⟨r, Grouping.mem_group.mp hr⟩

theorem lastTime_lt {k' : ℤ} (hb : 1 ≤ b) (hk : bucket b rows k ≠ [])
    (hk' : bucket b rows k' ≠ []) (hlt : k < k') :
    lastTime (bucket b rows k) < lastTime (bucket b rows k') := by
  have hend := (lastTime_mem hk).2
  have hstart := (lastTime_mem hk').1
  have hapart : k * b + b ≤ k' * b := by nlinarith
  exact hend.trans_le (hapart.trans hstart)

def bucketKeys (b : ℤ) (rows : List Reading) : List ℤ :=
  (Grouping.keys (bucketOf b) rows).insertionSort (· ≤ ·)

theorem mem_bucketKeys (hb : 1 ≤ b) (h : Averaged rows) :
    k ∈ bucketKeys b rows ↔ bucket b rows k ≠ [] := by
  rw [← mem_keys_iff hb h]
  exact (List.perm_insertionSort (· ≤ ·) _).mem_iff

theorem pairwise_bucketKeys : (bucketKeys b rows).Pairwise (· < ·) :=
  Grouping.pairwise_lt_insertionSort Grouping.nodup_keys

def pointsOf (b : ℤ) (rows : List Reading) : List (PyFloat × Timestamp) :=
  (bucketKeys b rows).map fun k => pointOf (bucket b rows k)

theorem exists_of_mem_pointsOf (hb : 1 ≤ b) (h : Averaged rows) {p : PyFloat × Timestamp}
    (hp : p ∈ pointsOf b rows) : ∃ r ∈ rows, r.recordedAt = p.2 := by
  obtain ⟨k, hk, rfl⟩ := List.mem_map.mp hp
  obtain ⟨r, hr, htime⟩ := (isGreatest_lastTime ((mem_bucketKeys hb h).mp hk)).1
  exact ⟨r, List.mem_of_mem_filter hr, htime⟩

theorem bucketing_pointsOf (hb : 1 ≤ b) (h : Averaged rows) :
    Bucketing rows b (bucketKeys b rows) (pointsOf b rows) where
  buckets k := mem_bucketKeys hb h
  distinct := pairwise_bucketKeys.imp fun hlt => hlt.ne
  each := by
    unfold pointsOf
    rw [List.forall₂_map_right_iff, List.forall₂_same]
    intro k hk
    exact isPoint_pointOf ((mem_bucketKeys hb h).mp hk)
  increasing := by
    unfold pointsOf
    rw [List.pairwise_map]
    apply pairwise_bucketKeys.imp_of_mem
    intro k k' hk hk' hlt
    exact lastTime_lt hb ((mem_bucketKeys hb h).mp hk) ((mem_bucketKeys hb h).mp hk') hlt
  total := by
    have hsum := Grouping.sum_groups (f := bucketOf b) Reading.number
      (pairwise_bucketKeys.imp fun hlt => hlt.ne : (bucketKeys b rows).Nodup)
      fun r hr => (List.perm_insertionSort (· ≤ ·) _).mem_iff.mpr
        (Grouping.mem_keys.mpr ⟨r, hr, rfl⟩)
    rw [← hsum]
    congr 1
    apply List.map_congr_left
    intro k hk
    have hlength : ((bucket b rows k).length : ℚ) ≠ 0 := by
      simpa using (mem_bucketKeys hb h).mp hk
    rw [group_eq_bucket hb h]
    exact mul_div_cancel₀ _ hlength

end Rows

section Downsample
variable {db : Database} {channelId : ℕ} {since : Timestamp} {b : ℤ}

theorem Averaged.filter {rows : List Reading} (h : Averaged rows) (p : Reading → Bool) :
    Averaged (rows.filter p) := fun r hr => h r (List.mem_of_mem_filter hr)

/-- The query sorted by the time of its groups is sorted by bucket. -/
theorem bucketsSince_eq (hb : 1 ≤ b) (h : Averaged (ofChannel db channelId)) :
    bucketsSince db channelId since b =
      (bucketKeys b (selected db channelId since)).map fun k =>
        aggregate (bucket b (selected db channelId since) k) := by
  have hrows : Averaged (selected db channelId since) := h.filter _
  have hgroups : ∀ k, Grouping.group (bucketOf b) (selected db channelId since) k =
      bucket b (selected db channelId since) k := group_eq_bucket hb hrows
  have hsorted := Grouping.insertionSort_map (t := Bucket.recordedAt)
    (g := fun k => aggregate (bucket b (selected db channelId since) k))
    fun k (hk : k ∈ Grouping.keys (bucketOf b) (selected db channelId since)) k' hk' =>
      lastTime_lt hb ((mem_keys_iff hb hrows).mp hk)
      ((mem_keys_iff hb hrows).mp hk')
  unfold bucketsSince bucketKeys
  rw [← hsorted]
  simp only [← hgroups]
  rfl

theorem downsampleSince_eq (hb : 1 ≤ b) (h : Averaged (ofChannel db channelId)) :
    downsampleSince db channelId since b = .ok (pointsOf b (selected db channelId since)) := by
  have hrows : Averaged (selected db channelId since) := h.filter _
  unfold downsampleSince pointsOf
  rw [bucketsSince_eq hb h, List.mapM_map, mapM_eq_ok_iff, List.forall₂_map_right_iff,
    List.forall₂_same]
  intro k hk
  exact point_aggregate (hrows.filter _) ((mem_bucketKeys hb hrows).mp hk)

/-- A bucket that starts at or after the later bound is selected the same by both. -/
theorem bucket_selected {s₁ s₂ k : ℤ} (hs : s₁ ≤ s₂) (hk : s₂ ≤ k * b) :
    bucket b (selected db channelId s₁) k = bucket b (selected db channelId s₂) k := by
  unfold bucket selected
  rw [List.filter_filter, List.filter_filter]
  apply List.filter_congr
  intro r _
  by_cases hin : InBucket b k r
  · have hstart := hin.1
    have h₁ : s₁ ≤ r.recordedAt := by omega
    have h₂ : s₂ ≤ r.recordedAt := by omega
    simp [h₁, h₂]
  · simp [hin]

theorem startsFrom_pointOf {rows : List Reading} {k : ℤ} (hb : 1 ≤ b)
    (hk : bucket b rows k ≠ []) (s : Timestamp) :
    startsFrom b s (pointOf (bucket b rows k)) = decide (s ≤ k * b) := by
  have hkey : lastTime (bucket b rows k) / b = k :=
    (Int.ediv_eq_iff_of_pos (by omega)).mpr (lastTime_mem hk)
  unfold startsFrom pointOf
  rw [hkey]

theorem filter_pointsOf {rows : List Reading} (hb : 1 ≤ b) (h : Averaged rows) (s : Timestamp) :
    (pointsOf b rows).filter (startsFrom b s) =
      ((bucketKeys b rows).filter fun k => s ≤ k * b).map fun k => pointOf (bucket b rows k) := by
  unfold pointsOf
  rw [List.filter_map]
  congr 1
  apply List.filter_congr
  intro k hk
  exact startsFrom_pointOf hb ((mem_bucketKeys hb h).mp hk) s

theorem filter_bucketKeys {s₁ s₂ : ℤ} (hb : 1 ≤ b) (h : Averaged (ofChannel db channelId))
    (hs : s₁ ≤ s₂) :
    ((bucketKeys b (selected db channelId s₁)).filter fun k => s₂ ≤ k * b) =
      (bucketKeys b (selected db channelId s₂)).filter fun k => s₂ ≤ k * b := by
  have hrows : ∀ s, Averaged (selected db channelId s) := fun s => h.filter _
  apply List.Pairwise.eq_of_mem_iff (pairwise_bucketKeys.filter _) (pairwise_bucketKeys.filter _)
  intro k
  rw [List.mem_filter, List.mem_filter, mem_bucketKeys hb (hrows s₁), mem_bucketKeys hb (hrows s₂)]
  apply and_congr_left
  intro hk
  rw [bucket_selected hs (of_decide_eq_true hk)]

theorem filter_pointsOf_selected {s₁ s₂ : ℤ} (hb : 1 ≤ b) (h : Averaged (ofChannel db channelId))
    (hs : s₁ ≤ s₂) :
    (pointsOf b (selected db channelId s₁)).filter (startsFrom b s₂) =
      (pointsOf b (selected db channelId s₂)).filter (startsFrom b s₂) := by
  have hrows : ∀ s, Averaged (selected db channelId s) := fun s => h.filter _
  rw [filter_pointsOf hb (hrows s₁), filter_pointsOf hb (hrows s₂), filter_bucketKeys hb h hs]
  apply List.map_congr_left
  intro k hk
  rw [bucket_selected hs (of_decide_eq_true (List.mem_filter.mp hk).2)]

end Downsample

def twoMinutes : Database where
  readings := [⟨1, 1, .finite 18, 70⟩, ⟨2, 1, .finite 21, 119⟩, ⟨3, 1, .finite 20, 65⟩,
    ⟨4, 1, .negZero, 120⟩]

example : downsampleSince twoMinutes 1 66 60 = .ok [(.finite (39 / 2), 119), (.finite 0, 120)] := by
  decide +kernel

end Readings
end HomeServer.Db
