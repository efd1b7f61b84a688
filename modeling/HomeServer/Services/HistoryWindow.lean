import HomeServer.Db.Buckets
import HomeServer.Services.ChannelService
import Mathlib.Data.Int.Interval

/-! A windowed history against the window it was asked for. The query bounds the readings from
below only, so the window holds as long as no reading is stamped after the present. -/
namespace HomeServer.Services.ChannelService
open HomeServer.Db Readings

def within (db : Database) (since til : Timestamp) : Database :=
  { db with readings := db.readings.filter fun r => since ≤ r.recordedAt ∧ r.recordedAt ≤ til }

/-- What is returned lies in the window, comes from the readings in it, and is not too much. -/
def InsideWindow (db : Database) (channelId : ℕ) (window : String) (now : Timestamp)
    (windowSeconds bucketSeconds : ℤ) : Prop :=
  ∀ points, getHistoryWindowed db channelId window now = .ok points →
    (∀ p ∈ points, now - windowSeconds ≤ p.2 ∧ p.2 ≤ now) ∧
    getHistoryWindowed (within db (now - windowSeconds) now) channelId window now = .ok points ∧
    (points.length : ℤ) ≤ windowSeconds / bucketSeconds + 1

section Count
variable {w b now : ℤ}

theorem length_le_of_nodup {ks : List ℤ} (hks : ks.Nodup) {lo hi : ℤ} (hle : lo ≤ hi + 1)
    (h : ∀ k ∈ ks, lo ≤ k ∧ k ≤ hi) : (ks.length : ℤ) ≤ hi + 1 - lo := by
  have hsub : ks.toFinset ⊆ Finset.Icc lo hi := by
    intro k hk
    exact Finset.mem_Icc.mpr (h k (List.mem_toFinset.mp hk))
  have hcard := Finset.card_le_card hsub
  rw [List.toFinset_card_of_nodup hks, Int.card_Icc] at hcard
  omega

/-- A window of whole buckets reaches into one more bucket than it holds. Toward zero, where
SQLite rounds, two buckets are one. -/
theorem tdiv_sub_le (hb : 1 ≤ b) (hw : b ∣ w) (hw₀ : 0 ≤ w) :
    now.tdiv b - (now - w).tdiv b ≤ w / b := by
  obtain ⟨c, rfl⟩ := hw
  have hback : (now - b * c) / b = now / b - c := Int.sub_mul_ediv_left now c (by omega)
  have hsame : b ∣ now - b * c ↔ b ∣ now := dvd_sub_left (Dvd.intro c rfl)
  rw [Int.mul_ediv_cancel_left c (by omega), Int.tdiv_eq_ediv, Int.tdiv_eq_ediv, hback,
    Int.sign_eq_one_of_pos (by omega)]
  split_ifs with hnow hstart hstart
  · omega
  · omega
  · exfalso
    rcases hstart with hstart | hstart
    · exact hnow (Or.inl (by omega))
    · exact hnow (Or.inr (hsame.mp hstart))
  · omega

theorem window_sizes {window : String} (h : observationWindows.lookup window = some (w, b)) :
    1 ≤ b ∧ b ∣ w ∧ 0 ≤ w := by
  have hall : ∀ p ∈ observationWindows, 1 ≤ p.2.2 ∧ p.2.2 ∣ p.2.1 ∧ 0 ≤ p.2.1 := by decide
  obtain ⟨_, _, hsplit, -⟩ := List.lookup_eq_some_iff.mp h
  exact hall (window, w, b) (by rw [hsplit]; simp)

end Count

section Selected
variable {db : Database} {i : ℕ} {w b now : ℤ} {window : String}

theorem getHistoryWindowed_eq (h : observationWindows.lookup window = some (w, b)) :
    getHistoryWindowed db i window now = downsampleSince db i (now - w) b := by
  unfold getHistoryWindowed
  rw [h]

theorem selected_within (hlate : ∀ r ∈ ofChannel db i, r.recordedAt ≤ now) (since : Timestamp) :
    selected (within db since now) i since = selected db i since := by
  unfold selected within ofChannel
  rw [List.filter_filter, List.filter_filter, List.filter_filter]
  apply List.filter_congr
  intro r hr
  by_cases hi : r.channelId = i
  · have hbefore := hlate r (List.mem_filter.mpr ⟨hr, decide_eq_true hi⟩)
    simp +contextual [hbefore]
  · simp [hi]

theorem downsampleSince_congr {db' : Database} {since : Timestamp}
    (h : selected db' i since = selected db i since) :
    downsampleSince db' i since b = downsampleSince db i since b := by
  unfold selected at h
  unfold downsampleSince bucketsSince
  rw [h]

theorem lastTime_mem_window {r : Reading} (hlate : ∀ r ∈ ofChannel db i, r.recordedAt ≤ now)
    {since : Timestamp} (hr : r ∈ selected db i since) :
    since ≤ (aggregate (bucketRows db i since b r)).recordedAt ∧
      (aggregate (bucketRows db i since b r)).recordedAt ≤ now := by
  have hne : bucketRows db i since b r ≠ [] := List.ne_nil_of_mem (mem_bucketRows_self hr)
  obtain ⟨s, hs, htime⟩ := (isGreatest_lastTime hne).1
  obtain ⟨hmem, hsince⟩ := List.mem_filter.mp (List.mem_of_mem_filter hs)
  have hafter := of_decide_eq_true hsince
  have hbefore := hlate s hmem
  rw [htime] at hafter hbefore
  exact ⟨hafter, hbefore⟩

theorem length_downsampleSince {since : Timestamp} {points : List (PyFloat × Timestamp)}
    (h : downsampleSince db i since b = .ok points) :
    points.length = ((selected db i since).map (bucketOf b)).dedup.length := by
  rw [← (mapM_eq_ok_iff.mp h).length_eq]
  unfold bucketsSince
  rw [List.length_insertionSort, List.length_map]
  rfl

theorem length_le (hsizes : 1 ≤ b ∧ b ∣ w ∧ 0 ≤ w)
    (hlate : ∀ r ∈ ofChannel db i, r.recordedAt ≤ now) {points : List (PyFloat × Timestamp)}
    (h : downsampleSince db i (now - w) b = .ok points) : (points.length : ℤ) ≤ w / b + 1 := by
  obtain ⟨hb, hw, hw₀⟩ := hsizes
  have hspan : now.tdiv b - (now - w).tdiv b ≤ w / b := tdiv_sub_le hb hw hw₀
  have hmono : (now - w).tdiv b ≤ now.tdiv b := Int.tdiv_le_tdiv (by omega) (by omega)
  have hkeys : ∀ k ∈ ((selected db i (now - w)).map (bucketOf b)).dedup,
      (now - w).tdiv b ≤ k ∧ k ≤ now.tdiv b := by
    intro k hk
    obtain ⟨r, hr, rfl⟩ := List.mem_map.mp (List.mem_dedup.mp hk)
    obtain ⟨hmem, hsince⟩ := List.mem_filter.mp hr
    exact ⟨Int.tdiv_le_tdiv (by omega) (of_decide_eq_true hsince),
      Int.tdiv_le_tdiv (by omega) (hlate r hmem)⟩
  have hcount := length_le_of_nodup (List.nodup_dedup _) (by omega) hkeys
  rw [length_downsampleSince h]
  omega

/-- A reading after the present is shown with its own time, unless nothing is. -/
theorem exists_late_point {points : List (PyFloat × Timestamp)} (hw : 0 ≤ w) {r : Reading}
    (hr : r ∈ ofChannel db i) (hlate : now < r.recordedAt)
    (h : downsampleSince db i (now - w) b = .ok points) : ∃ p ∈ points, now < p.2 := by
  have hsince : now - w ≤ r.recordedAt := (sub_le_self now hw).trans hlate.le
  have hselected : r ∈ selected db i (now - w) := List.mem_filter.mpr ⟨hr, decide_eq_true hsince⟩
  obtain ⟨p, hp, hpoint⟩ := exists_of_mapM h (mem_bucketsSince.mpr ⟨r, hselected, rfl⟩)
  have hmem := mem_bucketRows_self (b := b) hselected
  have hlast := (isGreatest_lastTime (List.ne_nil_of_mem hmem)).2 ⟨r, hmem, rfl⟩
  refine ⟨p, hp, ?_⟩
  rw [Bucket.recordedAt_of_point hpoint]
  exact hlate.trans_le hlast

/-- A windowed history stays inside its window exactly when no reading of the channel is stamped
after the present, or no history is returned because a bucket has no average. -/
theorem window_holds_iff (db : Database) (i : ℕ) (now : Timestamp)
    (h : observationWindows.lookup window = some (w, b)) :
    InsideWindow db i window now w b ↔
      (∀ r ∈ ofChannel db i, r.recordedAt ≤ now) ∨ NoAverage db i (now - w) b := by
  have hsizes := window_sizes h
  unfold InsideWindow
  rw [getHistoryWindowed_eq h, getHistoryWindowed_eq h]
  constructor
  · intro hinside
    by_cases havg : NoAverage db i (now - w) b
    · exact Or.inr havg
    · left
      intro r hr
      by_contra hlate
      obtain ⟨points, hpoints⟩ := exists_downsampleSince_iff.mpr havg
      obtain ⟨p, hp, hafter⟩ := exists_late_point hsizes.2.2 hr (not_le.mp hlate) hpoints
      exact absurd ((hinside points hpoints).1 p hp).2 (not_le.mpr hafter)
  · rintro (hlate | havg) points hpoints
    · refine ⟨?_, ?_, length_le hsizes hlate hpoints⟩
      · intro p hp
        obtain ⟨q, hq, hpoint⟩ := exists_of_mem_mapM hpoints hp
        obtain ⟨r, hr, rfl⟩ := mem_bucketsSince.mp hq
        rw [Bucket.recordedAt_of_point hpoint]
        exact lastTime_mem_window hlate hr
      · rw [← hpoints]
        exact downsampleSince_congr (selected_within hlate _)
    · exact absurd havg (exists_downsampleSince_iff.mp ⟨points, hpoints⟩)

end Selected
def clockSetBack : Database where
  readings := [⟨1, 1, .finite 20, 10800⟩, ⟨2, 1, .finite 21, 3590⟩]

/-- Before it was set back the last hour is right. -/
theorem window_holds_iff_earlier : InsideWindow clockSetBack 1 "1h" 10800 3600 12 := by
  have hearlier : ∀ r ∈ ofChannel clockSetBack 1, r.recordedAt ≤ 10800 := by decide
  exact (window_holds_iff clockSetBack 1 10800 (by decide)).mpr (Or.inl hearlier)

/-- At `3600` the last hour shows a point that is two hours ahead of it. -/
theorem window_shows_future : ¬∀ (db : Database) (i : ℕ) (window : String) (now w b : ℤ),
    observationWindows.lookup window = some (w, b) → InsideWindow db i window now w b := by
  intro hall
  have hpoints : getHistoryWindowed clockSetBack 1 "1h" 3600 =
      .ok [(.finite 21, 3590), (.finite 20, 10800)] := by decide +kernel
  have hinside := (hall clockSetBack 1 "1h" 3600 3600 12 (by decide) _ hpoints).1
  have hlate := (hinside (.finite 20, 10800) (by simp)).2
  revert hlate
  decide

end HomeServer.Services.ChannelService
