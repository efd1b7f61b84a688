import HomeServer.Db.Buckets
import HomeServer.Db.Timestamps

/-! `downsample_since` of the stored texts, and what it computes of the readings of a channel. -/
namespace HomeServer.Db.ReadingTexts
open Lib

/-- A row of the grouped query: `AVG(value)` and `MAX(recorded_at)`. -/
structure Bucket where
  value : Option PyFloat
  recordedAt : String

def Bucket.point (b : Bucket) : Except Err (PyFloat × String) :=
  match b.value with
  | some v => .ok (v, b.recordedAt)
  | none => .error .typeError

def aggregate (rows : List StoredReading) : Bucket where
  value := sqlAvg (rows.map StoredReading.value)
  recordedAt := (rows.map StoredReading.recordedAt).max?.getD ""

variable (other : String → Option ℤ)

/-- What is NULL divided is NULL. -/
def bucketOf (bucketSeconds : ℤ) (r : StoredReading) : Option ℤ :=
  (unixSeconds other r.recordedAt).map fun t => t.tdiv bucketSeconds

def bucketsSince (t : Table) (channelId : ℕ) (since : String) (bucketSeconds : ℤ) :
    List Bucket :=
  let rows := (ofChannel t channelId).filter fun r => since ≤ r.recordedAt
  ((Grouping.keys (bucketOf other bucketSeconds) rows).map fun k =>
    aggregate (Grouping.group (bucketOf other bucketSeconds) rows k)).insertionSort
      fun b c => b.recordedAt ≤ c.recordedAt

def downsampleSince (t : Table) (channelId : ℕ) (since : DateTime) (bucketSeconds : ℤ) :
    Except Err (List (PyFloat × String)) := do
  let text ← since.formatTs
  (bucketsSince other t channelId text bucketSeconds).mapM Bucket.point

section Refinement
variable {t : Table} {db : Database} {i : ℕ} {b : ℤ} {rows : List StoredReading}
  {rows' : List Reading}

def SamePoint (p : PyFloat × String) (q : PyFloat × Timestamp) : Prop :=
  p.1 = q.1 ∧ Denotes p.2 q.2

def SameBucket (p : Bucket) (q : Readings.Bucket) : Prop :=
  p.value = q.value ∧ Denotes p.recordedAt q.recordedAt

/-- Both fail alike, or the results are related. -/
def Agree {α β : Type} (R : α → β → Prop) : Except Err α → Except Err β → Prop
  | .ok a, .ok b => R a b
  | .error e, .error e' => e = e'
  | _, _ => False

theorem agree_mapM {α β α' β' : Type} {R : α → β → Prop} {S : α' → β' → Prop}
    {f : α → Except Err α'} {g : β → Except Err β'} {xs : List α} {ys : List β}
    (h : List.Forall₂ R xs ys) (hfg : ∀ a b, R a b → Agree S (f a) (g b)) :
    Agree (List.Forall₂ S) (xs.mapM f) (ys.mapM g) := by
  induction h with
  | nil => exact .nil
  | @cons a b xs ys hab _ ih =>
    have hhead := hfg a b hab
    rw [List.mapM_cons, List.mapM_cons]
    cases hf : f a <;> cases hg : g b <;> rw [hf, hg] at hhead
    · exact hhead
    · exact hhead.elim
    · exact hhead.elim
    · cases hxs : xs.mapM f <;> cases hys : ys.mapM g <;> rw [hxs, hys] at ih
      · exact ih
      · exact ih.elim
      · exact ih.elim
      · exact .cons hhead ih

theorem bucketOf_stored {s : StoredReading} {r : Reading} (h : Stored s r) :
    bucketOf other b s = some (Readings.bucketOf b r) := by
  unfold bucketOf Readings.bucketOf
  rw [h.time.unixSeconds]
  rfl

theorem Denotes.max {text text' : String} {t t' : ℤ} (h : Denotes text t)
    (h' : Denotes text' t') : Denotes (max text text') (max t t') := by
  rcases le_total t t' with hle | hle
  · rwa [max_eq_right hle, max_eq_right ((h.le_iff h').mpr hle)]
  · rwa [max_eq_left hle, max_eq_left ((h'.le_iff h).mpr hle)]

/-- The greatest text stands for the greatest time. -/
theorem denotes_max (h : List.Forall₂ Stored rows rows') (hne : rows ≠ []) :
    Denotes ((rows.map StoredReading.recordedAt).max?.getD "")
      ((rows'.map Reading.recordedAt).max?.getD 0) := by
  cases h with
  | nil => exact absurd rfl hne
  | @cons s r rows rows' hsr h =>
    rw [List.map_cons, List.map_cons, List.max?_cons', List.max?_cons']
    have htimes : List.Forall₂ Denotes (rows.map StoredReading.recordedAt)
        (rows'.map Reading.recordedAt) := by
      rw [List.forall₂_map_left_iff, List.forall₂_map_right_iff]
      exact h.imp fun _ _ hab => hab.time
    exact List.rel_foldl (P := Denotes) (R := Denotes) (fun _ _ hab _ _ hcd => hab.max hcd)
      hsr.time htimes

theorem sameBucket_aggregate (h : List.Forall₂ Stored rows rows') (hne : rows ≠ []) :
    SameBucket (aggregate rows) (Readings.aggregate rows') := by
  have hvalues : rows.map StoredReading.value = rows'.map Reading.value :=
    Grouping.map_eq_map h fun _ _ hab => hab.value
  exact ⟨congrArg sqlAvg hvalues, denotes_max h hne⟩

theorem agree_point {p : Bucket} {q : Readings.Bucket} (h : SameBucket p q) :
    Agree SamePoint p.point q.point := by
  obtain ⟨hvalue, htime⟩ := h
  unfold Bucket.point Readings.Bucket.point
  rw [hvalue]
  cases q.value with
  | none => exact rfl
  | some v => exact ⟨rfl, htime⟩

/-- The groups of the query, each with the groups of its key. -/
theorem forall₂_buckets (h : List.Forall₂ Stored rows rows') :
    List.Forall₂ SameBucket
      ((Grouping.keys (bucketOf other b) rows).map fun k =>
        aggregate (Grouping.group (bucketOf other b) rows k))
      ((Grouping.keys (Readings.bucketOf b) rows').map fun k =>
        Readings.aggregate (Grouping.group (Readings.bucketOf b) rows' k)) := by
  have hkey : ∀ s r, Stored s r → bucketOf other b s = some (Readings.bucketOf b r) :=
    fun s r hsr => bucketOf_stored other hsr
  have hkeys : Grouping.keys (bucketOf other b) rows =
      (Grouping.keys (Readings.bucketOf b) rows').map some := by
    have hmap := List.dedup_map_of_injective (Option.some_injective ℤ)
      (rows'.map (Readings.bucketOf b))
    rw [List.map_map] at hmap
    exact (Grouping.keys_eq_keys h hkey).trans hmap
  rw [hkeys, List.map_map, List.forall₂_map_left_iff, List.forall₂_map_right_iff,
    List.forall₂_same]
  intro k hk
  have hgroup : List.Forall₂ Stored (Grouping.group (bucketOf other b) rows (some k))
      (Grouping.group (Readings.bucketOf b) rows' k) := by
    apply List.rel_filter _ h
    intro s r hsr
    simp [hkey s r hsr]
  apply sameBucket_aggregate hgroup
  intro hnil
  rw [hnil] at hgroup
  exact Grouping.group_ne_nil hk (List.forall₂_nil_left_iff.mp hgroup)

/-- `downsample_since` of the texts is the one of the seconds. -/
theorem downsampleSince_refines
    (h : List.Forall₂ Stored (ofChannel t i) (Readings.ofChannel db i)) {since : DateTime}
    (hsince : since.FourDigitYear) (b : ℤ) :
    Agree (List.Forall₂ SamePoint) (downsampleSince other t i since b)
      (Readings.downsampleSince db i (secondOf since) b) := by
  obtain ⟨text, htext, htime⟩ := denotes_formatTs hsince
  have hrows : List.Forall₂ Stored ((ofChannel t i).filter fun r => text ≤ r.recordedAt)
      (Readings.selected db i (secondOf since)) := by
    apply List.rel_filter _ h
    intro s r hsr
    dsimp only
    rw [decide_eq_true_eq, decide_eq_true_eq]
    exact htime.le_iff hsr.time
  have hsorted : List.Forall₂ SameBucket (bucketsSince other t i text b)
      (Readings.bucketsSince db i (secondOf since) b) :=
    Grouping.forall₂_insertionSort (fun _ _ hp _ _ hq => hp.2.le_iff hq.2)
      (forall₂_buckets other hrows)
  unfold downsampleSince Readings.downsampleSince
  rw [htext]
  exact agree_mapM hsorted fun _ _ hpq => agree_point hpq

end Refinement

section Readings
variable (t : Table) (i : ℕ)

def StoredReading.timed (r : StoredReading) : Reading where
  id := r.id
  channelId := r.channelId
  value := r.value
  recordedAt := (unixSeconds other r.recordedAt).getD 0

def timed (p : PyFloat × String) : PyFloat × Timestamp :=
  (p.1, (unixSeconds other p.2).getD 0)

def readingsSince (since : ℤ) : List Reading :=
  ((ofChannel t i).map (StoredReading.timed other)).filter fun r => since ≤ r.recordedAt

def Averaged : Prop :=
  ∀ r ∈ ofChannel t i, r.value.isFinite = true ∧
    ∃ c : WallClock, 1970 ≤ c.date.year ∧ r.recordedAt = c.strftime

variable {t : Table} {i : ℕ} {b : ℤ}

theorem timestamp_nonneg {c : WallClock} (hc : 1970 ≤ c.date.year) : 0 ≤ timestamp c := by
  have hyears : Lib.Calendar.daysBeforeYear 1970 ≤ Lib.Calendar.daysBeforeYear c.date.year := by
    rcases hc.lt_or_eq with hlt | heq
    · exact le_trans (Nat.le_add_right _ _) (Lib.Calendar.daysBeforeYear_le (by decide) hlt)
    · rw [heq]
  have hfirst : Lib.Calendar.daysBeforeYear 1970 = 719162 := by decide
  have hday := c.date_valid.day
  unfold timestamp epoch WallClock.seconds Lib.Calendar.Date.toOrdinal
  omega

theorem Averaged.stored (h : Averaged t i) {r : StoredReading} (hr : r ∈ ofChannel t i) :
    Stored r (r.timed other) := by
  obtain ⟨c, hc, htext⟩ := (h r hr).2
  have htime : Denotes r.recordedAt (timestamp c) := ⟨c, by omega, htext, rfl⟩
  refine ⟨rfl, rfl, rfl, ?_⟩
  unfold StoredReading.timed
  rw [htime.unixSeconds]
  exact htime

def timedTable (t : Table) (i : ℕ) : Database where
  readings := (ofChannel t i).map (StoredReading.timed other)

theorem ofChannel_timedTable :
    Readings.ofChannel (timedTable other t i) i =
      (ofChannel t i).map (StoredReading.timed other) := by
  apply List.filter_eq_self.mpr
  intro r hr
  obtain ⟨s, hs, rfl⟩ := List.mem_map.mp hr
  exact (List.mem_filter.mp hs).2

theorem Averaged.forall₂ (h : Averaged t i) :
    List.Forall₂ Stored (ofChannel t i) (Readings.ofChannel (timedTable other t i) i) := by
  rw [ofChannel_timedTable, List.forall₂_map_right_iff, List.forall₂_same]
  exact fun r hr => h.stored other hr

theorem Averaged.timed (h : Averaged t i) :
    Readings.Averaged (Readings.ofChannel (timedTable other t i) i) := by
  rw [ofChannel_timedTable]
  intro r hr
  obtain ⟨s, hs, rfl⟩ := List.mem_map.mp hr
  obtain ⟨hfinite, c, hc, htext⟩ := h s hs
  refine ⟨hfinite, ?_⟩
  have htime : Denotes s.recordedAt (timestamp c) := ⟨c, by omega, htext, rfl⟩
  unfold StoredReading.timed
  rw [htime.unixSeconds]
  exact timestamp_nonneg hc

theorem samePoint_timed {p : PyFloat × String} {q : PyFloat × Timestamp} (h : SamePoint p q) :
    timed other p = q := by
  unfold timed
  rw [h.1, h.2.unixSeconds]
  rfl

theorem leftUnique_samePoint : Relator.LeftUnique SamePoint := by
  intro p q r hp hq
  exact Prod.ext (hp.1.trans hq.1.symm) ((hp.2.eq_iff hq.2).mpr rfl)

theorem forall₂_startsFrom {points : List (PyFloat × String)} {qs : List (PyFloat × Timestamp)}
    (h : List.Forall₂ SamePoint points qs) (s : ℤ) :
    List.Forall₂ SamePoint (points.filter fun p => Readings.startsFrom b s (timed other p))
      (qs.filter (Readings.startsFrom b s)) := by
  apply List.rel_filter _ h
  intro p q hpq
  dsimp only
  rw [samePoint_timed other hpq]

/-- Of readings with an average there are points, those of their seconds. -/
theorem downsampleSince_ok (hb : 1 ≤ b) (h : Averaged t i) {since : DateTime}
    (hsince : since.FourDigitYear) :
    ∃ points, downsampleSince other t i since b = .ok points ∧
      List.Forall₂ SamePoint points (Readings.pointsOf b (readingsSince other t i
        (secondOf since))) := by
  have hagree := downsampleSince_refines other (h.forall₂ other) hsince b
  rw [Readings.downsampleSince_eq hb (h.timed other), Readings.selected,
    ofChannel_timedTable] at hagree
  cases hpoints : downsampleSince other t i since b with
  | error e =>
    rw [hpoints] at hagree
    exact hagree.elim
  | ok points =>
    rw [hpoints] at hagree
    exact ⟨points, rfl, hagree⟩

/-- Downsampling is bucketing, and a later bound changes no bucket that starts after it. -/
theorem downsample_faithful (hb : 1 ≤ b) (h : Averaged t i) :
    (∀ since : DateTime, since.FourDigitYear → ∃ ks points,
      downsampleSince other t i since b = .ok points ∧
        Readings.Bucketing (readingsSince other t i (secondOf since)) b ks
          (points.map (timed other)) ∧
        ∀ p ∈ points, ∃ r ∈ ofChannel t i, r.recordedAt = p.2) ∧
    ∀ since₁ since₂ : DateTime, since₁.FourDigitYear → since₂.FourDigitYear →
      since₁.instant ≤ since₂.instant → ∃ points₁ points₂,
        downsampleSince other t i since₁ b = .ok points₁ ∧
        downsampleSince other t i since₂ b = .ok points₂ ∧
        points₁.filter (fun p => Readings.startsFrom b (secondOf since₂) (timed other p)) =
          points₂.filter fun p => Readings.startsFrom b (secondOf since₂) (timed other p) := by
  have htimed := h.timed other
  have hselected : ∀ s, Readings.selected (timedTable other t i) i s = readingsSince other t i s :=
    fun s => congrArg (List.filter _) (ofChannel_timedTable other)
  have hrows : ∀ s, Readings.Averaged (readingsSince other t i s) :=
    fun s => hselected s ▸ htimed.filter _
  constructor
  · intro since hsince
    obtain ⟨points, hpoints, hsame⟩ := downsampleSince_ok other hb h hsince
    have hmap : points.map (timed other) =
        Readings.pointsOf b (readingsSince other t i (secondOf since)) :=
      (Grouping.map_eq_map hsame fun _ _ => samePoint_timed other).trans (List.map_id _)
    refine ⟨Readings.bucketKeys b (readingsSince other t i (secondOf since)), points, hpoints,
      ?_, ?_⟩
    · rw [hmap]
      exact Readings.bucketing_pointsOf hb (hrows _)
    · intro p hp
      obtain ⟨q, hq, hpq⟩ := Grouping.exists_of_forall₂ hsame hp
      obtain ⟨r, hr, htime⟩ := Readings.exists_of_mem_pointsOf hb (hrows _) hq
      obtain ⟨s, hs, rfl⟩ := List.mem_map.mp (List.mem_of_mem_filter hr)
      exact ⟨s, hs, ((h.stored other hs).time.eq_iff hpq.2).mpr htime⟩
  · intro since₁ since₂ hyear₁ hyear₂ hle
    obtain ⟨points₁, hpoints₁, hsame₁⟩ := downsampleSince_ok other hb h hyear₁
    obtain ⟨points₂, hpoints₂, hsame₂⟩ := downsampleSince_ok other hb h hyear₂
    refine ⟨points₁, points₂, hpoints₁, hpoints₂, ?_⟩
    have hseconds : secondOf since₁ ≤ secondOf since₂ := by
      unfold secondOf
      omega
    have hnumbers := Readings.filter_pointsOf_selected hb htimed hseconds
    rw [hselected, hselected] at hnumbers
    have hleft := forall₂_startsFrom (b := b) other hsame₁ (secondOf since₂)
    have hright := forall₂_startsFrom (b := b) other hsame₂ (secondOf since₂)
    rw [hnumbers] at hleft
    exact leftUnique_samePoint.forall₂ hleft hright

end Readings

/-- Three readings of that noon, out of order. -/
def noonReadings : Table where
  channels := [1]
  rows := [⟨1, 1, .finite 22, "2026-05-27 12:00:31"⟩, ⟨2, 1, .finite 21, "2026-05-27 12:00:29"⟩,
    ⟨3, 1, .finite 20, "2026-05-27 12:00:01"⟩]
  nextId := 4

theorem averaged_noonReadings : Averaged noonReadings 1 := by
  have hyear : ∀ second hs, 1970 ≤ (noon second 0 hs (by decide)).date.year := by
    intro second hs
    change 1970 ≤ 2026
    omega
  intro r hr
  have hr : r ∈ noonReadings.rows := List.mem_of_mem_filter hr
  simp only [noonReadings, List.mem_cons, List.not_mem_nil, or_false] at hr
  rcases hr with rfl | rfl | rfl
  · exact ⟨rfl, _, hyear 31 (by omega), by decide⟩
  · exact ⟨rfl, _, hyear 29 (by omega), by decide⟩
  · exact ⟨rfl, _, hyear 1 (by omega), by decide⟩

/-- The two half minutes after noon. -/
theorem downsample_faithful_noon : ∃ ks,
    Readings.Bucketing (readingsSince (fun _ => none) noonReadings 1
        (secondOf (noon 0 7 (by decide) (by decide)).naive)) 30 ks
      [(.finite (41 / 2), timestamp (noon 29 0 (by decide) (by decide))),
        (.finite 22, timestamp (noon 31 0 (by decide) (by decide)))] := by
  obtain ⟨ks, points, hpoints, hbucketing, -⟩ :=
    (downsample_faithful (fun _ => none) (b := 30) (by decide) averaged_noonReadings).1
      (noon 0 7 (by decide) (by decide)).naive (noon_fourDigitYear 0 7 (by decide) (by decide))
  have hresult : downsampleSince (fun _ => none) noonReadings 1
      (noon 0 7 (by decide) (by decide)).naive 30 =
        .ok [(.finite (41 / 2), "2026-05-27 12:00:29"), (.finite 22, "2026-05-27 12:00:31")] := by
    decide +kernel
  rw [hresult] at hpoints
  obtain rfl := Except.ok.inj hpoints
  have htimes : [(.finite (41 / 2), "2026-05-27 12:00:29"),
      (.finite 22, "2026-05-27 12:00:31")].map (timed fun _ => none) =
        [(.finite (41 / 2), timestamp (noon 29 0 (by decide) (by decide))),
          (.finite 22, timestamp (noon 31 0 (by decide) (by decide)))] := by
    decide +kernel
  rw [htimes] at hbucketing
  exact ⟨ks, hbucketing⟩

/-- A noon of the year 999. -/
def longAgo (second microsecond : ℕ) (hs : second < 60) (hm : microsecond < 1000000) : WallClock :=
  { noon second microsecond hs hm with
    date := ⟨999, 1, 1⟩
    date_valid := ⟨by decide, by decide, by decide⟩
    year_le := by decide }

/-- The text of a year without its zero is behind those of the readings: none is selected. -/
theorem nothing_since_longAgo :
    Averaged noonReadings 1 ∧
      downsampleSince (fun _ => none) noonReadings 1
        (longAgo 0 0 (by decide) (by decide)).naive 60 = .ok [] ∧
      ∀ ks, ¬Readings.Bucketing (readingsSince (fun _ => none) noonReadings 1
        (secondOf (longAgo 0 0 (by decide) (by decide)).naive)) 60 ks [] := by
  refine ⟨averaged_noonReadings, ?_, ?_⟩
  · decide +kernel
  · intro ks hbucketing
    have hnone : ks = [] := List.forall₂_nil_right_iff.mp hbucketing.each
    have hsome : Readings.bucket 60 (readingsSince (fun _ => none) noonReadings 1
        (secondOf (longAgo 0 0 (by decide) (by decide)).naive))
        (timestamp (noon 1 0 (by decide) (by decide)) / 60) ≠ [] := by
      decide +kernel
    rw [← hbucketing.buckets, hnone] at hsome
    cases hsome

end HomeServer.Db.ReadingTexts
