import HomeServer.Db.Latest
import HomeServer.Services.Endpoints
import HomeServer.Services.Throttle

/-! From the values that come in to the values that are served: every call can be answered
exactly as long as no infinity is stored. -/
namespace HomeServer.Services
open HomeServer.Db HomeServer.Ble HomeServer.Lib

section Buckets
open Readings

theorem exists_error_of_mapM {α β : Type} {f : α → Except Err β} {xs : List α} {e : Err}
    (h : xs.mapM f = .error e) : ∃ x ∈ xs, f x = .error e := by
  induction xs with
  | nil => cases h
  | cons a xs ih =>
    rw [List.mapM_cons] at h
    cases ha : f a with
    | error e' =>
      rw [ha] at h
      cases h
      exact ⟨a, .head _, ha⟩
    | ok b =>
      cases hr : xs.mapM f with
      | error e' =>
        rw [ha, hr] at h
        cases h
        obtain ⟨x, hx, hf⟩ := ih hr
        exact ⟨x, .tail _ hx, hf⟩
      | ok bs =>
        rw [ha, hr] at h
        cases h

theorem downsampleSince_error {db : Database} {i : ℕ} {since : Timestamp} {bucketSeconds : ℤ}
    {e : Err} (h : downsampleSince db i since bucketSeconds = .error e) : e = .typeError := by
  obtain ⟨b, -, hb⟩ := exists_error_of_mapM h
  unfold Bucket.point at hb
  split at hb <;> cases hb
  rfl

theorem downsampleSince_finite {db : Database} {i : ℕ}
    (h : ∀ r ∈ ofChannel db i, r.value.isFinite = true) (since : Timestamp) (bucketSeconds : ℤ) :
    ∃ points, downsampleSince db i since bucketSeconds = .ok points ∧
      ∀ p ∈ points, p.1.isFinite = true := by
  have hpoint : ∀ b ∈ bucketsSince db i since bucketSeconds,
      ∃ p, b.point = .ok p ∧ p.1.isFinite = true := by
    intro b hb
    obtain ⟨r, hr, rfl⟩ := mem_bucketsSince.mp hb
    obtain ⟨v, hv, hfin⟩ := (sqlAvg_finite (bucketRows_ne_nil hr)).mpr
      (List.forall_mem_map.mpr fun s hs =>
        h s (List.mem_of_mem_filter (List.mem_of_mem_filter hs)))
    exact ⟨_, Bucket.point_of_value hv, hfin⟩
  obtain ⟨points, hpoints⟩ := exists_mapM fun b hb =>
    (hpoint b hb).imp fun _ hp => hp.1
  refine ⟨points, hpoints, ?_⟩
  intro p hp
  obtain ⟨b, hb, hbp⟩ := exists_of_mem_mapM hpoints hp
  obtain ⟨p', hp', hfin⟩ := hpoint b hb
  rw [hbp] at hp'
  rwa [Except.ok.inj hp']

/-- A window that starts at a reading that is not a number shows it. -/
theorem finite_of_downsampleSince {db : Database} {i : ℕ} {r : Reading}
    (hr : r ∈ ofChannel db i) {bucketSeconds : ℤ} {points : List (PyFloat × Timestamp)}
    (h : downsampleSince db i r.recordedAt bucketSeconds = .ok points)
    (hfin : ∀ p ∈ points, p.1.isFinite = true) : r.value.isFinite = true := by
  have hselected : r ∈ selected db i r.recordedAt := List.mem_filter.mpr ⟨hr, by simp⟩
  obtain ⟨p, hp, hpoint⟩ := exists_of_mapM h (mem_bucketsSince.mpr ⟨r, hselected, rfl⟩)
  unfold Bucket.point at hpoint
  split at hpoint
  · rename_i v hv
    cases hpoint
    exact (sqlAvg_finite (bucketRows_ne_nil hselected)).mp ⟨v, hv, hfin _ hp⟩ _
      (List.mem_map_of_mem (mem_bucketRows_self hselected))
  · cases hpoint

end Buckets

theorem served_of_finite {db : Database} (h : ∀ r ∈ db.readings, r.value.isFinite = true)
    (now : Timestamp) (request : ReadRequest) : Served db now request := by
  have hof : ∀ i, ∀ r ∈ Readings.ofChannel db i, r.value.isFinite = true := fun i r hr =>
    h r (List.mem_of_mem_filter hr)
  have hlatest : ∀ i, ∀ v ∈ ((Readings.latestByChannel db i).map Reading.value).toList,
      v.isFinite = true := by
    intro i v hv
    obtain ⟨r, hr, rfl⟩ := Option.map_eq_some_iff.mp (Option.mem_toList.mp hv)
    exact hof i r (Readings.mem_orderBy.mp (List.mem_of_getLast? hr))
  cases request with
  | history i window limit =>
    unfold Served Web.serve Web.channelHistory
    dsimp only
    cases Channels.getById db i with
    | none => exact ⟨_, rfl, by simp [Reply.values]⟩
    | some c =>
      cases window with
      | none =>
        refine ⟨_, rfl, ?_⟩
        intro v hv
        simp only [Reply.values, List.map_map, List.mem_map] at hv
        obtain ⟨r, hr, rfl⟩ := hv
        have hr' := Readings.mem_orderBy.mp (List.mem_of_mem_take hr)
        exact hof i r (List.mem_of_mem_filter hr')
      | some window =>
        dsimp only
        unfold ChannelService.getHistoryWindowed
        cases ChannelService.observationWindows.lookup window with
        | none => exact ⟨.badRequest, rfl, by simp [Reply.values]⟩
        | some spec =>
          obtain ⟨points, hpoints, hfin⟩ :=
            downsampleSince_finite (hof i) (now - spec.1) spec.2
          dsimp only
          rw [hpoints]
          exact ⟨.history i points, rfl, List.forall_mem_map.mpr hfin⟩
  | latest i =>
    unfold Served Web.serve Web.channelLatest
    dsimp only
    cases Channels.getById db i with
    | none => exact ⟨_, rfl, by simp [Reply.values]⟩
    | some c => exact ⟨_, rfl, hlatest i⟩
  | flag i =>
    unfold Served Web.serve Web.channelFlag
    dsimp only
    cases Channels.getById db i with
    | none => exact ⟨_, rfl, by simp [Reply.values]⟩
    | some c => exact ⟨_, rfl, hlatest i⟩

/-- Whatever is not a number among the stored readings is shown by some call. -/
theorem finite_of_served {db : Database} (hv : db.Valid)
    (h : ∀ now request, Served db now request) {r : Reading} (hr : r ∈ db.readings) :
    r.value.isFinite = true := by
  obtain ⟨c, hc, hid⟩ := hv.readingChannel r hr
  obtain ⟨c', hget⟩ := Channels.exists_getById hc
  obtain ⟨reply, hreply, hfin⟩ := h (r.recordedAt + 60) (.history c.id (some "1m") none)
  have hmem : r ∈ Readings.ofChannel db c.id := List.mem_filter.mpr ⟨hr, by simp [hid]⟩
  have hwindow : ChannelService.getHistoryWindowed db c.id "1m" (r.recordedAt + 60) =
      Readings.downsampleSince db c.id r.recordedAt 1 := by
    unfold ChannelService.getHistoryWindowed
    rw [show ChannelService.observationWindows.lookup "1m" = some (60, 1) from rfl]
    dsimp only
    rw [add_sub_cancel_right]
  unfold Web.serve Web.channelHistory at hreply
  dsimp only at hreply
  rw [hget, hwindow] at hreply
  dsimp only at hreply
  cases hd : Readings.downsampleSince db c.id r.recordedAt 1 with
  | ok points =>
    rw [hd] at hreply
    cases hreply
    exact finite_of_downsampleSince hmem hd (List.forall_mem_map.mp hfin)
  | error e =>
    rw [hd, downsampleSince_error hd] at hreply
    cases hreply

end HomeServer.Services
