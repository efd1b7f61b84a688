import HomeServer.Db.Tables

/-! The latest reading of a channel, and what an insert makes of it. -/
namespace HomeServer.Db.Readings

instance : Std.Total Before where
  total r s := by
    unfold Before
    grind

instance : IsTrans Reading Before where
  trans r s t h h' := by
    unfold Before at h h' ⊢
    grind

theorem Before.id_eq {r s : Reading} (h : Before r s) (h' : Before s r) : r.id = s.id := by
  unfold Before at h h'
  grind

theorem Before.of_le {r s : Reading} (ht : r.recordedAt ≤ s.recordedAt) (hid : r.id ≤ s.id) :
    Before r s := (lt_or_eq_of_le ht).imp id fun heq => ⟨heq, hid⟩

theorem pairwise_orderBy (rs : List Reading) : (orderBy rs).Pairwise Before :=
  List.pairwise_insertionSort Before rs

@[simp] theorem mem_orderBy {rs : List Reading} {r : Reading} : r ∈ orderBy rs ↔ r ∈ rs :=
  List.mem_insertionSort Before

theorem nodup_orderBy {db : Database} (h : db.Valid) (channelId : ℕ) :
    (orderBy (ofChannel db channelId)).Nodup := by
  have hall : db.readings.Nodup := h.readingIds.of_map
  have hrows : (ofChannel db channelId).Nodup := hall.filter _
  exact (List.perm_insertionSort Before _).nodup_iff.mpr hrows

/-- The last row of the order is the one that all others come before. -/
theorem getLast?_orderBy {rs : List Reading} {r : Reading} (hr : r ∈ rs)
    (hids : ∀ s ∈ rs, s.id = r.id → s = r) (hmax : ∀ s ∈ rs, Before s r) :
    (orderBy rs).getLast? = some r := by
  have hsorted := pairwise_orderBy rs
  have hne : orderBy rs ≠ [] := List.ne_nil_of_mem (mem_orderBy.mpr hr)
  have hsplit := List.dropLast_append_getLast hne
  rw [List.getLast?_eq_some_getLast hne]
  have hlast : (orderBy rs).getLast hne ∈ rs := mem_orderBy.mp (List.getLast_mem hne)
  have hmem : r ∈ (orderBy rs).dropLast ++ [(orderBy rs).getLast hne] := by
    rw [hsplit]
    exact mem_orderBy.mpr hr
  rcases List.mem_append.mp hmem with hinit | heq
  · rw [← hsplit, List.pairwise_append] at hsorted
    have hle := hsorted.2.2 r hinit _ (.head _)
    rw [hids _ hlast ((hmax _ hlast).id_eq hle)]
  · rw [List.mem_singleton.mp heq]

section Insert
variable {db db' : Database} {i : ℕ} {v : PyFloat} {t : Timestamp}

theorem ofChannel_insert (h : insert db i v t = .ok db') (j : ℕ) :
    ofChannel db' j = ofChannel db j ++
      if i = j then [{ id := db.nextReading, channelId := i, value := v, recordedAt := t }]
      else [] := by
  unfold insert at h
  split_ifs at h
  cases h
  unfold ofChannel
  rw [List.filter_append]
  by_cases hij : i = j <;> simp [hij]

/-- A reading recorded no earlier than the others of its channel becomes the latest. -/
theorem latestByChannel_insert (hv : db.Valid) (h : insert db i v t = .ok db')
    (ht : ∀ r ∈ ofChannel db i, r.recordedAt ≤ t) :
    latestByChannel db' i =
      some { id := db.nextReading, channelId := i, value := v, recordedAt := t } := by
  have hold : ∀ r ∈ ofChannel db i, r.id < db.nextReading := fun r hr =>
    hv.readingFresh r (List.mem_of_mem_filter hr)
  unfold latestByChannel
  rw [ofChannel_insert h, if_pos rfl]
  apply getLast?_orderBy
  · simp
  · intro s hs hid
    rcases List.mem_append.mp hs with hs | hs
    · exact absurd hid (hold s hs).ne
    · exact List.mem_singleton.mp hs
  · intro s hs
    rcases List.mem_append.mp hs with hs | hs
    · exact .of_le (ht s hs) (hold s hs).le
    · rw [List.mem_singleton.mp hs]
      exact .of_le le_rfl le_rfl

theorem latestByChannel_insert_of_ne (h : insert db i v t = .ok db') {j : ℕ} (hij : i ≠ j) :
    latestByChannel db' j = latestByChannel db j := by
  unfold latestByChannel
  rw [ofChannel_insert h, if_neg hij, List.append_nil]

end Insert
end HomeServer.Db.Readings
