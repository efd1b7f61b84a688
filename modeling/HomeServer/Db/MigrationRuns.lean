import HomeServer.Db.Migrations

/-! Runs of `apply_migrations` that are cut off and started again: what each leaves, by the list of
the effects of its statements. -/
namespace HomeServer.Db
open HomeServer.Ble HomeServer.Lib

def inferred (address : Address) : AddrType := (inferAddrType address).toOption.getD .publicAddr

def backfills (rows : List (ℕ × Address)) : List (DevicesTable → DevicesTable) :=
  rows.map fun row t => t.setAddrType row.1 (inferred row.2)

def addrTypeEffects (order : SelectOrder) (t : DevicesTable) :
    List (DevicesTable → DevicesTable) :=
  if .addrType ∈ t.columns then []
  else (fun t => t.addColumn .addrType) :: id :: backfills (order.of t.selected)

def columnEffects (columns : List Column) (c : Column) : List (DevicesTable → DevicesTable) :=
  if c ∈ columns then [] else [fun t => t.addColumn c]

def laterEffects (columns : List Column) : List (DevicesTable → DevicesTable) :=
  columnEffects columns .lastConnectedAt ++ columnEffects columns .label

/-- What a run may do after its first block: add one of the columns that are not computed. -/
theorem mem_laterEffects {columns : List Column} {w : DevicesTable → DevicesTable}
    (h : w ∈ laterEffects columns) :
    ∃ c, c ∉ columns ∧ c ≠ .addrType ∧ w = fun t => t.addColumn c := by
  have hcolumn : ∀ c, w ∈ columnEffects columns c → c ∉ columns ∧ w = fun t => t.addColumn c := by
    intro c hw
    unfold columnEffects at hw
    split at hw
    · cases hw
    · rename_i hc
      exact ⟨hc, List.mem_singleton.mp hw⟩
  rcases List.mem_append.mp h with hw | hw
  · obtain ⟨hc, hadd⟩ := hcolumn .lastConnectedAt hw
    exact ⟨_, hc, by decide, hadd⟩
  · obtain ⟨hc, hadd⟩ := hcolumn .label hw
    exact ⟨_, hc, by decide, hadd⟩

def effects (order : SelectOrder) (t : DevicesTable) : List (DevicesTable → DevicesTable) :=
  id :: (addrTypeEffects order t ++ laterEffects t.columns)

def complete (t : DevicesTable) : DevicesTable := applyAll (laterEffects t.columns) t

def filled (order : SelectOrder) (t : DevicesTable) (j : ℕ) : DevicesTable :=
  applyAll (backfills ((order.of t.selected).take j)) (t.addColumn .addrType)

section Runs
variable {order : SelectOrder} {t : DevicesTable}

def Inferable (t : DevicesTable) : Prop := ∀ r ∈ t.rows, ∃ a, inferAddrType r.address = .ok a

theorem mem_selected {x : ℕ × Address} (hx : x ∈ order.of t.selected) :
    ∃ r ∈ t.rows, x = (r.id, r.address) := by
  obtain ⟨r, hr, rfl⟩ := List.mem_map.mp ((order.perm _).subset hx)
  exact ⟨r, hr, rfl⟩

theorem selected_mem (order : SelectOrder) {r : OldRow} (hr : r ∈ t.rows) :
    (r.id, r.address) ∈ order.of t.selected :=
  (order.perm _).symm.subset (List.mem_map_of_mem hr)

theorem selected_ids (order : SelectOrder) (t : DevicesTable) :
    ((order.of t.selected).map Prod.fst).Nodup := by
  have hids : t.selected.map Prod.fst = t.rows.map OldRow.id := by
    simp [DevicesTable.selected, Function.comp_def]
  exact ((order.perm t.selected).map Prod.fst).nodup_iff.mpr (hids ▸ t.ids)

theorem trace_backfill {row : ℕ × Address} (h : ∃ a, inferAddrType row.2 = .ok a)
    (t : DevicesTable) : Trace (backfill row) t
      [fun t => t.setAddrType row.1 (inferred row.2)] (.ok ()) := by
  obtain ⟨a, ha⟩ := h
  have hinferred : inferred row.2 = a := by
    unfold inferred
    rw [ha]
    rfl
  unfold backfill
  rw [ha, hinferred]
  exact .statement (fun t => ((), t.setAddrType row.1 a)) t

theorem trace_tableInfo (t : DevicesTable) : Trace tableInfo t [id] (.ok t.columns) := by
  unfold tableInfo
  exact .statement _ t

theorem trace_alterAddColumn (c : Column) (t : DevicesTable) :
    Trace (alterAddColumn c) t [fun t => t.addColumn c] (.ok ()) := by
  unfold alterAddColumn
  exact .statement _ t

theorem trace_selectRows (order : SelectOrder) (t : DevicesTable) :
    Trace (selectRows order) t [id] (.ok (order.of t.selected)) := by
  unfold selectRows
  exact .statement _ t

theorem trace_column (columns : List Column) (c : Column) (t : DevicesTable) :
    Trace (if c ∈ columns then pure () else alterAddColumn c) t (columnEffects columns c)
      (.ok ()) := by
  unfold columnEffects
  split
  · exact .pure () t
  · exact trace_alterAddColumn c t

theorem trace_applyMigrations (h : .addrType ∉ t.columns → Inferable t) :
    Trace (applyMigrations order) t (effects order t) (.ok ()) := by
  have hblock : Trace (if .addrType ∈ t.columns then pure ()
      else do
        alterAddColumn .addrType
        let rows ← selectRows order
        forM rows backfill) t (addrTypeEffects order t) (.ok ()) := by
    unfold addrTypeEffects
    by_cases hmem : .addrType ∈ t.columns
    · rw [if_pos hmem, if_pos hmem]
      exact .pure () t
    · rw [if_neg hmem, if_neg hmem]
      have halter := trace_alterAddColumn .addrType t
      have hselect := trace_selectRows order (t.addColumn .addrType)
      rw [DevicesTable.selected_addColumn] at hselect
      have hrows : ∀ x ∈ order.of t.selected, ∃ a, inferAddrType x.2 = .ok a := by
        intro x hx
        obtain ⟨r, hr, rfl⟩ := mem_selected hx
        exact h hmem r hr
      have hloop := Trace.forM (fun x hx s => trace_backfill (hrows x hx) s)
        (t.addColumn .addrType)
      rw [← List.map_eq_flatMap] at hloop
      exact halter.bind (hselect.bind hloop)
  unfold applyMigrations
  exact (trace_tableInfo t).bind (hblock.bind
    ((trace_column t.columns .lastConnectedAt _).bind (trace_column t.columns .label _)))

theorem migrated_eq (h : .addrType ∉ t.columns → Inferable t) :
    migrated order t = (.ok (), applyAll (effects order t) t) := by
  unfold migrated
  rw [(trace_applyMigrations h).whole]
  rfl

theorem cutOffAfter_eq (h : .addrType ∉ t.columns → Inferable t) (k : ℕ) :
    cutOffAfter order k t = applyAll ((effects order t).take k) t :=
  (trace_applyMigrations h).state_cut k

/-- A run that completes has inferred the type of every row it had to. -/
theorem inferable_of_migrated {out : DevicesTable} (h : migrated order t = (.ok (), out))
    (hmem : .addrType ∉ t.columns) : Inferable t := by
  have hok : ((applyMigrations order).exec ⟨t, none⟩).1 = .ok () := congrArg Prod.fst h
  have hexec : (applyMigrations order).exec ⟨t, none⟩ =
      (.ok (), ((applyMigrations order).exec ⟨t, none⟩).2) :=
    Prod.ext hok rfl
  unfold applyMigrations at hexec
  obtain ⟨cols, s₁, hinfo, hrest⟩ := Action.exec_bind_ok hexec
  cases hinfo
  obtain ⟨u, s₂, hblock, -⟩ := Action.exec_bind_ok hrest
  rw [if_neg hmem] at hblock
  obtain ⟨u', s₃, halter, hselect⟩ := Action.exec_bind_ok hblock
  cases halter
  obtain ⟨rows, s₄, hrows, hloop⟩ := Action.exec_bind_ok hselect
  cases hrows
  intro r hr
  have hr' : (r.id, r.address) ∈ order.of (t.addColumn .addrType).selected := by
    rw [DevicesTable.selected_addColumn]
    exact selected_mem order hr
  obtain ⟨s₅, s₆, hback⟩ := Action.exec_forM_ok hloop _ hr'
  unfold backfill at hback
  cases ha : inferAddrType r.address with
  | ok a => exact ⟨a, rfl⟩
  | error e =>
    dsimp only at hback
    rw [ha] at hback
    cases hback

end Runs

def KeepsValues (t t' : DevicesTable) : Prop := t'.rows.map (OldRow.only t.columns) = t.rows

section Tables
variable {order : SelectOrder} {t t' : DevicesTable}

private theorem ite_none_eq {α : Type} {o : Option α} {p : Prop} [Decidable p]
    (h : o.isSome = decide p) : (if p then o else none) = o := by
  split
  · rfl
  · rename_i hp
    have hnone : o.isSome = false := by rw [h, decide_eq_false hp]
    exact (Option.isSome_eq_false_iff.mp hnone |> Option.isNone_iff_eq_none.mp).symm

theorem keepsValues_refl (t : DevicesTable) : KeepsValues t t := by
  unfold KeepsValues
  have hrow : ∀ r ∈ t.rows, r.only t.columns = r := by
    intro r hr
    have haddr := ite_none_eq (t.shaped r hr .addrType)
    have hlast := ite_none_eq (t.shaped r hr .lastConnectedAt)
    have hlabel := ite_none_eq (t.shaped r hr .label)
    unfold OldRow.only
    rw [haddr, hlast, hlabel]
  rw [List.map_congr_left hrow, List.map_id']

theorem KeepsValues.addColumn {c : Column} (hc : c ∉ t.columns) (h : KeepsValues t t') :
    KeepsValues t (t'.addColumn c) := by
  unfold KeepsValues at h ⊢
  have hrow : ∀ r : OldRow, (r.addColumn c).only t.columns = r.only t.columns :=
    OldRow.only_addColumn hc
  calc (t'.rows.map fun r => r.addColumn c).map (OldRow.only t.columns)
      = t'.rows.map (OldRow.only t.columns) := by simp [Function.comp_def, hrow]
    _ = t.rows := h

theorem KeepsValues.setAddrType (hc : .addrType ∉ t.columns) (h : KeepsValues t t') (i : ℕ)
    (a : AddrType) : KeepsValues t (t'.setAddrType i a) := by
  unfold KeepsValues at h ⊢
  have hrow : ∀ r : OldRow, (if r.id = i then r.setAddrType a else r).only t.columns =
      r.only t.columns := by
    intro r
    split
    · exact OldRow.only_setAddrType hc r a
    · rfl
  calc (t'.rows.map fun r => if r.id = i then r.setAddrType a else r).map (OldRow.only t.columns)
      = t'.rows.map (OldRow.only t.columns) := by simp [Function.comp_def, hrow]
    _ = t.rows := h

/-- Wherever a run is cut off, it has only added columns and set what was added. -/
theorem keepsValues_effects (order : SelectOrder) (t : DevicesTable) :
    ∀ w ∈ effects order t, ∀ t', KeepsValues t t' → KeepsValues t (w t') := by
  intro w hw t' h
  rcases List.mem_cons.mp hw with rfl | hw
  · exact h
  rcases List.mem_append.mp hw with hw | hw
  · unfold addrTypeEffects at hw
    split at hw
    · cases hw
    · rename_i hc
      rcases List.mem_cons.mp hw with rfl | hw
      · exact h.addColumn hc
      rcases List.mem_cons.mp hw with rfl | hw
      · exact h
      · obtain ⟨r, -, rfl⟩ := List.mem_map.mp hw
        exact h.setAddrType hc r.1 _
  · obtain ⟨c, hc, -, rfl⟩ := mem_laterEffects hw
    exact h.addColumn hc

theorem columns_backfills (rows : List (ℕ × Address)) (t : DevicesTable) :
    (applyAll (backfills rows) t).columns = t.columns :=
  applyAll_preserves (P := fun s : DevicesTable => s.columns = t.columns)
    (fun w hw s hs => by
      obtain ⟨r, -, rfl⟩ := List.mem_map.mp hw
      exact hs) rfl

/-- The rows with the ids of `rows` get the type of their address. -/
theorem rows_backfills {rows : List (ℕ × Address)} {t : DevicesTable}
    (h : ∀ x ∈ rows, ∀ r ∈ t.rows, r.id = x.1 → r.address = x.2) :
    (applyAll (backfills rows) t).rows = t.rows.map fun r =>
      if r.id ∈ rows.map Prod.fst then r.setAddrType (inferred r.address) else r := by
  induction rows generalizing t with
  | nil => simp [backfills]
  | cons x rows ih =>
    have hrest : ∀ y ∈ rows, ∀ r ∈ (t.setAddrType x.1 (inferred x.2)).rows,
        r.id = y.1 → r.address = y.2 := by
      intro y hy r hr
      obtain ⟨r₀, hr₀, rfl⟩ := List.mem_map.mp hr
      have hy₀ := h y (.tail _ hy) r₀ hr₀
      split <;> exact hy₀
    change (applyAll (backfills rows) (t.setAddrType x.1 (inferred x.2))).rows = _
    rw [ih hrest]
    unfold DevicesTable.setAddrType
    rw [List.map_map]
    apply List.map_congr_left
    intro r hr
    have hx := h x (.head _) r hr
    by_cases hid : r.id = x.1
    · by_cases hin : r.id ∈ rows.map Prod.fst <;>
        simp_all [OldRow.setAddrType, Function.comp_def]
    · rw [Function.comp, if_neg hid, List.map_cons]
      simp only [List.mem_cons, hid, false_or]

theorem columns_filled (order : SelectOrder) (t : DevicesTable) (j : ℕ) :
    (filled order t j).columns = t.columns ++ [.addrType] :=
  columns_backfills ((order.of t.selected).take j) (t.addColumn .addrType)

theorem rows_filled (order : SelectOrder) (t : DevicesTable) (j : ℕ) :
    (filled order t j).rows = t.rows.map fun r =>
      if r.id ∈ ((order.of t.selected).take j).map Prod.fst then
        (r.addColumn .addrType).setAddrType (inferred r.address)
      else r.addColumn .addrType := by
  unfold filled
  have hsame : ∀ x ∈ (order.of t.selected).take j, ∀ r ∈ (t.addColumn .addrType).rows,
      r.id = x.1 → r.address = x.2 := by
    intro x hx r hr hid
    obtain ⟨r₁, hr₁, rfl⟩ := mem_selected (List.mem_of_mem_take hx)
    obtain ⟨r₀, hr₀, rfl⟩ := List.mem_map.mp hr
    have heq : r₀ = r₁ := List.inj_on_of_nodup_map t.ids hr₀ hr₁ hid
    rw [heq]
    rfl
  rw [rows_backfills hsame]
  unfold DevicesTable.addColumn
  rw [List.map_map]
  rfl

/-- With the columns added that are not computed, a table keeps its types. -/
theorem addrTypes_later (t : DevicesTable) (m : ℕ) :
    (applyAll ((laterEffects t.columns).take m) t).rows.map OldRow.addrType =
      t.rows.map OldRow.addrType := by
  have hadd : ∀ c, c ≠ .addrType → ∀ s : DevicesTable,
      (s.addColumn c).rows.map OldRow.addrType = s.rows.map OldRow.addrType := by
    intro c hc s
    unfold DevicesTable.addColumn
    rw [List.map_map]
    apply List.map_congr_left
    intro r _
    cases c with
    | addrType => exact absurd rfl hc
    | lastConnectedAt => rfl
    | label => rfl
  apply applyAll_preserves (P := fun s : DevicesTable =>
    s.rows.map OldRow.addrType = t.rows.map OldRow.addrType) _ rfl
  intro w hw s hs
  obtain ⟨c, -, hne, rfl⟩ := mem_laterEffects (List.mem_of_mem_take hw)
  rw [hadd c hne, hs]

/-- A run cut off among the last two columns is completed by the next one. -/
theorem complete_take (t : DevicesTable) (m : ℕ) :
    complete (applyAll ((laterEffects t.columns).take m) t) = complete t := by
  unfold complete laterEffects columnEffects
  by_cases hlast : .lastConnectedAt ∈ t.columns
  · by_cases hlabel : .label ∈ t.columns
    · simp [hlast, hlabel]
    · cases m with
      | zero => simp [hlast, hlabel]
      | succ m => simp [hlast, hlabel, DevicesTable.addColumn]
  · by_cases hlabel : .label ∈ t.columns
    · cases m with
      | zero => simp [hlast, hlabel]
      | succ m => simp [hlast, hlabel, DevicesTable.addColumn]
    · cases m with
      | zero => simp [hlast, hlabel]
      | succ m =>
        cases m with
        | zero => simp [hlast, hlabel, DevicesTable.addColumn]
        | succ m => simp [hlast, hlabel, DevicesTable.addColumn]

end Tables

section Resumed
variable {order : SelectOrder} {t out : DevicesTable}

theorem laterEffects_concat (columns : List Column) :
    laterEffects (columns ++ [.addrType]) = laterEffects columns := by
  unfold laterEffects columnEffects
  simp

theorem migrated_of_mem (h : .addrType ∈ t.columns) :
    migrated order t = (.ok (), complete t) := by
  rw [migrated_eq fun hmem => absurd h hmem]
  unfold effects addrTypeEffects complete
  rw [if_pos h]
  rfl

theorem migrated_of_not_mem (hmem : .addrType ∉ t.columns) (h : Inferable t) :
    migrated order t = (.ok (), complete (filled order t (order.of t.selected).length)) := by
  rw [migrated_eq fun _ => h]
  unfold effects addrTypeEffects complete
  rw [if_neg hmem, columns_filled, laterEffects_concat]
  unfold filled
  rw [List.take_length, ← applyAll_append]
  rfl

/-- Cut off later than the new column, a run leaves some rows backfilled, and perhaps some of the
last two columns added. -/
theorem cutOffAfter_filled (hmem : .addrType ∉ t.columns) (h : Inferable t) {k : ℕ} (hk : 2 ≤ k) :
    ∃ m, cutOffAfter order k t = applyAll ((laterEffects (filled order t (k - 3)).columns).take m)
      (filled order t (k - 3)) := by
  rw [cutOffAfter_eq fun _ => h, columns_filled, laterEffects_concat]
  unfold effects addrTypeEffects
  rw [if_neg hmem]
  obtain ⟨m, rfl⟩ : ∃ m, k = m + 2 := ⟨k - 2, by omega⟩
  cases m with
  | zero => exact ⟨0, rfl⟩
  | succ i =>
    refine ⟨i - (backfills (order.of t.selected)).length, ?_⟩
    have htake : (backfills (order.of t.selected) ++ laterEffects t.columns).take i =
        backfills ((order.of t.selected).take i) ++
          (laterEffects t.columns).take (i - (backfills (order.of t.selected)).length) := by
      rw [List.take_append]
      unfold backfills
      rw [List.map_take]
    change applyAll ((backfills (order.of t.selected) ++ laterEffects t.columns).take i)
      (t.addColumn .addrType) = _
    rw [htake, applyAll_append]
    rfl

theorem mem_columns_later (h : .addrType ∈ t.columns) (m : ℕ) :
    .addrType ∈ (applyAll ((laterEffects t.columns).take m) t).columns := by
  apply applyAll_preserves (P := fun s : DevicesTable => .addrType ∈ s.columns) _ h
  intro w hw s hs
  obtain ⟨c, -, -, rfl⟩ := mem_laterEffects (List.mem_of_mem_take hw)
  exact List.mem_append_left _ hs

theorem addrTypes_complete (t : DevicesTable) :
    (complete t).rows.map OldRow.addrType = t.rows.map OldRow.addrType := by
  have h := addrTypes_later t (laterEffects t.columns).length
  rw [List.take_length] at h
  exact h

theorem id_not_mem_take {j : ℕ} {x : ℕ × Address} (hx : x ∈ (order.of t.selected).drop j) :
    x.1 ∉ ((order.of t.selected).take j).map Prod.fst := by
  intro hin
  have hids := selected_ids order t
  rw [← List.take_append_drop j (order.of t.selected), List.map_append, List.nodup_append] at hids
  exact hids.2.2 x.1 hin x.1 (List.mem_map_of_mem hx) rfl

/-- Backfilling the first `j` rows is enough when all others keep the default. -/
theorem complete_filled_iff (order : SelectOrder) (h : Inferable t) (j : ℕ) :
    complete (filled order t j) = complete (filled order t (order.of t.selected).length) ↔
      ∀ x ∈ (order.of t.selected).drop j, inferAddrType x.2 = .ok .publicAddr := by
  have hall : ∀ r ∈ t.rows,
      r.id ∈ ((order.of t.selected).take (order.of t.selected).length).map Prod.fst := by
    intro r hr
    rw [List.take_length]
    exact List.mem_map_of_mem (selected_mem order hr)
  constructor
  · intro heq x hx
    obtain ⟨r, hmem, rfl⟩ := mem_selected (List.mem_of_mem_drop hx)
    have hcells : (filled order t j).rows.map OldRow.addrType =
        (filled order t (order.of t.selected).length).rows.map OldRow.addrType := by
      rw [← addrTypes_complete, ← addrTypes_complete (filled order t _), heq]
    rw [rows_filled, rows_filled, List.map_map, List.map_map] at hcells
    have hcell := List.map_eq_map_iff.mp hcells r hmem
    rw [Function.comp, Function.comp, if_neg (id_not_mem_take hx), if_pos (hall r hmem)] at hcell
    have hinferred : inferred r.address = .publicAddr := (Option.some.inj hcell).symm
    obtain ⟨a, ha⟩ := h r hmem
    unfold inferred at hinferred
    dsimp only
    rw [ha] at hinferred ⊢
    exact congrArg Except.ok hinferred
  · intro hpublic
    congr 1
    apply DevicesTable.ext
    · rw [columns_filled, columns_filled]
    · rw [rows_filled, rows_filled]
      apply List.map_congr_left
      intro r hr
      rw [if_pos (hall r hr)]
      split
      · rfl
      · rename_i hnot
        have hdrop : (r.id, r.address) ∈ (order.of t.selected).drop j := by
          have hsel := selected_mem order hr
          rw [← List.take_append_drop j (order.of t.selected)] at hsel
          refine (List.mem_append.mp hsel).resolve_left fun hin => hnot ?_
          exact List.mem_map_of_mem (f := Prod.fst) hin
        have hinferred : inferred r.address = .publicAddr := by
          unfold inferred
          rw [hpublic _ hdrop]
          rfl
        rw [hinferred]
        rfl

/-- A run that is cut off after `k` statements and started again ends like one that is not, exactly
when it was cut off before `addr_type` was added, or had no need to add it, or every row that it
had not yet come to keeps the default. -/
theorem migrations_resume (h : migrated order t = (.ok (), out)) (k : ℕ) :
    (migrated order (cutOffAfter order k t) = (.ok (), out) ∧ migrated order out = (.ok (), out) ∧
        KeepsValues t (cutOffAfter order k t) ∧ KeepsValues t out) ↔
      k ≤ 1 ∨ .addrType ∈ t.columns ∨
        ∀ x ∈ (order.of t.selected).drop (k - 3), inferAddrType x.2 = .ok .publicAddr := by
  have hinfer := inferable_of_migrated h
  have hout : out = applyAll (effects order t) t := by
    rw [migrated_eq hinfer] at h
    exact (congrArg Prod.snd h).symm
  have hkeeps : KeepsValues t (cutOffAfter order k t) ∧ KeepsValues t out := by
    have hall := keepsValues_effects order t
    rw [cutOffAfter_eq hinfer, hout]
    constructor
    · exact applyAll_preserves (fun w hw => hall w (List.mem_of_mem_take hw)) (keepsValues_refl t)
    · exact applyAll_preserves hall (keepsValues_refl t)
  have hcomplete : ∀ s : DevicesTable, .addrType ∈ s.columns →
      migrated order (complete s) = (.ok (), complete s) := by
    intro s hs
    have htake := complete_take s (laterEffects s.columns).length
    rw [List.take_length] at htake
    have hmem : .addrType ∈ (complete s).columns := by
      have hlater := mem_columns_later hs (laterEffects s.columns).length
      rw [List.take_length] at hlater
      exact hlater
    rw [migrated_of_mem hmem]
    exact congrArg _ htake
  by_cases hmem : .addrType ∈ t.columns
  · rw [migrated_of_mem hmem] at h
    obtain rfl : complete t = out := congrArg Prod.snd h
    have hcut : ∃ m, cutOffAfter order k t = applyAll ((laterEffects t.columns).take m) t := by
      rw [cutOffAfter_eq hinfer]
      unfold effects addrTypeEffects
      rw [if_pos hmem]
      cases k with
      | zero => exact ⟨0, rfl⟩
      | succ k => exact ⟨k, rfl⟩
    obtain ⟨m, hm⟩ := hcut
    have hagain : migrated order (cutOffAfter order k t) = (.ok (), complete t) := by
      rw [hm, migrated_of_mem (mem_columns_later hmem m), complete_take]
    exact ⟨fun _ => Or.inr (Or.inl hmem), fun _ => ⟨hagain, hcomplete t hmem, hkeeps⟩⟩
  · have hrows := hinfer hmem
    have hfilled : ∀ j, .addrType ∈ (filled order t j).columns := fun j => by
      rw [columns_filled]
      exact List.mem_append_right _ (.head _)
    have hsame := h
    rw [migrated_of_not_mem hmem hrows] at h
    obtain rfl : complete (filled order t (order.of t.selected).length) = out := congrArg Prod.snd h
    have hidem := hcomplete _ (hfilled (order.of t.selected).length)
    by_cases hk : k ≤ 1
    · have hcut : cutOffAfter order k t = t := by
        rw [cutOffAfter_eq hinfer]
        rcases Nat.le_one_iff_eq_zero_or_eq_one.mp hk with rfl | rfl <;> rfl
      rw [hcut]
      exact ⟨fun _ => Or.inl hk, fun _ => ⟨hsame, hidem, keepsValues_refl t, hkeeps.2⟩⟩
    · obtain ⟨m, hm⟩ := cutOffAfter_filled hmem hrows (by omega : 2 ≤ k)
      have hagain : migrated order (cutOffAfter order k t) =
          (.ok (), complete (filled order t (k - 3))) := by
        rw [hm, migrated_of_mem (mem_columns_later (hfilled _) m), complete_take]
      have hiff := complete_filled_iff order hrows (k - 3)
      constructor
      · rintro ⟨hresumed, -⟩
        rw [hagain] at hresumed
        exact Or.inr (Or.inr (hiff.mp (congrArg Prod.snd hresumed)))
      · intro hcond
        have hpublic := (hcond.resolve_left hk).resolve_left hmem
        exact ⟨hagain.trans (congrArg _ (hiff.mpr hpublic)), hidem, hkeeps⟩

end Resumed

/-- A table from before any of the three columns, with a public and a random address, of which the
second comes first in the index. -/
def oldDevices : DevicesTable where
  columns := []
  rows := [⟨1, "a4:c1:38:00:00:01", "sensor", 1, none, none, none, none⟩,
    ⟨2, "C0:11:22:33:44:55", "lamp", 1, none, none, none, none⟩]
  shaped := by
    intro r hr c
    rcases List.mem_pair.mp hr with rfl | rfl <;> cases c <;> rfl
  ids := by decide

def oldDevicesMigrated : DevicesTable := (migrated byAddress oldDevices).2

/-- The run is cut off after the update of the first row that it selected. -/
theorem migrations_resume_sensor :
    migrated byAddress (cutOffAfter byAddress 4 oldDevices) = (.ok (), oldDevicesMigrated) :=
  have h : migrated byAddress oldDevices = (.ok (), oldDevicesMigrated) :=
    Prod.ext (by decide +kernel) rfl
  ((migrations_resume h 4).mpr (Or.inr (Or.inr (by decide +kernel)))).1

/-- The run is cut off right after the new column: the next one finds the column, and the random
address stays public. -/
theorem migration_not_resumed : ¬∀ t out, migrated byAddress t = (.ok (), out) → ∀ k,
    migrated byAddress (cutOffAfter byAddress k t) = (.ok (), out) := by
  intro hall
  have h : migrated byAddress oldDevices = (.ok (), oldDevicesMigrated) :=
    Prod.ext (by decide +kernel) rfl
  have hresumed := hall oldDevices oldDevicesMigrated h 2
  have htypes : (migrated byAddress (cutOffAfter byAddress 2 oldDevices)).2.rows.map
      OldRow.addrType = oldDevicesMigrated.rows.map OldRow.addrType := by
    rw [hresumed]
  have hpublic : (migrated byAddress (cutOffAfter byAddress 2 oldDevices)).2.rows.map
      OldRow.addrType = [some .publicAddr, some .publicAddr] := by
    decide +kernel
  have hrandom : oldDevicesMigrated.rows.map OldRow.addrType =
      [some .publicAddr, some .randomAddr] := by
    decide +kernel
  rw [hpublic, hrandom] at htypes
  cases htypes

end HomeServer.Db
