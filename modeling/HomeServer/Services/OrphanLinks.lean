import HomeServer.Services.DeviceThreads

/-! Whatever the manager holds has a row, over every interleaving of add_device, remove_device,
ticks, scans and workers, as long as attempts end before their device is removed. -/
namespace HomeServer.Services
open HomeServer.Db HomeServer.Ble HomeServer.Lib

namespace DevicePc

def target : DevicePc → Option Device
  | .removeCheck device | .removeLinked device _ | .removeDelete device
  | .pop (.removeDevice device) | .shutdown _ (.removeDevice device)
  | .await _ _ (.removeDevice device) | .join _ _ (.removeDevice device) => some device
  | _ => none

def tells (i : ℕ) : DevicePc → Bool
  | .shutdown j _ => j = i
  | _ => false

def Idle (pc : DevicePc) : Prop := pc.target = none ∧ ∀ a, pc.removing a = false

theorem target_popped (caller : Caller) (worker : Option ℕ) :
    (popped caller worker).target = (pop caller).target := by
  cases worker <;> cases caller <;> rfl

theorem removing_popped {caller : Caller} {worker : Option ℕ} {a : Address}
    (h : (popped caller worker).removing a = true) : a = caller.address := by
  cases caller with
  | removeDevice device =>
    have ha : device.address = a := by cases worker <;> exact of_decide_eq_true h
    exact ha.symm
  | scanWindow address rest => cases worker <;> cases h

end DevicePc

/-- The id of `device` was given before, and a row with it is still the row that was read. -/
def Targets (db : Database) (device : Device) : Prop :=
  device.id < db.nextDevice ∧ ∀ d ∈ db.devices, d.id = device.id → d.address = device.address

/-- What a removal is about to delete is not held any more. -/
structure Fits (s : DeviceWorld) (pc : DevicePc) : Prop where
  target : ∀ d, pc.target = some d → Targets s.db d
  removing : ∀ a, pc.removing a = true → s.manager.holds a = false

/-- `strays`: a worker that was popped is told to stop by the thread that popped it. -/
structure Safe (s : DeviceWorld) (pcs : List DevicePc) : Prop where
  valid : s.db.Valid
  indexed : s.manager.Indexed
  rows : ∀ a, s.manager.holds a = true → isRegistered s.db a = true
  fits : ∀ pc ∈ pcs, Fits s pc
  strays : ∀ i, s.manager.Stray i → ∃ pc ∈ pcs, pc.tells i = true

section Rows
variable {db db' : Database} {d : Device}

theorem Targets.of_getById (hv : db.Valid) {deviceId : ℕ}
    (h : Devices.getById db deviceId = some d) : Targets db d := by
  obtain ⟨hd, -⟩ := Devices.mem_of_getById h
  exact ⟨hv.deviceFresh d hd, fun d' hd' hid => by rw [hv.eq_of_id hd' hd hid]⟩

/-- A new row has a new id. -/
theorem create_rows {address : Address} {name : String} {owner i : ℕ} {addrType : AddrType}
    (h : Devices.create db address name owner addrType = .ok (i, db')) :
    (∀ a, isRegistered db a = true → isRegistered db' a = true) ∧
      ∀ d, Targets db d → Targets db' d := by
  obtain ⟨-, rfl, rfl⟩ := Devices.create_ok h
  constructor
  · intro a ha
    simp only [isRegistered, List.any_append, Bool.or_eq_true]
    exact Or.inl ha
  · rintro d ⟨hlt, hrow⟩
    refine ⟨Nat.lt_succ_of_lt hlt, fun d' hd' hid => ?_⟩
    rcases List.mem_append.mp hd' with hd' | hd'
    · exact hrow d' hd' hid
    · rw [List.mem_singleton.mp hd'] at hid
      dsimp only at hid
      omega

/-- Only the address of the removal loses its row. -/
theorem delete_rows (ht : Targets db d) (h : Devices.delete db d.id = .ok db') :
    (∀ a, a ≠ d.address → isRegistered db a = true → isRegistered db' a = true) ∧
      ∀ d', Targets db d' → Targets db' d' := by
  obtain rfl := Devices.delete_ok h
  constructor
  · intro a ha hreg
    obtain ⟨r, hr, hra⟩ := List.any_eq_true.mp hreg
    have hra : r.address = a := by simpa using hra
    have hid : r.id ≠ d.id := fun hid => ha (by rw [← hra, ht.2 r hr hid])
    exact List.any_eq_true.mpr ⟨r, List.mem_filter.mpr ⟨hr, by simpa using hid⟩, by simpa using hra⟩
  · rintro d' ⟨hlt, hrow⟩
    exact ⟨hlt, fun r hr => hrow r (List.mem_of_mem_filter hr)⟩

theorem touch_rows (db : Database) (time : Timestamp) (i : ℕ) :
    (∀ a, isRegistered db a = true → isRegistered (Devices.touchLastConnected db time i) a = true) ∧
      ∀ d, Targets db d → Targets (Devices.touchLastConnected db time i) d := by
  constructor
  · intro a ha
    obtain ⟨r, hr, hra⟩ := List.any_eq_true.mp ha
    refine List.any_eq_true.mpr ⟨_, List.mem_map_of_mem hr, ?_⟩
    split <;> exact hra
  · rintro d ⟨hlt, hrow⟩
    refine ⟨hlt, fun r' hr' => ?_⟩
    obtain ⟨r, hr, rfl⟩ := List.mem_map.mp hr'
    split <;> exact hrow r hr

end Rows

section Steps
open DevicePc

variable {s s' : DeviceWorld} {pc pc' : DevicePc} {pcs rest : List DevicePc}

theorem DevicePc.Idle.fits (h : pc.Idle) : Fits s pc := by
  constructor
  · intro d hd
    rw [h.1] at hd
    cases hd
  · intro a ha
    rw [h.2 a] at ha
    cases ha

theorem Fits.evolve (h : Fits s pc) (hdb : s'.db = s.db)
    (hm : ∀ a, s'.manager.holds a = true → s.manager.holds a = true) : Fits s' pc := by
  constructor
  · rw [hdb]
    exact h.target
  · intro a ha
    have hnot := h.removing a ha
    rw [Bool.eq_false_iff] at hnot ⊢
    exact mt (hm a) hnot

theorem Safe.perm (h : Safe s pcs) {l : List DevicePc} (hp : pcs.Perm l) : Safe s l := by
  constructor
  · exact h.valid
  · exact h.indexed
  · exact h.rows
  · intro pc hpc
    exact h.fits pc (hp.mem_iff.mpr hpc)
  · intro i hi
    obtain ⟨pc, hpc, htells⟩ := h.strays i hi
    exact ⟨pc, hp.mem_iff.mp hpc, htells⟩

/-- Workers go on by themselves, commands are queued, and the monitor's dict is free. -/
theorem Safe.evolve (h : Safe s pcs) (hdb : s'.db = s.db)
    (hm : BluepyManager.Evolves s.manager s'.manager) : Safe s' pcs := by
  constructor
  · rw [hdb]
    exact h.valid
  · exact hm.indexed h.indexed
  · intro a ha
    rw [hdb]
    exact h.rows a (hm.holds ha)
  · intro pc hpc
    exact (h.fits pc hpc).evolve hdb fun _ => hm.holds
  · intro i hi
    exact h.strays i (hm.stray hi)

theorem Safe.withRows (h : Safe s pcs) {db : Database} (hv : db.Valid)
    (hrows : ∀ a, s.manager.holds a = true → isRegistered s.db a = true →
      isRegistered db a = true)
    (htargets : ∀ d, Targets s.db d → Targets db d) : Safe { s with db } pcs := by
  constructor
  · exact hv
  · exact h.indexed
  · intro a ha
    exact hrows a ha (h.rows a ha)
  · intro pc hpc
    have hfits := h.fits pc hpc
    exact ⟨fun d hd => htargets d (hfits.target d hd), hfits.removing⟩
  · exact h.strays

/-- A thread that tells nobody to stop goes on to a place that fits. -/
theorem Safe.goto (h : Safe s (pc :: rest)) (htells : ∀ i, pc.tells i = false)
    (hfits : Fits s pc → Fits s pc') : Safe s (pc' :: rest) := by
  obtain ⟨hpc, hrest⟩ := List.forall_mem_cons.mp h.fits
  constructor
  · exact h.valid
  · exact h.indexed
  · exact h.rows
  · exact List.forall_mem_cons.mpr ⟨hfits hpc, hrest⟩
  · intro i hi
    obtain ⟨x, hx, hxi⟩ := h.strays i hi
    rcases List.mem_cons.mp hx with rfl | hx
    · rw [htells i] at hxi
      cases hxi
    · exact ⟨x, .tail _ hx, hxi⟩

theorem Safe.idle (h : Safe s (pc :: rest)) (htells : ∀ i, pc.tells i = false)
    (hidle : pc'.Idle) : Safe s (pc' :: rest) :=
  h.goto htells fun _ => hidle.fits

theorem Safe.enter (h : Safe s pcs) (hidle : pc.Idle) : Safe s (pc :: pcs) := by
  constructor
  · exact h.valid
  · exact h.indexed
  · exact h.rows
  · exact List.forall_mem_cons.mpr ⟨hidle.fits, h.fits⟩
  · intro i hi
    obtain ⟨x, hx, hxi⟩ := h.strays i hi
    exact ⟨x, .tail _ hx, hxi⟩

def Startable (s : DeviceWorld) (pcs : List DevicePc) (a : Address) : Prop :=
  (s.manager.entry a).any Worker.isAlive = true ∨
    isRegistered s.db a = true ∧ ∀ pc ∈ pcs, pc.removing a = false

/-- A worker is started only for a row that stays. -/
theorem Safe.ensure (h : Safe s pcs) (a : Address) (addrType : AddrType)
    (hok : Startable s pcs a) :
    Safe { s with manager := (s.manager.ensureWorker a addrType).2 } pcs := by
  rcases s.manager.ensureWorker_cases a addrType with ⟨heq, -⟩ | ⟨heq, hdead⟩
  · rw [heq]
    exact h
  rw [heq]
  rw [Startable, hdead] at hok
  obtain ⟨hreg, hnot⟩ := hok.resolve_left Bool.false_ne_true
  constructor
  · exact h.valid
  · exact h.indexed.start a addrType
  · intro b hb
    rcases BluepyManager.holds_start h.indexed hb with rfl | hb
    · exact hreg
    · exact h.rows b hb
  · intro pc hpc
    have hfits := h.fits pc hpc
    refine ⟨hfits.target, fun b hb => ?_⟩
    have hdown := hfits.removing b hb
    rw [Bool.eq_false_iff] at hdown ⊢
    intro hheld
    rcases BluepyManager.holds_start h.indexed hheld with rfl | hheld
    · rw [hnot pc hpc] at hb
      cases hb
    · exact hdown hheld
  · intro i hi
    exact h.strays i (BluepyManager.stray_start hdead hi)

/-- The popped worker is told to stop by the same thread, next. -/
theorem Safe.pop {caller : Caller} (h : Safe s (.pop caller :: rest)) :
    Safe { s with manager := (s.manager.pop caller.address).2 }
      (popped caller (s.manager.workers caller.address) :: rest) := by
  obtain ⟨hpc, hrest⟩ := List.forall_mem_cons.mp h.fits
  have hnew : Fits { s with manager := (s.manager.pop caller.address).2 }
      (popped caller (s.manager.workers caller.address)) := by
    constructor
    · rw [target_popped]
      exact hpc.target
    · intro a ha
      rw [Bool.eq_false_iff]
      intro hheld
      exact (BluepyManager.holds_pop hheld).1 (removing_popped ha)
  constructor
  · exact h.valid
  · exact h.indexed.pop _
  · intro a ha
    exact h.rows a (BluepyManager.holds_pop ha).2
  · refine List.forall_mem_cons.mpr ⟨hnew, fun x hx => ?_⟩
    exact (hrest x hx).evolve rfl fun _ hheld => (BluepyManager.holds_pop hheld).2
  · intro i hi
    rcases BluepyManager.stray_pop hi with hi | hi
    · obtain ⟨x, hx, hxi⟩ := h.strays i hi
      rcases List.mem_cons.mp hx with rfl | hx
      · cases hxi
      · exact ⟨x, .tail _ hx, hxi⟩
    · refine ⟨_, .head _, ?_⟩
      rw [hi]
      simp [popped, tells]

/-- The wait and the join of `disconnect` change nothing; only a result leads back to the
removal. -/
theorem Safe.await {i : ℕ} {future : FutureId} {caller : Caller}
    (h : Safe s (.await i future caller :: rest)) (raised : Option Err) :
    Safe s (.join i raised caller :: rest) := by
  apply h.goto (fun _ => rfl)
  intro hfits
  constructor
  · intro d hd
    apply hfits.target
    cases caller <;> exact hd
  · intro a ha
    apply hfits.removing
    cases raised with
    | none => cases caller <;> exact ha
    | some e => cases caller <;> cases ha

theorem Safe.join {i : ℕ} {raised : Option Err} {caller : Caller}
    (h : Safe s (.join i raised caller :: rest)) : Safe s (leave caller raised :: rest) := by
  cases raised with
  | some e => exact h.idle (fun _ => rfl) ⟨rfl, fun _ => rfl⟩
  | none =>
    apply h.goto (fun _ => rfl)
    intro hfits
    constructor
    · intro d hd
      apply hfits.target
      cases caller <;> exact hd
    · intro a ha
      apply hfits.removing
      cases caller <;> exact ha

theorem Safe.shutdown {i : ℕ} {caller : Caller} (h : Safe s (.shutdown i caller :: rest)) :
    Safe { s with manager := (s.manager.submit i .shutdown).2 }
      (.await i (s.manager.submit i .shutdown).1 caller :: rest) := by
  have h' : Safe { s with manager := (s.manager.submit i .shutdown).2 }
      (.shutdown i caller :: rest) :=
    h.evolve rfl (s.manager.submit_evolves i .shutdown)
  obtain ⟨hpc, hrest⟩ := List.forall_mem_cons.mp h'.fits
  have hnew : Fits { s with manager := (s.manager.submit i .shutdown).2 }
      (.await i (s.manager.submit i .shutdown).1 caller) := by
    constructor
    · intro d hd
      apply hpc.target
      cases caller <;> exact hd
    · intro a ha
      apply hpc.removing
      cases caller <;> exact ha
  constructor
  · exact h'.valid
  · exact h'.indexed
  · exact h'.rows
  · exact List.forall_mem_cons.mpr ⟨hnew, hrest⟩
  · intro j hj
    obtain ⟨x, hx, hxj⟩ := h'.strays j hj
    rcases List.mem_cons.mp hx with rfl | hx
    · have hij : i = j := by simpa [tells] using hxj
      exact absurd hij.symm (BluepyManager.stray_shutdown hj)
    · exact ⟨x, .tail _ hx, hxj⟩

/-- What the run's condition says of the thread that steps. -/
def Cautious (s : DeviceWorld) (pcs : List DevicePc) : DevicePc → Prop
  | .removeLinked device worker =>
    s.manager.linked worker = true ∨ s.manager.holds device.address = false
  | .addEnsure _ address _ => Startable s pcs address
  | .tickEnsure _ device _ => Startable s pcs device.address
  | _ => True

private theorem Safe.pass (h : Safe s (pc :: rest)) (hdb : s'.db = s.db)
    (hworkers : s'.manager.workers = s.manager.workers)
    (hstarted : s'.manager.started = s.manager.started) (htells : ∀ i, pc.tells i = false)
    (hidle : pc'.Idle) : Safe s' (pc' :: rest) :=
  (h.evolve hdb (.of_same hworkers hstarted)).idle htells hidle

private theorem Safe.addCreate {owner : ℕ} {address : Address} {name : String}
    {addrType : Option AddrType} {ending : Ending}
    (h : Safe s (.addCreate owner address name addrType :: rest))
    (ha : (DevicePc.addCreate owner address name addrType).advance s ending = some (s', pc')) :
    Safe s' (pc' :: rest) := by
  have hstay : ∀ pc' : DevicePc, pc'.Idle → Safe s (pc' :: rest) := fun pc' hidle =>
    h.idle (fun _ => rfl) hidle
  cases ending <;> dsimp only [DevicePc.advance] at ha
  case touched | timesOut => cases ha
  case raises e =>
    cases ha
    exact hstay _ ⟨rfl, fun _ => rfl⟩
  split at ha
  swap
  · cases ha
    exact hstay _ ⟨rfl, fun _ => rfl⟩
  split at ha
  · cases ha
    exact hstay _ ⟨rfl, fun _ => rfl⟩
  split at ha
  · cases ha
    exact hstay _ ⟨rfl, fun _ => rfl⟩
  · rename_i hcreate
    cases ha
    obtain ⟨hrows, htargets⟩ := create_rows hcreate
    have h' := h.withRows (h.valid.deviceCreate hcreate) (fun a _ => hrows a) htargets
    exact h'.idle (fun _ => rfl) ⟨rfl, fun _ => rfl⟩

/-- The row that goes belongs to an address that is not held. -/
private theorem Safe.removeDelete {device : Device} {ending : Ending}
    (h : Safe s (.removeDelete device :: rest))
    (ha : (DevicePc.removeDelete device).advance s ending = some (s', pc')) :
    Safe s' (pc' :: rest) := by
  have hfits := h.fits _ (.head _)
  have hnot := hfits.removing device.address (decide_eq_true rfl)
  cases ending <;> dsimp only [DevicePc.advance] at ha
  case touched | timesOut => cases ha
  case raises e =>
    cases ha
    exact h.idle (fun _ => rfl) ⟨rfl, fun _ => rfl⟩
  split at ha
  · cases ha
    exact h.idle (fun _ => rfl) ⟨rfl, fun _ => rfl⟩
  · rename_i hdelete
    cases ha
    obtain ⟨hrows, htargets⟩ := delete_rows (hfits.target device rfl) hdelete
    have hkept : ∀ a, s.manager.holds a = true → a ≠ device.address := by
      rintro a hheld rfl
      rw [hnot] at hheld
      cases hheld
    have h' := h.withRows (h.valid.deviceDelete hdelete) (fun a hheld => hrows a (hkept a hheld))
      htargets
    exact h'.idle (fun _ => rfl) ⟨rfl, fun _ => rfl⟩

theorem Safe.advance {ending : Ending} (h : Safe s (pc :: rest))
    (hok : Cautious s (pc :: rest) pc) (ha : pc.advance s ending = some (s', pc')) :
    Safe s' (pc' :: rest) := by
  cases pc with
  | addCreate ownerUserId address name addrType => exact h.addCreate ha
  | addEnsure deviceId address addrType =>
    cases ending <;> cases ha
    exact (h.ensure address addrType hok).idle (fun _ => rfl) ⟨rfl, fun _ => rfl⟩
  | tickEnsure now device devices =>
    cases ending <;> cases ha
    exact (h.ensure device.address device.addrType hok).idle (fun _ => rfl) ⟨rfl, fun _ => rfl⟩
  | removeLookup deviceId =>
    cases ending <;> dsimp only [DevicePc.advance] at ha
    · split at ha
      · cases ha
        exact h.idle (fun _ => rfl) ⟨rfl, fun _ => rfl⟩
      · rename_i device hget
        cases ha
        have htargets := Targets.of_getById h.valid hget
        exact h.goto (fun _ => rfl) fun _ =>
          ⟨fun d hd => Option.some.inj hd ▸ htargets, fun _ ha => nomatch ha⟩
    · cases ha
    · cases ha
    · cases ha
      exact h.idle (fun _ => rfl) ⟨rfl, fun _ => rfl⟩
  | removeCheck device =>
    cases ending <;> cases ha
    exact h.goto (fun _ => rfl) fun hfits => ⟨hfits.target, fun _ ha => nomatch ha⟩
  | removeLinked device worker =>
    cases ending <;> cases ha
    split
    · exact h.goto (fun _ => rfl) fun hfits => ⟨hfits.target, fun _ ha => nomatch ha⟩
    · rename_i hdown
      -- Not linked: nothing is held either, so the row may go.
      have hnot := hok.resolve_left hdown
      refine h.goto (fun _ => rfl) fun hfits => ⟨hfits.target, fun a ha => ?_⟩
      rw [← of_decide_eq_true ha]
      exact hnot
  | removeDelete device => exact h.removeDelete ha
  | pop caller =>
    cases ending <;> cases ha
    exact h.pop
  | shutdown i caller =>
    cases ending <;> cases ha
    exact h.shutdown
  | await i future caller =>
    cases ending <;> simp only [DevicePc.advance, reduceCtorEq] at ha
    · obtain ⟨outcome, -, ha⟩ := Option.map_eq_some_iff.mp ha
      cases outcome <;> cases ha <;> exact h.await _
    · split at ha <;> cases ha
      exact h.await _
  | join i raised caller =>
    cases ending <;> simp only [DevicePc.advance, reduceCtorEq] at ha
    all_goals
      split at ha <;> cases ha
      exact h.join
  | tickTouch now device devices status =>
    cases ending <;> cases ha
    · rename_i time
      obtain ⟨hrows, htargets⟩ := touch_rows s.db time device.id
      have h' := h.withRows (h.valid.touch _ _) (fun a _ => hrows a) htargets
      split
      · exact h'.pass rfl rfl rfl (fun _ => rfl) ⟨rfl, fun _ => rfl⟩
      · exact h'.idle (fun _ => rfl) ⟨rfl, fun _ => rfl⟩
    · exact h.idle (fun _ => rfl) ⟨rfl, fun _ => rfl⟩
  | addWait deviceId i =>
    cases ending <;> simp only [DevicePc.advance, reduceCtorEq] at ha
    · obtain ⟨-, -, ha⟩ := Option.map_eq_some_iff.mp ha
      cases ha
      exact h.idle (fun _ => rfl) ⟨rfl, fun _ => rfl⟩
    · split at ha <;> cases ha
      exact h.idle (fun _ => rfl) ⟨rfl, fun _ => rfl⟩
  | tickCheck now devices | scanCheck devices =>
    cases devices <;> cases ending <;> cases ha <;>
      exact h.pass rfl rfl rfl (fun _ => rfl) ⟨rfl, fun _ => rfl⟩
  | addFetch | tickList | tickLinked | tickSubscribe | tickStatus | tickRecheck | tickRelinked
  | scanList | scanLinked | scanAcquire | scanning | finished =>
    cases ending <;> simp only [DevicePc.advance, reduceCtorEq] at ha
    all_goals
      repeat' split at ha
      all_goals cases ha <;> exact h.pass rfl rfl rfl (fun _ => rfl) ⟨rfl, fun _ => rfl⟩

end Steps

theorem startable_of_mayStart {p : DeviceThreads} {address : Address} {pcs : List DevicePc}
    (hp : p.threads.Perm pcs) (h : mayStart p address = true) :
    Startable p.shared pcs address := by
  simp only [mayStart, Bool.or_eq_true, Bool.and_eq_true, Bool.not_eq_true',
    List.any_eq_false, Bool.not_eq_true] at h
  exact h.imp_right fun ⟨hreg, hnot⟩ => ⟨hreg, fun pc hpc => hnot pc (hp.mem_iff.mpr hpc)⟩

theorem cautious_of_attemptsEnd {p : DeviceThreads} {i : ℕ} {ending : Ending} {pc : DevicePc}
    {pcs : List DevicePc} (hok : attemptsEnd p (.thread i ending) = true)
    (hi : p.threads[i]? = some pc) (hp : p.threads.Perm pcs) : Cautious p.shared pcs pc := by
  simp only [attemptsEnd, hi] at hok
  cases pc with
  | removeLinked device worker => simpa [Cautious] using hok
  | addEnsure deviceId address addrType => exact startable_of_mayStart hp hok
  | tickEnsure now device rest => exact startable_of_mayStart hp hok
  | _ => trivial

theorem step_safe {p p' : DeviceThreads} {e : DeviceEvent} (h : Safe p.shared p.threads)
    (hok : attemptsEnd p e = true) (hs : deviceThreads.step p e = some p') :
    Safe p'.shared p'.threads := by
  cases e with
  | addDevice | removeDevice | monitorTick | scanWindow =>
    cases hs
    exact (h.enter ⟨rfl, fun _ => rfl⟩).perm (p.spawn_perm _).symm
  | thread i ending =>
    refine Pool.step_invariant (I := Safe) (fun _ _ _ hp h => h.perm hp) ?_ h hs
    intro pc pc' s' rest hi hp hfocus ha
    exact hfocus.advance (cautious_of_attemptsEnd hok hi hp) ha
  | worker i e =>
    obtain ⟨m, hm, rfl⟩ := Option.map_eq_some_iff.mp hs
    exact h.evolve rfl (BluepyManager.stepWorker_evolves hm)
  | submit i op =>
    change (if op = .shutdown then none else some _) = some p' at hs
    split_ifs at hs
    cases hs
    exact h.evolve rfl (p.shared.manager.submit_evolves i op)

/-- Every address that the manager holds has a row. A worker that is active for any other
address was told to stop, or is by the next step of the thread that popped it. -/
theorem held_registered {p : DeviceThreads}
    (hrun : deviceThreads.Run (fun p e => attemptsEnd p e = true) p) :
    (∀ a, p.shared.manager.holds a = true → isRegistered p.shared.db a = true) ∧
      ∀ (i : ℕ) (w : Worker), p.shared.manager.started[i]? = some w → w.active = true →
        isRegistered p.shared.db w.address = true ∨ w.stopping = true ∨
          ∃ pc ∈ p.threads, pc.tells i = true := by
  have hsafe : Safe p.shared p.threads := by
    refine hrun.invariant (P := fun p => Safe p.shared p.threads) ?_ fun _ _ _ => step_safe
    rintro ⟨s, threads⟩ ⟨hnil, hv, hs⟩
    dsimp only at hnil hv hs
    rw [hnil, hs]
    refine ⟨hv, (fun _ _ h => nomatch h), (fun _ h => nomatch h), by simp, ?_⟩
    rintro i ⟨w, hw, -⟩
    cases hw
  refine ⟨hsafe.rows, fun i w hw ha => ?_⟩
  by_cases hentry : p.shared.manager.workers w.address = some i
  · left
    apply hsafe.rows
    rw [BluepyManager.holds, BluepyManager.entry, hentry, Option.bind_some, hw]
    exact ha
  · right
    cases hstop : w.stopping with
    | true => exact Or.inl rfl
    | false => exact Or.inr (hsafe.strays i ⟨w, hw, ha, hstop, hentry⟩)

def heaterAddress : Address := "A4:C1:38:00:00:05"

def freshServer : DeviceThreads := { shared := { db := {} }, threads := [] }

theorem freshServer_init : deviceThreads.init freshServer := ⟨rfl, .empty, rfl⟩

def DevicePc.hasFinished : DevicePc → Bool
  | .finished _ => true
  | _ => false

def heaterAdded : List DeviceEvent :=
  [.addDevice 1 heaterAddress "heater" (some .publicAddr), .thread 0 .returns, .thread 0 .returns,
    .worker 0 .acquire]

def heaterRemoved : List DeviceEvent :=
  [.removeDevice 1, .thread 1 .returns, .thread 1 .returns, .thread 1 .returns]

/-- The attempt of `add_device` comes up; a tick lists the heater, which is then disconnected
and removed before the tick looks at it. -/
def heaterDisconnected : List DeviceEvent :=
  heaterAdded ++ [.worker 0 .connectOk, .worker 0 .announce, .thread 0 .returns, .thread 0 .returns]
    ++ heaterRemoved ++ [.thread 1 .returns, .thread 1 .returns, .monitorTick 0, .thread 2 .returns,
      .worker 0 .head, .worker 0 (.perform ⟨.ok [], .ok []⟩), .worker 0 .complete,
      .thread 1 .returns, .worker 0 .head, .worker 0 .clear, .thread 1 .timesOut,
      .worker 0 .hangUp, .thread 1 .returns, .thread 2 .returns, .thread 2 .returns,
      .thread 2 .returns, .thread 2 .returns]

theorem held_registered_heater : ∃ p : DeviceThreads, p.shared.manager.started.length = 1 ∧
    (∀ pc ∈ p.threads, pc.hasFinished = true) ∧ ∀ a, p.shared.manager.holds a = false := by
  obtain ⟨p, hrun, hp⟩ := System.exists_run_of_replay attemptsEnd freshServer_init
    heaterDisconnected
    (p := fun p => decide (p.shared.manager.started.length = 1) &&
      p.threads.all DevicePc.hasFinished && p.shared.db.devices.isEmpty) (by decide +kernel)
  simp only [Bool.and_eq_true, decide_eq_true_eq, List.all_eq_true, List.isEmpty_iff] at hp
  refine ⟨p, hp.1.1, hp.1.2, fun a => ?_⟩
  by_contra hheld
  have hreg := (held_registered hrun).1 a (by simpa using hheld)
  rw [isRegistered, hp.2] at hreg
  cases hreg

/-- `connect` times out, the heater is removed while its worker still tries, and the attempt
then succeeds. -/
theorem orphan_link : ¬∀ p, deviceThreads.Reachable p →
    (∀ pc ∈ p.threads, pc.hasFinished = true) →
    ∀ a, p.shared.manager.holds a = true → isRegistered p.shared.db a = true := by
  intro hall
  obtain ⟨p, hrun, hp⟩ := System.exists_reachable_of_replay freshServer_init
    (heaterAdded ++ [.thread 0 .timesOut, .thread 0 .returns] ++ heaterRemoved ++
      [.thread 1 .returns, .worker 0 .connectOk, .worker 0 .announce])
    (p := fun p => p.threads.all DevicePc.hasFinished && p.shared.manager.holds heaterAddress &&
      !isRegistered p.shared.db heaterAddress) (by decide +kernel)
  simp only [Bool.and_eq_true, List.all_eq_true, Bool.not_eq_true'] at hp
  obtain ⟨⟨hfinished, hheld⟩, hnone⟩ := hp
  rw [hall p hrun hfinished heaterAddress hheld] at hnone
  cases hnone

end HomeServer.Services
