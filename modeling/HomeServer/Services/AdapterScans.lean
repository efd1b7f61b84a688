import HomeServer.Services.OrphanLinks

/-! A scan has the adapter to itself when every link is dropped before it takes the adapter lock:
of the scan windows only the lock is left to keep attempts away. -/
namespace HomeServer.Services
open HomeServer.Db HomeServer.Ble HomeServer.Lib

namespace DevicePc

/-- The addresses that a scan window has still to look at; none once it waits for the lock. -/
def remaining : DevicePc → Option (List Address)
  | .scanCheck addresses => some addresses
  | .scanLinked address rest _ => some (address :: rest)
  | .pop (.scanWindow address rest) | .shutdown _ (.scanWindow address rest)
  | .await _ _ (.scanWindow address rest) | .join _ _ (.scanWindow address rest) =>
    some (address :: rest)
  | .scanAcquire | .scanning => some []
  | _ => none

def scans : DevicePc → Bool
  | .scanning => true
  | _ => false

/-- The address that a scan window leaves behind with its next step. -/
def passed (s : DeviceWorld) : DevicePc → Option Address
  | .scanLinked address _ worker => if s.manager.linked worker then none else some address
  | .pop (.scanWindow address _) =>
    if (s.manager.workers address).isSome then none else some address
  | .join _ none (.scanWindow address _) => some address
  | _ => none

end DevicePc

/-- A scan window lists the devices while every link belongs to one of them, and leaves an
address behind while no worker of that address is connected; and no attempt comes up for an
address that an open scan window has left behind. -/
def dropsLinks (p : DeviceThreads) : DeviceEvent → Bool
  | .thread i _ =>
    match p.threads[i]? with
    | some .scanList => p.shared.manager.started.all fun w =>
        !w.connected || isRegistered p.shared.db w.address
    | some pc => (pc.passed p.shared).all fun address =>
        p.shared.manager.started.all fun w => !w.connected || w.address ≠ address
    | none => true
  | .worker i .connectOk => (p.shared.manager.started[i]?).all fun w =>
      p.threads.all fun pc => pc.remaining.all fun addresses => w.address ∈ addresses
  | _ => true

open DevicePc

def attempts (w : Worker) : Bool := w.phase = .connecting

/-- No worker has come up or begun to connect, and the adapter lock is as before. -/
structure Quietly (m m' : BluepyManager) : Prop where
  connected : ∀ w' ∈ m'.started, w'.connected = true →
    ∃ w ∈ m.started, w.connected = true ∧ w.address = w'.address
  attempts : m'.started.countP attempts = m.started.countP attempts
  adapterLock : m'.adapterLock = m.adapterLock

namespace Quietly

theorem of_started {m m' : BluepyManager} (hs : m'.started = m.started)
    (hl : m'.adapterLock = m.adapterLock) : Quietly m m' :=
  ⟨fun w hw hc => ⟨w, hs ▸ hw, hc, rfl⟩, by rw [hs], hl⟩

theorem ensureWorker (m : BluepyManager) (a : Address) (addrType : AddrType) :
    Quietly m (m.ensureWorker a addrType).2 := by
  rcases m.ensureWorker_cases a addrType with ⟨heq, -⟩ | ⟨heq, -⟩
  · rw [heq]
    exact .of_started rfl rfl
  rw [heq]
  refine ⟨fun w hw hc => ?_, ?_, rfl⟩
  · rcases List.mem_append.mp hw with hw | hw
    · exact ⟨w, hw, hc, rfl⟩
    · rw [List.mem_singleton.mp hw] at hc
      cases hc
  · simp [BluepyManager.start, List.countP_append, Services.attempts]

theorem submit (m : BluepyManager) (i : ℕ) (op : Op) : Quietly m (m.submit i op).2 := by
  refine ⟨fun w' hw' hc => ?_, ?_, rfl⟩
  · obtain ⟨j, hj⟩ := List.getElem?_of_mem hw'
    obtain ⟨w, hw, haddr, -⟩ := (m.submit_evolves i op).worker j w' hj
    refine ⟨w, List.mem_of_getElem? hw, ?_, haddr.symm⟩
    change (m.started.modify i _)[j]? = some w' at hj
    rw [List.getElem?_modify, hw] at hj
    obtain rfl := Option.some.inj hj
    split at hc <;> exact hc
  · have hput : ∀ w : Worker, Services.attempts (w.put ⟨op, m.nextFuture⟩) = Services.attempts w :=
      fun _ => rfl
    exact Slots.countP_modify hput m.started i

end Quietly

section Attempts
variable {w w' : Worker} {e : WorkerEvent} {lock locked : Bool}

theorem connected_step (h : w.step e = some w') (hc : w'.connected = true) :
    w.connected = true ∨ e = .connectOk := by
  cases Worker.step_moves h with
  | connectOk hp => exact Or.inr rfl
  | perform cmd hp reply =>
    have hsame := (Worker.handleCommand_same w cmd.op reply).1.connected
    exact Or.inl (hsame ▸ hc)
  | clear hp => cases hc
  | acquire | connectFailed | announce | leave | poll | take | complete | pollReturned
  | pollDisconnected | pollRaised | drained | drainOne | hangUp => exact Or.inl hc

/-- An attempt begins by taking the free lock and ends by giving it back. -/
theorem attempts_step (h : w.step e = some w') (hl : BluepyManager.lockAfter lock e = some locked) :
    (attempts w = false ∧ attempts w' = true ∧ lock = false ∧ locked = true) ∨
    (attempts w = true ∧ attempts w' = false ∧ locked = false) ∨
    (attempts w = attempts w' ∧ lock = locked) := by
  cases Worker.step_moves h with
  | acquire hp =>
    cases lock <;> cases hl
    exact Or.inl ⟨by simp [attempts, hp], rfl, rfl, rfl⟩
  | connectOk hp | connectFailed hp =>
    cases hl
    exact Or.inr (Or.inl ⟨by simp [attempts, hp], rfl, rfl⟩)
  | announce hp | leave hp | poll hp | take hp | perform _ hp | complete _ _ hp | pollReturned hp
  | pollDisconnected hp | pollRaised hp | drained hp | drainOne hp | clear hp | hangUp hp =>
    cases hl
    exact Or.inr (Or.inr ⟨by simp [attempts, hp], rfl⟩)

end Attempts

/-- A step of a thread that neither takes nor gives back the adapter. -/
structure Passes (s : DeviceWorld) (pc : DevicePc) (s' : DeviceWorld) (pc' : DevicePc) : Prop where
  manager : Quietly s.manager s'.manager
  idle : pc.scans = false ∧ pc'.scans = false
  window : ∀ rest, pc'.remaining = some rest →
    pc = .scanList ∧ rest = s.db.devices.map Device.address ∨ pc.remaining = some rest ∨
    ∃ a, pc.remaining = some (a :: rest) ∧ pc.passed s = some a

section Steps
variable {s s' : DeviceWorld} {pc pc' : DevicePc} {pcs rest : List DevicePc}

namespace Passes

theorem outside (hm : Quietly s.manager s'.manager) (hpc : pc.scans = false)
    (hscans : pc'.scans = false) (hremaining : pc'.remaining = none) : Passes s pc s' pc' := by
  refine ⟨hm, ⟨hpc, hscans⟩, fun rest hrest => ?_⟩
  rw [hremaining] at hrest
  cases hrest

theorem goesOn (hm : Quietly s.manager s'.manager) (hpc : pc.scans = false)
    (hscans : pc'.scans = false) (hremaining : pc'.remaining = pc.remaining) :
    Passes s pc s' pc' :=
  ⟨hm, ⟨hpc, hscans⟩, fun _ hrest => Or.inr (Or.inl (hremaining ▸ hrest))⟩

theorem resume {caller : Caller} (hm : Quietly s.manager s'.manager) (hpc : pc.scans = false)
    (hremaining : ∀ a rest, caller = .scanWindow a rest →
      pc.remaining = some (a :: rest) ∧ pc.passed s = some a) :
    Passes s pc s' (resume caller) := by
  cases caller with
  | removeDevice device => exact .outside hm hpc rfl rfl
  | scanWindow a rest =>
    refine ⟨hm, ⟨hpc, rfl⟩, fun rest' hrest => ?_⟩
    obtain rfl := Option.some.inj hrest
    exact Or.inr (Or.inr ⟨a, hremaining a _ rfl⟩)

end Passes

/-- A step passes, or a scan takes the adapter, or gives it back. -/
theorem advance_passes {ending : Ending} (h : pc.advance s ending = some (s', pc')) :
    Passes s pc s' pc' ∨
    (pc = .scanAcquire ∧ pc' = .scanning ∧ s.manager.adapterLock = false ∧
      s'.manager = { s.manager with adapterLock := true }) ∨
    (pc = .scanning ∧ pc'.remaining = none ∧ pc'.scans = false ∧
      s'.manager = { s.manager with adapterLock := false }) := by
  cases pc with
  | addEnsure deviceId address addrType =>
    cases ending <;> cases h
    exact Or.inl (.outside (.ensureWorker ..) rfl rfl rfl)
  | tickEnsure now device devices =>
    cases ending <;> cases h
    exact Or.inl (.outside (.ensureWorker ..) rfl rfl rfl)
  | pop caller =>
    cases ending <;> cases h
    have hm : Quietly s.manager (s.manager.pop caller.address).2 := .of_started rfl rfl
    cases hw : s.manager.workers caller.address with
    | none =>
      refine Or.inl ?_
      simp only [BluepyManager.pop, hw, popped]
      refine .resume hm rfl fun a rest hcaller => ?_
      subst hcaller
      exact ⟨rfl, by simp [passed, show s.manager.workers a = none from hw]⟩
    | some i =>
      refine Or.inl ?_
      simp only [BluepyManager.pop, hw, popped]
      exact .goesOn hm rfl rfl (by cases caller <;> rfl)
  | shutdown i caller =>
    cases ending <;> cases h
    exact Or.inl (.goesOn (.submit ..) rfl rfl (by cases caller <;> rfl))
  | await i future caller =>
    have hgoes : ∀ raised, Passes s (.await i future caller) s (.join i raised caller) :=
      fun raised => .goesOn (.of_started rfl rfl) rfl rfl (by cases caller <;> rfl)
    cases ending <;> simp only [DevicePc.advance, reduceCtorEq] at h
    · obtain ⟨outcome, -, h⟩ := Option.map_eq_some_iff.mp h
      cases outcome <;> cases h <;> exact Or.inl (hgoes _)
    · split at h <;> cases h
      exact Or.inl (hgoes _)
  | join i raised caller =>
    have hleaves : Passes s (.join i raised caller) s (leave caller raised) := by
      cases raised with
      | none =>
        refine .resume (.of_started rfl rfl) rfl fun a rest hcaller => ?_
        subst hcaller
        exact ⟨rfl, rfl⟩
      | some e => exact .outside (.of_started rfl rfl) rfl rfl rfl
    cases ending <;> simp only [DevicePc.advance, reduceCtorEq] at h
    all_goals
      split at h <;> cases h
      exact Or.inl hleaves
  | scanList =>
    cases ending <;> cases h
    · refine Or.inl ⟨.of_started rfl rfl, ⟨rfl, rfl⟩, fun rest hrest => ?_⟩
      exact Or.inl ⟨rfl, (Option.some.inj hrest).symm⟩
    · exact Or.inl (.outside (.of_started rfl rfl) rfl rfl rfl)
  | scanCheck addresses =>
    cases addresses <;> cases ending <;> cases h <;>
      exact Or.inl (.goesOn (.of_started rfl rfl) rfl rfl rfl)
  | scanLinked a rest worker =>
    cases ending <;> cases h
    cases hlinked : s.manager.linked worker with
    | true => exact Or.inl (.goesOn (.of_started rfl rfl) rfl rfl rfl)
    | false =>
      refine Or.inl ⟨.of_started rfl rfl, ⟨rfl, rfl⟩, fun rest' hrest => ?_⟩
      obtain rfl := Option.some.inj hrest
      exact Or.inr (Or.inr ⟨a, rfl, by simp [passed, hlinked]⟩)
  | scanAcquire =>
    cases ending <;> simp only [DevicePc.advance, reduceCtorEq] at h
    split at h <;> cases h
    rename_i hfree
    exact Or.inr (Or.inl ⟨rfl, rfl, by simpa using hfree, rfl⟩)
  | scanning =>
    cases ending <;> cases h <;> exact Or.inr (Or.inr ⟨rfl, rfl, rfl, rfl⟩)
  | addWait deviceId i =>
    cases ending <;> simp only [DevicePc.advance, reduceCtorEq] at h
    · obtain ⟨-, -, h⟩ := Option.map_eq_some_iff.mp h
      cases h
      exact Or.inl (.outside (.of_started rfl rfl) rfl rfl rfl)
    · split at h <;> cases h
      exact Or.inl (.outside (.of_started rfl rfl) rfl rfl rfl)
  | tickTouch now device devices status =>
    cases ending <;> cases h
    · refine Or.inl (.outside (.of_started ?_ ?_) rfl rfl rfl) <;> split <;> rfl
    · exact Or.inl (.outside (.of_started rfl rfl) rfl rfl rfl)
  | removeLinked device worker =>
    cases ending <;> cases h
    split <;> exact Or.inl (.outside (.of_started rfl rfl) rfl rfl rfl)
  | addCreate | addFetch | removeLookup | removeCheck | removeDelete | tickList | tickLinked
  | tickSubscribe | tickStatus | tickRecheck | tickRelinked | finished =>
    cases ending <;> simp only [DevicePc.advance, reduceCtorEq] at h
    all_goals
      repeat' split at h
      all_goals cases h <;> exact Or.inl (.outside (.of_started rfl rfl) rfl rfl rfl)
  | tickCheck now devices =>
    cases devices <;> cases ending <;> cases h <;>
      exact Or.inl (.outside (.of_started rfl rfl) rfl rfl rfl)

/-- No link is up for an address that an open scan window has left behind, and the adapter lock
has one holder at most. -/
structure AdapterKept (s : DeviceWorld) (pcs : List DevicePc) : Prop where
  links : ∀ pc ∈ pcs, ∀ rest, pc.remaining = some rest → ∀ w ∈ s.manager.started,
    w.connected = true → w.address ∈ rest
  lock : pcs.countP scans + s.manager.started.countP attempts =
    if s.manager.adapterLock then 1 else 0

/-- What the run's condition says of the thread that steps. -/
structure LeavesNoLink (s : DeviceWorld) (pc : DevicePc) : Prop where
  listed : pc = .scanList → ∀ w ∈ s.manager.started, w.connected = true →
    isRegistered s.db w.address = true
  passed : ∀ a, pc.passed s = some a → ∀ w ∈ s.manager.started, w.connected = true →
    w.address ≠ a

namespace AdapterKept

theorem perm (h : AdapterKept s pcs) {l : List DevicePc} (hp : pcs.Perm l) : AdapterKept s l :=
  ⟨fun pc hpc => h.links pc (hp.mem_iff.mpr hpc), hp.countP_eq scans ▸ h.lock⟩

theorem enter (h : AdapterKept s pcs) (hremaining : pc.remaining = none)
    (hscans : pc.scans = false) : AdapterKept s (pc :: pcs) := by
  refine ⟨List.forall_mem_cons.mpr ⟨fun rest hrest => ?_, h.links⟩, ?_⟩
  · rw [hremaining] at hrest
    cases hrest
  · rw [List.countP_cons_of_neg (by simp [hscans])]
    exact h.lock

theorem quietly (h : AdapterKept s pcs) (hm : Quietly s.manager s'.manager) :
    AdapterKept s' pcs := by
  refine ⟨fun pc hpc rest hrest w' hw' hc => ?_, ?_⟩
  · obtain ⟨w, hw, hc, haddr⟩ := hm.connected w' hw' hc
    exact haddr ▸ h.links pc hpc rest hrest w hw hc
  · rw [hm.attempts, hm.adapterLock]
    exact h.lock

theorem passes (h : AdapterKept s (pc :: rest)) (hp : Passes s pc s' pc')
    (hok : LeavesNoLink s pc) : AdapterKept s' (pc' :: rest) := by
  obtain ⟨hself, hrest⟩ := List.forall_mem_cons.mp h.links
  have hlock := h.lock
  rw [List.countP_cons_of_neg (by simp [hp.idle.1])] at hlock
  have hnew : AdapterKept s (pc' :: rest) := by
    refine ⟨List.forall_mem_cons.mpr ⟨fun addresses haddresses w hw hc => ?_, hrest⟩, ?_⟩
    · rcases hp.window addresses haddresses with ⟨rfl, rfl⟩ | hsame | ⟨a, hcons, hpassed⟩
      · obtain ⟨d, hd, haddr⟩ := List.any_eq_true.mp (hok.listed rfl w hw hc)
        exact of_decide_eq_true haddr ▸ List.mem_map_of_mem hd
      · exact hself addresses hsame w hw hc
      · exact (List.mem_cons.mp (hself _ hcons w hw hc)).resolve_left (hok.passed a hpassed w hw hc)
    · rw [List.countP_cons_of_neg (by simp [hp.idle.2])]
      exact hlock
  exact hnew.quietly hp.manager

theorem advance {ending : Ending} (h : AdapterKept s (pc :: rest)) (hok : LeavesNoLink s pc)
    (ha : pc.advance s ending = some (s', pc')) : AdapterKept s' (pc' :: rest) := by
  obtain ⟨hself, hrest⟩ := List.forall_mem_cons.mp h.links
  have hlock := h.lock
  rcases advance_passes ha with hp | ⟨rfl, rfl, hfree, hm⟩ | ⟨rfl, hremaining, hscans, hm⟩
  · exact h.passes hp hok
  · refine ⟨List.forall_mem_cons.mpr ⟨?_, ?_⟩, ?_⟩
    · rw [hm]
      exact hself
    · rw [hm]
      exact hrest
    · rw [hm, List.countP_cons_of_pos rfl]
      rw [hfree, List.countP_cons_of_neg (by simp [scans])] at hlock
      simp only [Bool.false_eq_true, if_false] at hlock
      simp only [if_true]
      omega
  · refine ⟨List.forall_mem_cons.mpr ⟨fun addresses haddresses => ?_, ?_⟩, ?_⟩
    · rw [hremaining] at haddresses
      cases haddresses
    · rw [hm]
      exact hrest
    · rw [hm, List.countP_cons_of_neg (by simp [hscans])]
      rw [List.countP_cons_of_pos rfl] at hlock
      simp only [Bool.false_eq_true, if_false]
      split at hlock <;> omega

/-- A worker's step: only a success of its attempt brings a link up. -/
theorem worker {i : ℕ} {e : WorkerEvent} {m : BluepyManager} (h : AdapterKept s pcs)
    (hok : e = .connectOk → ∀ w, s.manager.started[i]? = some w → ∀ pc ∈ pcs, ∀ rest,
      pc.remaining = some rest → w.address ∈ rest)
    (hs : s.manager.stepWorker i e = some m) : AdapterKept { s with manager := m } pcs := by
  obtain ⟨w, hw, hs⟩ := Option.bind_eq_some_iff.mp hs
  obtain ⟨locked, hlocked, hs⟩ := Option.bind_eq_some_iff.mp hs
  obtain ⟨w', hstep, rfl⟩ := Option.map_eq_some_iff.mp hs
  have hcount := Slots.countP_set (p := attempts) (b := w') hw
  have hlock := h.lock
  constructor
  · intro pc hpc rest hrest x hx hc
    rcases List.mem_or_eq_of_mem_set hx with hx | rfl
    · exact h.links pc hpc rest hrest x hx hc
    · rw [Worker.address_step hstep]
      rcases connected_step hstep hc with hc | rfl
      · exact h.links pc hpc rest hrest w (List.mem_of_getElem? hw) hc
      · exact hok rfl w hw pc hpc rest hrest
  · change pcs.countP scans + (s.manager.started.set i w').countP attempts = if locked then 1 else 0
    rcases attempts_step hstep hlocked with ⟨ha, ha', hfree, htaken⟩ | ⟨ha, ha', hback⟩ |
      ⟨ha, hsame⟩
    · simp only [ha, ha', Bool.false_eq_true, if_false, if_true] at hcount
      simp only [hfree, Bool.false_eq_true, if_false] at hlock
      simp only [htaken, if_true]
      omega
    · simp only [ha, ha', Bool.false_eq_true, if_false, if_true] at hcount
      simp only [hback, Bool.false_eq_true, if_false]
      split at hlock <;> omega
    · rw [ha] at hcount
      rw [← hsame]
      omega

end AdapterKept
end Steps

theorem leavesNoLink_of_dropsLinks {p : DeviceThreads} {i : ℕ} {ending : Ending} {pc : DevicePc}
    (hok : dropsLinks p (.thread i ending) = true) (hi : p.threads[i]? = some pc) :
    LeavesNoLink p.shared pc := by
  simp only [dropsLinks, hi] at hok
  constructor
  · rintro rfl w hw hc
    simpa [hc] using List.all_eq_true.mp hok w hw
  · intro a hpassed w hw hc
    cases pc with
    | scanList => cases hpassed
    | _ =>
      simp only [hpassed, Option.all_some] at hok
      simpa [hc] using List.all_eq_true.mp hok w hw

theorem step_adapterKept {p p' : DeviceThreads} {e : DeviceEvent}
    (h : AdapterKept p.shared p.threads) (hok : dropsLinks p e = true)
    (hs : deviceThreads.step p e = some p') : AdapterKept p'.shared p'.threads := by
  cases e with
  | addDevice | removeDevice | monitorTick | scanWindow =>
    cases hs
    exact (h.enter rfl rfl).perm (p.spawn_perm _).symm
  | thread i ending =>
    refine Pool.step_invariant (I := AdapterKept) (fun _ _ _ hp h => h.perm hp) ?_ h hs
    intro pc pc' s' rest hi hp hfocus ha
    exact hfocus.advance (leavesNoLink_of_dropsLinks hok hi) ha
  | worker i e =>
    obtain ⟨m, hm, rfl⟩ := Option.map_eq_some_iff.mp hs
    refine h.worker (fun he w hw pc hpc rest hrest => ?_) hm
    subst he
    simp only [dropsLinks, hw, Option.all_some, List.all_eq_true] at hok
    simpa [hrest] using hok pc hpc
  | submit i op =>
    change (if op = .shutdown then none else some _) = some p' at hs
    split_ifs at hs
    cases hs
    exact h.quietly (.submit p.shared.manager i op)

/-- While a scan has the adapter, no worker is connected and none is inside its connect call. -/
theorem scan_alone {p : DeviceThreads}
    (hrun : deviceThreads.Run (fun p e => dropsLinks p e = true) p)
    (hscan : DevicePc.scanning ∈ p.threads) :
    ∀ w ∈ p.shared.manager.started, w.connected = false ∧ w.phase ≠ .connecting := by
  have hkept : AdapterKept p.shared p.threads := by
    refine hrun.invariant (P := fun p => AdapterKept p.shared p.threads) ?_ fun _ _ _ =>
      step_adapterKept
    rintro ⟨s, threads⟩ ⟨hnil, -, hs⟩
    dsimp only at hnil hs
    rw [hnil, hs]
    exact ⟨List.forall_mem_nil _, rfl⟩
  intro w hw
  constructor
  · by_contra hc
    have hmem := hkept.links _ hscan [] rfl w hw (by simpa using hc)
    cases hmem
  · intro hphase
    have hscans : 0 < p.threads.countP DevicePc.scans := List.countP_pos_iff.mpr ⟨_, hscan, rfl⟩
    have hattempts : 0 < p.shared.manager.started.countP attempts :=
      List.countP_pos_iff.mpr ⟨w, hw, by simp [attempts, hphase]⟩
    have hlock := hkept.lock
    split at hlock <;> omega

def goesOn (i n : ℕ) : List DeviceEvent := List.replicate n (.thread i .returns)

def heaterScanned : List DeviceEvent :=
  heaterAdded ++ [.worker 0 .connectOk, .worker 0 .announce] ++ goesOn 0 2 ++ .scanWindow ::
    goesOn 1 5 ++ [.worker 0 .head, .worker 0 (.perform ⟨.ok [], .ok []⟩), .worker 0 .complete] ++
    goesOn 1 1 ++ [.worker 0 .head, .worker 0 .clear, .worker 0 .hangUp] ++ goesOn 1 3

theorem scan_alone_heater : ∃ p : DeviceThreads, DevicePc.scanning ∈ p.threads ∧
    p.shared.manager.started.length = 1 ∧
    ∀ w ∈ p.shared.manager.started, w.connected = false ∧ w.phase ≠ .connecting := by
  obtain ⟨p, hrun, hp⟩ := System.exists_run_of_replay dropsLinks freshServer_init heaterScanned
    (p := fun p => decide (DevicePc.scanning ∈ p.threads) &&
      decide (p.shared.manager.started.length = 1)) (by decide +kernel)
  simp only [Bool.and_eq_true, decide_eq_true_eq] at hp
  exact ⟨p, hp.1, hp.2, scan_alone hrun hp.1⟩

/-- The attempt of `add_device` fails, and the second tick starts another one. -/
def heaterRetried : List DeviceEvent :=
  heaterAdded ++ .worker 0 (.connectFailed .btleException) :: goesOn 0 2 ++ .monitorTick 0 ::
    goesOn 1 5 ++ .monitorTick 10 :: goesOn 2 8 ++ [.worker 1 .acquire]

/-- All requests and ticks are over when the scan begins, but the attempt is still in flight. It
succeeds while the scan waits for the adapter. -/
theorem scan_disturbed : ¬∀ p, deviceThreads.Reachable p → DevicePc.scanning ∈ p.threads →
    ∀ w ∈ p.shared.manager.started, w.connected = false ∧ w.phase ≠ .connecting := by
  intro hall
  obtain ⟨p, hrun, hp⟩ := System.exists_reachable_of_replay freshServer_init
    (heaterRetried ++ .scanWindow :: goesOn 3 4 ++ .worker 1 .connectOk :: goesOn 3 1)
    (p := fun p => decide (DevicePc.scanning ∈ p.threads) &&
      p.shared.manager.started.any Worker.connected) (by decide +kernel)
  simp only [Bool.and_eq_true, decide_eq_true_eq, List.any_eq_true] at hp
  obtain ⟨hscan, w, hw, hc⟩ := hp
  rw [(hall p hrun hscan w hw).1] at hc
  cases hc

end HomeServer.Services
