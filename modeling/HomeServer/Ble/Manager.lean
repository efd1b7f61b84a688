import HomeServer.Ble.Worker
import HomeServer.Lib.Slots

/-! `BluepyManager`: the dict of workers behind its lock, and the adapter lock that an attempt
and a scan share. A method that waits is cut at its waits; each piece here is one step. -/
namespace HomeServer.Ble
open HomeServer.Db HomeServer.Lib.Slots

namespace Worker
variable {w w' : Worker} {e : WorkerEvent}

/-- Linked, or with an attempt that may still link up. -/
def active (w : Worker) : Bool :=
  w.connected || decide (w.phase = .starting) || decide (w.phase = .connecting)

/-- A shutdown is on the queue or was taken from it, or `run` is already on its way out. -/
def stopping (w : Worker) : Bool :=
  w.stopEvent || (w.queue.any fun cmd => cmd.op = .shutdown) ||
    match w.phase with
    | .handling cmd => decide (cmd.op = .shutdown)
    | .draining | .clearing | .closing | .ended => true
    | _ => false

theorem address_step (h : w.step e = some w') : w'.address = w.address := by
  cases step_moves h with
  | perform cmd hp reply => exact (handleCommand_same w cmd.op reply).1.address
  | acquire | connectOk | connectFailed | announce | leave | poll | take | complete
  | pollReturned | pollDisconnected | pollRaised | drained | drainOne | clear | hangUp => rfl

/-- No step of a worker starts an attempt. -/
theorem active_step (h : w.step e = some w') (ha : w'.active = true) : w.active = true := by
  cases step_moves h with
  | acquire hp | connectOk hp | connectFailed hp => simp [active, hp]
  | perform cmd hp reply =>
    have hc := (handleCommand_same w cmd.op reply).1.connected
    have hconnected : w.connected = true := by simpa [active, hc] using ha
    simp [active, hconnected]
  | announce | leave | poll | take | complete | pollReturned | pollDisconnected | pollRaised
  | drained | clear | hangUp => simp_all [active]
  | drainOne hp => simpa [active, hp] using ha

theorem stopping_step (h : w.step e = some w') (hs : w.stopping = true) :
    w'.stopping = true := by
  cases step_moves h with
  | take hp _ cmd rest hq =>
    simp only [stopping, hp, hq, List.any_cons, Bool.or_eq_true, Bool.or_false] at hs ⊢
    tauto
  | perform cmd hp reply =>
    obtain ⟨⟨-, hq, -, -, -⟩, hstop⟩ := handleCommand_same w cmd.op reply
    simp only [stopping, hp, hq, hstop, Bool.or_eq_true, Bool.or_false] at hs ⊢
    tauto
  | connectFailed | leave | pollDisconnected | pollRaised | drained | clear | hangUp =>
    simp [stopping]
  | drainOne hp => simp [stopping, hp]
  | acquire hp | connectOk hp | announce hp | poll hp | complete _ _ hp | pollReturned hp =>
    simpa [stopping, hp] using hs

theorem stopping_put (cmd : Cmd) (h : w.stopping = true ∨ cmd.op = .shutdown) :
    (w.put cmd).stopping = true := by
  simp only [stopping, put, List.any_append, List.any_cons, List.any_nil, Bool.or_false,
    Bool.or_eq_true, decide_eq_true_eq] at h ⊢
  tauto

theorem stopping_of_not_alive (h : w.isAlive = false) : w.stopping = true := by
  have hp : w.phase = .ended := by simpa [isAlive] using h
  simp [stopping, hp]

end Worker

/-- `started` holds every worker ever started, `workers` the index of the one in the dict. -/
structure BluepyManager where
  started : List Worker := []
  workers : Address → Option ℕ := fun _ => none
  adapterLock : Bool := false
  nextFuture : FutureId := 0

namespace BluepyManager

def entry (m : BluepyManager) (address : Address) : Option Worker :=
  (m.workers address).bind fun i => m.started[i]?

/-- `worker is not None and worker.is_connected()`, for the entry that was read. -/
def linked (m : BluepyManager) (worker : Option ℕ) : Bool :=
  (worker.bind fun i => m.started[i]?).any Worker.isConnected

def start (m : BluepyManager) (address : Address) (addrType : AddrType) : BluepyManager :=
  { m with
    started := m.started ++ [{ address, addrType }]
    workers := Function.update m.workers address (some m.started.length) }

/-- `_ensure_worker`. -/
def ensureWorker (m : BluepyManager) (address : Address) (addrType : AddrType) :
    ℕ × BluepyManager :=
  match m.workers address with
  | some i =>
    if (m.started[i]?).any Worker.isAlive then (i, m)
    else (m.started.length, m.start address addrType)
  | none => (m.started.length, m.start address addrType)

def pop (m : BluepyManager) (address : Address) : Option ℕ × BluepyManager :=
  (m.workers address, { m with workers := Function.update m.workers address none })

def submit (m : BluepyManager) (i : ℕ) (op : Op) : FutureId × BluepyManager :=
  (m.nextFuture, { m with
    started := m.started.modify i fun w => w.put ⟨op, m.nextFuture⟩
    nextFuture := m.nextFuture + 1 })

def result (m : BluepyManager) (i : ℕ) (f : FutureId) : Option Outcome :=
  (m.started[i]?).bind fun w => w.done.lookup f

def lockAfter (locked : Bool) : WorkerEvent → Option Bool
  | .acquire => if locked then none else some true
  | .connectOk | .connectFailed _ => some false
  | _ => some locked

def stepWorker (m : BluepyManager) (i : ℕ) (e : WorkerEvent) : Option BluepyManager :=
  (m.started[i]?).bind fun w => (lockAfter m.adapterLock e).bind fun adapterLock =>
    (w.step e).map fun w => { m with started := m.started.set i w, adapterLock }

def holds (m : BluepyManager) (address : Address) : Bool := (m.entry address).any Worker.active

/-- A worker that is out of the dict and has not been told to stop may come or stay up. -/
def Stray (m : BluepyManager) (i : ℕ) : Prop :=
  ∃ w, m.started[i]? = some w ∧ w.active = true ∧ w.stopping = false ∧
    m.workers w.address ≠ some i

/-- The entries of the dict are workers for their address. -/
def Indexed (m : BluepyManager) : Prop :=
  ∀ a i, m.workers a = some i → ∃ w, m.started[i]? = some w ∧ w.address = a

variable {m m' : BluepyManager} {a b : Address} {addrType : AddrType} {i j : ℕ}

@[simp] theorem pop_workers (m : BluepyManager) (a b : Address) :
    (m.pop a).2.workers b = if b = a then none else m.workers b :=
  Function.update_apply ..

@[simp] theorem start_workers (m : BluepyManager) (a : Address) (addrType : AddrType)
    (b : Address) :
    (m.start a addrType).workers b = if b = a then some m.started.length else m.workers b :=
  Function.update_apply ..

/-- The same dict over workers of which none became active and none took back a shutdown. -/
structure Evolves (m m' : BluepyManager) : Prop where
  workers : m'.workers = m.workers
  length : m'.started.length = m.started.length
  worker : ∀ (j : ℕ) (w' : Worker), m'.started[j]? = some w' → ∃ w : Worker,
    m.started[j]? = some w ∧ w'.address = w.address ∧
    (w'.active = true → w.active = true) ∧ (w.stopping = true → w'.stopping = true)

theorem Evolves.of_same (hw : m'.workers = m.workers) (hs : m'.started = m.started) :
    Evolves m m' :=
  ⟨hw, by rw [hs], fun _ w h => ⟨w, hs ▸ h, rfl, id, id⟩⟩

theorem Evolves.holds (h : Evolves m m') (hb : m'.holds b = true) : m.holds b = true := by
  simp only [BluepyManager.holds, entry, h.workers, Option.any_eq_true,
    Option.bind_eq_some_iff] at hb ⊢
  obtain ⟨w', ⟨j, hj, hw'⟩, ha⟩ := hb
  obtain ⟨w, hw, -, hactive, -⟩ := h.worker j w' hw'
  exact ⟨w, ⟨j, hj, hw⟩, hactive ha⟩

theorem Evolves.stray (h : Evolves m m') (hs : Stray m' j) : Stray m j := by
  obtain ⟨w', hw', ha, hnot, hout⟩ := hs
  obtain ⟨w, hw, haddr, hactive, hstop⟩ := h.worker j w' hw'
  refine ⟨w, hw, hactive ha, ?_, ?_⟩
  · exact Bool.eq_false_iff.mpr fun hs => Bool.eq_false_iff.mp hnot (hstop hs)
  · rwa [← haddr, ← h.workers]

theorem Evolves.indexed (h : Evolves m m') (hm : Indexed m) : Indexed m' := by
  intro a j hj
  rw [h.workers] at hj
  obtain ⟨w, hw, haddr⟩ := hm a j hj
  have hlt : j < m'.started.length := h.length ▸ (List.getElem?_eq_some_iff.mp hw).1
  have hw' := List.getElem?_eq_getElem hlt
  obtain ⟨w₀, hw₀, haddr', -⟩ := h.worker j _ hw'
  rw [hw] at hw₀
  cases hw₀
  exact ⟨_, hw', haddr'.trans haddr⟩

theorem submit_evolves (m : BluepyManager) (i : ℕ) (op : Op) : Evolves m (m.submit i op).2 := by
  refine ⟨rfl, List.length_modify .., fun j w' hw' => ?_⟩
  change (m.started.modify i _)[j]? = some w' at hw'
  rw [List.getElem?_modify] at hw'
  obtain ⟨w, hw, rfl⟩ := Option.map_eq_some_iff.mp hw'
  refine ⟨w, hw, ?_⟩
  split
  · exact ⟨rfl, id, fun hs => Worker.stopping_put _ (Or.inl hs)⟩
  · exact ⟨rfl, id, id⟩

theorem stepWorker_evolves {e : WorkerEvent} (h : m.stepWorker i e = some m') : Evolves m m' := by
  obtain ⟨w, hw, h⟩ := Option.bind_eq_some_iff.mp h
  obtain ⟨locked, -, h⟩ := Option.bind_eq_some_iff.mp h
  obtain ⟨w', hstep, rfl⟩ := Option.map_eq_some_iff.mp h
  refine ⟨rfl, List.length_set, fun j w₁ hw₁ => ?_⟩
  dsimp only at hw₁
  rw [getElem?_set_some hw] at hw₁
  split at hw₁
  · rename_i hij
    subst hij
    cases hw₁
    exact ⟨w, hw, Worker.address_step hstep, Worker.active_step hstep,
      Worker.stopping_step hstep⟩
  · exact ⟨w₁, hw₁, rfl, id, id⟩

theorem stray_shutdown (h : Stray (m.submit i .shutdown).2 j) : j ≠ i := by
  rintro rfl
  obtain ⟨w', hw', -, hnot, -⟩ := h
  change (m.started.modify j _)[j]? = some w' at hw'
  rw [List.getElem?_modify] at hw'
  obtain ⟨w, hw, rfl⟩ := Option.map_eq_some_iff.mp hw'
  rw [if_pos rfl, Worker.stopping_put _ (Or.inr rfl)] at hnot
  cases hnot

theorem holds_pop (h : (m.pop a).2.holds b = true) : b ≠ a ∧ m.holds b = true := by
  simp only [BluepyManager.holds, entry, pop_workers] at h ⊢
  split at h
  · cases h
  · rename_i hne
    exact ⟨hne, h⟩

theorem stray_pop (h : Stray (m.pop a).2 j) : Stray m j ∨ m.workers a = some j := by
  obtain ⟨w, hw, ha, hnot, hout⟩ := h
  by_cases hj : m.workers w.address = some j
  · right
    by_cases hwa : w.address = a
    · exact hwa ▸ hj
    · rw [pop_workers, if_neg hwa] at hout
      exact absurd hj hout
  · exact Or.inl ⟨w, hw, ha, hnot, hj⟩

theorem Indexed.pop (hm : Indexed m) (a : Address) : Indexed (m.pop a).2 := by
  intro b j hj
  rw [pop_workers] at hj
  split at hj
  · cases hj
  · exact hm b j hj

/-- A worker is reused while its thread is alive, and replaced by a new one after. -/
theorem ensureWorker_cases (m : BluepyManager) (a : Address) (addrType : AddrType) :
    (m.ensureWorker a addrType).2 = m ∧ (m.entry a).any Worker.isAlive = true ∨
      (m.ensureWorker a addrType).2 = m.start a addrType ∧
        (m.entry a).any Worker.isAlive = false := by
  unfold ensureWorker entry
  cases m.workers a with
  | none => exact Or.inr ⟨rfl, rfl⟩
  | some i =>
    dsimp only [Option.bind_some]
    split
    · rename_i halive
      exact Or.inl ⟨rfl, halive⟩
    · rename_i hdead
      exact Or.inr ⟨rfl, by simpa using hdead⟩

theorem Indexed.start (hm : Indexed m) (a : Address) (addrType : AddrType) :
    Indexed (m.start a addrType) := by
  intro b j hj
  rw [start_workers] at hj
  split at hj
  · rename_i hb
    cases hj
    exact ⟨_, List.getElem?_concat_length, hb.symm⟩
  · obtain ⟨w, hw, haddr⟩ := hm b j hj
    exact ⟨w, getElem?_concat_of_some hw, haddr⟩

theorem holds_start (hm : Indexed m) (h : (m.start a addrType).holds b = true) :
    b = a ∨ m.holds b = true := by
  by_cases hb : b = a
  · exact Or.inl hb
  right
  simp only [BluepyManager.holds, entry, start_workers, if_neg hb, Option.any_eq_true,
    Option.bind_eq_some_iff] at h ⊢
  obtain ⟨w, ⟨j, hj, hw⟩, ha⟩ := h
  obtain ⟨w₀, hw₀, -⟩ := hm b j hj
  change (m.started ++ [_])[j]? = some w at hw
  rw [getElem?_concat_of_some hw₀] at hw
  cases hw
  exact ⟨w, ⟨j, hj, hw₀⟩, ha⟩

theorem stray_start (hdead : (m.entry a).any Worker.isAlive = false)
    (h : Stray (m.start a addrType) j) : Stray m j := by
  obtain ⟨w, hw, ha, hnot, hout⟩ := h
  change (m.started ++ [_])[j]? = some w at hw
  rw [start_workers] at hout
  rcases getElem?_concat_some hw with hw | ⟨rfl, rfl⟩
  · refine ⟨w, hw, ha, hnot, fun hj => ?_⟩
    by_cases hwa : w.address = a
    · -- The entry that was replaced had ended.
      have hentry : m.entry a = some w := by rw [entry, ← hwa, hj, Option.bind_some, hw]
      rw [hentry, Option.any_some] at hdead
      rw [Worker.stopping_of_not_alive hdead] at hnot
      cases hnot
    · exact hout (by rw [if_neg hwa, hj])
  · exact absurd (by simp) hout

end BluepyManager
end HomeServer.Ble
