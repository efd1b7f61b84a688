import HomeServer.Ble.ManagerCalls

/-! A `connect` that returns has seen its worker's link up, unless it found a live worker whose
link had come up before and was gone again. The link stands beside the worker's flags: it may
go at any moment, and the worker learns of it later. -/
namespace HomeServer.Ble
open HomeServer.Db HomeServer.Lib

def Phase.opening : Phase → Bool
  | .starting | .connecting | .announcing => true
  | _ => false

namespace Worker

/-- Its thread has not been inside `btle.Peripheral` yet, or is still there. -/
def attempting (w : Worker) : Bool :=
  decide (w.phase = .starting) || decide (w.phase = .connecting)

/-- The future of an attempt follows the phase. -/
structure Consistent (w : Worker) : Prop where
  undecided : w.connectFuture = none ↔ w.phase.opening = true
  failed : ∀ e, w.connectFuture = some (.error e) → w.phase = .ended

/-- What may become of a worker: one of the steps that happen, or a command on its queue. -/
inductive Goes (happens : WorkerEvent → Prop) (w : Worker) : Worker → Prop
  | rest : Goes happens w w
  | put (cmd : Cmd) : Goes happens w (w.put cmd)
  | step {w' : Worker} (e : WorkerEvent) (he : happens e) (h : w.step e = some w') :
      Goes happens w w'

variable {w w' : Worker} {happens : WorkerEvent → Prop}

theorem Consistent.goto (h : w.Consistent) (hf : w'.connectFuture = w.connectFuture)
    (hopening : w'.phase.opening = w.phase.opening) (hlive : w.phase ≠ .ended) :
    w'.Consistent := by
  refine ⟨by rw [hf, hopening, h.undecided], fun e he => ?_⟩
  exact absurd (h.failed e (hf ▸ he)) hlive

theorem Consistent.step {e : WorkerEvent} (h : w.Consistent) (hs : w.step e = some w') :
    w'.Consistent := by
  cases step_moves hs with
  | connectFailed hp e => exact ⟨by simp [Phase.opening], fun _ _ => rfl⟩
  | announce hp => exact ⟨by simp [Phase.opening], fun e he => nomatch he⟩
  | perform cmd hp reply =>
    have hsame := (handleCommand_same w cmd.op reply).1
    exact h.goto hsame.connectFuture (by simp [hp, Phase.opening]) (by simp [hp])
  | acquire hp | connectOk hp | leave hp | poll hp | take hp | complete cmd outcome hp
  | pollReturned hp | pollDisconnected hp | pollRaised hp | drained hp | drainOne hp | clear hp
  | hangUp hp =>
    exact h.goto rfl (by simp [hp, Phase.opening]) (by simp [hp])

theorem Consistent.goes (h : w.Consistent) (hg : Goes happens w w') : w'.Consistent := by
  cases hg with
  | rest => exact h
  | put cmd => exact ⟨h.undecided, h.failed⟩
  | step e _ hs => exact h.step hs

theorem Goes.attempt (hg : Goes happens w w') (hp : w.attempting = true) :
    w'.attempting = true ∨ happens .connectOk ∨ ∃ e, w'.connectFuture = some (.error e) := by
  cases hg with
  | rest | put => exact Or.inl hp
  | step e he hs =>
    cases step_moves hs with
    | acquire => exact Or.inl rfl
    | connectOk => exact Or.inr (Or.inl he)
    | connectFailed _ e => exact Or.inr (Or.inr ⟨e, rfl⟩)
    | _ => simp_all [attempting]

theorem Goes.attempted (hg : Goes happens w w') (hp : w.attempting = false) :
    w'.attempting = false := by
  cases hg with
  | rest | put => exact hp
  | step e _ hs =>
    cases step_moves hs with
    | acquire h => simp [attempting, h] at hp
    | drainOne h => simp [attempting, h]
    | _ => rfl

/-- A result is put in the future once. -/
theorem Goes.decided (hg : Goes happens w w') (h : w.Consistent) {outcome : Except Err Unit}
    (hf : w.connectFuture = some outcome) : w'.connectFuture = some outcome := by
  have hknown : w.phase.opening = false := by
    by_contra hopening
    rw [h.undecided.mpr (by simpa using hopening)] at hf
    cases hf
  cases hg with
  | rest | put => exact hf
  | step e _ hs =>
    cases step_moves hs with
    | connectFailed hp | announce hp =>
      rw [hp] at hknown
      cases hknown
    | perform cmd hp reply =>
      exact (handleCommand_same w cmd.op reply).1.connectFuture.trans hf
    | _ => exact hf

theorem consistent_new (address : Address) (addrType : AddrType) :
    ({ address, addrType } : Worker).Consistent :=
  ⟨by simp [Phase.opening], fun e he => nomatch he⟩

end Worker

section Steps
variable {m m' : BluepyManager} {a : Address} {addrType : AddrType} {i : ℕ} {w : Worker}
  {happens : ℕ → WorkerEvent → Prop}

/-- Every worker ever started is still there and has gone on by what happens to it; the others
are new. -/
structure Onward (happens : ℕ → WorkerEvent → Prop) (m m' : BluepyManager) : Prop where
  kept : ∀ (i : ℕ) (w : Worker), m.started[i]? = some w →
    ∃ w' : Worker, m'.started[i]? = some w' ∧ w.Goes (happens i) w'
  workers : ∀ w' ∈ m'.started, (∃ i, ∃ w ∈ m.started, w.Goes (happens i) w') ∨ w'.Consistent

namespace Onward

theorem of_started (h : m'.started = m.started) : Onward happens m m' :=
  ⟨fun _ w hw => ⟨w, h ▸ hw, .rest⟩, fun w hw => Or.inl ⟨0, w, h ▸ hw, .rest⟩⟩

theorem ensureWorker (m : BluepyManager) (a : Address) (addrType : AddrType) :
    Onward happens m (m.ensureWorker a addrType).2 := by
  rcases m.ensureWorker_cases a addrType with ⟨heq, -⟩ | ⟨heq, -⟩
  · rw [heq]
    exact .of_started rfl
  · rw [heq]
    refine ⟨fun i w hw => ⟨w, Slots.getElem?_concat_of_some hw, .rest⟩, fun w hw => ?_⟩
    rcases List.mem_append.mp hw with hw | hw
    · exact Or.inl ⟨0, w, hw, .rest⟩
    · exact Or.inr (List.mem_singleton.mp hw ▸ Worker.consistent_new a addrType)

theorem submit (m : BluepyManager) (i : ℕ) (op : Op) : Onward happens m (m.submit i op).2 := by
  have hslot : ∀ j, (m.submit i op).2.started[j]? =
      (m.started[j]?).map fun w => if i = j then w.put ⟨op, m.nextFuture⟩ else w := fun j =>
    List.getElem?_modify ..
  have hgoes : ∀ (j : ℕ) (w : Worker),
      w.Goes (happens j) (if i = j then w.put ⟨op, m.nextFuture⟩ else w) := by
    intro j w
    split
    · exact .put _
    · exact .rest
  constructor
  · intro j w hw
    exact ⟨_, by rw [hslot, hw]; rfl, hgoes j w⟩
  · intro w' hw'
    obtain ⟨j, hj⟩ := List.getElem?_of_mem hw'
    rw [hslot] at hj
    obtain ⟨w, hw, rfl⟩ := Option.map_eq_some_iff.mp hj
    exact Or.inl ⟨j, w, List.mem_of_getElem? hw, hgoes j w⟩

theorem stepWorker {e : WorkerEvent} (h : m.stepWorker i e = some m') :
    Onward (fun j e' => CallEvent.worker i e = .worker j e') m m' := by
  obtain ⟨w, hw, h⟩ := Option.bind_eq_some_iff.mp h
  obtain ⟨locked, -, h⟩ := Option.bind_eq_some_iff.mp h
  obtain ⟨w', hstep, rfl⟩ := Option.map_eq_some_iff.mp h
  constructor
  · intro j v hv
    by_cases hij : i = j
    · subst hij
      obtain rfl := Option.some.inj (hw.symm.trans hv)
      exact ⟨w', by simp [Slots.getElem?_set_some hw], .step e rfl hstep⟩
    · exact ⟨v, by simp [Slots.getElem?_set_some hw, hij, hv], .rest⟩
  · intro v hv
    rcases List.mem_or_eq_of_mem_set hv with hv | rfl
    · exact Or.inl ⟨i, v, hv, .rest⟩
    · exact Or.inl ⟨i, w, List.mem_of_getElem? hw, .step e rfl hstep⟩

theorem of_step {p p' : ManagerCalls} {e : CallEvent} (hs : managerCalls.step p e = some p') :
    Onward (fun i e' => e = .worker i e') p.shared p'.shared := by
  cases e with
  | connect a addrType | ensureConnecting a addrType =>
    cases Option.some.inj hs
    exact .ensureWorker p.shared a addrType
  | disconnect a =>
    cases Option.some.inj hs
    exact .of_started rfl
  | call k wait =>
    obtain ⟨pc, pc', rest, -, ha, -, -⟩ := Pool.step_focus hs
    rcases CallPc.advance_manager ha with hsame | ⟨i, hsubmit⟩
    · exact .of_started (by rw [hsame])
    · exact hsubmit ▸ .submit p.shared i .shutdown
  | worker i e =>
    obtain ⟨m, hm, rfl⟩ := Option.map_eq_some_iff.mp hs
    exact .stepWorker hm
  | submit i op =>
    change (if op = .shutdown then none else some _) = some p' at hs
    split_ifs at hs
    cases hs
    exact .submit p.shared i op

end Onward
end Steps

theorem consistent_step {p p' : ManagerCalls} {e : CallEvent}
    (h : ∀ w ∈ p.shared.started, w.Consistent) (hs : managerCalls.step p e = some p') :
    ∀ w ∈ p'.shared.started, w.Consistent := by
  intro w' hw'
  rcases (Onward.of_step hs).workers w' hw' with ⟨i, w, hw, hgoes⟩ | hnew
  · exact (h w hw).goes hgoes
  · exact hnew

/-- `up i`: the radio link of worker `i` stands. -/
structure LinkedCalls where
  calls : ManagerCalls
  up : ℕ → Bool

inductive LinkedEvent
  | call (e : CallEvent)
  | lost (i : ℕ)

/-- `btle.Peripheral` returns with the link up, and `disconnect` ends it. -/
def upAfter (up : ℕ → Bool) : CallEvent → ℕ → Bool
  | .worker i .connectOk => Function.update up i true
  | .worker i .hangUp => Function.update up i false
  | _ => up

/-- `waitForNotifications` raises `BTLEDisconnectError` for a link that is gone. -/
def mayHappen (up : ℕ → Bool) : CallEvent → Bool
  | .worker i .pollDisconnected => !up i
  | _ => true

/-- The calls and workers of `managerCalls`, over links that may be lost at any moment. -/
def linkedCalls : System LinkedCalls LinkedEvent where
  init s := s = ⟨⟨{}, []⟩, fun _ => false⟩
  step s
    | .call e =>
      if mayHappen s.up e then
        (managerCalls.step s.calls e).map fun calls => { calls, up := upAfter s.up e }
      else none
    | .lost i => if s.up i then some { s with up := Function.update s.up i false } else none

namespace LinkedCalls
variable {s s' : LinkedCalls} {i k : ℕ}

/-- Either the calls take a step, or a link is lost and they know nothing of it. -/
theorem step_cases {e : LinkedEvent} (hs : linkedCalls.step s e = some s') :
    (∃ c, e = .call c ∧ managerCalls.step s.calls c = some s'.calls ∧ s'.up = upAfter s.up c) ∨
      s'.calls = s.calls ∧ ∀ j, s'.up j = true → s.up j = true := by
  cases e with
  | call c =>
    change (if mayHappen s.up c = true then _ else none) = some s' at hs
    split_ifs at hs
    obtain ⟨calls, hcalls, rfl⟩ := Option.map_eq_some_iff.mp hs
    exact Or.inl ⟨c, rfl, hcalls, rfl⟩
  | lost i =>
    change (if s.up i = true then _ else none) = some s' at hs
    split_ifs at hs
    cases hs
    refine Or.inr ⟨rfl, fun j hj => ?_⟩
    by_cases hij : j = i
    · simp [hij] at hj
    · simpa [Function.update_of_ne hij] using hj

theorem step_invariant {P : ManagerCalls → Prop}
    (hstep : ∀ p c p', P p → managerCalls.step p c = some p' → P p') {e : LinkedEvent}
    (h : P s.calls) (hs : linkedCalls.step s e = some s') : P s'.calls := by
  rcases step_cases hs with ⟨c, -, hcalls, -⟩ | ⟨hsame, -⟩
  · exact hstep _ c _ h hcalls
  · exact hsame ▸ h

theorem consistent_of_reachable (h : linkedCalls.Reachable s) :
    ∀ w ∈ s.calls.shared.started, w.Consistent := by
  refine h.invariant (P := fun s => ∀ w ∈ s.calls.shared.started, w.Consistent) ?_
    fun _ _ _ h hs => step_invariant (fun _ _ _ => consistent_step) h hs
  rintro s rfl
  exact List.forall_mem_nil _

/-- A link that has come up belongs to an attempt that has just succeeded. -/
theorem up_step {e : LinkedEvent} (hs : linkedCalls.step s e = some s') (hup : s'.up i = true) :
    s.up i = true ∨ e = .call (.worker i .connectOk) := by
  rcases step_cases hs with ⟨c, rfl, -, hafter⟩ | ⟨-, hlost⟩
  · rw [hafter] at hup
    unfold upAfter at hup
    split at hup
    · rename_i j
      by_cases hij : i = j
      · exact Or.inr (by rw [hij])
      · exact Or.inl (by rwa [Function.update_of_ne hij] at hup)
    · rename_i j
      by_cases hij : i = j
      · simp [hij] at hup
      · exact Or.inl (by rwa [Function.update_of_ne hij] at hup)
    · exact Or.inl hup
  · exact Or.inl (hlost i hup)

end LinkedCalls

section Connect
variable {p p' : ManagerCalls} {i k : ℕ}

def HasWorker (p : ManagerCalls) (i : ℕ) (P : Worker → Prop) : Prop :=
  ∃ w, p.shared.started[i]? = some w ∧ w.Consistent ∧ P w

theorem HasWorker.step {e : CallEvent} {P Q : Worker → Prop} (h : HasWorker p i P)
    (hs : managerCalls.step p e = some p')
    (hstep : ∀ {happens} (w w' : Worker), w.Consistent → P w → w.Goes happens w' → Q w') :
    HasWorker p' i Q := by
  obtain ⟨w, hw, hc, hP⟩ := h
  obtain ⟨w', hw', hgoes⟩ := (Onward.of_step hs).kept i w hw
  exact ⟨w', hw', hc.goes hgoes, hstep w w' hc hP hgoes⟩

theorem HasWorker.step_linked {s s' : LinkedCalls} {e : LinkedEvent} {P : Worker → Prop}
    (h : HasWorker s.calls i P) (hs : linkedCalls.step s e = some s')
    (hstep : ∀ {happens} (w w' : Worker), w.Consistent → P w → w.Goes happens w' → P w') :
    HasWorker s'.calls i P := by
  rcases LinkedCalls.step_cases hs with ⟨c, -, hcalls, -⟩ | ⟨hsame, -⟩
  · exact h.step hcalls hstep
  · exact hsame ▸ h

/-- The call waits for worker `i`, or has returned with the result of its attempt. -/
def WaitsFor (p : ManagerCalls) (k i : ℕ) : Prop :=
  p.threads[k]? = some (.waiting i) ∨
  (p.threads[k]? = some (.linked i) ∧
    HasWorker p i fun w => w.connectFuture = some (.ok ())) ∨
  ∃ raised, p.threads[k]? = some (.finished raised)

theorem waitsFor_step {e : CallEvent} (hcons : ∀ w ∈ p.shared.started, w.Consistent)
    (h : WaitsFor p k i) (hs : managerCalls.step p e = some p') : WaitsFor p' k i := by
  -- a call that has returned stays so, and its worker keeps its result
  have hkeep : p'.threads[k]? = p.threads[k]? → WaitsFor p' k i := by
    intro hsame
    rcases h with h | ⟨h, hw⟩ | ⟨raised, h⟩
    · exact Or.inl (hsame.trans h)
    · refine Or.inr (Or.inl ⟨hsame.trans h, hw.step hs fun w w' hc hf hgoes => ?_⟩)
      exact hgoes.decided hc hf
    · exact Or.inr (Or.inr ⟨raised, hsame.trans h⟩)
  have hlt : k < p.threads.length := by
    rcases h with h | ⟨h, -⟩ | ⟨raised, h⟩ <;> exact (List.getElem?_eq_some_iff.mp h).1
  cases e with
  | connect | disconnect =>
    cases Option.some.inj hs
    exact hkeep (List.getElem?_append_left hlt)
  | ensureConnecting =>
    cases Option.some.inj hs
    exact hkeep rfl
  | worker j e =>
    obtain ⟨m, hm, rfl⟩ := Option.map_eq_some_iff.mp hs
    exact hkeep rfl
  | submit j op =>
    change (if op = .shutdown then none else some _) = some p' at hs
    split_ifs at hs
    cases hs
    exact hkeep rfl
  | call j wait =>
    by_cases hj : j = k
    · subst hj
      obtain ⟨t, ht, hs⟩ := Option.bind_eq_some_iff.mp hs
      obtain ⟨⟨m, pc⟩, ha, rfl⟩ := Option.map_eq_some_iff.mp hs
      have hself : (p.threads.set j pc)[j]? = some pc := by simp [hlt]
      rcases h with h | ⟨h, -⟩ | ⟨raised, h⟩ <;> obtain rfl := Option.some.inj (ht.symm.trans h)
      · cases wait <;> simp only [CallPc.advance] at ha
        · obtain ⟨outcome, hfuture, ha⟩ := Option.map_eq_some_iff.mp ha
          obtain ⟨w, hw, hfuture⟩ := Option.bind_eq_some_iff.mp hfuture
          cases outcome <;> cases ha
          · exact Or.inr (Or.inr ⟨_, hself⟩)
          · exact Or.inr (Or.inl ⟨hself, w, hw, hcons w (List.mem_of_getElem? hw), hfuture⟩)
        · split at ha <;> cases ha
          exact Or.inr (Or.inr ⟨_, hself⟩)
      · cases wait <;> cases ha
      · cases wait <;> cases ha
    · obtain ⟨t, ht, hs⟩ := Option.bind_eq_some_iff.mp hs
      obtain ⟨r, -, rfl⟩ := Option.map_eq_some_iff.mp hs
      exact hkeep (List.getElem?_set_ne hj)

/-- The worker that `_ensure_worker` returns is alive: the one of the dict, or one whose attempt
is still to come. -/
theorem ensureWorker_worker (m : BluepyManager) (a : Address) (addrType : AddrType) :
    ∃ w : Worker, (m.ensureWorker a addrType).2.started[(m.ensureWorker a addrType).1]? = some w ∧
      w.isAlive = true ∧
      (w.attempting = true ∧ (m.entry a).any Worker.isAlive = false ∨
        m.workers a = some (m.ensureWorker a addrType).1 ∧ m.entry a = some w) := by
  have hnew : (m.entry a).any Worker.isAlive = false → ∃ w : Worker,
      (m.start a addrType).started[m.started.length]? = some w ∧ w.isAlive = true ∧
      (w.attempting = true ∧ (m.entry a).any Worker.isAlive = false ∨
        m.workers a = some m.started.length ∧ m.entry a = some w) := fun hdead =>
    ⟨_, List.getElem?_concat_length, rfl, Or.inl ⟨rfl, hdead⟩⟩
  unfold BluepyManager.ensureWorker
  cases hi : m.workers a with
  | none =>
    rw [hi] at hnew
    exact hnew (by simp [BluepyManager.entry, hi])
  | some i =>
    dsimp only
    cases hw : m.started[i]? with
    | none =>
      rw [hi] at hnew
      exact hnew (by simp [BluepyManager.entry, hi, hw])
    | some w =>
      have hentry : m.entry a = some w := by simp [BluepyManager.entry, hi, hw]
      cases halive : w.isAlive with
      | false =>
        simp only [Option.any_some, halive, Bool.false_eq_true, if_false]
        rw [hi] at hnew
        exact hnew (by rw [hentry, Option.any_some, halive])
      | true =>
        simp only [Option.any_some, halive, if_true]
        exact ⟨w, hw, halive, Or.inr ⟨trivial, hentry⟩⟩

/-- A worker whose attempt is over and whose link is gone is never linked again. -/
theorem gone_stays {s : LinkedCalls} (h : HasWorker s.calls i fun w => w.attempting = false)
    (hdown : s.up i = false) (es : List LinkedEvent) :
    ∀ u ∈ linkedCalls.visited s es, u.up i = false := by
  intro u hu
  refine (System.visited_invariant (S := linkedCalls)
    (P := fun s => HasWorker s.calls i (fun w => w.attempting = false) ∧ s.up i = false)
    ?_ ⟨h, hdown⟩ es u hu).2
  rintro s e s' ⟨hw, hdown⟩ hs
  refine ⟨hw.step_linked hs fun _ _ _ hp hgoes => hgoes.attempted hp,
    Bool.eq_false_iff.mpr fun hup => ?_⟩
  rcases LinkedCalls.up_step hs hup with hwas | rfl
  · rw [hdown] at hwas
    cases hwas
  · -- only an attempt that is under way connects
    obtain ⟨w, hw, -, hover⟩ := hw
    rcases LinkedCalls.step_cases hs with ⟨c, hc, hcalls, -⟩ | ⟨-, hlost⟩
    · cases hc
      obtain ⟨m, hm, -⟩ := Option.map_eq_some_iff.mp hcalls
      obtain ⟨v, hv, hm⟩ := Option.bind_eq_some_iff.mp hm
      obtain rfl := Option.some.inj (hw.symm.trans hv)
      obtain ⟨locked, -, hm⟩ := Option.bind_eq_some_iff.mp hm
      obtain ⟨w', hstep, -⟩ := Option.map_eq_some_iff.mp hm
      cases Worker.step_moves hstep with
      | connectOk hp => simp [Worker.attempting, hp] at hover
    · rw [hlost i hup] at hdown
      cases hdown

/-- An attempt that has succeeded in the end was linked in between. -/
theorem attempt_linked {s s' : LinkedCalls} {es : List LinkedEvent}
    (h : HasWorker s.calls i fun w => w.attempting = true)
    (hrun : linkedCalls.replay (fun _ _ => true) s es = some s')
    (hok : HasWorker s'.calls i fun w => w.connectFuture = some (.ok ())) :
    ∃ u ∈ linkedCalls.visited s es, u.up i = true := by
  obtain ⟨v, hv, hcv, hfuture⟩ := hok
  refine System.exists_visited (S := linkedCalls)
    (P := fun s => HasWorker s.calls i fun w => w.attempting = true)
    (R := fun s => HasWorker s.calls i fun w => ∃ e, w.connectFuture = some (.error e))
    ?_ ?_ h hrun ?_ ?_
  · intro s e s' hw hs
    rcases LinkedCalls.step_cases hs with ⟨c, -, hcalls, hafter⟩ | ⟨hsame, -⟩
    · obtain ⟨w, hw, hc, hphase⟩ := hw
      obtain ⟨w', hw', hgoes⟩ := (Onward.of_step hcalls).kept i w hw
      have hc' := hc.goes hgoes
      rcases hgoes.attempt hphase with hgoing | hup | hfailed
      · exact Or.inl ⟨w', hw', hc', hgoing⟩
      · refine Or.inr (Or.inl ?_)
        rw [hafter, hup]
        exact Function.update_self ..
      · exact Or.inr (Or.inr ⟨w', hw', hc', hfailed⟩)
    · exact Or.inl (hsame ▸ hw)
  · intro s e s' hw hs
    exact hw.step_linked hs fun w w' hc ⟨e, hf⟩ hgoes => ⟨e, hgoes.decided hc hf⟩
  · rintro ⟨w, hw, hc, hphase⟩
    obtain rfl := Option.some.inj (hv.symm.trans hw)
    have hopening : v.phase.opening = true := by
      simp only [Worker.attempting, Bool.or_eq_true, decide_eq_true_eq] at hphase
      rcases hphase with hphase | hphase <;> rw [hphase] <;> rfl
    rw [hc.undecided.mpr hopening] at hfuture
    cases hfuture
  · rintro ⟨w, hw, hc, e, hf⟩
    obtain rfl := Option.some.inj (hv.symm.trans hw)
    rw [hfuture] at hf
    cases hf

end Connect

theorem step_connect {s s₁ : LinkedCalls} {a : Address} {addrType : AddrType}
    (h : linkedCalls.step s (.call (.connect a addrType)) = some s₁) :
    s₁.calls.shared = (s.calls.shared.ensureWorker a addrType).2 ∧
      s₁.calls.threads =
        s.calls.threads ++ [.waiting (s.calls.shared.ensureWorker a addrType).1] ∧
      s₁.up = s.up := by
  cases Option.some.inj h
  exact ⟨rfl, rfl, rfl⟩

/-- The dict holds a worker for `a` that is alive, has been through its attempt, and whose link
is gone. -/
def GoneLink (s : LinkedCalls) (a : Address) : Prop :=
  ∃ i w, s.calls.shared.workers a = some i ∧ s.calls.shared.started[i]? = some w ∧
    w.isAlive = true ∧ w.attempting = false ∧ s.up i = false

/-- A `connect` that returns normally saw the link of its worker up after it began, exactly when
it did not find a live worker whose link had come up before and was gone. -/
theorem connect_means_linked {s s₁ s' : LinkedCalls} {a : Address} {addrType : AddrType}
    {es : List LinkedEvent} {i : ℕ} (hs : linkedCalls.Reachable s)
    (hbegin : linkedCalls.step s (.call (.connect a addrType)) = some s₁)
    (hrun : linkedCalls.replay (fun _ _ => true) s₁ es = some s')
    (hreturned : s'.calls.threads[s.calls.threads.length]? = some (.linked i)) :
    (∃ u ∈ linkedCalls.visited s₁ es, u.up i = true) ↔ ¬GoneLink s a := by
  have hcons := LinkedCalls.consistent_of_reachable (hs.step _ trivial hbegin)
  obtain ⟨w, hw, halive, hentry⟩ := ensureWorker_worker s.calls.shared a addrType
  obtain ⟨hshared, hthreads, hlinks⟩ := step_connect hbegin
  rw [← hshared] at hw
  have hcw := hcons w (List.mem_of_getElem? hw)
  -- the call returns with the worker it was given
  have hwaits : WaitsFor s'.calls s.calls.threads.length
      (s.calls.shared.ensureWorker a addrType).1 := by
    refine (System.replay_invariant (S := linkedCalls)
      (P := fun q => (∀ w ∈ q.calls.shared.started, w.Consistent) ∧
        WaitsFor q.calls s.calls.threads.length (s.calls.shared.ensureWorker a addrType).1)
      (fun q e q' hq hs => LinkedCalls.step_invariant
        (P := fun p => (∀ w ∈ p.shared.started, w.Consistent) ∧
          WaitsFor p s.calls.threads.length (s.calls.shared.ensureWorker a addrType).1)
        (fun p c p' hp hs => ⟨consistent_step hp.1 hs, waitsFor_step hp.1 hp.2 hs⟩) hq hs)
      ⟨hcons, ?_⟩ hrun).2
    exact Or.inl (hthreads ▸ List.getElem?_concat_length)
  have hok : i = (s.calls.shared.ensureWorker a addrType).1 ∧
      HasWorker s'.calls i fun w => w.connectFuture = some (.ok ()) := by
    rcases hwaits with h | ⟨h, hok⟩ | ⟨raised, h⟩ <;> cases hreturned.symm.trans h
    exact ⟨rfl, hok⟩
  obtain ⟨rfl, hok⟩ := hok
  constructor
  · rintro ⟨u, hu, hup⟩ ⟨j, v, hj, hv, hvalive, hover, hdown⟩
    have hfound : s.calls.shared.entry a = some v := by
      simp [BluepyManager.entry, hj, hv]
    rcases hentry with ⟨-, hdead⟩ | ⟨hi, hsame⟩
    · rw [hfound, Option.any_some, hvalive] at hdead
      cases hdead
    · obtain rfl := Option.some.inj (hj.symm.trans hi)
      obtain rfl := Option.some.inj (hfound.symm.trans hsame)
      rw [gone_stays ⟨v, hw, hcw, hover⟩ (hlinks ▸ hdown) es u hu] at hup
      cases hup
  · intro hnot
    cases hattempt : w.attempting with
    | true => exact attempt_linked ⟨w, hw, hcw, hattempt⟩ hrun hok
    | false =>
      refine ⟨_, System.mem_visited_self _ es, ?_⟩
      rcases hentry with ⟨hnew, -⟩ | ⟨hi, hsame⟩
      · rw [hattempt] at hnew
        cases hnew
      · by_contra hdown
        rw [BluepyManager.entry, hi, Option.bind_some] at hsame
        exact hnot ⟨_, w, hi, hsame, halive, hattempt, by simpa [hlinks] using hdown⟩

def lampAddress : Address := "A4:C1:38:00:00:08"

def lampAttempt : List LinkedEvent :=
  [.call (.worker 0 .acquire), .call (.worker 0 .connectOk), .call (.worker 0 .announce),
    .call (.call 0 .returns)]

theorem connect_means_linked_lamp : ∃ s : LinkedCalls,
    linkedCalls.step ⟨⟨{}, []⟩, fun _ => false⟩ (.call (.connect lampAddress .publicAddr)) = some s ∧
    ∃ u ∈ linkedCalls.visited s lampAttempt, u.up 0 = true := by
  have hreturned : ((linkedCalls.replay (fun _ _ => true)
      ⟨⟨{ started := [{ address := lampAddress, addrType := .publicAddr }],
          workers := Function.update (fun _ => none) lampAddress (some 0) }, [.waiting 0]⟩,
        fun _ => false⟩
      lampAttempt).map fun s => s.calls.threads[0]?) = some (some (.linked 0)) := by
    decide +kernel
  obtain ⟨s', hrun, hlinked⟩ := Option.map_eq_some_iff.mp hreturned
  refine ⟨_, rfl, (connect_means_linked (.init rfl) rfl hrun hlinked).mpr ?_⟩
  rintro ⟨i, w, hi, -⟩
  cases hi

/-- The lamp drops its link; its worker has learnt of it and cleared the flag, but not ended. -/
def lampLost : List LinkedEvent :=
  .call (.connect lampAddress .publicAddr) :: lampAttempt ++
    [.call (.worker 0 .head), .lost 0, .call (.worker 0 .pollDisconnected),
      .call (.worker 0 .drain), .call (.worker 0 .clear)]

/-- A `connect` that begins then returns at once. -/
theorem connect_not_linked : ¬∀ (s s₁ s' : LinkedCalls) (a : Address) (addrType : AddrType)
    (es : List LinkedEvent) (i : ℕ), linkedCalls.Reachable s →
    linkedCalls.step s (.call (.connect a addrType)) = some s₁ →
    linkedCalls.replay (fun _ _ => true) s₁ es = some s' →
    s'.calls.threads[s.calls.threads.length]? = some (.linked i) →
    ∃ u ∈ linkedCalls.visited s₁ es, u.up i = true := by
  intro hall
  obtain ⟨s, hs, htest⟩ := System.exists_reachable_of_replay (S := linkedCalls)
    (s := ⟨⟨{}, []⟩, fun _ => false⟩) rfl lampLost
    (p := fun s => match linkedCalls.step s (.call (.connect lampAddress .publicAddr)) with
      | none => false
      | some s₁ => match linkedCalls.replay (fun _ _ => true) s₁ [.call (.call 1 .returns)] with
        | none => false
        | some s' => decide (s'.calls.threads[s.calls.threads.length]? = some (.linked 0)) &&
          (linkedCalls.visited s₁ [.call (.call 1 .returns)]).all fun u => !u.up 0)
    (by decide +kernel)
  split at htest
  · cases htest
  rename_i s₁ hbegin
  split at htest
  · cases htest
  rename_i s' hrun
  simp only [Bool.and_eq_true, decide_eq_true_eq, List.all_eq_true, Bool.not_eq_true'] at htest
  obtain ⟨u, hu, hup⟩ := hall s s₁ s' _ _ _ 0 hs hbegin hrun htest.1
  rw [htest.2 u hu] at hup
  cases hup

end HomeServer.Ble
