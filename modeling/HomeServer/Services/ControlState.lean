import HomeServer.Db.Latest
import HomeServer.Lib.Slots
import HomeServer.Services.ControlCalls
import HomeServer.Services.FlagState
import HomeServer.Services.Serving

/-! The reported state of a 0/1 controller against the bytes its peripheral last took, over
every interleaving of calls, workers and timeouts. -/
namespace HomeServer.Services
open HomeServer.Db HomeServer.Ble HomeServer.Lib Slots ChannelService

section Peripheral
variable {w w' : Worker} {e : WorkerEvent} {k : FutureId}

/-- Handling a command performs nothing, or one operation; a write is the command's own. -/
theorem handleCommand_gatt (w : Worker) (op : Op) (reply : GattReply) :
    ((w.handleCommand op reply).2.gatt = w.gatt ∧
        ∀ u data, op = .write u data → ∃ e, (w.handleCommand op reply).1 = .error e) ∨
      ∃ g, (w.handleCommand op reply).2.gatt = w.gatt ++ [g] ∧
        (∃ value, (w.handleCommand op reply).1 = .ok value) ∧
        (∀ u data, g = .write u data ↔ op = .write u data) := by
  have hchar : ∀ uuid, (w.char uuid reply.found).2.gatt = w.gatt := fun uuid =>
    (Worker.char_same w uuid reply.found).2.2
  cases op with
  | shutdown | unknown name => exact Or.inl ⟨rfl, by simp⟩
  | read uuid | write uuid data =>
    have hg := hchar uuid
    simp only [Worker.handleCommand]
    split <;> rename_i heq <;> simp only [heq] at hg
    · exact Or.inl ⟨hg, by simp⟩
    · split
      · exact Or.inl ⟨hg, by simp⟩
      · exact Or.inr ⟨_, by rw [hg], by simp, by simp⟩
  | subscribe uuid callback =>
    have hg := hchar uuid
    simp only [Worker.handleCommand, Worker.enableNotify]
    split <;> rename_i heq <;> simp only [heq] at hg
    · exact Or.inl ⟨hg, by simp⟩
    · split
      · exact Or.inl ⟨hg, by simp⟩
      · exact Or.inr ⟨_, by rw [hg], by simp, by simp⟩
  | unsubscribe uuid =>
    have hg := hchar uuid
    simp only [Worker.handleCommand, Worker.disableNotify]
    split <;> rename_i heq <;> simp only [heq] at hg
    · exact Or.inl ⟨hg, by simp⟩
    · split
      · split <;> exact Or.inl ⟨hg, by simp⟩
      · exact Or.inr ⟨_, by rw [hg], by simp, by simp⟩

/-- What the peripheral took of a characteristic by one command. -/
theorem handleCommand_writes (w : Worker) (op : Op) (reply : GattReply) (charUuid : Uuid) :
    (∃ data, op = .write charUuid data ∧ (∃ value, (w.handleCommand op reply).1 = .ok value) ∧
        writesOf charUuid ((w.handleCommand op reply).2.gatt.drop w.gatt.length) = [data]) ∨
      (writesOf charUuid ((w.handleCommand op reply).2.gatt.drop w.gatt.length) = [] ∧
        ∀ data, op = .write charUuid data → ∃ e, (w.handleCommand op reply).1 = .error e) := by
  rcases handleCommand_gatt w op reply with ⟨hg, herr⟩ | ⟨g, hg, hout, hwrite⟩
  · rw [hg, List.drop_length]
    exact Or.inr ⟨rfl, fun data hop => herr _ data hop⟩
  · rw [hg, List.drop_left]
    by_cases hop : ∃ data, op = .write charUuid data
    · obtain ⟨data, hop⟩ := hop
      rw [(hwrite charUuid data).mpr hop]
      exact Or.inl ⟨data, hop, hout, by simp [writesOf]⟩
    · refine Or.inr ⟨?_, fun data h => absurd ⟨data, h⟩ hop⟩
      cases g with
      | write u data =>
        have hne : u ≠ charUuid := fun hu => hop ⟨data, hu ▸ (hwrite u data).mp rfl⟩
        simp [writesOf, hne]
      | read | notifyOn | notifyOff => rfl

def live (w : Worker) : List Cmd :=
  (match w.phase with
    | .handling cmd | .replying cmd _ => [cmd]
    | _ => []) ++ w.queue

@[simp] theorem live_put (w : Worker) (cmd : Cmd) : live (w.put cmd) = live w ++ [cmd] := by
  unfold live Worker.put
  rw [List.append_assoc]

theorem live_step (h : w.step e = some w') : ∀ cmd ∈ live w', cmd ∈ live w := by
  cases Worker.step_moves h with
  | take hp hs cmd rest hq => simp [live, hp, hq]
  | perform cmd hp reply =>
    obtain ⟨-, hq, -, -, -⟩ := (Worker.handleCommand_same w cmd.op reply).1
    simp [live, hp, hq]
  | complete cmd outcome hp =>
    intro c hc
    simp only [live, List.nil_append] at hc
    simp [live, hp, hc]
  | drainOne hp cmd rest hq =>
    intro c hc
    simp only [live, hp, List.nil_append] at hc
    simp [live, hp, hq, hc]
  | acquire hp | connectOk hp | connectFailed hp | announce hp | leave hp | poll hp
  | pollReturned hp | pollDisconnected hp | pollRaised hp | drained hp | clear hp | hangUp hp =>
    simp [live, hp]

theorem lookup_singleton_of_ne {i : FutureId} (o : Except Err (Option Bytes)) (hk : ¬k = i) :
    [(i, o)].lookup k = none := by
  rw [List.lookup_eq_none_iff]
  simpa using hk

/-- But for a command that is performed, no step changes what callers will hear, nor what
the peripheral took. -/
theorem performed_step (h : w.step e = some w') (hnot : ∀ reply, e ≠ .perform reply) :
    performed w' k = performed w k ∧ w'.gatt = w.gatt := by
  cases Worker.step_moves h with
  | perform cmd hp reply => exact absurd rfl (hnot reply)
  | complete cmd outcome hp =>
    refine ⟨?_, rfl⟩
    unfold performed
    rw [List.lookup_append]
    cases hl : w.done.lookup k with
    | some o => cases o <;> rfl
    | none =>
      by_cases hk : k = cmd.future
      · subst hk
        cases outcome <;> simp [hp]
      · have hk' : ¬cmd.future = k := fun h => hk h.symm
        cases outcome <;> simp [hp, hk', lookup_singleton_of_ne _ hk]
  | drainOne hp cmd rest hq =>
    refine ⟨?_, rfl⟩
    unfold performed
    rw [List.lookup_append]
    cases hl : w.done.lookup k with
    | some o => cases o <;> rfl
    | none =>
      by_cases hk : k = cmd.future
      · subst hk
        simp [hp]
      · simp [hp, lookup_singleton_of_ne _ hk]
  | acquire hp | connectOk hp | connectFailed hp | announce hp | leave hp | poll hp | take hp
  | pollReturned hp | pollDisconnected hp | pollRaised hp | drained hp | clear hp | hangUp hp =>
    refine ⟨?_, rfl⟩
    unfold performed
    simp only [hp]

/-- Performing a command lets only its own caller hear something new. -/
theorem performed_perform {cmd : Cmd} (hp : w.phase = .handling cmd) {reply : GattReply}
    (h : w.step (.perform reply) = some w') :
    w'.gatt = (w.handleCommand cmd.op reply).2.gatt ∧
      (performed w' k = true ↔ performed w k = true ∨
        ((w.done.lookup k).isNone ∧ cmd.future = k ∧
          ∃ value, (w.handleCommand cmd.op reply).1 = .ok value)) := by
  cases Worker.step_moves h with
  | perform cmd' hp' reply =>
    rw [hp] at hp'
    cases hp'
    refine ⟨rfl, ?_⟩
    have hd := (Worker.handleCommand_same w cmd.op reply).1.done
    unfold performed
    simp only [hd, hp]
    cases w.done.lookup k with
    | some o => cases o <;> simp
    | none => cases (w.handleCommand cmd.op reply).1 <;> simp

end Peripheral

def bitData (channel : Channel) (on : Bool) : Bytes :=
  (Parser.encode (rawValue on) channel.dataFormat).toOption.getD []

def decodesOn (channel : Channel) (data : Bytes) : Bool :=
  ((Parser.decode data channel.dataFormat).toOption).any isOn

theorem decodesOn_bitData {channel : Channel}
    (h : channel.dataFormat ∈ Parser.supportedFormats) (on : Bool) :
    decodesOn channel (bitData channel on) = on := by
  have hall : ∀ fmt ∈ Parser.supportedFormats, ∀ on : Bool,
      ((Parser.decode ((Parser.encode (rawValue on) fmt).toOption.getD []) fmt).toOption).any isOn =
        on := by
    decide +kernel
  exact hall _ h on

theorem atLeast_rawValue (on : Bool) : (rawValue on).atLeast flagOnThreshold = on := by
  cases on <;> decide +kernel

theorem encode_rawValue {channel : Channel} {on : Bool} {data : Bytes}
    (h : Parser.encode (rawValue on) channel.dataFormat = .ok data) :
    data = bitData channel on := by
  unfold bitData
  rw [h]
  rfl

/-- What links the reported state to the peripheral. -/
structure Core (channel : Channel) (s : ControlWorld) : Prop where
  unique : ∀ j k, between s j = true → between s k = true → j = k
  last : ∀ (k : ℕ) (call : WriteCall), s.calls[k]? = some call → between s k = true →
    s.executed.getLast? = some (bitData channel call.on)
  settled : (∀ k, between s k = false) →
    controlState s.db channel.id = s.executed.getLast?.any (decodesOn channel)

theorem Core.congr {channel : Channel} {s s' : ControlWorld} (h : Core channel s)
    (hb : ∀ k, between s' k = between s k)
    (hon : ∀ k call', s'.calls[k]? = some call' → between s' k = true →
      ∃ call, s.calls[k]? = some call ∧ call.on = call'.on)
    (hex : s'.executed = s.executed)
    (hdb : controlState s'.db channel.id = controlState s.db channel.id) : Core channel s' := by
  constructor
  · intro j k hj hk
    rw [hb] at hj hk
    exact h.unique j k hj hk
  · intro k call' hk hbk
    obtain ⟨call, hcall, hon⟩ := hon k call' hk hbk
    rw [hb] at hbk
    rw [hex, ← hon]
    exact h.last k call hcall hbk
  · intro hnone
    have hold : ∀ k, between s k = false := by
      intro k
      rw [← hb]
      exact hnone k
    rw [hdb, hex]
    exact h.settled hold

def submitted : WritePc → Bool
  | .wait _ | .insert | .finished _ => true
  | .lookup | .require .. | .submit .. => false

def Owned (channel : Channel) (s : ControlWorld) (cmd : Cmd) : Prop :=
  ∃ call, s.calls[cmd.future]? = some call ∧
    (cmd.op = .write channel.charUuid (bitData channel call.on) ∨
      (∃ e, call.pc = .finished e) ∧ ∀ data, cmd.op ≠ .write channel.charUuid data)

def Prepared (channel : Channel) (call : WriteCall) : Prop :=
  match call.pc with
  | .require _ charUuid data | .submit _ charUuid data =>
    charUuid = channel.charUuid ∧ data = bitData channel call.on
  | _ => True

structure Bookkeeping (channel : Channel) (s : ControlWorld) : Prop where
  valid : s.db.Valid
  mem : channel ∈ s.db.channels
  past : ∀ r ∈ Readings.ofChannel s.db channel.id, r.recordedAt ≤ s.now
  prepared : ∀ (k : ℕ) (call : WriteCall), s.calls[k]? = some call → Prepared channel call
  futures : ∀ (i : ℕ) (w : Worker), s.workers[i]? = some w → ∀ f ∈ w.futures,
    ∃ call : WriteCall, s.calls[f]? = some call ∧ submitted call.pc = true
  owned : ∀ (i : ℕ) (w : Worker), s.workers[i]? = some w → ∀ cmd ∈ live w, Owned channel s cmd

theorem heard_set {workers : List Worker} {i : ℕ} {w w' : Worker} (hw : workers[i]? = some w)
    {k : FutureId} (hsame : performed w' k = performed w k) (pc : WritePc) :
    heard (workers.set i w') pc k = heard workers pc k := by
  cases pc with
  | wait j =>
    simp only [heard]
    rw [getElem?_set_some hw]
    split
    · rename_i hij
      rw [← hij, hw]
      exact hsame
    · rfl
  | lookup | require | submit | insert | finished => rfl

theorem performed_of_not_mem {w : Worker} {k : FutureId} (h : k ∉ w.futures) :
    performed w k = false := by
  unfold Worker.futures at h
  simp only [List.mem_append, not_or] at h
  obtain ⟨⟨hdone, hhand⟩, -⟩ := h
  have hlookup : w.done.lookup k = none := by
    rw [List.lookup_eq_none_iff]
    intro p hp
    simp only [List.mem_map, not_exists, not_and] at hdone
    simpa using fun h => hdone p hp h.symm
  unfold performed
  rw [hlookup]
  dsimp only
  split
  · rename_i cmd value hphase
    rw [Worker.inHand, hphase] at hhand
    simpa [eq_comm] using hhand
  · rfl

section Steps
variable {channel : Channel} {s : ControlWorld}

theorem between_setPc {k : ℕ} {call : WriteCall} (hk : s.calls[k]? = some call) {pc : WritePc}
    (hheard : heard s.workers pc k = heard s.workers call.pc k) (j : ℕ) :
    between (s.setPc k call pc) j = between s j := by
  unfold between ControlWorld.setPc
  dsimp only
  rw [getElem?_set_some hk]
  split
  · rename_i hkj
    subst hkj
    rw [hk]
    exact hheard
  · rfl

theorem exists_of_setPc {k : ℕ} {call : WriteCall} (hk : s.calls[k]? = some call) {pc : WritePc}
    {j : ℕ} {call' : WriteCall} (hj : (s.setPc k call pc).calls[j]? = some call') :
    ∃ call₀, s.calls[j]? = some call₀ ∧ call₀.on = call'.on := by
  unfold ControlWorld.setPc at hj
  dsimp only at hj
  rw [getElem?_set_some hk] at hj
  split at hj
  · rename_i hkj
    subst hkj
    cases hj
    exact ⟨call, hk, rfl⟩
  · exact ⟨call', hj, rfl⟩

/-- A call that moves on keeps the books, if it had not ended. -/
theorem Bookkeeping.setPc (h : Bookkeeping channel s) {k : ℕ} {call : WriteCall}
    (hk : s.calls[k]? = some call) {pc : WritePc} (hprep : Prepared channel { call with pc })
    (hsub : submitted call.pc = true → submitted pc = true)
    (hlive : ∀ e, call.pc ≠ .finished e) : Bookkeeping channel (s.setPc k call pc) := by
  have hget : ∀ j, (s.setPc k call pc).calls[j]? =
      if k = j then some { call with pc } else s.calls[j]? := getElem?_set_some hk
  constructor
  · exact h.valid
  · exact h.mem
  · exact h.past
  · intro j call' hj
    rw [hget] at hj
    split at hj
    · cases hj
      exact hprep
    · exact h.prepared j call' hj
  · intro i w hw f hf
    obtain ⟨call', hf', hs'⟩ := h.futures i w hw f hf
    rw [hget]
    split
    · rename_i hkf
      subst hkf
      rw [hk] at hf'
      cases hf'
      exact ⟨_, rfl, hsub hs'⟩
    · exact ⟨call', hf', hs'⟩
  · intro i w hw cmd hcmd
    obtain ⟨call', hf, hop⟩ := h.owned i w hw cmd hcmd
    unfold Owned
    rw [hget]
    split
    · rename_i hkf
      rw [← hkf, hk] at hf
      cases hf
      refine ⟨_, rfl, hop.imp id fun hother => ?_⟩
      obtain ⟨e, he⟩ := hother.1
      exact absurd he (hlive e)
    · exact ⟨call', hf, hop⟩

theorem Core.setPc (h : Core channel s) {k : ℕ} {call : WriteCall} (hk : s.calls[k]? = some call)
    {pc : WritePc} (hheard : heard s.workers pc k = heard s.workers call.pc k) :
    Core channel (s.setPc k call pc) :=
  h.congr (between_setPc hk hheard) (fun _ _ hj _ => exists_of_setPc hk hj) rfl rfl

theorem Core.setWorker (h : Core channel s) {i : ℕ} {w w' : Worker}
    (hw : s.workers[i]? = some w) (hsame : ∀ k, performed w' k = performed w k) :
    Core channel { s with workers := s.workers.set i w' } := by
  refine h.congr (fun k => ?_) (fun k call' hk _ => ⟨call', hk, rfl⟩) rfl rfl
  unfold between
  dsimp only
  cases s.calls[k]? with
  | none => rfl
  | some call => exact heard_set hw (hsame k) call.pc

theorem Bookkeeping.setWorker (h : Bookkeeping channel s) {i : ℕ} {w w' : Worker}
    (hw : s.workers[i]? = some w)
    (hfutures : ∀ f ∈ w'.futures, f ∈ w.futures ∨
      ∃ call, s.calls[f]? = some call ∧ submitted call.pc = true)
    (hlive : ∀ cmd ∈ live w', cmd ∈ live w ∨ Owned channel s cmd) {executed : List Bytes} :
    Bookkeeping channel { s with workers := s.workers.set i w', executed } := by
  constructor
  · exact h.valid
  · exact h.mem
  · exact h.past
  · exact h.prepared
  · intro j w₁ hj f hf
    dsimp only at hj
    rw [getElem?_set_some hw] at hj
    split at hj
    · cases hj
      exact (hfutures f hf).elim (h.futures i w hw f) id
    · exact h.futures j w₁ hj f hf
  · intro j w₁ hj cmd hcmd
    dsimp only at hj
    rw [getElem?_set_some hw] at hj
    split at hj
    · cases hj
      exact (hlive cmd hcmd).elim (h.owned i w hw cmd) id
    · exact h.owned j w₁ hj cmd hcmd

/-- A command may be put that its call owns, once the call is past its `submit`. -/
theorem Bookkeeping.put (h : Bookkeeping channel s) {i : ℕ} {w : Worker}
    (hw : s.workers[i]? = some w) {cmd : Cmd} {call : WriteCall}
    (hcall : s.calls[cmd.future]? = some call) (hsub : submitted call.pc = true)
    (howned : Owned channel s cmd) :
    Bookkeeping channel { s with workers := s.workers.set i (w.put cmd) } := by
  refine h.setWorker hw (fun f hf => ?_) fun c hc => ?_
  · rw [Worker.futures_put] at hf
    rcases List.mem_append.mp hf with hf | hf
    · exact Or.inl hf
    · obtain rfl := List.mem_singleton.mp hf
      exact Or.inr ⟨call, hcall, hsub⟩
  · rw [live_put] at hc
    rcases List.mem_append.mp hc with hc | hc
    · exact Or.inl hc
    · obtain rfl := List.mem_singleton.mp hc
      exact Or.inr howned

/-- What a call encodes is meant for the channel, and is the data of its raw value. -/
theorem encodeCommand_eq {db : Database} (hv : db.Valid) (hc : channel ∈ db.channels) {on : Bool}
    {address : Address} {charUuid : Uuid} {data : Bytes}
    (h : encodeCommand db channel.id (rawValue on) = .ok (address, charUuid, data)) :
    charUuid = channel.charUuid ∧ data = bitData channel on := by
  unfold encodeCommand at h
  cases hget : Channels.getById db channel.id with
  | none =>
    rw [hget] at h
    cases h
  | some c' =>
    obtain rfl := hv.channel_eq hc hget
    rw [hget] at h
    dsimp only at h
    split_ifs at h with htype
    cases hdata : Parser.encode (rawValue on) c'.dataFormat with
    | error e =>
      rw [hdata] at h
      cases h
    | ok d =>
      rw [hdata] at h
      dsimp only at h
      split at h <;> cases h
      exact ⟨rfl, encode_rawValue hdata⟩

theorem submit_tracks (hb : Bookkeeping channel s) (hc : Core channel s) {k i : ℕ}
    {call : WriteCall} (hk : s.calls[k]? = some call) {charUuid : Uuid} {data : Bytes}
    (hpc : call.pc = .submit i charUuid data) {w : Worker} (hw : s.workers[i]? = some w) :
    Bookkeeping channel { s.setPc k call (.wait i) with
        workers := s.workers.set i (w.put ⟨.write charUuid data, k⟩) } ∧
      Core channel { s.setPc k call (.wait i) with
        workers := s.workers.set i (w.put ⟨.write charUuid data, k⟩) } := by
  have hprep : charUuid = channel.charUuid ∧ data = bitData channel call.on := by
    have h := hb.prepared k call hk
    unfold Prepared at h
    rw [hpc] at h
    exact h
  -- The future of a call that has not put its command is on no worker.
  have hnew : k ∉ w.futures := by
    intro hmem
    obtain ⟨call', hk', hsub⟩ := hb.futures i w hw k hmem
    rw [hk] at hk'
    cases hk'
    rw [hpc] at hsub
    cases hsub
  have hheard : heard s.workers (.wait i) k = heard s.workers call.pc k := by
    rw [hpc]
    simp [heard, hw, performed_of_not_mem hnew]
  have hnext : (s.setPc k call (.wait i)).calls[k]? = some { call with pc := .wait i } := by
    unfold ControlWorld.setPc
    dsimp only
    rw [getElem?_set_some hk, if_pos rfl]
  have hb' : Bookkeeping channel (s.setPc k call (.wait i)) :=
    hb.setPc hk trivial (fun _ => rfl) (by rw [hpc]; simp)
  have howned : Owned channel (s.setPc k call (.wait i)) ⟨.write charUuid data, k⟩ := by
    refine ⟨_, hnext, Or.inl ?_⟩
    rw [hprep.1, hprep.2]
  constructor
  · exact hb'.put hw hnext rfl howned
  · exact (hc.setPc hk hheard).setWorker hw fun _ => rfl

theorem insert_tracks (hb : Bookkeeping channel s) (hc : Core channel s)
    (hfmt : channel.dataFormat ∈ Parser.supportedFormats) {k : ℕ} {call : WriteCall}
    (hk : s.calls[k]? = some call) (hpc : call.pc = .insert) {db : Database}
    (hins : Readings.insert s.db channel.id (rawValue call.on) s.now = .ok db) :
    Bookkeeping channel { s.setPc k call (.finished none) with db } ∧
      Core channel { s.setPc k call (.finished none) with db } := by
  have hbetween : between s k = true := by
    unfold between
    rw [hk, Option.any_some, hpc]
    rfl
  have hb' : Bookkeeping channel (s.setPc k call (.finished none)) :=
    hb.setPc hk trivial (fun _ => rfl) (by rw [hpc]; simp)
  have hnone : ∀ j, between { s.setPc k call (.finished none) with db } j = false := by
    intro j
    by_cases hj : j = k
    · subst hj
      unfold between ControlWorld.setPc
      dsimp only
      rw [getElem?_set_some hk, if_pos rfl]
      rfl
    · have hsame : between { s.setPc k call (.finished none) with db } j = between s j := by
        unfold between ControlWorld.setPc
        dsimp only
        rw [getElem?_set_some hk, if_neg (Ne.symm hj)]
      rw [hsame]
      by_contra h
      exact hj (hc.unique j k (by simpa using h) hbetween)
  constructor
  · refine ⟨hb.valid.readingInsert hins, ?_, ?_, hb'.prepared, hb'.futures, hb'.owned⟩
    · rw [channels_insert hins]
      exact hb.mem
    · intro r hr
      dsimp only at hr
      rw [Readings.ofChannel_insert hins, if_pos rfl] at hr
      rcases List.mem_append.mp hr with hr | hr
      · exact hb.past r hr
      · rw [List.mem_singleton.mp hr]
        exact le_rfl
  · refine ⟨fun j j' hj => ?_, fun j call' _ hj => ?_, fun _ => ?_⟩
    · rw [hnone] at hj
      cases hj
    · rw [hnone] at hj
      cases hj
    · unfold controlState
      dsimp only
      rw [Readings.latestByChannel_insert hb.valid hins hb.past]
      change _ = s.executed.getLast?.any (decodesOn channel)
      rw [hc.last k call hk hbetween, Option.any_some, Option.any_some,
        decodesOn_bitData hfmt]
      exact atLeast_rawValue call.on

theorem move_tracks (hb : Bookkeeping channel s) (hc : Core channel s) {k : ℕ} {call : WriteCall}
    (hk : s.calls[k]? = some call) {pc : WritePc} (hprep : Prepared channel { call with pc })
    (hsub : submitted call.pc = true → submitted pc = true)
    (hlive : ∀ e, call.pc ≠ .finished e)
    (hheard : heard s.workers pc k = heard s.workers call.pc k) :
    Bookkeeping channel (s.setPc k call pc) ∧ Core channel (s.setPc k call pc) :=
  ⟨hb.setPc hk hprep hsub hlive, hc.setPc hk hheard⟩

theorem advance_tracks (hb : Bookkeeping channel s) (hc : Core channel s)
    (hfmt : channel.dataFormat ∈ Parser.supportedFormats) {k : ℕ} {call : WriteCall}
    (hk : s.calls[k]? = some call) {s' : ControlWorld}
    (h : s.advance channel k call = some s') : Bookkeeping channel s' ∧ Core channel s' := by
  have hprep := hb.prepared k call hk
  unfold Prepared at hprep
  unfold ControlWorld.advance at h
  cases hpc : call.pc with
  | lookup =>
    rw [hpc] at h
    dsimp only at h
    cases henc : encodeCommand s.db channel.id (rawValue call.on) with
    | error e =>
      rw [henc] at h
      cases h
      exact move_tracks hb hc hk trivial (by simp [submitted]) (by simp [hpc]) (by simp [heard, hpc])
    | ok target =>
      obtain ⟨address, charUuid, data⟩ := target
      rw [henc] at h
      cases h
      exact move_tracks hb hc hk (encodeCommand_eq hb.valid hb.mem henc) (by simp [submitted, hpc])
        (by simp [hpc]) (by simp [heard, hpc])
  | require address charUuid data =>
    rw [hpc] at h hprep
    dsimp only at h
    split at h
    · cases h
      exact move_tracks hb hc hk trivial (by simp [submitted]) (by simp [hpc]) (by simp [heard, hpc])
    · split_ifs at h <;> cases h
      · exact move_tracks hb hc hk hprep (by simp [submitted, hpc]) (by simp [hpc])
          (by simp [heard, hpc])
      · exact move_tracks hb hc hk trivial (by simp [submitted]) (by simp [hpc])
          (by simp [heard, hpc])
  | submit i charUuid data =>
    rw [hpc] at h
    obtain ⟨w, hw, rfl⟩ := Option.map_eq_some_iff.mp h
    exact submit_tracks hb hc hk hpc hw
  | wait i =>
    rw [hpc] at h
    obtain ⟨outcome, hout, hs'⟩ := Option.map_eq_some_iff.mp h
    obtain ⟨w, hw, hlookup⟩ := Option.bind_eq_some_iff.mp hout
    cases outcome with
    | ok value =>
      cases hs'
      exact move_tracks hb hc hk trivial (by simp [submitted]) (by simp [hpc])
        (by simp [heard, hpc, hw, performed, hlookup])
    | error e =>
      cases hs'
      exact move_tracks hb hc hk trivial (by simp [submitted]) (by simp [hpc])
        (by simp [heard, hpc, hw, performed, hlookup])
  | insert =>
    rw [hpc] at h
    dsimp only at h
    have hnan : rawValue call.on ≠ .nan := by
      unfold rawValue
      split <;> simp
    obtain ⟨c', hget⟩ := Channels.exists_getById hb.mem
    obtain ⟨db, hins⟩ := Readings.exists_insert hget hnan s.now
    rw [hins] at h
    cases h
    exact insert_tracks hb hc hfmt hk hpc hins
  | finished e =>
    rw [hpc] at h
    cases h

theorem between_setWorker {i : ℕ} {w w' : Worker} (hw : s.workers[i]? = some w)
    {executed : List Bytes} {k : ℕ} {call : WriteCall} (hk : s.calls[k]? = some call)
    (hsame : call.pc = .wait i → performed w' k = performed w k) :
    between { s with workers := s.workers.set i w', executed } k = between s k := by
  unfold between
  dsimp only
  rw [hk, Option.any_some, Option.any_some]
  by_cases hpc : call.pc = .wait i
  · exact heard_set hw (hsame hpc) call.pc
  · cases hcall : call.pc with
    | wait j =>
      have hij : i ≠ j := fun h => hpc (by rw [hcall, h])
      simp only [heard]
      rw [getElem?_set_some hw, if_neg hij]
    | lookup | require | submit | insert | finished => rfl

theorem between_of_none {k : ℕ} (hk : s.calls[k]? = none) : between s k = false := by
  unfold between
  rw [hk]
  rfl

theorem between_setWorker_of {i : ℕ} {w w' : Worker} (hw : s.workers[i]? = some w)
    {executed : List Bytes} {k : ℕ}
    (hsame : ∀ call, s.calls[k]? = some call → call.pc = .wait i →
      performed w' k = performed w k) :
    between { s with workers := s.workers.set i w', executed } k = between s k := by
  cases hk : s.calls[k]? with
  | none =>
    rw [between_of_none hk]
    exact between_of_none hk
  | some call => exact between_setWorker hw hk (hsame call hk)

/-- The write is performed for a caller that waits, while no other call is in between. -/
theorem Core.performWrite {i : ℕ} {w w' : Worker} (hw : s.workers[i]? = some w) {cmd : Cmd}
    {call : WriteCall} (hcall : s.calls[cmd.future]? = some call) (hwaits : call.pc = .wait i)
    (hnone : ∀ k, between s k = false)
    (hother : ∀ k, k ≠ cmd.future → performed w' k = performed w k)
    (hheard : performed w' cmd.future = true) :
    Core channel { s with
      workers := s.workers.set i w', executed := s.executed ++ [bitData channel call.on] } := by
  have hrest : ∀ k, between { s with
      workers := s.workers.set i w'
      executed := s.executed ++ [bitData channel call.on] } k = true → k = cmd.future := by
    intro k hk
    by_contra hne
    rw [between_setWorker_of hw fun _ _ _ => hother k hne, hnone k] at hk
    cases hk
  constructor
  · intro j k hj hk
    rw [hrest j hj, hrest k hk]
  · intro k call' hk hbk
    rw [hrest k hbk] at hk
    dsimp only at hk ⊢
    rw [hcall] at hk
    cases hk
    exact List.getLast?_concat
  · intro hall
    have hnew := hall cmd.future
    unfold between at hnew
    dsimp only at hnew
    rw [hcall, Option.any_some, hwaits, heard, getElem?_set_some hw, if_pos rfl, Option.any_some,
      hheard] at hnew
    cases hnew

theorem perform_tracks (hb : Bookkeeping channel s) (hc : Core channel s) {i : ℕ}
    {w w' : Worker} (hw : s.workers[i]? = some w) {reply : GattReply}
    (hok : oneAtATime channel s (.worker i (.perform reply)) = true)
    (hstep : w.step (.perform reply) = some w') :
    Core channel { s with
      workers := s.workers.set i w'
      executed := s.executed ++ writesOf channel.charUuid (w'.gatt.drop w.gatt.length) } := by
  obtain ⟨cmd, hp⟩ : ∃ cmd, w.phase = .handling cmd := by
    cases Worker.step_moves hstep with
    | perform cmd hp => exact ⟨cmd, hp⟩
  obtain ⟨hgatt, hperf⟩ := performed_perform (k := cmd.future) hp hstep
  have hother : ∀ k, k ≠ cmd.future → performed w' k = performed w k := by
    intro k hne
    have h := (performed_perform (k := k) hp hstep).2
    have hne' : ¬cmd.future = k := fun h => hne h.symm
    simp only [hne', false_and, and_false, or_false] at h
    exact Bool.eq_iff_iff.mpr h
  obtain ⟨call, hcall, howned⟩ := hb.owned i w hw cmd (by simp [live, hp])
  rw [hgatt]
  rcases handleCommand_writes w cmd.op reply channel.charUuid with
    ⟨data, hop, hout, hwrites⟩ | ⟨hwrites, herr⟩
  · have hdata : data = bitData channel call.on := by
      rcases howned with h | ⟨-, h⟩
      · rw [hop] at h
        cases h
        rfl
      · exact absurd hop (h data)
    simp only [oneAtATime, hw, Option.all_some, hp, hwrites, List.isEmpty_cons, Bool.false_or,
      Bool.and_eq_true] at hok
    obtain ⟨hwaits, hfree⟩ := hok
    have hnone : ∀ k, between s k = false := by
      intro k
      by_cases hlt : k < s.calls.length
      · simpa using List.all_eq_true.mp hfree k (List.mem_range.mpr hlt)
      · exact between_of_none (List.getElem?_eq_none (not_lt.mp hlt))
    unfold waits at hwaits
    rw [hcall, Option.any_some, Bool.and_eq_true, decide_eq_true_eq] at hwaits
    have hheard := hperf.mpr (Or.inr ⟨hwaits.2, rfl, hout⟩)
    rw [hwrites, hdata]
    exact Core.performWrite hw hcall hwaits.1 hnone hother hheard
  · rw [hwrites, List.append_nil]
    refine hc.congr (fun k => ?_) (fun k call' hk _ => ⟨call', hk, rfl⟩) rfl rfl
    apply between_setWorker_of hw
    intro call' hk hwait
    by_cases hkf : k = cmd.future
    · -- Its own caller hears nothing of a write that failed.
      subst hkf
      rw [hcall] at hk
      cases hk
      rcases howned with hop | ⟨⟨e, hfin⟩, -⟩
      · obtain ⟨e, he⟩ := herr _ hop
        rw [he] at hperf
        exact Bool.eq_iff_iff.mpr (by simpa using hperf)
      · rw [hwait] at hfin
        cases hfin
    · exact hother k hkf

theorem worker_tracks (hb : Bookkeeping channel s) (hc : Core channel s) {i : ℕ}
    {e : WorkerEvent} {w w' : Worker} (hw : s.workers[i]? = some w)
    (hok : oneAtATime channel s (.worker i e) = true) (hstep : w.step e = some w') :
    Bookkeeping channel { s with
        workers := s.workers.set i w'
        executed := s.executed ++ writesOf channel.charUuid (w'.gatt.drop w.gatt.length) } ∧
      Core channel { s with
        workers := s.workers.set i w'
        executed := s.executed ++ writesOf channel.charUuid (w'.gatt.drop w.gatt.length) } := by
  constructor
  · refine hb.setWorker hw (fun f hf => Or.inl ?_) fun cmd hcmd => Or.inl (live_step hstep cmd hcmd)
    rw [← Worker.step_futures hstep]
    exact hf
  · by_cases hperform : ∃ reply, e = .perform reply
    · obtain ⟨reply, rfl⟩ := hperform
      exact perform_tracks hb hc hw hok hstep
    · have hnot : ∀ reply, e ≠ .perform reply := fun reply h => hperform ⟨reply, h⟩
      have hcore := hc.setWorker hw fun k => (performed_step (k := k) hstep hnot).1
      rw [(performed_step (k := 0) hstep hnot).2, List.drop_length]
      change Core channel { s with
        workers := s.workers.set i w', executed := s.executed ++ [] }
      rw [List.append_nil]
      exact hcore

/-- A new entry among the calls. -/
theorem Bookkeeping.addCall (h : Bookkeeping channel s) {call : WriteCall}
    (hprep : Prepared channel call) : Bookkeeping channel { s with calls := s.calls ++ [call] } := by
  constructor
  · exact h.valid
  · exact h.mem
  · exact h.past
  · intro k c hk
    rcases getElem?_concat_some hk with hk | ⟨-, rfl⟩
    · exact h.prepared k c hk
    · exact hprep
  · intro i w hw f hf
    obtain ⟨c, hcall, hsub⟩ := h.futures i w hw f hf
    exact ⟨c, getElem?_concat_of_some hcall, hsub⟩
  · intro i w hw cmd hcmd
    obtain ⟨c, hcall, hop⟩ := h.owned i w hw cmd hcmd
    exact ⟨c, getElem?_concat_of_some hcall, hop⟩

theorem Core.addCall (h : Core channel s) {call : WriteCall}
    (hheard : ∀ k, heard s.workers call.pc k = false) :
    Core channel { s with calls := s.calls ++ [call] } := by
  have hsame : ∀ k, between { s with calls := s.calls ++ [call] } k = between s k := by
    intro k
    unfold between
    dsimp only
    cases hk : s.calls[k]? with
    | some c => rw [getElem?_concat_of_some hk]
    | none =>
      cases hk' : (s.calls ++ [call])[k]? with
      | none => rfl
      | some c =>
        rcases getElem?_concat_some hk' with h | ⟨-, rfl⟩
        · rw [hk] at h
          cases h
        · exact hheard k
  refine h.congr hsame (fun k c hk hbk => ?_) rfl rfl
  rcases getElem?_concat_some hk with h | ⟨-, rfl⟩
  · exact ⟨c, h, rfl⟩
  · unfold between at hbk
    dsimp only at hbk hk
    rw [hk, Option.any_some, hheard] at hbk
    cases hbk

theorem putOther_tracks (hb : Bookkeeping channel s) (hc : Core channel s) {i : ℕ} {op : Op}
    (hop : ∀ data, op ≠ .write channel.charUuid data) {s' : ControlWorld}
    (h : s.putOther i op = some s') : Bookkeeping channel s' ∧ Core channel s' := by
  obtain ⟨w, hw, rfl⟩ := Option.map_eq_some_iff.mp h
  have hprep : Prepared channel { on := false, pc := .finished none } := trivial
  have hlast : (s.calls ++ [({ on := false, pc := .finished none } : WriteCall)])[s.calls.length]? =
      some { on := false, pc := .finished none } := List.getElem?_concat_length
  constructor
  · exact (hb.addCall hprep).put hw hlast rfl ⟨_, hlast, Or.inr ⟨⟨_, rfl⟩, hop⟩⟩
  · exact (hc.addCall fun _ => rfl).setWorker hw fun _ => rfl

/-- A new worker that has received nothing. -/
theorem Bookkeeping.spawn (h : Bookkeeping channel s) (w : Worker) (hfutures : w.futures = [])
    (hlive : live w = []) (current : Option ℕ) :
    Bookkeeping channel { s with workers := s.workers ++ [w], current } := by
  constructor
  · exact h.valid
  · exact h.mem
  · exact h.past
  · exact h.prepared
  · intro i w' hi f hf
    rcases getElem?_concat_some hi with hi | ⟨-, rfl⟩
    · exact h.futures i w' hi f hf
    · rw [hfutures] at hf
      cases hf
  · intro i w' hi cmd hcmd
    rcases getElem?_concat_some hi with hi | ⟨-, rfl⟩
    · exact h.owned i w' hi cmd hcmd
    · rw [hlive] at hcmd
      cases hcmd

theorem heard_spawn {workers : List Worker} {w : Worker} (hfutures : w.futures = []) (pc : WritePc)
    (k : FutureId) : heard (workers ++ [w]) pc k = heard workers pc k := by
  cases pc with
  | wait i =>
    unfold heard
    dsimp only
    cases hi : workers[i]? with
    | some w' => rw [getElem?_concat_of_some hi]
    | none =>
      cases hi' : (workers ++ [w])[i]? with
      | none => rfl
      | some w' =>
        rcases getElem?_concat_some hi' with h | ⟨-, rfl⟩
        · rw [hi] at h
          cases h
        · have hmem : k ∉ w'.futures := by
            rw [hfutures]
            exact List.not_mem_nil
          exact performed_of_not_mem hmem
  | lookup | require | submit | insert | finished => rfl

theorem Core.spawn (h : Core channel s) (w : Worker) (hfutures : w.futures = [])
    (current : Option ℕ) : Core channel { s with workers := s.workers ++ [w], current } := by
  refine h.congr (fun k => ?_) (fun k c hk _ => ⟨c, hk, rfl⟩) rfl rfl
  unfold between
  simp only [heard_spawn hfutures]

end Steps

theorem step_tracks {device : Device} {channel : Channel}
    (hfmt : channel.dataFormat ∈ Parser.supportedFormats) {s s' : ControlWorld}
    {e : ControlEvent} (h : Bookkeeping channel s ∧ Core channel s)
    (hok : oneAtATime channel s e = true) (hs : s.step device channel e = some s') :
    Bookkeeping channel s' ∧ Core channel s' := by
  obtain ⟨hb, hc⟩ := h
  cases e with
  | call on =>
    cases hs
    exact ⟨hb.addCall trivial, hc.addCall fun _ => rfl⟩
  | advance k =>
    obtain ⟨call, hk, hs⟩ := Option.bind_eq_some_iff.mp hs
    exact advance_tracks hb hc hfmt hk hs
  | timeout k =>
    obtain ⟨call, hk, hs⟩ := Option.bind_eq_some_iff.mp hs
    cases hpc : call.pc with
    | wait i =>
      rw [hpc] at hs
      dsimp only at hs
      split_ifs at hs
      cases hs
      refine move_tracks hb hc hk trivial (fun _ => rfl) (by simp [hpc]) ?_
      have hbefore : between s k = false := by simpa [oneAtATime] using hok
      unfold between at hbefore
      rw [hk] at hbefore
      exact hbefore.symm
    | lookup | require | submit | insert | finished =>
      rw [hpc] at hs
      cases hs
  | worker i e =>
    obtain ⟨w, hw, hs⟩ := Option.bind_eq_some_iff.mp hs
    obtain ⟨w', hstep, rfl⟩ := Option.map_eq_some_iff.mp hs
    exact worker_tracks hb hc hw hok hstep
  | other i op =>
    cases op with
    | write u data =>
      change (if u = channel.charUuid then none else s.putOther i (.write u data)) = some s' at hs
      split_ifs at hs with hu
      exact putOther_tracks hb hc (by simp [hu]) hs
    | read | subscribe | unsubscribe | shutdown | unknown =>
      exact putOther_tracks hb hc (by simp) hs
  | spawn =>
    change (if _ then none else some _) = some s' at hs
    split_ifs at hs
    cases hs
    exact ⟨hb.spawn _ rfl rfl _, hc.spawn _ rfl _⟩
  | pop =>
    cases hs
    exact ⟨⟨hb.valid, hb.mem, hb.past, hb.prepared, hb.futures, hb.owned⟩,
      hc.congr (fun _ => rfl) (fun k c hk _ => ⟨c, hk, rfl⟩) rfl rfl⟩
  | pass now =>
    change (if s.now ≤ now then some { s with now } else none) = some s' at hs
    split_ifs at hs with hnow
    cases hs
    exact ⟨⟨hb.valid, hb.mem, fun r hr => (hb.past r hr).trans hnow, hb.prepared, hb.futures,
      hb.owned⟩, hc.congr (fun _ => rfl) (fun k c hk _ => ⟨c, hk, rfl⟩) rfl rfl⟩

theorem init_tracks {device : Device} {channel : Channel} {s : ControlWorld}
    (h : (controlCalls device channel).init s) : Bookkeeping channel s ∧ Core channel s := by
  obtain ⟨hv, -, hmem, -, -, -, -, hnone, hs⟩ := h
  have hcalls : s.calls = [] := by rw [hs]
  have hworkers : s.workers = [] := by rw [hs]
  have hexecuted : s.executed = [] := by rw [hs]
  refine ⟨⟨hv, hmem, by simp [hnone], by simp [hcalls], by simp [hworkers], by simp [hworkers]⟩,
    ⟨by simp [between, hcalls], by simp [hcalls], fun _ => ?_⟩⟩
  rw [hexecuted]
  unfold controlState Readings.latestByChannel
  rw [hnone]
  rfl

/-- Once all calls have ended, the reported state is that of the bytes last taken, and off if
none were. -/
theorem control_state_follows {device : Device} {channel : Channel} {s : ControlWorld}
    (hrun : (controlCalls device channel).Run (fun s e => oneAtATime channel s e = true) s)
    (hended : ∀ call ∈ s.calls, ∃ e, call.pc = .finished e) :
    controlStates s.db [channel] =
      [(channel.id, s.executed.getLast?.any (decodesOn channel))] := by
  obtain ⟨htype, hunit, hfmt⟩ : channel.type = .controller ∧ channel.unit = some "0/1" ∧
      channel.dataFormat ∈ Parser.supportedFormats := by
    refine System.Run.invariant (P := fun _ => _) ?_ (fun _ _ _ h _ _ => h) hrun
    rintro s ⟨-, -, -, -, htype, hunit, hfmt, -⟩
    exact ⟨htype, hunit, hfmt⟩
  obtain ⟨-, hc⟩ : Bookkeeping channel s ∧ Core channel s :=
    hrun.invariant (fun s h => init_tracks h) fun s e s' h hok hs => step_tracks hfmt h hok hs
  have hnone : ∀ k, between s k = false := by
    intro k
    unfold between
    cases hk : s.calls[k]? with
    | none => rfl
    | some call =>
      obtain ⟨e, he⟩ := hended call (List.mem_of_getElem? hk)
      rw [Option.any_some, he]
      rfl
  rw [← hc.settled hnone]
  simp [controlStates, htype, hunit]

def lamp : Device := ⟨1, "A4:C1:38:00:00:04", .publicAddr, "lamp", none, 1, none⟩

def lampSwitch : Channel := ⟨1, 1, "switch", .controller, "2a58", "uint8", some "0/1"⟩

def lampWorld : ControlWorld where
  db := { devices := [lamp], channels := [lampSwitch], nextDevice := 2, nextChannel := 2 }

theorem lampWorld_init : (controlCalls lamp lampSwitch).init lampWorld := by
  refine ⟨?_, .head _, .head _, rfl, rfl, rfl, by decide, rfl, rfl⟩
  constructor <;> decide

def lampQueued : List ControlEvent :=
  [.spawn, .worker 0 .acquire, .worker 0 .connectOk, .worker 0 .announce, .call true, .advance 0,
    .advance 0, .advance 0]

def lampTaken : List ControlEvent :=
  [.worker 0 .head, .worker 0 (.perform { found := .ok [3], io := .ok [] }), .worker 0 .complete]

def allEnded (s : ControlWorld) : Bool :=
  s.calls.all fun call => match call.pc with
    | .finished _ => true
    | _ => false

theorem exists_of_allEnded {s : ControlWorld} (h : allEnded s = true) :
    ∀ call ∈ s.calls, ∃ e, call.pc = .finished e := by
  intro call hcall
  have hpc := List.all_eq_true.mp h call hcall
  split at hpc
  · rename_i e he
    exact ⟨e, he⟩
  · cases hpc

theorem control_state_follows_lamp :
    ∃ s : ControlWorld, s.executed = [[1]] ∧ controlStates s.db [lampSwitch] = [(1, true)] := by
  obtain ⟨s, hrun, hs⟩ := System.exists_run_of_replay (oneAtATime lampSwitch) lampWorld_init
    (lampQueued ++ lampTaken ++ [.advance 0, .advance 0])
    (p := fun s => allEnded s && s.executed = [[1]]) (by decide +kernel)
  rw [Bool.and_eq_true, decide_eq_true_eq] at hs
  have hfollows := control_state_follows hrun (exists_of_allEnded hs.1)
  rw [hs.2] at hfollows
  have hon : ([[1]] : List Bytes).getLast?.any (decodesOn lampSwitch) = true := by decide +kernel
  rw [hon] at hfollows
  exact ⟨s, hs.2, hfollows⟩

/-- A caller times out while its command is queued; the command is then performed all the
same, and no reading records it. -/
theorem control_state_lost : ¬∀ s, (controlCalls lamp lampSwitch).Reachable s →
    (∀ call ∈ s.calls, ∃ e, call.pc = .finished e) → (∀ w ∈ s.workers, live w = []) →
    controlStates s.db [lampSwitch] =
      [(lampSwitch.id, s.executed.getLast?.any (decodesOn lampSwitch))] := by
  intro hall
  obtain ⟨s, hrun, hs⟩ := System.exists_reachable_of_replay lampWorld_init
    (lampQueued ++ [.timeout 0] ++ lampTaken)
    (p := fun s => allEnded s && s.workers.all (fun w => (live w).isEmpty) &&
      s.executed = [[1]] && controlStates s.db [lampSwitch] = [(1, false)]) (by decide +kernel)
  simp only [Bool.and_eq_true, decide_eq_true_eq] at hs
  obtain ⟨⟨⟨hended, hlive⟩, hexecuted⟩, hoff⟩ := hs
  have hfollows := hall s hrun (exists_of_allEnded hended) fun w hw =>
    List.isEmpty_iff.mp (List.all_eq_true.mp hlive w hw)
  rw [hoff, hexecuted] at hfollows
  exact absurd hfollows (by decide +kernel)

end HomeServer.Services
