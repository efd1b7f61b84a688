import HomeServer.Lib.Transition
import HomeServer.Services.Requests
import HomeServer.Services.StatusTrace

/-! Devices are removed and registered between the ticks of the monitor. Its entries go by
address, the rows and the reports by device id, and any call and any statement may raise. -/
namespace HomeServer.Services
open HomeServer.Db HomeServer.Ble HomeServer.Lib

def rowKey (d : Device) : ℕ × Address := (d.id, d.address)

namespace BleRuntime
variable {β : Type} {E : Env β} {w w' w'' : World β} {d d' : Device} {now : ℚ}

/-- The row has its timestamp, and connected is the last that was reported of its id. -/
structure Announced (w : World β) (d : Device) : Prop where
  stamped : d.lastConnectedAt ≠ none
  announced : (w.trace.filterMap (statusOf d.id)).getLast? = some .connected

/-- An entry says connected only of a row that was announced. -/
structure EntriesKept (w : World β) : Prop where
  valid : w.db.Valid
  entries : ∀ d ∈ w.db.devices, lastStatus w d.address = some .connected → Announced w d

/-- The work of a tick for the device at `a`, whether it raised or not. -/
structure Worked (a : Address) (w w' : World β) : Prop where
  kept : EntriesKept w'
  keys : w'.db.devices.map rowKey = w.db.devices.map rowKey
  trace : w.trace <+: w'.trace
  others : ∀ b, b ≠ a → lastStatus w' b = lastStatus w b

/-- Nothing happened that the reports or the rows would show. -/
structure Silent (w w' : World β) : Prop where
  db : w'.db = w.db
  trace : w'.trace = w.trace
  statuses : ∀ a, lastStatus w' a = lastStatus w a

def HasRow (w : World β) (d : Device) : Prop := rowKey d ∈ w.db.devices.map rowKey

theorem HasRow.same (h : HasRow w d) (hv : w.db.Valid) (hd' : d' ∈ w.db.devices) :
    d'.id = d.id ↔ d'.address = d.address := by
  obtain ⟨x, hx, hkey⟩ := List.mem_map.mp h
  have hid : x.id = d.id := congrArg Prod.fst hkey
  have haddr : x.address = d.address := congrArg Prod.snd hkey
  constructor
  · intro hsame
    rw [hv.eq_of_id hd' hx (hsame.trans hid.symm), haddr]
  · intro hsame
    rw [hv.eq_of_address hd' hx (hsame.trans haddr.symm), hid]

theorem Worked.refl (h : EntriesKept w) (a : Address) : Worked a w w :=
  ⟨h, rfl, List.prefix_rfl, fun _ _ => rfl⟩

theorem Worked.trans {a : Address} (h : Worked a w w') (h' : Worked a w' w'') :
    Worked a w w'' :=
  ⟨h'.kept, h'.keys.trans h.keys, h.trace.trans h'.trace,
    fun b hb => (h'.others b hb).trans (h.others b hb)⟩

theorem Worked.hasRow {a : Address} (h : Worked a w w') (hd : HasRow w d) : HasRow w' d := by
  unfold HasRow
  rw [h.keys]
  exact hd

theorem Silent.refl (w : World β) : Silent w w := ⟨rfl, rfl, fun _ => rfl⟩

theorem Silent.trans (h : Silent w w') (h' : Silent w' w'') : Silent w w'' :=
  ⟨h'.db.trans h.db, h'.trace.trans h.trace, fun a => (h'.statuses a).trans (h.statuses a)⟩

theorem Silent.kept (hs : Silent w w') (h : EntriesKept w) : EntriesKept w' := by
  constructor
  · exact hs.db ▸ h.valid
  · intro d hd hc
    rw [hs.db] at hd
    rw [hs.statuses] at hc
    have ha := h.entries d hd hc
    exact ⟨ha.stamped, hs.trace ▸ ha.announced⟩

theorem EntriesKept.outside (h : EntriesKept w) (b : β) : EntriesKept { w with outside := b } :=
  Silent.kept (w := w) ⟨rfl, rfl, fun _ => rfl⟩ h

theorem Silent.worked (hs : Silent w w') (h : EntriesKept w) (a : Address) : Worked a w w' :=
  ⟨hs.kept h, by rw [hs.db], hs.trace ▸ List.prefix_rfl, fun b _ => hs.statuses b⟩

theorem lastStatus_update (w : World β) (a b : Address) (s : DeviceMonitorState) :
    lastStatus { w with monitor := Function.update w.monitor a (some s) } b =
      if b = a then s.lastStatus else lastStatus w b := by
  by_cases hb : b = a
  · simp [lastStatus, hb]
  · simp [lastStatus, hb]

theorem stateOf_lastStatus (w : World β) (a : Address) :
    ((w.monitor a).getD {}).lastStatus = lastStatus w a := by
  unfold lastStatus
  cases w.monitor a <;> rfl

theorem Silent.updated (w : World β) (a : Address) (f : DeviceMonitorState → DeviceMonitorState)
    (hf : ∀ s, (f s).lastStatus = s.lastStatus) :
    (updateState a f).After (fun r w' => r = .ok () ∧ Silent w w') w := by
  rw [after_updateState]
  refine ⟨rfl, rfl, rfl, fun b => ?_⟩
  rw [lastStatus_update, hf, stateOf_lastStatus]
  split
  · rename_i hb
    rw [hb]
  · rfl

theorem subscribeDisplayChannels_silent (E : Env β) (d : Device) (w : World β) :
    (subscribeDisplayChannels E d).After (fun _ w' => Silent w w') w := by
  unfold subscribeDisplayChannels
  rw [Action.after_bind]
  refine after_query_any E _ (fun b _ => ?_) fun e b => ⟨rfl, rfl, fun _ => rfl⟩
  rw [Action.then_ok]
  apply (subscribeEach_spec E d _ _).mono
  rintro r w₁ ⟨-, hm, htrace, hdb⟩
  refine ⟨hdb, htrace, fun a => ?_⟩
  unfold lastStatus
  rw [hm]

theorem subscribeOnce_silent (E : Env β) (d : Device) (w : World β) :
    (subscribeOnce E d).After (fun _ w' => Silent w w') w := by
  unfold subscribeOnce
  rw [Action.after_bind, after_stateOf, Action.then_ok, Action.after_ite]
  split
  · exact .refl w
  · apply (subscribeDisplayChannels_silent E d w).bind
    · intro _ w₁ h₁
      apply (Silent.updated w₁ d.address (fun s => { s with subscribed := true })
        fun _ => rfl).mono
      intro r w₂ h₂
      exact h₁.trans h₂.2
    · exact fun _ _ h₁ => h₁

theorem touched_row {db : Database} {time : Timestamp} {i : ℕ}
    (hd' : d' ∈ (Devices.touchLastConnected db time i).devices) :
    ∃ d ∈ db.devices, rowKey d = rowKey d' ∧
      (d'.id = i ∨ d.lastConnectedAt ≠ none → d'.lastConnectedAt ≠ none) := by
  obtain ⟨d, hd, rfl⟩ := List.mem_map.mp hd'
  refine ⟨d, hd, ?_⟩
  split
  · simp [rowKey]
  · rename_i hid
    simp [hid]

theorem Announced.log (h : Announced w d) {e : Event} (he : statusOf d.id e = none)
    {d' : Device} (hid : d'.id = d.id) (hstamp : d'.lastConnectedAt ≠ none)
    (ht : w'.trace = w.trace ++ [e]) : Announced w' d' := by
  refine ⟨hstamp, ?_⟩
  have hnone : [e].filterMap (statusOf d.id) = [] := by simp [he]
  rw [ht, hid, List.filterMap_append, hnone, List.append_nil]
  exact h.announced

/-- The statement may raise, and then the row is as before. -/
theorem touchLastConnected_worked (E : Env β) (h : EntriesKept w) (a : Address) (i : ℕ) :
    (touchLastConnected E i).After
      (fun r w' => Worked a w w' ∧ (∀ b, lastStatus w' b = lastStatus w b) ∧
        (r = .ok () → ∀ d' ∈ w'.db.devices, d'.id = i → d'.lastConnectedAt ≠ none)) w := by
  unfold touchLastConnected
  rw [Action.after_bind, after_log, Action.then_ok, Action.after_bind, after_ask, Action.then_ok]
  refine after_execute_any E _ (fun _ db b _ hf => ?_) fun e b => ?_
  · cases hf
    refine ⟨⟨⟨h.valid.touch _ _, fun d' hd' hc => ?_⟩,
      Devices.map_touchLastConnected (fun _ _ => rfl) _ _ _,
      List.prefix_append _ _, fun _ _ => rfl⟩, fun _ => rfl, fun _ d' hd' hid => ?_⟩
    · obtain ⟨d, hd, hkey, hstamp⟩ := touched_row hd'
      have haddr : d.address = d'.address := congrArg Prod.snd hkey
      have ha := h.entries d hd (haddr ▸ hc)
      exact ha.log rfl (congrArg Prod.fst hkey).symm (hstamp (Or.inr ha.stamped)) rfl
    · obtain ⟨d, hd, hkey, hstamp⟩ := touched_row hd'
      exact hstamp (Or.inl hid)
  · refine ⟨⟨⟨h.valid, fun d hd hc => ?_⟩, rfl, List.prefix_append _ _, fun _ _ => rfl⟩,
      fun _ => rfl, fun hr => nomatch hr⟩
    have ha := h.entries d hd hc
    exact ha.log rfl rfl ha.stamped rfl

theorem touchUnlessConnected_worked (E : Env β) (h : EntriesKept w) (hd : HasRow w d) :
    (touchUnlessConnected E d).After
      (fun r w' => Worked d.address w w' ∧
        (r = .ok () → ∀ d' ∈ w'.db.devices, d'.id = d.id → d'.lastConnectedAt ≠ none)) w := by
  unfold touchUnlessConnected
  rw [Action.after_bind, after_stateOf, Action.then_ok, stateOf_lastStatus, Action.after_ite]
  split
  · rename_i hc
    refine ⟨.refl h _, fun _ d' hd' hid => ?_⟩
    have haddr := (hd.same h.valid hd').mp hid
    exact (h.entries d' hd' (haddr ▸ hc)).stamped
  · apply (touchLastConnected_worked E h d.address d.id).mono
    rintro r w₁ ⟨hw, -, hstamp⟩
    exact ⟨hw, hstamp⟩

/-- The entry and the report of a status go together, even when the callback raises. -/
theorem setStatus_worked (E : Env β) (h : EntriesKept w) (hd : HasRow w d) (status : Status)
    (hstamp : status = .connected →
      ∀ d' ∈ w.db.devices, d'.id = d.id → d'.lastConnectedAt ≠ none) :
    (setStatus E d.id d.address status).After
      (fun _ w' => Worked d.address w w' ∧ lastStatus w' d.address = some status) w := by
  unfold setStatus
  rw [Action.after_bind, after_stateOf, Action.then_ok, stateOf_lastStatus, Action.after_ite]
  split
  · rename_i hsame
    exact ⟨.refl h _, hsame⟩
  · rw [Action.after_bind, after_updateState, Action.then_ok, Action.after_bind, after_log,
      Action.then_ok, after_call]
    have hstatus : ∀ (b : β) (x : Address), lastStatus
        { w with
          monitor := Function.update w.monitor d.address
            (some { (w.monitor d.address).getD {} with lastStatus := some status })
          outside := b
          trace := w.trace ++ [.status d.id status] } x =
        if x = d.address then some status else lastStatus w x := fun _ x =>
      lastStatus_update w d.address x _
    refine ⟨⟨⟨h.valid, fun d' hd' hc => ?_⟩, rfl, List.prefix_append _ _, fun x hx => ?_⟩, ?_⟩
    · rw [hstatus] at hc
      split at hc
      · rename_i haddr
        have hid := (hd.same h.valid hd').mpr haddr
        obtain rfl := Option.some.inj hc
        refine ⟨hstamp rfl d' hd' hid, ?_⟩
        simp [List.filterMap_append, statusOf, hid]
      · rename_i haddr
        have hid : ¬d.id = d'.id := fun hid => haddr ((hd.same h.valid hd').mp hid.symm)
        have ha := h.entries d' hd' hc
        have hother : statusOf d'.id (.status d.id status) = none := if_neg hid
        exact ha.log hother rfl ha.stamped rfl
    · rw [hstatus, if_neg hx]
    · rw [hstatus, if_pos rfl]

theorem onConnected_worked (E : Env β) (h : EntriesKept w) (hd : HasRow w d) :
    (onConnected E d).After
      (fun r w' => Worked d.address w w' ∧
        (r = .ok () → lastStatus w' d.address = some .connected)) w := by
  unfold onConnected
  refine (subscribeOnce_silent E d w).bind (fun _ w₁ h₁ => ?_) fun e w₁ h₁ =>
    ⟨h₁.worked h _, fun hr => nomatch hr⟩
  have hbackoff := Silent.updated w₁ d.address
    (fun s => { s with backoffS := reconnectBaseS, nextRetryAt := 0 }) fun _ => rfl
  refine hbackoff.bind_ok fun w₂ h₂ => ?_
  have hw₂ := (h₁.trans h₂).worked h d.address
  refine (touchUnlessConnected_worked E hw₂.kept (hw₂.hasRow hd)).bind (fun _ w₃ h₃ => ?_)
    fun e w₃ h₃ => ⟨hw₂.trans h₃.1, fun hr => nomatch hr⟩
  have hw₃ := hw₂.trans h₃.1
  apply (setStatus_worked E hw₃.kept (hw₃.hasRow hd) .connected fun _ => h₃.2 rfl).mono
  rintro r w₄ ⟨h₄, hstatus⟩
  exact ⟨hw₃.trans h₄, fun _ => hstatus⟩

theorem reportDrop_worked (E : Env β) (now : ℚ) (h : EntriesKept w) (hd : HasRow w d) :
    (reportDrop E now d).After (fun _ w' => Worked d.address w w') w := by
  unfold reportDrop
  rw [Action.after_bind, after_stateOf, Action.then_ok]
  have htouch : (if ((w.monitor d.address).getD {}).lastStatus = some .connected then
      touchLastConnected E d.id else pure () : Runtime β Unit).After
      (fun _ w' => Worked d.address w w') w := by
    rw [Action.after_ite]
    split
    · exact (touchLastConnected_worked E h d.address d.id).mono fun _ _ h₁ => h₁.1
    · exact .refl h _
  refine htouch.bind (fun _ w₁ h₁ => ?_) fun e w₁ h₁ => h₁
  have hbackoff := Silent.updated w₁ d.address
    (fun s => { s with backoffS := reconnectBaseS, nextRetryAt := now + reconnectBaseS })
    fun _ => rfl
  refine hbackoff.bind_ok fun w₂ h₂ => ?_
  have hw₂ := h₁.trans (h₂.worked h₁.kept d.address)
  apply (setStatus_worked E hw₂.kept (hw₂.hasRow hd) .disconnected fun hc => nomatch hc).mono
  exact fun _ _ h₃ => hw₂.trans h₃.1

theorem log_silent (e : Event) (he : ∀ i, statusOf i e = none) (h : EntriesKept w) (a : Address)
    (b : β) : Worked a w { w with outside := b, trace := w.trace ++ [e] } := by
  refine ⟨⟨h.valid, fun d hd hc => ?_⟩, rfl, List.prefix_append _ _, fun _ _ => rfl⟩
  have ha := h.entries d hd hc
  exact ha.log (he d.id) rfl ha.stamped rfl

theorem retryConnect_worked (E : Env β) (now : ℚ) (h : EntriesKept w) (hd : HasRow w d) :
    (retryConnect E now d).After (fun _ w' => Worked d.address w w') w := by
  unfold retryConnect
  have hstatus := setStatus_worked E h hd .reconnecting fun hc => nomatch hc
  refine hstatus.bind (fun _ w₁ h₁ => ?_) fun e w₁ h₁ => h₁.1
  have hensure : (ensureConnecting E d).After (fun _ w' => Worked d.address w w') w₁ := by
    unfold ensureConnecting
    rw [Action.after_bind, after_log, Action.then_ok, after_call]
    exact h₁.1.trans (log_silent _ (fun _ => rfl) h₁.1.kept _ _)
  refine hensure.bind (fun _ w₂ h₂ => ?_) fun e w₂ h₂ => h₂
  rw [Action.after_bind, after_isConnected, Action.then_ok]
  generalize (E.ble.isConnected d.address w₂.outside).1 = up
  have h₃ := h₂.trans
    (log_silent (.linked d.address up) (fun _ => rfl) h₂.kept d.address
      (E.ble.isConnected d.address w₂.outside).2)
  cases up with
  | true => exact (onConnected_worked E h₃.kept (h₃.hasRow hd)).mono fun _ _ h₄ => h₃.trans h₄.1
  | false =>
    rw [if_neg Bool.false_ne_true]
    refine (Silent.updated _ d.address (fun s =>
      { s with backoffS := min (s.backoffS * reconnectFactor) reconnectCapS }) fun _ => rfl).bind_ok
      fun w₄ h₄ => ?_
    apply (Silent.updated w₄ d.address (fun s => { s with nextRetryAt := now + s.backoffS })
      fun _ => rfl).mono
    exact fun _ w₅ h₅ => h₃.trans ((h₄.trans h₅.2).worked h₃.kept _)

def SeenConnected (w w' : World β) (a : Address) : Prop :=
  .linked a false ∈ w'.trace.drop w.trace.length ∨ lastStatus w' a = some .connected

theorem tickDevice_worked (E : Env β) (now : ℚ) (h : EntriesKept w) (hd : HasRow w d) :
    (tickDevice E now d).After
      (fun r w' => Worked d.address w w' ∧ (r = .ok () → SeenConnected w w' d.address)) w := by
  unfold tickDevice
  refine (Silent.updated w d.address id fun _ => rfl).bind_ok fun w₁ h₁ => ?_
  have hw₁ := h₁.worked h d.address
  rw [Action.after_bind, after_isConnected, Action.then_ok]
  generalize (E.ble.isConnected d.address w₁.outside).1 = up
  have h₂ := log_silent (.linked d.address up) (fun _ => rfl) hw₁.kept d.address
    (E.ble.isConnected d.address w₁.outside).2
  have hw₂ := hw₁.trans h₂
  cases up with
  | true =>
    apply (onConnected_worked E hw₂.kept (hw₂.hasRow hd)).mono
    rintro r w₃ ⟨h₃, hc⟩
    exact ⟨hw₂.trans h₃, fun hr => Or.inr (hc hr)⟩
  | false =>
    rw [if_neg Bool.false_ne_true]
    have hdown : ∀ (r : Except Err Unit) (w' : World β), Worked d.address
        { w₁ with
          outside := (E.ble.isConnected d.address w₁.outside).2
          trace := w₁.trace ++ [.linked d.address false] } w' →
        Worked d.address w w' ∧ (r = .ok () → SeenConnected w w' d.address) := by
      intro r w' hw'
      refine ⟨hw₂.trans hw', fun _ => Or.inl ?_⟩
      obtain ⟨es, hes⟩ := hw'.trace
      rw [← hes, h₁.trace]
      simp
    refine (Silent.updated _ d.address (fun s => { s with subscribed := false })
      fun _ => rfl).bind_ok fun w₃ h₃ => ?_
    have hw₃ := h₃.worked hw₂.kept d.address
    have hd₃ := hw₃.hasRow (hw₂.hasRow hd)
    rw [Action.after_bind, after_stateOf, Action.then_ok, Action.after_ite, Action.after_ite]
    split
    · apply (reportDrop_worked E now hw₃.kept hd₃).mono
      exact fun r w₄ h₄ => hdown r w₄ (hw₃.trans h₄)
    split
    · apply (retryConnect_worked E now hw₃.kept hd₃).mono
      exact fun r w₄ h₄ => hdown r w₄ (hw₃.trans h₄)
    · exact hdown _ w₃ hw₃

theorem SeenConnected.trans {a b : Address} (h : SeenConnected w w' a) (hne : a ≠ b)
    (hlen : w.trace.length ≤ w'.trace.length) (hw : Worked b w' w'') : SeenConnected w w'' a := by
  rcases h with h | h
  · obtain ⟨es, hes⟩ := hw.trace
    left
    rw [← hes, List.drop_append_of_le_length hlen]
    exact List.mem_append_left _ h
  · exact Or.inr ((hw.others a hne).trans h)

/-- What a tick leaves, and what a completed tick says of each listed device. -/
theorem monitorTick_kept (E : Env β) (now : ℚ) (h : EntriesKept w) :
    (monitorTick E now).After
      (fun r w' => EntriesKept w' ∧ w'.db.devices.map rowKey = w.db.devices.map rowKey ∧
        (r = .ok () → ∀ d ∈ w.db.devices, SeenConnected w w' d.address)) w := by
  unfold monitorTick openConn
  rw [Action.after_bind]
  refine after_query_any E _ (fun b _ => ?_) fun e b => ⟨h.outside _, rfl, fun hr => nomatch hr⟩
  rw [Action.then_ok, Action.after_bind]
  refine after_query_any E _ (fun b _ => ?_) fun e b => ⟨h.outside _, rfl, fun hr => nomatch hr⟩
  rw [Action.then_ok, Action.after_bind, Action.after_modify, Action.then_ok]
  refine Action.after_forM (fun xs w₁ => EntriesKept w₁ ∧ (∀ x ∈ xs, x ∈ w.db.devices) ∧
    xs.Nodup ∧ w₁.db.devices.map rowKey = w.db.devices.map rowKey ∧
    w.trace.length ≤ w₁.trace.length ∧
    ∀ d ∈ w.db.devices, d ∉ xs → SeenConnected w w₁ d.address) ?_ ?_ _ _
    ⟨⟨h.valid, fun d hd hc => ?_⟩, fun _ hx => hx, h.valid.deviceIds.of_map, rfl, le_rfl,
      fun d hd hnot => absurd hd hnot⟩
  · rintro w₁ ⟨hk, -, -, hkeys, -, hall⟩
    exact ⟨hk, hkeys, fun _ d hd => hall d hd (by simp)⟩
  · rintro x xs w₁ ⟨hk, hmem, hnodup, hkeys, hlen, hall⟩
    have hx := hmem x (.head _)
    have hrow : HasRow w₁ x := by
      unfold HasRow
      rw [hkeys]
      exact List.mem_map_of_mem hx
    apply (tickDevice_worked E now hk hrow).mono
    rintro r w₂ ⟨hw, hseen⟩
    have hkeys₂ := hw.keys.trans hkeys
    cases r with
    | error e => exact ⟨hw.kept, hkeys₂, fun hr => nomatch hr⟩
    | ok u =>
      refine ⟨hw.kept, fun y hy => hmem y (.tail _ hy), (List.nodup_cons.mp hnodup).2, hkeys₂,
        hlen.trans hw.trace.length_le, fun d hd hnot => ?_⟩
      by_cases hdx : d = x
      · rw [hdx]
        rcases hseen rfl with hs | hs
        · exact Or.inl ((List.drop_sublist_drop_left _ hlen).mem hs)
        · exact Or.inr hs
      · have haddr : d.address ≠ x.address := fun ha => hdx (h.valid.eq_of_address hd hx ha)
        exact (hall d hd fun hy => (List.mem_cons.mp hy).elim hdx hnot).trans haddr hlen hw
  · have hsame : lastStatus w d.address = some .connected := by
      unfold lastStatus at hc ⊢
      dsimp only at hc
      split at hc
      · exact hc
      · cases hc
    have ha := h.entries d hd hsame
    exact ⟨ha.stamped, ha.announced⟩

/-- What may happen between and at the ticks; `outside` is what each of them finds. -/
inductive RegistryEvent (β : Type)
  | tick (now : ℚ) (outside : β)
  | addDevice (ownerUserId : ℕ) (address : Address) (name : String) (addrType : Option AddrType)
      (outside : β)
  | removeDevice (deviceId : ℕ) (outside : β)

/-- The ticks start over the entries of `activate`, which hold no status yet. -/
def registry (E : Env β) : System (World β) (RegistryEvent β) where
  init w := w.db.Valid ∧ (∀ a, lastStatus w a = none) ∧ w.trace = []
  step w
    | .tick now outside => some ((monitorTick E now).exec { w with outside }).2
    | .addDevice ownerUserId address name addrType outside =>
      some ((DeviceService.addDevice E ownerUserId address name addrType).exec
        { w with outside }).2
    | .removeDevice deviceId outside =>
      some ((DeviceService.removeDevice E deviceId).exec { w with outside }).2

def insertsRow (E : Env β) (w : World β) (address : Address) (outside : β) : Bool :=
  matchesMac address && (E.sqlError outside).1.isNone &&
    !w.db.devices.any fun d => d.address = address

/-- No row is inserted for an address whose entry says connected. -/
def registersForgotten (E : Env β) (w : World β) : RegistryEvent β → Bool
  | .addDevice _ address _ _ outside =>
    !insertsRow E w address outside || decide (lastStatus w address ≠ some .connected)
  | .tick _ _ | .removeDevice _ _ => true

/-- A row is inserted that no entry claims to be connected. -/
theorem EntriesKept.inserted (h : EntriesKept w) {address : Address} {name : String}
    {owner i : ℕ} {addrType : AddrType} {db : Database}
    (hc : Devices.create w.db address name owner addrType = .ok (i, db))
    (hnot : lastStatus w address ≠ some .connected) (b : β) :
    EntriesKept { w with outside := b, db } := by
  refine ⟨h.valid.deviceCreate hc, fun d hd hconn => ?_⟩
  obtain ⟨-, -, rfl⟩ := Devices.create_ok hc
  rcases List.mem_append.mp hd with hd | hd
  · have ha := h.entries d hd hconn
    exact ⟨ha.stamped, ha.announced⟩
  · rw [List.mem_singleton.mp hd] at hconn
    exact absurd hconn hnot

theorem EntriesKept.removed (h : EntriesKept w) {i : ℕ} {db : Database}
    (hc : Devices.delete w.db i = .ok db) : EntriesKept { w with db } := by
  refine ⟨h.valid.deviceDelete hc, fun d hd hconn => ?_⟩
  obtain rfl := Devices.delete_ok hc
  have ha := h.entries d (List.mem_of_mem_filter hd) hconn
  exact ⟨ha.stamped, ha.announced⟩

theorem addDevice_kept (E : Env β) (h : EntriesKept w) {address : Address}
    (hnot : insertsRow E w address w.outside = true → lastStatus w address ≠ some .connected)
    (ownerUserId : ℕ) (name : String) (addrType : Option AddrType) :
    (DeviceService.addDevice E ownerUserId address name addrType).After
      (fun _ w' => EntriesKept w') w := by
  unfold DeviceService.addDevice
  rw [Action.after_ite]
  split
  · rename_i hmac
    split
    · exact h
    · rename_i resolved _
      rw [Action.after_bind]
      refine after_execute_any E _ (fun i db b hsql hf => ?_) fun e b => h.outside b
      have hfree := (Devices.create_ok hf).1
      have hins : insertsRow E w address w.outside = true := by
        simpa [insertsRow, hmac, hsql] using hfree
      have hk := h.inserted hf (hnot hins) b
      rw [Action.then_ok, Action.after_bind, after_ignoringErrors, after_call, Action.then_ok,
        Action.after_bind]
      refine after_query_any E _ (fun b' _ => ?_) fun e b' => hk.outside b'
      rw [Action.then_ok]
      split <;> exact hk.outside b'
  · exact h

theorem removeDevice_kept (E : Env β) (h : EntriesKept w) (deviceId : ℕ) :
    (DeviceService.removeDevice E deviceId).After (fun _ w' => EntriesKept w') w := by
  unfold DeviceService.removeDevice
  rw [Action.after_bind]
  refine after_query_any E _ (fun b _ => ?_) fun e b => h.outside b
  rw [Action.then_ok]
  split
  · exact h.outside b
  · rename_i d _
    have hdelete : ∀ w₁ : World β, EntriesKept w₁ →
        (execute E fun db => (Devices.delete db deviceId).map fun db => ((), db)).After
          (fun _ w' => EntriesKept w') w₁ := by
      intro w₁ h₁
      refine after_execute_any E _ (fun _ db b' _ hf => ?_) fun e b' => h₁.outside b'
      cases hd : Devices.delete w₁.db deviceId with
      | error e => rw [hd] at hf; cases hf
      | ok db₁ =>
        rw [hd] at hf
        cases hf
        exact (h₁.removed hd).outside b'
    rw [Action.after_bind, after_isConnected, Action.then_ok]
    generalize (E.ble.isConnected d.address b).1 = up
    have h₁ := (log_silent (.linked d.address up) (fun _ => rfl) h d.address
      (E.ble.isConnected d.address b).2).kept
    cases up with
    | true =>
      rw [if_pos rfl, Action.after_bind, after_call]
      cases (E.ble.disconnect d.address _).1 with
      | error e => exact h₁.outside _
      | ok u => exact hdelete _ (h₁.outside _)
    | false =>
      rw [if_neg Bool.false_ne_true]
      exact hdelete _ h₁

theorem registry_kept
    (h : (registry E).Run (fun w e => registersForgotten E w e = true) w) : EntriesKept w := by
  apply h.invariant
  · rintro w ⟨hv, hnone, -⟩
    exact ⟨hv, fun d _ hc => by rw [hnone] at hc; cases hc⟩
  · intro w e w' hk hok hs
    cases e with
    | tick now outside =>
      cases hs
      exact (monitorTick_kept E now (hk.outside outside)).1
    | addDevice owner address name addrType outside =>
      cases hs
      refine addDevice_kept E (hk.outside outside) (fun hins => ?_) owner name addrType
      have hins : insertsRow E w address outside = true := hins
      have hnot : lastStatus w address ≠ some .connected := by
        simpa [registersForgotten, hins] using hok
      exact hnot
    | removeDevice deviceId outside =>
      cases hs
      exact removeDevice_kept E (hk.outside outside) deviceId

/-- A completed tick of a run that sees the link of a row up and never down leaves the row
stamped, and connected as the last report of its id. -/
theorem announced_and_stamped
    (h : (registry E).Run (fun w e => registersForgotten E w e = true) w) (now : ℚ)
    (outside : β) :
    let out := (monitorTick E now).exec { w with outside }
    out.1 = .ok () → ∀ d ∈ out.2.db.devices,
      (∀ up, .linked d.address up ∈ out.2.trace.drop w.trace.length → up = true) →
      d.lastConnectedAt ≠ none ∧
        (out.2.trace.filterMap (statusOf d.id)).getLast? = some .connected := by
  intro out hok d hd hup
  have hk := registry_kept h
  obtain ⟨hkept, hkeys, hseen⟩ :=
    monitorTick_kept E now (hk.outside outside)
  have hkey : rowKey d ∈ w.db.devices.map rowKey := hkeys ▸ List.mem_map_of_mem hd
  obtain ⟨d₀, hd₀, hkey₀⟩ := List.mem_map.mp hkey
  have haddr : d₀.address = d.address := congrArg Prod.snd hkey₀
  rcases hseen hok d₀ hd₀ with hdown | hconn
  · rw [haddr] at hdown
    exact absurd (hup false hdown) Bool.false_ne_true
  · rw [haddr] at hconn
    have ha := hkept.entries d hd hconn
    exact ⟨ha.stamped, ha.announced⟩

def lampAddress : Address := "A4:C1:38:00:00:02"

def lampAdded : RegistryEvent Bool :=
  .addDevice 1 lampAddress "lamp" (some .publicAddr) true

theorem emptyRegistry_init : (registry switchEnv).init { db := {}, outside := true } :=
  ⟨.empty, fun _ => rfl, rfl⟩

/-- A tick at this time completes, and finds the link of the row with id 2 up. -/
def completesUp (now : ℚ) (w : World Bool) : Bool :=
  let out := (monitorTick switchEnv now).exec { w with outside := true }
  decide (out.1 = .ok ()) && out.2.db.devices.any fun d =>
    d.id = 2 && (out.2.trace.drop w.trace.length).all fun e => e != .linked d.address false

theorem completesUp_row {now : ℚ} {w : World Bool} (h : completesUp now w = true) :
    let out := (monitorTick switchEnv now).exec { w with outside := true }
    out.1 = .ok () ∧ ∃ d ∈ out.2.db.devices, d.id = 2 ∧
      ∀ up, .linked d.address up ∈ out.2.trace.drop w.trace.length → up = true := by
  simp only [completesUp, Bool.and_eq_true, decide_eq_true_eq, List.any_eq_true,
    List.all_eq_true] at h
  obtain ⟨hok, d, hd, hid, hup⟩ := h
  refine ⟨hok, d, hd, hid, fun up he => ?_⟩
  cases up with
  | true => rfl
  | false => simpa using hup _ he

/-- A tick passes between the removal and the new registration. -/
theorem announced_and_stamped_forgotten : ∃ w : World Bool,
    (registry switchEnv).Reachable w ∧
    ∃ d ∈ ((monitorTick switchEnv 9).exec { w with outside := true }).2.db.devices, d.id = 2 ∧
      d.lastConnectedAt ≠ none := by
  obtain ⟨w, hrun, hw⟩ := System.exists_run_of_replay (registersForgotten switchEnv)
    emptyRegistry_init
    [lampAdded, .tick 0 true, .removeDevice 1 true, .tick 1 true, lampAdded]
    (p := completesUp 9) (by decide +kernel)
  obtain ⟨hok, d, hd, hid, hup⟩ := completesUp_row hw
  exact ⟨w, hrun.reachable, d, hd, hid, (announced_and_stamped hrun 9 true hok d hd hup).1⟩

/-- The lamp is removed and registered again between two ticks, the second of which finds its
link up: the new row is neither stamped nor announced. -/
theorem registered_unannounced : ¬∀ w : World Bool, (registry switchEnv).Reachable w →
    ∀ (now : ℚ) (outside : Bool),
      let out := (monitorTick switchEnv now).exec { w with outside }
      out.1 = .ok () → ∀ d ∈ out.2.db.devices,
        (∀ up, .linked d.address up ∈ out.2.trace.drop w.trace.length → up = true) →
        d.lastConnectedAt ≠ none ∧
          (out.2.trace.filterMap (statusOf d.id)).getLast? = some .connected := by
  intro hall
  obtain ⟨w, hrun, hw⟩ := System.exists_reachable_of_replay emptyRegistry_init
    [lampAdded, .tick 0 true, .removeDevice 1 true, lampAdded]
    (p := fun w => completesUp 1 w &&
      ((monitorTick switchEnv 1).exec { w with outside := true }).2.db.devices.all fun d =>
        d.lastConnectedAt.isNone) (by decide +kernel)
  simp only [Bool.and_eq_true, List.all_eq_true] at hw
  obtain ⟨hok, d, hd, -, hup⟩ := completesUp_row hw.1
  have hnone := hw.2 d hd
  exact (hall w hrun 1 true hok d hd hup).1 (Option.isNone_iff_eq_none.mp hnone)

end BleRuntime
end HomeServer.Services
