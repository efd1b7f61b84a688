import HomeServer.Ble.MockManager
import HomeServer.Services.SubscribedTable
import HomeServer.Services.SubscriptionRuns

/-! The server over the mock backend. A link of the mock comes up in the call that asks for it and
goes down only when it is told to, so the subscriptions can be kept in step with the tables. -/
namespace HomeServer.Services
open HomeServer.Db HomeServer.Ble HomeServer.Lib
open MockBLEManager (SameLinks)

/-- The clock stands still during an operation, and no statement and no callback raises. -/
def mockEnv (now : Timestamp) : Env MockBLEManager where
  ble := MockBLEManager.manager
  onStatus _ _ m := (.ok (), m)
  sqlError m := (none, m)
  wallClock m := (now, m)

/-- Each subscription is that of a display channel on a link that is up, and `_subscribed` has its
row; and of the display channels on such links that can be subscribed only those in `late` are not. -/
structure Behind (db : Database) (late : Address × Uuid → Prop) (w : World MockBLEManager) :
    Prop where
  rows : SameRows db w.db
  entry : ∀ key i, w.outside.subscriptions.get? key = some i →
    key.1 ∈ w.outside.connected ∧ key.2 ∉ w.outside.failSubscribeFor ∧
      ∃ c, CurrentRow db key c ∧ c.id = i ∧ w.subscribed key = some c
  all : ∀ key c, CurrentRow db key c → key.1 ∈ w.outside.connected →
    key.2 ∉ w.outside.failSubscribeFor → ¬late key →
      (w.outside.subscriptions.get? key).isSome = true

def InStep (db : Database) (w : World MockBLEManager) : Prop := Behind db (fun _ => False) w

section Rules
variable {α : Type} {w : World MockBLEManager} {now : Timestamp}

@[simp] theorem after_query_mock (f : Database → α)
    (Q : Except Err α → World MockBLEManager → Prop) :
    (query (mockEnv now) f).After Q w ↔ Q (.ok (f w.db)) w := Iff.rfl

theorem after_execute_mock (f : Database → Except Err (α × Database))
    (Q : Except Err α → World MockBLEManager → Prop) :
    (execute (mockEnv now) f).After Q w ↔ match f w.db with
      | .ok (a, db) => Q (.ok a) { w with db }
      | .error e => Q (.error e) w := by
  unfold execute
  rw [Action.after_bind, after_query_mock, Action.then_ok, id]
  cases f w.db <;> rfl

theorem after_isConnected_mock (a : Address) (Q : Except Err Bool → World MockBLEManager → Prop) :
    (isConnected (mockEnv now) a).After Q w ↔ Q (.ok (a ∈ w.outside.connected))
      { w with trace := w.trace ++ [.linked a (a ∈ w.outside.connected)] } := Iff.rfl

theorem mockEnv_quiet : (mockEnv now).Quiet := ⟨fun _ _ m => ⟨m, rfl⟩, fun m => ⟨m, rfl⟩⟩

end Rules

variable {db : Database} {late late' : Address × Uuid → Prop} {w w' : World MockBLEManager}
  {now : Timestamp} {a : Address} {d : Device}

theorem Behind.mono (h : Behind db late w) (hlate : ∀ key, late key → late' key) :
    Behind db late' w :=
  ⟨h.rows, h.entry, fun key c hc hup hok hnot => h.all key c hc hup hok (mt (hlate key) hnot)⟩

theorem Behind.inStep (h : Behind db (fun key => key.1 = a) w) (ha : a ∉ w.outside.connected) :
    InStep db w := by
  refine ⟨h.rows, h.entry, fun key c hc hup hok _ => h.all key c hc hup hok ?_⟩
  rintro rfl
  exact ha hup

theorem Behind.same (h : Behind db late w) (hrows : SameRows w.db w'.db)
    (hsub : w'.subscribed = w.subscribed) (hout : SameLinks w.outside w'.outside) :
    Behind db late w' := by
  refine ⟨h.rows.trans hrows, ?_, ?_⟩
  · rw [hout.subscriptions, hout.connected, hout.refused, hsub]
    exact h.entry
  · rw [hout.subscriptions, hout.connected, hout.refused]
    exact h.all

/-- All channels on a link that came up are late. -/
theorem Behind.linked (h : Behind db late w)
    (hout : SameLinks { w.outside with connected := insert a w.outside.connected } w'.outside)
    (hdb : w'.db = w.db) (hsub : w'.subscribed = w.subscribed) :
    Behind db (fun key => late key ∨ key.1 = a) w' := by
  refine ⟨hdb ▸ h.rows, fun key i hget => ?_, fun key c hc hup hok hnot => ?_⟩
  · rw [hout.subscriptions] at hget
    rw [hout.connected, hout.refused, hsub]
    obtain ⟨hlink, hrest⟩ := h.entry key i hget
    exact ⟨Finset.mem_insert_of_mem hlink, hrest⟩
  · rw [hout.connected] at hup
    rw [hout.refused] at hok
    rw [hout.subscriptions]
    rw [not_or] at hnot
    exact h.all key c hc ((Finset.mem_insert.mp hup).resolve_left hnot.2) hok hnot.1

section Preserved

theorem log_mock (e : Event) :
    Action.Preserves (Behind db late) (log e : Runtime MockBLEManager Unit) := by
  intro w hw
  rw [after_log]
  exact hw.same (.refl _) rfl (.refl _)

theorem updateState_mock (f : DeviceMonitorState → DeviceMonitorState) :
    Action.Preserves (Behind db late) (updateState a f : Runtime MockBLEManager Unit) := by
  intro w hw
  rw [after_updateState]
  exact hw.same (.refl _) rfl (.refl _)

theorem isConnected_mock : Action.Preserves (Behind db late) (isConnected (mockEnv now) a) := by
  intro w hw
  rw [after_isConnected_mock]
  exact hw.same (.refl _) rfl (.refl _)

namespace BleRuntime

theorem touchLastConnected_mock (deviceId : ℕ) :
    Action.Preserves (Behind db late) (touchLastConnected (mockEnv now) deviceId) := by
  apply (log_mock _).bind
  intro u w hw
  rw [Action.after_bind, after_ask, Action.then_ok, after_execute_mock]
  exact hw.same (sameRows_touch _ _ deviceId) rfl (.refl _)

theorem setStatus_mock (deviceId : ℕ) (status : Status) :
    Action.Preserves (Behind db late) (setStatus (mockEnv now) deviceId a status) := by
  intro w hw
  unfold setStatus
  rw [Action.after_bind, after_stateOf, Action.then_ok]
  refine Action.Preserves.ite (fun _ => .pure ()) (fun _ => ?_) w hw
  refine (updateState_mock _).bind fun _ => (log_mock _).bind fun _ w hw => ?_
  rw [after_call]
  exact hw.same (.refl _) rfl (.refl _)

/-- Whether it raises or not, a channel that was tried is late no more. -/
theorem subscribeChannel_mock {c : Channel} (hc : CurrentRow db (a, c.charUuid) c)
    (h : Behind db late w) :
    (subscribeChannel (mockEnv now) a c).After
      (fun _ => Behind db fun key => late key ∧ key ≠ (a, c.charUuid)) w := by
  unfold subscribeChannel
  rw [Action.after_bind, after_call]
  change Action.Then _ _ (MockBLEManager.manager.subscribe a c.charUuid c.id w.outside).1
    { w with outside := (MockBLEManager.manager.subscribe a c.charUuid c.id w.outside).2 }
  rcases w.outside.subscribe_cases a c.charUuid c.id with
    ⟨⟨e, he⟩, hcause⟩ | ⟨hok, hup, hfail⟩
  · rw [he, Action.then_error]
    refine ⟨h.rows, h.entry, fun key c' hc' hlink hok hnot => h.all key c' hc' hlink hok ?_⟩
    intro hlate
    have hkey : key = (a, c.charUuid) := by_contra fun hne => hnot ⟨hlate, hne⟩
    subst hkey
    exact hcause.elim (absurd hlink) fun hin => hok hin
  · rw [hok, Action.then_ok, Action.after_modify]
    refine ⟨h.rows, fun key i hget => ?_, fun key c' hc' hlink hok hnot => ?_⟩
    · dsimp only at hget ⊢
      rw [OrderedDict.get?_set] at hget
      by_cases hkey : key = (a, c.charUuid)
      · subst hkey
        rw [if_pos rfl, Option.some_inj] at hget
        rw [Function.update_self]
        exact ⟨hup, hfail, c, hc, hget, rfl⟩
      · rw [if_neg hkey] at hget
        rw [Function.update_of_ne hkey]
        exact h.entry key i hget
    · dsimp only at hlink hok ⊢
      rw [OrderedDict.get?_set]
      split
      · rfl
      · rename_i hkey
        exact h.all key c' hc' hlink hok fun hlate => hnot ⟨hlate, hkey⟩

/-- With its display channels tried one by one, a device is not late at all. -/
theorem subscribeDisplayChannels_mock (hv : db.Valid) (hd : d ∈ db.devices)
    (h : Behind db (fun key => key.1 = d.address) w) :
    (subscribeDisplayChannels (mockEnv now) d).After (fun _ => InStep db) w := by
  unfold subscribeDisplayChannels
  rw [Action.after_bind, after_query_mock, Action.then_ok]
  refine Action.after_forM (fun cs w₁ => (∀ c ∈ cs, c ∈ Channels.listByDevice db d.id) ∧
      Behind db (fun key => ∃ c ∈ cs, c.type = .display ∧ key = (d.address, c.charUuid)) w₁)
    ?_ ?_ _ _ ⟨fun c hc => ?_, ?_⟩
  · rintro w₁ ⟨-, hw₁⟩
    exact hw₁.mono fun key ⟨c, hc, _⟩ => absurd hc List.not_mem_nil
  · rintro c cs w₁ ⟨hmem, hw₁⟩
    have hrest : ∀ x ∈ cs, x ∈ Channels.listByDevice db d.id := fun x hx => hmem x (.tail _ hx)
    obtain ⟨hrow, hdevice⟩ := List.mem_filter.mp (hmem c (.head _))
    rw [Action.after_ite]
    split
    · rename_i hdisplay
      have hcurrent : CurrentRow db (d.address, c.charUuid) c :=
        ⟨hrow, hdisplay, rfl, d, hd, (of_decide_eq_true hdevice).symm, rfl⟩
      rw [after_ignoringErrors]
      apply (subscribeChannel_mock hcurrent hw₁).mono
      intro r w₂ hw₂
      refine ⟨hrest, hw₂.mono ?_⟩
      rintro key ⟨⟨c', hc', hdisp, hkey⟩, hne⟩
      rcases List.mem_cons.mp hc' with rfl | hc'
      · exact absurd hkey hne
      · exact ⟨c', hc', hdisp, hkey⟩
    · rename_i hctrl
      refine ⟨hrest, hw₁.mono ?_⟩
      rintro key ⟨c', hc', hdisp, hkey⟩
      rcases List.mem_cons.mp hc' with rfl | hc'
      · exact absurd hdisp hctrl
      · exact ⟨c', hc', hdisp, hkey⟩
  · have hlisted := List.mem_filter.mp hc
    rw [h.rows.channels] at hlisted
    exact List.mem_filter.mpr hlisted
  · refine ⟨h.rows, h.entry, fun key c hc hup hok hnot => h.all key c hc hup hok ?_⟩
    intro hkey
    obtain ⟨d', hd', hid, haddr⟩ := hc.device
    obtain rfl := hv.eq_of_address hd' hd (haddr.trans hkey)
    refine hnot ⟨c, List.mem_filter.mpr ⟨h.rows.channels ▸ hc.row, ?_⟩, hc.display, ?_⟩
    · simpa using hid.symm
    · exact Prod.ext hkey hc.charUuid.symm

/-- An entry that is marked as subscribed is that of a device that is not late. -/
theorem subscribeOnce_mock (hv : db.Valid) (hd : d ∈ db.devices)
    (h : Behind db (fun key => key.1 = d.address) w)
    (hmarked : ((w.monitor d.address).getD {}).subscribed = true → InStep db w) :
    (subscribeOnce (mockEnv now) d).After (fun _ => InStep db) w := by
  unfold subscribeOnce
  rw [Action.after_bind, after_stateOf, Action.then_ok, Action.after_ite]
  split
  · rename_i hsub
    exact hmarked hsub
  · apply (subscribeDisplayChannels_mock hv hd h).bind
    · exact fun _ w₁ hw₁ => updateState_mock _ w₁ hw₁
    · exact fun _ w₁ hw₁ => hw₁

theorem onConnected_mock (hv : db.Valid) (hd : d ∈ db.devices)
    (h : Behind db (fun key => key.1 = d.address) w)
    (hmarked : ((w.monitor d.address).getD {}).subscribed = true → InStep db w) :
    (onConnected (mockEnv now) d).After (fun _ => InStep db) w := by
  have htouch : Action.Preserves (InStep db) (touchUnlessConnected (mockEnv now) d) := by
    intro w₁ hw₁
    unfold touchUnlessConnected
    rw [Action.after_bind, after_stateOf, Action.then_ok]
    exact Action.Preserves.ite (fun _ => .pure ()) (fun _ => touchLastConnected_mock d.id) w₁ hw₁
  have hrest : Action.Preserves (InStep db) (do
      updateState d.address fun s => { s with backoffS := reconnectBaseS, nextRetryAt := 0 }
      touchUnlessConnected (mockEnv now) d
      setStatus (mockEnv now) d.id d.address .connected) :=
    (updateState_mock _).bind fun _ => htouch.bind fun _ => setStatus_mock d.id _
  unfold onConnected
  apply (subscribeOnce_mock hv hd h hmarked).bind
  · exact fun _ w₁ hw₁ => hrest w₁ hw₁
  · exact fun _ w₁ hw₁ => hw₁

/-- An attempt that links up at once is followed by the subscriptions. -/
theorem retryConnect_mock (hv : db.Valid) (hd : d ∈ db.devices) (h : InStep db w) (t : ℚ)
    {s : DeviceMonitorState} (hs : w.monitor d.address = some s) (hsub : s.subscribed = false) :
    (retryConnect (mockEnv now) t d).After (fun _ => InStep db) w := by
  have hstatus : (setStatus (mockEnv now) d.id d.address .reconnecting).After
      (fun r w₁ => r = .ok () ∧ InStep db w₁ ∧
        w₁.monitor d.address = some { s with lastStatus := some .reconnecting }) w := by
    have hquiet : (mockEnv now).Quiet := mockEnv_quiet
    have hspec := setStatus_spec hquiet (d := d) hs .reconnecting
    exact ⟨hspec.1, setStatus_mock d.id _ w h, hspec.2.entry⟩
  unfold retryConnect ensureConnecting
  refine hstatus.bind_ok fun w₁ ⟨hw₁, hm₁⟩ => ?_
  rw [Action.after_bind, Action.after_bind, after_log, Action.then_ok, after_call]
  obtain ⟨hok, hlinks⟩ := w₁.outside.ensureConnecting_cases d.address d.addrType
  have hcall : ((mockEnv now).ble.ensureConnecting d.address d.addrType w₁.outside).1 = .ok () :=
    hok
  rw [hcall, Action.then_ok, Action.after_bind, after_isConnected_mock, Action.then_ok]
  have hlate : ∀ w₂ : World MockBLEManager, w₂.db = w₁.db → w₂.subscribed = w₁.subscribed →
      w₂.outside = (MockBLEManager.manager.ensureConnecting d.address d.addrType w₁.outside).2 →
      Behind db (fun key => key.1 = d.address) w₂ := by
    intro w₂ hdb hsub hout
    rcases hlinks with hsame | hlinked
    · have hrows : SameRows w₁.db w₂.db := hdb ▸ .refl _
      exact (hw₁.same hrows hsub (hout ▸ hsame)).mono fun _ hfalse => hfalse.elim
    · exact (hw₁.linked (hout ▸ hlinked) hdb hsub).mono fun _ hkey => hkey.resolve_left id
  split
  · refine onConnected_mock hv hd (hlate _ rfl rfl rfl) fun hmark => ?_
    rw [hm₁, Option.getD_some] at hmark
    rw [hsub] at hmark
    cases hmark
  · rename_i hdown
    refine Action.Preserves.bind (updateState_mock _) (fun _ => updateState_mock _) _ ?_
    refine Behind.inStep (hlate _ ?_ ?_ ?_) (by simpa using hdown)
    all_goals rfl

theorem tickDevice_mock (hv : db.Valid) (hd : d ∈ db.devices) (t : ℚ) (h : InStep db w) :
    (tickDevice (mockEnv now) t d).After (fun _ => InStep db) w := by
  have hdrop : Action.Preserves (InStep db) (reportDrop (mockEnv now) t d) := by
    intro w₁ hw₁
    unfold reportDrop
    rw [Action.after_bind, after_stateOf, Action.then_ok]
    refine Action.Preserves.bind (.ite (fun _ => touchLastConnected_mock d.id) fun _ => .pure ())
      (fun _ => ?_) w₁ hw₁
    exact (updateState_mock _).bind fun _ => setStatus_mock d.id _
  unfold tickDevice
  rw [Action.after_bind, after_updateState, Action.then_ok, Action.after_bind,
    after_isConnected_mock, Action.then_ok]
  split
  · have hup : InStep db { w with
        monitor := Function.update w.monitor d.address (some (id ((w.monitor d.address).getD {})))
        trace := w.trace ++ [.linked d.address (d.address ∈ w.outside.connected)] } :=
      h.same (.refl _) rfl (.refl _)
    exact onConnected_mock hv hd (hup.mono fun _ hfalse => hfalse.elim) fun _ => hup
  · rw [Action.after_bind, after_updateState, Action.then_ok, Action.after_bind, after_stateOf,
      Action.then_ok]
    dsimp only
    have hdown : ∀ w₁ : World MockBLEManager, w₁.db = w.db → w₁.subscribed = w.subscribed →
        w₁.outside = w.outside → InStep db w₁ := by
      intro w₁ hdb hsub hout
      exact h.same (hdb ▸ .refl _) hsub (hout ▸ .refl _)
    rw [Action.after_ite]
    split
    · exact hdrop _ (hdown _ rfl rfl rfl)
    · rw [Action.after_ite]
      split
      · refine retryConnect_mock hv hd (hdown _ ?_ ?_ ?_) t (Function.update_self ..) rfl
        all_goals rfl
      · exact hdown _ rfl rfl rfl

theorem monitorTick_mock (hv : w.db.Valid) (t : ℚ) (h : InStep w.db w) :
    (monitorTick (mockEnv now) t).After (fun _ => InStep w.db) w := by
  unfold monitorTick openConn
  rw [Action.after_bind, after_query_mock, Action.then_ok, Action.after_bind, after_query_mock,
    Action.then_ok, Action.after_bind, Action.after_modify, Action.then_ok]
  refine Action.Preserves.forM (I := InStep w.db) (fun d hd w₁ hw₁ => ?_) _
    (h.same (.refl _) rfl (.refl _))
  exact tickDevice_mock hv hd t hw₁

theorem activate_mock (hv : w.db.Valid) (h : InStep w.db w) :
    (activate (mockEnv now)).After (fun _ => InStep w.db) w := by
  unfold activate openConn
  rw [Action.after_bind, after_query_mock, Action.then_ok, Action.after_bind, after_query_mock,
    Action.then_ok]
  refine Action.Preserves.forM (I := InStep w.db) (fun d hd w₁ hw₁ => ?_) _ h
  have hbring : (bringUpDevice (mockEnv now) d).After (fun _ => InStep w.db) w₁ := by
    unfold bringUpDevice
    rw [Action.after_bind, Action.after_tryCatch, Action.after_bind, after_call]
    change Action.Then _ _ (MockBLEManager.manager.connect d.address d.addrType w₁.outside).1
      { w₁ with
        outside := (MockBLEManager.manager.connect d.address d.addrType w₁.outside).2 }
    rcases w₁.outside.connect_cases d.address d.addrType with
      ⟨⟨e, he⟩, hsame⟩ | ⟨hok, hlinked⟩
    · rw [he, Action.then_error, Action.else_error, Action.after_pure, Action.then_ok,
        if_neg Bool.false_ne_true]
      exact hw₁.same (.refl _) rfl hsame
    · have hafter : Behind w.db (fun key => False ∨ key.1 = d.address) { w₁ with
          outside := (MockBLEManager.manager.connect d.address d.addrType w₁.outside).2 } :=
        hw₁.linked hlinked rfl rfl
      have hlate := hafter.mono fun _ hkey => hkey.resolve_left id
      rw [hok, Action.then_ok, Action.after_pure, Action.else_ok, Action.then_ok, if_pos rfl,
        Action.after_bind, after_isConnected_mock, Action.then_ok]
      split
      · refine Action.After.bind_pure (subscribeDisplayChannels_mock hv hd ?_) fun _ => true
        exact hlate.same (.refl _) rfl (.refl _)
      · rename_i hdown
        rw [Action.after_pure]
        refine Behind.inStep ?_ (by simpa using hdown)
        exact hlate.same (.refl _) rfl (.refl _)
  apply hbring.bind
  · intro up w₂ hw₂
    refine Action.Preserves.ite (fun _ => .modify fun w₃ hw₃ => ?_) (fun _ => .pure ()) w₂ hw₂
    exact hw₃.same (.refl _) rfl (.refl _)
  · exact fun _ w₂ hw₂ => hw₂

/-- A link goes down with all of its subscriptions. -/
theorem disconnect_mock (h : Behind db late w) :
    (call ((mockEnv now).ble.disconnect a)).After
      (fun r w' => r = .ok () ∧ a ∉ w'.outside.connected ∧ w'.db = w.db ∧ Behind db late w') w := by
  rw [after_call]
  refine ⟨rfl, Finset.notMem_erase a _, rfl, h.rows, fun key i hget => ?_,
    fun key c hc hup hok hnot => ?_⟩
  · change (w.outside.subscriptions.dropKeys fun key => key.1 = a).get? key = some i at hget
    rw [OrderedDict.get?_dropKeys] at hget
    split_ifs at hget with hkey
    obtain ⟨hup, hrest⟩ := h.entry key i hget
    exact ⟨Finset.mem_erase.mpr ⟨by simpa using hkey, hup⟩, hrest⟩
  · obtain ⟨hne, hup⟩ := Finset.mem_erase.mp hup
    change ((w.outside.subscriptions.dropKeys fun key => key.1 = a).get? key).isSome = true
    rw [OrderedDict.get?_dropKeys, if_neg (by simpa using hne)]
    exact h.all key c hc hup hok hnot

theorem disconnectAll_mock : Action.Preserves (InStep db) (disconnectAll (mockEnv now)) := by
  intro w hw
  unfold disconnectAll openConn
  rw [Action.after_bind, after_query_mock, Action.then_ok, Action.after_bind, after_query_mock,
    Action.then_ok]
  refine Action.Preserves.forM (I := InStep db) (fun d _ => ?_) w hw
  refine isConnected_mock.bind fun up => .ite (fun _ w₁ hw₁ => ?_) fun _ => .pure ()
  exact (disconnect_mock hw₁).mono fun r w₂ hw₂ => hw₂.2.2.2

end BleRuntime
end Preserved
end HomeServer.Services
