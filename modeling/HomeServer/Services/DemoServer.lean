import HomeServer.Services.DemoFeed
import HomeServer.Services.DemoRuns
import HomeServer.Services.Throttle

/-! The demo server: once a second the producer of the mock backend asks the feed for a reading of
each subscribed channel and hands it to the notify callback. -/
namespace HomeServer.Services
open HomeServer.Db HomeServer.Ble HomeServer.Lib
open MockBLEManager (SameLinks)

/-- What the clocks read while a callback runs, and what `on_reading` raises. -/
structure Delivery (τ : Type) where
  clock : τ
  timestamp : Timestamp
  recordedAt : Timestamp
  raised : Option Err := none

structure DemoServer (τ : Type) where
  world : World MockBLEManager
  ticks : MockFeed.Ticks := {}
  limiter : RateLimiter τ
  pushed : List Push := []

/-- A whole operation, with the clock it reads. -/
inductive DemoCall
  | activate
  | tick (now : ℚ)
  | addChannel (presets : List ChannelPreset) (deviceId : ℕ) (name preset : String)
  | deleteChannel (channelId : ℕ)
  | addDevice (ownerUserId : ℕ) (address : Address) (name : String) (addrType : Option AddrType)
  | removeDevice (deviceId : ℕ)
  | scanWindow

/-- Of a scan window only `_disconnect_all` concerns the links. -/
def DemoCall.program {β : Type} (E : Env β) : DemoCall → Runtime β Unit
  | .activate => BleRuntime.activate E
  | .tick now => BleRuntime.monitorTick E now
  | .addChannel presets deviceId name preset => do
    let _ ← Web.addChannel E presets deviceId name preset
  | .deleteChannel channelId => do
    let _ ← Web.deleteChannel E channelId
  | .addDevice ownerUserId address name addrType => do
    let _ ← DeviceService.addDevice E ownerUserId address name addrType
  | .removeDevice deviceId => DeviceService.removeDevice E deviceId
  | .scanWindow => BleRuntime.disconnectAll E

inductive DemoEvent (τ : Type)
  | call (wallClock : Timestamp) (op : DemoCall)
  | write (channelId : ℕ) (rawValue : PyFloat) (recordedAt : Timestamp)
  | produce (deliveries : Address × Uuid → Delivery τ)

namespace DemoServer
variable {τ : Type}

def feed (sin : PyFloat → PyFloat) (key : Address × Uuid) :
    Action (DemoServer τ) Err (Option Bytes) := do
  let s ← get
  let (given, ticks) := MockFeed.feed sin s.world.subscribed key.1 key.2 s.ticks
  set { s with ticks }
  match given with
  | .ok data => pure data
  | .error e => throw e

/-- `write_command` over this backend. -/
def writeCommand (channelId : ℕ) (rawValue : PyFloat) (recordedAt : Timestamp) :
    Runtime MockBLEManager Unit := do
  match ChannelService.encodeCommand (← get).db channelId rawValue with
  | .error e => throw e
  | .ok (address, charUuid, data) =>
    call (MockBLEManager.manager.write address charUuid data)
    execute (mockEnv recordedAt) fun db =>
      (Readings.insert db channelId rawValue recordedAt).map fun db => ((), db)

/-- A display channel on a link that is up, whose characteristic is there. -/
structure Served (s : DemoServer τ) (key : Address × Uuid) (c : Channel) : Prop where
  row : CurrentRow s.world.db key c
  connected : key.1 ∈ s.world.outside.connected
  present : key.2 ∉ s.world.outside.failSubscribeFor

variable {sin : PyFloat → PyFloat} {s s' : DemoServer τ} {key : Address × Uuid}

theorem after_feed (Q : Except Err (Option Bytes) → DemoServer τ → Prop) :
    (feed sin key).After Q s ↔
      Q (MockFeed.feed sin s.world.subscribed key.1 key.2 s.ticks).1
        { s with ticks := (MockFeed.feed sin s.world.subscribed key.1 key.2 s.ticks).2 } := by
  unfold feed
  rw [Action.after_bind, Action.after_get, Action.then_ok]
  dsimp only
  cases (MockFeed.feed sin s.world.subscribed key.1 key.2 s.ticks).1 <;> rfl

/-- What the producer leaves alone. -/
structure Frame (s s' : DemoServer τ) : Prop where
  rows : SameRows s.world.db s'.world.db
  outside : s'.world.outside = s.world.outside
  subscribed : s'.world.subscribed = s.world.subscribed

theorem Frame.refl (s : DemoServer τ) : Frame s s := ⟨.refl _, rfl, rfl⟩

theorem Frame.trans {s'' : DemoServer τ} (h : Frame s s') (h' : Frame s' s'') : Frame s s'' :=
  ⟨h.rows.trans h'.rows, h'.outside.trans h.outside, h'.subscribed.trans h.subscribed⟩

theorem Frame.kept (h : Frame s s') (hs : DemoKept s.world) : DemoKept s'.world :=
  InStep.kept (hs.inStep.same h.rows h.subscribed (h.outside ▸ .refl _)) hs.checked

theorem sameRows_insert {db db' : Database} {channelId : ℕ} {value : PyFloat} {now : Timestamp}
    (h : Readings.insert db channelId value now = .ok db') : SameRows db db' := by
  have hv := fun hdb : db.Valid => hdb.readingInsert h
  obtain ⟨-, rfl⟩ := Readings.insert_ok h
  exact ⟨rfl, rfl, hv⟩

theorem call_kept (wallClock : Timestamp) (op : DemoCall) (h : DemoKept s.world) :
    DemoKept ((op.program (mockEnv wallClock)).exec s.world).2 := by
  have hv := h.checked.valid
  cases op with
  | activate =>
    have hspec : (BleRuntime.activate (mockEnv wallClock)).After (fun _ => InStep s.world.db)
        s.world := BleRuntime.activate_mock hv h.inStep
    exact InStep.kept hspec h.checked
  | tick now =>
    have hspec : (BleRuntime.monitorTick (mockEnv wallClock) now).After
        (fun _ => InStep s.world.db) s.world := BleRuntime.monitorTick_mock hv now h.inStep
    exact InStep.kept hspec h.checked
  | scanWindow =>
    have hspec : (BleRuntime.disconnectAll (mockEnv wallClock)).After
        (fun _ => InStep s.world.db) s.world := BleRuntime.disconnectAll_mock s.world h.inStep
    exact InStep.kept hspec h.checked
  | addChannel presets deviceId name preset =>
    have hspec : (Web.addChannel (mockEnv wallClock) presets deviceId name preset).After
        (fun _ => DemoKept) s.world := webAddChannel_mock h presets deviceId name preset
    exact hspec.bind_pure fun _ => ()
  | deleteChannel channelId =>
    have hspec : (Web.deleteChannel (mockEnv wallClock) channelId).After (fun _ => DemoKept)
        s.world := webDeleteChannel_mock h channelId
    exact hspec.bind_pure fun _ => ()
  | addDevice ownerUserId address name addrType =>
    have hspec : (DeviceService.addDevice (mockEnv wallClock) ownerUserId address name
        addrType).After (fun _ => DemoKept) s.world :=
      addDevice_mock h ownerUserId address name addrType
    exact hspec.bind_pure fun _ => ()
  | removeDevice deviceId =>
    have hspec : (DeviceService.removeDevice (mockEnv wallClock) deviceId).After
        (fun _ => DemoKept) s.world := removeDevice_mock h deviceId
    exact hspec

theorem writeCommand_kept (channelId : ℕ) (rawValue : PyFloat) (recordedAt : Timestamp)
    (h : DemoKept s.world) :
    DemoKept ((writeCommand channelId rawValue recordedAt).exec s.world).2 := by
  have hspec : (writeCommand channelId rawValue recordedAt).After
      (fun _ w => InStep s.world.db w) s.world := by
    unfold writeCommand
    rw [Action.after_bind, Action.after_get, Action.then_ok]
    cases ChannelService.encodeCommand s.world.db channelId rawValue with
    | error e => exact h.inStep
    | ok target =>
      obtain ⟨address, charUuid, data⟩ := target
      dsimp only
      rw [Action.after_bind, after_call]
      have hlinks : SameLinks s.world.outside
          (MockBLEManager.manager.write address charUuid data s.world.outside).2 :=
        MockBLEManager.write_links _ _ _ _
      have hsent : InStep s.world.db { s.world with
          outside := (MockBLEManager.manager.write address charUuid data s.world.outside).2 } :=
        h.inStep.same (.refl _) rfl hlinks
      cases (MockBLEManager.manager.write address charUuid data s.world.outside).1 with
      | error e => exact hsent
      | ok u =>
        rw [Action.then_ok, after_execute_mock]
        dsimp only
        cases hinsert : Readings.insert s.world.db channelId rawValue recordedAt with
        | error e => exact hsent
        | ok db' => exact hsent.same (sameRows_insert hinsert) rfl (.refl _)
  exact InStep.kept hspec h.checked

/-- The ids that the callbacks were made with belong to one channel each. -/
theorem nodup_callbacks (h : DemoKept s.world) :
    (s.world.outside.subscriptions.entries.map Prod.snd).Nodup := by
  have hkeys := s.world.outside.subscriptions.nodup
  refine List.Nodup.map_on (fun e he e' he' hid => ?_) hkeys.of_map
  obtain ⟨-, -, c, hc, hi, -⟩ := h.inStep.entry e.1 e.2 (OrderedDict.mem_entries_iff.mp he)
  obtain ⟨-, -, c', hc', hi', -⟩ := h.inStep.entry e'.1 e'.2 (OrderedDict.mem_entries_iff.mp he')
  have hsame : c = c' := List.inj_on_of_nodup_map h.checked.valid.channelIds hc.row hc'.row
    (hi.trans (hid.trans hi'.symm))
  obtain ⟨d, hd, hdid, haddr⟩ := hc'.device
  have hkey := hc.key_eq h.checked.valid hd (by rw [hsame, hdid])
  have hkey' := hc'.key_eq h.checked.valid hd hdid.symm
  exact Prod.ext (by rw [hkey, hkey', hsame]) hid

theorem exists_served (h : DemoKept s.world) {i : ℕ}
    (hget : s.world.outside.subscriptions.get? key = some i) : ∃ c, Served s key c ∧ c.id = i := by
  obtain ⟨hup, hok, c, hc, hi, -⟩ := h.inStep.entry key i hget
  exact ⟨c, ⟨hc, hup, hok⟩, hi⟩

theorem Served.subscribed (h : DemoKept s.world) {c : Channel}
    (hc : Served s key c) : s.world.outside.subscriptions.get? key = some c.id := by
  have hsome := h.inStep.all key c hc.row hc.connected hc.present id
  obtain ⟨i, hget⟩ := Option.isSome_iff_exists.mp hsome
  obtain ⟨-, -, c', hc', rfl, -⟩ := h.inStep.entry key i hget
  rw [hget, hc.row.eq h.checked.valid h.checked.uuids hc']

section Limiter
variable [Sub τ] [LE τ] [DecidableLE τ]

/-- `_on_notify` of the subscription of a channel. -/
def onNotify (channelId : ℕ) (raw : Bytes) (d : Delivery τ) : Action (DemoServer τ) Err Unit := do
  let s ← get
  let (r, w) := (ChannelService.handleNotify
    ⟨channelId, raw, d.clock, d.timestamp, d.recordedAt, d.raised⟩).exec
      { db := s.world.db, limiter := s.limiter, pushed := s.pushed }
  set { s with
    world := { s.world with db := w.db }
    limiter := w.limiter
    pushed := w.pushed }
  match r with
  | .ok _ => pure ()
  | .error e => throw e

def produce (sin : PyFloat → PyFloat) (deliveries : Address × Uuid → Delivery τ)
    (entry : (Address × Uuid) × ℕ) : Action (DemoServer τ) Err Unit := do
  match ← feed sin entry.1 with
  | none => pure ()
  | some data => onNotify entry.2 data (deliveries entry.1)

def tick (sin : PyFloat → PyFloat) (deliveries : Address × Uuid → Delivery τ) :
    Action (DemoServer τ) Err Unit := do
  let s ← get
  forM s.world.outside.subscriptions.entries (produce sin deliveries)

/-- The server starts with no link and nothing subscribed, over the tables it left. -/
def system (sin : PyFloat → PyFloat) : System (DemoServer τ) (DemoEvent τ) where
  init s := RowsChecked s.world.db ∧ s.world.outside.connected = ∅ ∧
    s.world.outside.subscriptions.entries = []
  step s
    | .call wallClock op =>
      some { s with world := ((op.program (mockEnv wallClock)).exec s.world).2 }
    | .write channelId rawValue recordedAt =>
      some { s with world := ((writeCommand channelId rawValue recordedAt).exec s.world).2 }
    | .produce deliveries => some ((tick sin deliveries).exec s).2

/-- A payload that is read as a number is pushed, and nothing raises. -/
theorem onNotify_spec {c : Channel} {v : PyFloat} {raw : Bytes} (d : Delivery τ)
    (hc : Channels.getById s.world.db c.id = some c)
    (hv : Parser.decode raw c.dataFormat = .ok v) (hfinite : v.isFinite = true) :
    (onNotify c.id raw d).After (fun r s' => r = .ok () ∧ Frame s s' ∧ s'.ticks = s.ticks ∧
      s'.pushed = s.pushed ++ [⟨c.id, v, d.timestamp⟩]) s := by
  have hnan : v ≠ .nan := by
    rintro rfl
    cases hfinite
  have hcall : (ChannelService.handleNotify
      ⟨c.id, raw, d.clock, d.timestamp, d.recordedAt, d.raised⟩).After
      (fun r w => r = .ok v ∧ SameRows s.world.db w.db ∧
        w.pushed = s.pushed ++ [⟨c.id, v, d.timestamp⟩])
      { db := s.world.db, limiter := s.limiter, pushed := s.pushed } := by
    apply ChannelService.handleNotify_delivered hc hv
    dsimp only
    split_ifs
    · rw [ChannelService.after_store]
      dsimp only
      obtain ⟨db', hinsert⟩ := Readings.exists_insert hc hnan d.recordedAt
      rw [hinsert]
      exact ⟨rfl, sameRows_insert hinsert, rfl⟩
    · exact ⟨rfl, .refl _, rfl⟩
  unfold Action.After at hcall
  obtain ⟨hr, hrows, hpushed⟩ := hcall
  unfold onNotify
  rw [Action.after_bind, Action.after_get, Action.then_ok]
  dsimp only
  rw [hr]
  exact ⟨rfl, ⟨hrows, rfl, rfl⟩, rfl, hpushed⟩

theorem handleNotify_sameRows (w : ChannelWorld τ) (n : Notification τ) :
    (ChannelService.handleNotify n).After (fun _ w' => SameRows w.db w'.db) w := by
  cases hd : ChannelService.decoded w.db n with
  | none =>
    apply (ChannelService.handleNotify_undelivered hd).mono
    rintro r w' ⟨-, rfl⟩
    exact .refl _
  | some v =>
    obtain ⟨c, hc, hv⟩ := ChannelService.exists_of_decoded hd
    apply ChannelService.handleNotify_delivered hc hv
    dsimp only
    split_ifs
    · rw [ChannelService.after_store]
      dsimp only
      cases hinsert : Readings.insert w.db n.channelId v n.recordedAt with
      | error e => exact .refl _
      | ok db' => exact sameRows_insert hinsert
    · exact .refl _

/-- Whatever is raised in it, a tick changes neither rows nor subscriptions. -/
theorem tick_frame (deliveries : Address × Uuid → Delivery τ) :
    (tick sin deliveries).After (fun _ s' => Frame s s') s := by
  have hnotify : ∀ channelId raw d, Action.Preserves (Frame s) (onNotify channelId raw d) := by
    intro channelId raw d t ht
    have hcall := handleNotify_sameRows
      { db := t.world.db, limiter := t.limiter, pushed := t.pushed }
      ⟨channelId, raw, d.clock, d.timestamp, d.recordedAt, d.raised⟩
    have hframe : Frame s { t with
        world := { t.world with db := ((ChannelService.handleNotify
          ⟨channelId, raw, d.clock, d.timestamp, d.recordedAt, d.raised⟩).exec
            { db := t.world.db, limiter := t.limiter, pushed := t.pushed }).2.db } } :=
      ht.trans ⟨hcall, rfl, rfl⟩
    unfold onNotify
    rw [Action.after_bind, Action.after_get, Action.then_ok]
    dsimp only
    cases ((ChannelService.handleNotify
      ⟨channelId, raw, d.clock, d.timestamp, d.recordedAt, d.raised⟩).exec
        { db := t.world.db, limiter := t.limiter, pushed := t.pushed }).1 <;>
      exact ⟨hframe.rows, hframe.outside, hframe.subscribed⟩
  unfold tick
  rw [Action.after_bind, Action.after_get, Action.then_ok]
  refine Action.Preserves.forM (I := Frame s) (fun entry _ t ht => ?_) s (.refl s)
  unfold produce
  rw [Action.after_bind, after_feed]
  have hfed : Frame s { t with
      ticks := (MockFeed.feed sin t.world.subscribed entry.1.1 entry.1.2 t.ticks).2 } :=
    ⟨ht.rows, ht.outside, ht.subscribed⟩
  cases (MockFeed.feed sin t.world.subscribed entry.1.1 entry.1.2 t.ticks).1 with
  | error e => exact hfed
  | ok given =>
    rw [Action.then_ok]
    cases given with
    | none => exact hfed
    | some data => exact hnotify _ _ _ _ hfed

theorem kept_run (h : (system sin).Reachable s) : DemoKept s.world := by
  refine System.Reachable.invariant (P := fun s => DemoKept s.world) (fun s hs => ?_)
    (fun s e s' hs hstep => ?_) h
  · obtain ⟨hchecked, hdown, hnone⟩ := hs
    refine ⟨hchecked, .refl _, fun key i hget => ?_, fun key c _ hup => ?_⟩
    · have hmem := OrderedDict.mem_entries_iff.mpr hget
      rw [hnone] at hmem
      cases hmem
    · rw [hdown] at hup
      exact absurd hup (Finset.notMem_empty _)
  · cases e with
    | call wallClock op =>
      cases hstep
      exact call_kept wallClock op hs
    | write channelId rawValue recordedAt =>
      cases hstep
      exact writeCommand_kept channelId rawValue recordedAt hs
    | produce deliveries =>
      cases hstep
      exact (tick_frame deliveries).kept hs

/-- In every state the mock is subscribed to the display channels of the linked devices but for
those it refuses, with their own ids. -/
theorem subscriptions_exact (h : (system sin).Reachable s) (key : Address × Uuid) (i : ℕ) :
    s.world.outside.subscriptions.get? key = some i ↔ ∃ c, Served s key c ∧ c.id = i := by
  have hkept := kept_run h
  constructor
  · intro hget
    exact exists_served hkept hget
  · rintro ⟨c, hc, rfl⟩
    exact hc.subscribed hkept

/-- The mock on at the start, over the tables of one lamp. -/
def porchServer : DemoServer ℤ where
  world :=
    { db :=
        { devices := [⟨1, "AA:BB:CC:DD:EE:01", .publicAddr, "lamp", none, 1, none⟩]
          channels := [⟨1, 1, "light", .display, "2a6e", "int16_le", some "lx"⟩,
            ⟨2, 1, "dim", .controller, "2a6f", "uint8", none⟩]
          nextDevice := 2
          nextChannel := 3 }
      outside := {} }
  limiter := { minIntervalS := 10 }

def porchActive : DemoServer ℤ :=
  { porchServer with world := (BleRuntime.activate (mockEnv 0)).exec porchServer.world |>.2 }

theorem porchActive_reachable (sin : PyFloat → PyFloat) :
    (system sin).Reachable porchActive := by
  have hinit : (system sin).init porchServer := by
    refine ⟨⟨?_, by unfold UuidsDistinct; decide +kernel, by decide +kernel⟩, rfl, rfl⟩
    constructor <;> decide +kernel
  exact .step (.call 0 .activate) (.init hinit) trivial rfl

theorem subscriptions_exact_porch :
    (porchActive.world.outside.subscriptions.get? ("AA:BB:CC:DD:EE:01", "2a6e") = some 1 ∧
      porchActive.world.outside.subscriptions.get? ("AA:BB:CC:DD:EE:01", "2a6f") = none) ∧
    ∃ c, Served porchActive ("AA:BB:CC:DD:EE:01", "2a6e") c ∧ c.id = 1 := by
  have hget : porchActive.world.outside.subscriptions.get? ("AA:BB:CC:DD:EE:01", "2a6e") =
      some 1 := by decide +kernel
  exact ⟨⟨hget, by decide +kernel⟩, (subscriptions_exact
    (porchActive_reachable fun _ => .finite 0) ("AA:BB:CC:DD:EE:01", "2a6e") 1).mp hget⟩

/-- The readings `ps` that the producer pushed after it went through the entries `done`. -/
structure Produced (s t : DemoServer τ) (done : List ((Address × Uuid) × ℕ)) (ps : List Push) :
    Prop where
  frame : Frame s t
  pushed : t.pushed = s.pushed ++ ps
  callbacks : (ps.map Push.channelId).Sublist (done.map Prod.snd)
  finite : ∀ p ∈ ps, p.value.isFinite = true
  complete : ∀ e ∈ done, ∀ c, Served s e.1 c → Units.parseEnumUnit c.unit = none →
    c.id ∈ ps.map Push.channelId
  ticks : ∀ counter, t.ticks.shown counter ≤ s.ticks.shown counter + done.length

theorem produce_spec {t : DemoServer τ} {done : List ((Address × Uuid) × ℕ)} {ps : List Push}
    {e : (Address × Uuid) × ℕ} (deliveries : Address × Uuid → Delivery τ)
    (hsin : MockFeed.BoundedSine sin) (hkept : DemoKept s.world)
    (hkeys : ∀ c ∈ s.world.db.channels, ∀ enumMap, Units.parseEnumUnit c.unit = some enumMap →
      MockFeed.SmallKeys enumMap)
    (he : e ∈ s.world.outside.subscriptions.entries)
    (hcount : ∀ counter, s.ticks.shown counter + done.length < 2 ^ 64 - 1)
    (h : Produced s t done ps) :
    (produce sin deliveries e).After
      (fun r t' => r = .ok () ∧ ∃ ps', Produced s t' (done ++ [e]) ps') t := by
  have ht := h.frame.kept hkept
  obtain ⟨hup, hok, c, hc, hid, hsub⟩ :=
    hkept.inStep.entry e.1 e.2 (OrderedDict.mem_entries_iff.mp he)
  have hsub' : t.world.subscribed e.1 = some c := by
    rw [h.frame.subscribed]
    exact hsub
  obtain ⟨hgiven, hticks⟩ := MockFeed.feed_eq sin hsub' t.ticks
  have hsmall : t.ticks.shown (MockFeed.counterOf c e.1.2) + 1 < 2 ^ 64 := by
    have hle := h.ticks (MockFeed.counterOf c e.1.2)
    have hlt := hcount (MockFeed.counterOf c e.1.2)
    omega
  obtain ⟨given, hpayload, hdecode, hsome⟩ := MockFeed.payload_given hsin
    (hkept.checked.formats c hc.row) (hkeys c hc.row) hsmall
  rw [hpayload] at hgiven
  have hbound : ∀ counter, (MockFeed.feed sin t.world.subscribed e.1.1 e.1.2 t.ticks).2.shown
      counter ≤ s.ticks.shown counter + (done ++ [e]).length := by
    intro counter
    have hle := h.ticks counter
    rw [hticks, List.length_append, List.length_singleton]
    by_cases hcounter : counter = MockFeed.counterOf c e.1.2
    · rw [hcounter, Tally.bump_same]
      rw [hcounter] at hle
      omega
    · rw [Tally.bump_of_ne _ hcounter]
      omega
  -- The row of a key is that of its entry.
  have hrow : ∀ c', Served s e.1 c' → c' = c := fun c' hc' =>
    hc'.row.eq hkept.checked.valid hkept.checked.uuids hc
  unfold produce
  rw [Action.after_bind, after_feed, hgiven, Action.then_ok]
  cases given with
  | none =>
    refine ⟨rfl, ps, ⟨h.frame.rows, h.frame.outside, h.frame.subscribed⟩, h.pushed, ?_, h.finite,
      fun e' he' c' hc' henum => ?_, hbound⟩
    · rw [List.map_append]
      exact h.callbacks.trans (List.sublist_append_left _ _)
    · rcases List.mem_append.mp he' with he' | he'
      · exact h.complete e' he' c' hc' henum
      · rw [List.mem_singleton.mp he'] at hc'
        rw [hrow c' hc'] at henum
        exact absurd rfl (hsome henum)
  | some data =>
    obtain ⟨v, hv, hfinite⟩ := hdecode data rfl
    have hfound : Channels.getById t.world.db c.id = some c := by
      have hmem : c ∈ t.world.db.channels := h.frame.rows.channels ▸ hc.row
      obtain ⟨c', hc'⟩ := Channels.exists_getById hmem
      rw [hc', ht.checked.valid.channel_eq hmem hc']
    have hnotify := onNotify_spec (s := { t with
      ticks := (MockFeed.feed sin t.world.subscribed e.1.1 e.1.2 t.ticks).2 })
      (deliveries e.1) hfound hv hfinite
    rw [hid] at hnotify
    apply hnotify.mono
    rintro r t' ⟨rfl, hframe, htick, hpushed⟩
    have hframe' : Frame s t' := h.frame.trans ⟨hframe.rows, hframe.outside, hframe.subscribed⟩
    refine ⟨rfl, ps ++ [⟨e.2, v, (deliveries e.1).timestamp⟩], hframe', ?_, ?_, ?_,
      fun e' he' c' hc' henum => ?_, ?_⟩
    · rw [hpushed, ← List.append_assoc, ← h.pushed]
    · rw [List.map_append, List.map_append]
      exact h.callbacks.append (.refl _)
    · intro p hp
      rcases List.mem_append.mp hp with hp | hp
      · exact h.finite p hp
      · rw [List.mem_singleton.mp hp]
        exact hfinite
    · rw [List.map_append, List.mem_append]
      rcases List.mem_append.mp he' with he' | he'
      · exact Or.inl (h.complete e' he' c' hc' henum)
      · rw [List.mem_singleton.mp he'] at hc'
        rw [hrow c' hc', hid]
        exact Or.inr (.head _)
    · rw [htick]
      exact hbound

/-- **A demo tick serves every channel.** It raises nothing and pushes at most one reading for each
display channel on a live link, a number in each case, and none for other channels; only a class of
an enum channel that its format has no room for is left out. -/
theorem tick_serves (deliveries : Address × Uuid → Delivery τ) (hsin : MockFeed.BoundedSine sin)
    (h : (system sin).Reachable s)
    (hkeys : ∀ c ∈ s.world.db.channels, ∀ enumMap, Units.parseEnumUnit c.unit = some enumMap →
      MockFeed.SmallKeys enumMap)
    (hcount : ∀ counter, s.ticks.shown counter +
      s.world.outside.subscriptions.entries.length < 2 ^ 64) :
    (tick sin deliveries).After (fun r s' => r = .ok () ∧ ∃ ps, s'.pushed = s.pushed ++ ps ∧
      (ps.map Push.channelId).Nodup ∧
      (∀ p ∈ ps, p.value.isFinite = true ∧ ∃ key c, Served s key c ∧ c.id = p.channelId) ∧
      ∀ key c, Served s key c → Units.parseEnumUnit c.unit = none →
        c.id ∈ ps.map Push.channelId) s := by
  have hkept := kept_run h
  unfold tick
  rw [Action.after_bind, Action.after_get, Action.then_ok]
  refine Action.after_forM (fun rest t => ∃ done ps,
    s.world.outside.subscriptions.entries = done ++ rest ∧ Produced s t done ps) ?_ ?_ _ _
    ⟨[], [], rfl, .refl s, (List.append_nil _).symm, .slnil, by simp, by simp, by simp⟩
  · rintro t ⟨done, ps, hall, hps⟩
    rw [List.append_nil] at hall
    refine ⟨rfl, ps, hps.pushed, ?_, fun p hp => ⟨hps.finite p hp, ?_⟩,
      fun key c hc henum => ?_⟩
    · exact (hall ▸ nodup_callbacks hkept).sublist hps.callbacks
    · have hid := hps.callbacks.subset (List.mem_map_of_mem hp)
      obtain ⟨e, he, hid⟩ := List.mem_map.mp hid
      have hget := OrderedDict.mem_entries_iff.mp (hall ▸ he)
      obtain ⟨c, hc, hcid⟩ := exists_served hkept hget
      exact ⟨e.1, c, hc, hcid.trans hid⟩
    · have hmem := OrderedDict.mem_entries_iff.mpr (hc.subscribed hkept)
      exact hps.complete (key, c.id) (hall ▸ hmem) c hc henum
  · rintro e rest t ⟨done, ps, hall, hps⟩
    have he : e ∈ s.world.outside.subscriptions.entries := by
      rw [hall]
      exact List.mem_append_right _ (.head _)
    have hlt : ∀ counter, s.ticks.shown counter + done.length < 2 ^ 64 - 1 := by
      intro counter
      have hlen := hcount counter
      rw [hall, List.length_append, List.length_cons] at hlen
      omega
    apply (produce_spec deliveries hsin hkept hkeys he hlt hps).mono
    rintro r t' ⟨rfl, ps', hps'⟩
    exact ⟨done ++ [e], ps', by rw [hall, List.append_assoc]; rfl, hps'⟩

/-- `math.sin` where the first tick calls it, at `0.1`. -/
def firstSine (x : PyFloat) : PyFloat :=
  if x = .finite (3602879701896397 / 36028797018963968) then
    .finite (1798438952039115 / 18014398509481984)
  else .finite 0

theorem boundedSine_firstSine : MockFeed.BoundedSine firstSine := by
  intro x _
  unfold firstSine
  split_ifs
  · refine ⟨1798438952039115 / 18014398509481984, rfl, ?_⟩
    rw [abs_of_pos (by norm_num)]
    norm_num
  · exact ⟨0, rfl, by simp⟩

/-- The one display channel of the porch gets its reading. -/
theorem tick_serves_porch :
    (tick firstSine fun _ => ⟨0, 0, 0, none⟩).After (fun r s' => r = .ok () ∧
      ∃ p, s'.pushed = porchActive.pushed ++ [p] ∧ p.channelId = 1 ∧ p.value.isFinite = true)
        porchActive := by
  have hkeys : ∀ c ∈ porchActive.world.db.channels, Units.parseEnumUnit c.unit = none := by
    decide +kernel
  have hlength : porchActive.world.outside.subscriptions.entries.length = 1 := by
    decide +kernel
  have hfresh : ∀ counter, porchActive.ticks.shown counter = 0 := by
    intro counter
    cases counter <;> rfl
  have hdisplay : ∀ c ∈ porchActive.world.db.channels, c.type = .display → c.id = 1 := by
    decide +kernel
  have hserved : Served porchActive ("AA:BB:CC:DD:EE:01", "2a6e")
      ⟨1, 1, "light", .display, "2a6e", "int16_le", some "lx"⟩ :=
    ⟨⟨by decide +kernel, rfl, rfl, ⟨1, "AA:BB:CC:DD:EE:01", .publicAddr, "lamp", none, 1, none⟩,
      by decide +kernel, rfl, rfl⟩, by decide +kernel, by decide +kernel⟩
  have hserves := tick_serves (s := porchActive) (fun _ => ⟨0, 0, 0, none⟩) boundedSine_firstSine
    (porchActive_reachable _)
    (fun c hc enumMap henum => by
      rw [hkeys c hc] at henum
      cases henum)
    (fun counter => by
      rw [hlength, hfresh]
      decide)
  apply hserves.mono
  rintro r s' ⟨hr, ps, hps, hnodup, hall, hcomplete⟩
  have hid : ∀ p ∈ ps, p.channelId = 1 := by
    intro p hp
    obtain ⟨-, key, c, hc, hid⟩ := hall p hp
    rw [← hid]
    exact hdisplay c hc.row.row hc.row.display
  have hmem := hcomplete _ _ hserved (hkeys _ hserved.row.row)
  match ps, hps, hnodup, hall, hid, hmem with
  | [p], hps, _, hall, hid, _ =>
    exact ⟨hr, p, hps, hid p (.head _), (hall p (.head _)).1⟩
  | p :: q :: rest, _, hnodup, _, hid, _ =>
    have hsame : p.channelId = q.channelId :=
      (hid p (.head _)).trans (hid q (.tail _ (.head _))).symm
    simp [hsame] at hnodup

end Limiter
end DemoServer
end HomeServer.Services
