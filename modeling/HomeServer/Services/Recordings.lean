import HomeServer.Db.StoreRuns
import HomeServer.Services.Commands
import HomeServer.Services.TableRuns

/-! What the server records of a channel, over whole runs of the server on any backend. -/
namespace HomeServer.Services
open HomeServer.Db HomeServer.Ble HomeServer.Lib
open Database (component)

structure Recorder (β τ : Type) where
  world : World β
  limiter : RateLimiter τ
  pushed : List Push := []
  written : List (Address × Uuid × Bytes) := []

/-- Where the database raises in a notification or a command, if it does. Queries come first in
both, and the insert last. -/
inductive Sql
  | works
  | queryFails
  | insertFails

def Sql.left {τ : Type} (last : Option τ) (recorded : List Point × Option τ) :
    Sql → List Point × Option τ
  | works => recorded
  | queryFails => ([], last)
  | insertFails => ([], recorded.2)

/-- Whole operations, each with what it finds outside, in the order in which they end. -/
inductive ServerEvent (β τ : Type)
  | call (outside : β) (op : DemoCall)
  | setLabel (outside : β) (deviceId : ℕ) (label : String)
  | notify (n : Notification τ) (sql : Sql)
  | command (cmd : Command) (sql : Sql)
  | restart (outside : β)

namespace Recorder
variable {β τ : Type}

def channels (s : Recorder β τ) : ChannelWorld τ where
  db := s.world.db
  limiter := s.limiter
  pushed := s.pushed
  written := s.written

def withChannels (s : Recorder β τ) (w : ChannelWorld τ) : Recorder β τ where
  world := { s.world with db := w.db }
  limiter := w.limiter
  pushed := w.pushed
  written := w.written

def served (s : Recorder β τ) (w : ChannelWorld τ) : Sql → Recorder β τ
  | .works => s.withChannels w
  | .queryFails => s
  | .insertFails => s.withChannels { w with db := s.world.db }

/-- The insert of a reading, and what it leaves if it raises. -/
theorem after_store_logged {w : ChannelWorld τ} (i : ℕ) (v : PyFloat) (now : Timestamp) :
    (ChannelService.store i v now).After (fun _ w' =>
      w' = { w with db := component.after w.db [.write (.insertReading i v now)] }) w := by
  rw [ChannelService.after_store]
  cases hinsert : Readings.insert w.db i v now with
  | ok db' =>
    have hexecute : (Statement.insertReading i v now).execute w.db = .ok db' := hinsert
    dsimp only
    rw [Database.after_write_ok hexecute]
  | error e =>
    have hexecute : (Statement.insertReading i v now).execute w.db = .error e := hinsert
    dsimp only
    rw [Database.after_write_error hexecute]

theorem getById_row {db : Database} (hv : db.Valid) {c : Channel} (hc : c ∈ db.channels) :
    Channels.getById db c.id = some c := by
  obtain ⟨row, hrow⟩ := Channels.exists_getById hc
  rw [hrow, hv.channel_eq hc hrow]

theorem decoded_row {db : Database} (hv : db.Valid) {c : Channel} (hc : c ∈ db.channels)
    {n : Notification τ} (hn : n.channelId = c.id) :
    ChannelService.decoded db n = (Parser.decode n.rawBytes c.dataFormat).toOption := by
  unfold ChannelService.decoded
  rw [hn, getById_row hv hc, Option.bind_some]

def commanded (c : Channel) (cmd : Command) : List Point :=
  if cmd.channelId = c.id ∧ c.type = .controller ∧ cmd.raised = none ∧ cmd.rawValue ≠ .nan ∧
      (Parser.encode cmd.rawValue c.dataFormat).isOk = true then [(cmd.rawValue, cmd.recordedAt)]
  else []

/-- The requests that an event makes of the tables, as far as the channel is concerned: what they
record, and the time its limiter keeps. -/
structure Logged (c : Channel) (s s' : Recorder β τ) (made : List Point × Option τ)
    (requests : List Request) : Prop where
  tables : s'.world.db = component.after s.world.db requests
  recorded : c ∈ s.world.db.channels → ∀ points,
    requests.foldl (Request.recorded c.id) points = points ++ made.1
  interval : s'.limiter.minIntervalS = s.limiter.minIntervalS
  last : c ∈ s.world.db.channels → s'.limiter.lastEmit (toString c.id) = made.2

section Commands
variable {s : Recorder β τ} {c : Channel}

/-- A failure of the database leaves the tables as they were, and after the queries the limiter as
it would be. -/
theorem Logged.served {w : ChannelWorld τ} {made : List Point × Option τ} {requests : List Request}
    (h : Logged c s (s.withChannels w) made requests) (sql : Sql) : ∃ requests,
      Logged c s (s.served w sql) (sql.left (s.limiter.lastEmit (toString c.id)) made)
        requests := by
  cases sql with
  | works => exact ⟨requests, h⟩
  | queryFails => exact ⟨[], rfl, fun _ points => (List.append_nil points).symm, rfl, fun _ => rfl⟩
  | insertFails =>
    exact ⟨[], rfl, fun _ points => (List.append_nil points).symm, h.interval, h.last⟩

/-- A command that its peripheral took is stored with the value that was asked for. -/
theorem command_logged (hv : s.world.db.Valid) (cmd : Command) : ∃ requests,
    Logged c s (s.withChannels ((ChannelService.writeCommand cmd).exec s.channels).2)
      (commanded c cmd, s.limiter.lastEmit (toString c.id)) requests := by
  have hnothing : ((ChannelService.writeCommand cmd).exec s.channels).2 = s.channels →
      (c ∈ s.world.db.channels → commanded c cmd = []) → ∃ requests,
        Logged c s (s.withChannels ((ChannelService.writeCommand cmd).exec s.channels).2)
          (commanded c cmd, s.limiter.lastEmit (toString c.id)) requests := by
    intro hsame hnone
    have hstep : s.withChannels ((ChannelService.writeCommand cmd).exec s.channels).2 = s :=
      congrArg s.withChannels hsame
    refine ⟨[], congrArg (fun s => s.world.db) hstep, fun hc points => ?_,
      congrArg (fun s => s.limiter.minIntervalS) hstep, fun _ => ?_⟩
    · rw [hnone hc]
      exact (List.append_nil _).symm
    · rw [hstep]
  cases htarget : ChannelService.encodeCommand s.channels.db cmd.channelId cmd.rawValue with
  | error e =>
    apply hnothing (ChannelService.writeCommand_refused htarget).2
    intro hc
    apply if_neg
    rintro ⟨hid, htype, -, -, hencoded⟩
    obtain ⟨device, hencode⟩ :=
      ChannelService.encodeCommand_controller hv (getById_row hv hc) htype cmd.rawValue
    have hrefused : ChannelService.encodeCommand s.world.db c.id cmd.rawValue = .error e :=
      hid ▸ htarget
    rw [hencode] at hrefused
    cases hdata : Parser.encode cmd.rawValue c.dataFormat with
    | ok data =>
      rw [hdata] at hrefused
      cases hrefused
    | error e' =>
      rw [hdata] at hencoded
      cases hencoded
  | ok target =>
    cases hraised : cmd.raised with
    | some e =>
      apply hnothing (ChannelService.writeCommand_raised htarget hraised).2
      intro hc
      apply if_neg
      rintro ⟨-, -, hnone, -⟩
      rw [hraised] at hnone
      cases hnone
    | none =>
      have hwritten := ChannelService.writeCommand_written htarget hraised
        (after_store_logged cmd.channelId cmd.rawValue cmd.recordedAt)
      have hstep := congrArg s.withChannels hwritten
      refine ⟨[.write (.insertReading cmd.channelId cmd.rawValue cmd.recordedAt)],
        congrArg (fun s => s.world.db) hstep, fun hc points => ?_,
        congrArg (fun s => s.limiter.minIntervalS) hstep, fun _ => ?_⟩
      · obtain ⟨row, device, data, hrow, htype, hdata, -⟩ :=
          ChannelService.encodeCommand_ok htarget
        unfold commanded
        by_cases hid : cmd.channelId = c.id
        · have hrow : Channels.getById s.world.db c.id = some row := hid ▸ hrow
          obtain rfl := hv.channel_eq hc hrow
          have hencoded : (Parser.encode cmd.rawValue row.dataFormat).isOk = true := by
            rw [hdata]
            rfl
          by_cases hnan : cmd.rawValue = .nan
          · rw [if_neg fun h => h.2.2.2.1 hnan]
            exact (if_neg fun h => h.2 hnan).trans (List.append_nil _).symm
          · rw [if_pos ⟨hid, htype, hraised, hnan, hencoded⟩]
            exact if_pos ⟨hid, hnan⟩
        · rw [if_neg fun h => hid h.1]
          exact (if_neg fun h => hid h.1).trans (List.append_nil _).symm
      · have hlimiter := congrArg (fun s => s.limiter) hstep
        exact congrArg (fun limiter => limiter.lastEmit (toString c.id)) hlimiter

end Commands

section Step
variable [Sub τ] [LE τ] [DecidableLE τ]

/-- A restart keeps the file of the tables only. -/
def step (E : Env β) (s : Recorder β τ) : ServerEvent β τ → Recorder β τ
  | .call outside op => { s with world := ((op.program E).exec { s.world with outside }).2 }
  | .setLabel outside deviceId label =>
    { s with
      world := ((DeviceService.setLabel E deviceId label).exec { s.world with outside }).2 }
  | .notify n sql => s.served ((ChannelService.handleNotify n).exec s.channels).2 sql
  | .command cmd sql => s.served ((ChannelService.writeCommand cmd).exec s.channels).2 sql
  | .restart outside =>
    { s with
      world := { db := s.world.db, outside }
      limiter := { minIntervalS := s.limiter.minIntervalS } }

def run (E : Env β) (s : Recorder β τ) (es : List (ServerEvent β τ)) : Recorder β τ :=
  es.foldl (step E) s

/-- What a notification records of a channel that is there, and when its limiter let the last
reading through. -/
def notified (minIntervalS : τ) (c : Channel) (last : Option τ) (n : Notification τ) :
    List Point × Option τ :=
  match Parser.decode n.rawBytes c.dataFormat with
  | .error _ => ([], last)
  | .ok v =>
    if n.channelId = c.id ∧
        last.all (fun t => RateLimiter.elapsed minIntervalS t n.clock) = true then
      (if v = .nan then [] else [(v, n.recordedAt)], some n.clock)
    else ([], last)

def contribution (minIntervalS : τ) (c : Channel) (last : Option τ) :
    ServerEvent β τ → List Point × Option τ
  | .notify n sql => sql.left last (notified minIntervalS c last n)
  | .command cmd sql => sql.left last (commanded c cmd, last)
  | .call _ _ | .setLabel _ _ _ => ([], last)
  | .restart _ => ([], none)

def recordings (minIntervalS : τ) (c : Channel) : Option τ → List (ServerEvent β τ) → List Point
  | _, [] => []
  | last, e :: es => (contribution minIntervalS c last e).1 ++
      recordings minIntervalS c (contribution minIntervalS c last e).2 es

variable {E : Env β} {s : Recorder β τ} {c : Channel}

def Restructured (db db' : Database) : Prop :=
  ∃ statements : List Statement, (∀ statement ∈ statements, Structural statement) ∧
    db' = component.after db (statements.map .write)

theorem structurally_restructured (db : Database) : Structurally (Restructured db) := by
  rintro _ statement db' hstatement ⟨statements, hall, rfl⟩ hexecute
  refine ⟨statements ++ [statement], ?_, ?_⟩
  · intro x hx
    rcases List.mem_append.mp hx with hx | hx
    · exact hall x hx
    · exact List.mem_singleton.mp hx ▸ hstatement
  · rw [List.map_append, Component.after_append, List.map_singleton,
      Database.after_write_ok hexecute]

theorem recorded_structural {statements : List Statement}
    (h : ∀ statement ∈ statements, Structural statement) (i : ℕ) (points : List Point) :
    (statements.map Request.write).foldl (Request.recorded i) points = points := by
  induction statements with
  | nil => rfl
  | cons statement statements ih =>
    obtain ⟨hstatement, hall⟩ := List.forall_mem_cons.mp h
    have hsame : (Request.write statement).recorded i points = points := by
      cases statement <;> first | rfl | cases hstatement
    rw [List.map_cons, List.foldl_cons, hsame, ih hall]

theorem call_logged (outside : β) (op : DemoCall) : ∃ requests,
    Logged c s (step E s (.call outside op)) ([], s.limiter.lastEmit (toString c.id))
      requests := by
  have hkept : (op.program E).After (fun _ w => Restructured s.world.db w.db)
      { s.world with outside } :=
    program_tables (structurally_restructured s.world.db) op _ ⟨[], nofun, rfl⟩
  obtain ⟨statements, hall, hdb⟩ := hkept
  exact ⟨_, hdb, fun _ points => by rw [recorded_structural hall]; exact (List.append_nil _).symm,
    rfl, fun _ => rfl⟩

theorem setLabel_logged (outside : β) (deviceId : ℕ) (label : String) : ∃ requests,
    Logged c s (step E s (.setLabel outside deviceId label))
      ([], s.limiter.lastEmit (toString c.id)) requests := by
  have hkept : (DeviceService.setLabel E deviceId label).After
      (fun _ w => Restructured s.world.db w.db) { s.world with outside } :=
    DeviceService.setLabel_tables (structurally_restructured s.world.db) deviceId label _
      ⟨[], nofun, rfl⟩
  obtain ⟨statements, hall, hdb⟩ := hkept
  exact ⟨_, hdb, fun _ points => by rw [recorded_structural hall]; exact (List.append_nil _).symm,
    rfl, fun _ => rfl⟩

/-- The insert that a notification makes, if its value is let through. -/
def inserts (w : ChannelWorld τ) (n : Notification τ) : List Request :=
  match ChannelService.decoded w.db n with
  | none => []
  | some v =>
    if (w.limiter.lastEmit (toString n.channelId)).all
        (fun t => RateLimiter.elapsed w.limiter.minIntervalS t n.clock) = true then
      [.write (.insertReading n.channelId v n.recordedAt)]
    else []

/-- What a notification does to the tables and to the limiter. -/
theorem handleNotify_logged (w : ChannelWorld τ) (n : Notification τ) :
    (ChannelService.handleNotify n).After (fun _ w' =>
      w'.db = component.after w.db (inserts w n) ∧
      w'.limiter = match ChannelService.decoded w.db n with
        | none => w.limiter
        | some _ => (w.limiter.shouldEmit (toString n.channelId) n.clock).2) w := by
  unfold inserts
  cases hd : ChannelService.decoded w.db n with
  | none =>
    apply (ChannelService.handleNotify_undelivered hd).mono
    rintro r w' ⟨-, rfl⟩
    exact ⟨rfl, rfl⟩
  | some v =>
    obtain ⟨row, hrow, hv⟩ := ChannelService.exists_of_decoded hd
    apply ChannelService.handleNotify_delivered hrow hv
    dsimp only
    split_ifs with hemit hfar hfar
    · apply (after_store_logged n.channelId v n.recordedAt).mono
      intro r w' hw'
      subst hw'
      cases r <;> exact ⟨rfl, rfl⟩
    · exact absurd (RateLimiter.shouldEmit_true hemit).1 hfar
    · have hnear := (RateLimiter.shouldEmit_false (eq_false_of_ne_true hemit)).1
      rw [hnear] at hfar
      cases hfar
    · exact ⟨rfl, rfl⟩

theorem inserts_other {w : ChannelWorld τ} {n : Notification τ} (hn : n.channelId ≠ c.id)
    (points : List Point) : (inserts w n).foldl (Request.recorded c.id) points = points := by
  unfold inserts
  cases ChannelService.decoded w.db n with
  | none => rfl
  | some v =>
    dsimp only
    split_ifs
    · exact if_neg fun h => hn h.1
    · rfl

theorem notified_other {n : Notification τ} (hn : n.channelId ≠ c.id) (minIntervalS : τ)
    (last : Option τ) : notified minIntervalS c last n = ([], last) := by
  unfold notified
  cases Parser.decode n.rawBytes c.dataFormat with
  | error e => rfl
  | ok v => exact if_neg fun h => hn h.1

theorem notify_logged (hv : s.world.db.Valid) (n : Notification τ) :
    Logged c s (s.withChannels ((ChannelService.handleNotify n).exec s.channels).2)
      (notified s.limiter.minIntervalS c (s.limiter.lastEmit (toString c.id)) n)
      (inserts s.channels n) := by
  obtain ⟨hdb, hlimiter⟩ := handleNotify_logged s.channels n
  have hlast : ((ChannelService.handleNotify n).exec s.channels).2.limiter =
      match ChannelService.decoded s.world.db n with
      | none => s.limiter
      | some _ => (s.limiter.shouldEmit (toString n.channelId) n.clock).2 := hlimiter
  refine ⟨hdb, fun hc points => ?_, ?_, fun hc => ?_⟩
  · by_cases hn : n.channelId = c.id
    · have hdecoded : ChannelService.decoded s.channels.db n = _ := decoded_row hv hc hn
      have hlimiter : s.channels.limiter = s.limiter := rfl
      unfold inserts notified
      rw [hdecoded, hlimiter, hn]
      cases Parser.decode n.rawBytes c.dataFormat with
      | error e => exact (List.append_nil _).symm
      | ok v =>
        simp only [Except.toOption, true_and]
        split_ifs with hfar hnan
        · exact (if_neg fun h => h.2 hnan).trans (List.append_nil _).symm
        · exact if_pos ⟨rfl, hnan⟩
        · exact (List.append_nil _).symm
    · rw [inserts_other hn, notified_other hn]
      exact (List.append_nil _).symm
  · change ((ChannelService.handleNotify n).exec s.channels).2.limiter.minIntervalS = _
    rw [hlast]
    cases ChannelService.decoded s.world.db n with
    | none => rfl
    | some v => exact RateLimiter.shouldEmit_minIntervalS ..
  · change ((ChannelService.handleNotify n).exec s.channels).2.limiter.lastEmit _ = _
    rw [hlast]
    by_cases hn : n.channelId = c.id
    · rw [decoded_row hv hc hn]
      unfold notified
      cases Parser.decode n.rawBytes c.dataFormat with
      | error e => rfl
      | ok v =>
        rw [hn]
        simp only [Except.toOption, RateLimiter.shouldEmit, true_and]
        split_ifs with hfar hnan
        · exact Function.update_self ..
        · exact Function.update_self ..
        · rfl
    · rw [notified_other hn]
      cases ChannelService.decoded s.world.db n with
      | none => rfl
      | some v =>
        exact RateLimiter.shouldEmit_other _
          (fun heq => hn (ChannelService.toString_injective heq).symm) _

theorem step_logged (hv : s.world.db.Valid) (e : ServerEvent β τ) : ∃ requests,
    Logged c s (step E s e)
      (contribution s.limiter.minIntervalS c (s.limiter.lastEmit (toString c.id)) e) requests := by
  cases e with
  | call outside op => exact call_logged outside op
  | setLabel outside deviceId label => exact setLabel_logged outside deviceId label
  | notify n sql => exact (notify_logged hv n).served sql
  | command cmd sql =>
    obtain ⟨requests, hlogged⟩ := command_logged (c := c) hv cmd
    exact hlogged.served sql
  | restart outside =>
    exact ⟨[], rfl, fun _ points => (List.append_nil points).symm, rfl, fun _ => rfl⟩

/-- A run is a sequence of requests of the tables. -/
theorem run_logged (hv : s.world.db.Valid) (ho : s.world.db.InOrder)
    (es : List (ServerEvent β τ)) : ∃ requests,
      (run E s es).world.db = component.after s.world.db requests ∧
      (c ∈ s.world.db.channels → Channels.getById (run E s es).world.db c.id ≠ none →
        ∀ points, requests.foldl (Request.recorded c.id) points = points ++
          recordings s.limiter.minIntervalS c (s.limiter.lastEmit (toString c.id)) es) := by
  induction es generalizing s with
  | nil => exact ⟨[], rfl, fun _ _ points => (List.append_nil points).symm⟩
  | cons e es ih =>
    obtain ⟨first, hlogged⟩ := step_logged (E := E) (c := c) hv e
    obtain ⟨⟨hv', ho'⟩, hview, -⟩ := Database.refines.run ⟨hv, ho⟩ first
    rw [← hlogged.tables] at hv' ho' hview
    obtain ⟨rest, htables, hrecorded⟩ := ih hv' ho'
    refine ⟨first ++ rest, ?_, fun hc hthere points => ?_⟩
    · rw [Component.after_append, ← hlogged.tables]
      exact htables
    · have hfirst := Store.series_after (s := s.world.db.store) (hv.channelFresh c hc)
        (fun hnone => Option.some_ne_none c ((getById_row hv hc).symm.trans hnone)) first
      rw [hview] at hfirst
      have hstays : (step E s e).world.db.store.channel c.id ≠ none := by
        intro hnone
        obtain ⟨-, hview', -⟩ := Database.refines.run ⟨hv', ho'⟩ rest
        have hgone := (hfirst.2 hnone).after rest
        rw [hview', ← htables] at hgone
        exact hthere hgone.channel
      have hrow : Channels.getById (step E s e).world.db c.id = some c :=
        (hfirst.1 hstays).1.trans (getById_row hv hc)
      have hc' : c ∈ (step E s e).world.db.channels := (Channels.mem_of_getById hrow).1
      rw [List.foldl_append, hlogged.recorded hc, hrecorded hc' hthere, hlogged.interval,
        hlogged.last hc, recordings, List.append_assoc]

/-- **A history is what came in.** In every run of the server, on any backend, whatever fails and
whatever is done to other devices and channels: as long as a channel is there, its row and its
readings are kept, and it gains exactly the values that its notifications decode to, as often as its
limiter lets them through, and those that its peripheral was commanded. Once it was deleted, it has
no history any more. -/
theorem history_of_run (h : tables.Reachable s.world.db) (hc : c ∈ s.world.db.channels)
    (es : List (ServerEvent β τ)) :
    (Channels.getById (run E s es).world.db c.id ≠ none →
      Channels.getById (run E s es).world.db c.id = some c ∧ ∀ since til limit,
        (ChannelService.getHistory (run E s es).world.db c.id since til limit).map Reading.point =
          Store.window ((Readings.ofChannel s.world.db c.id).map Reading.point ++
            recordings s.limiter.minIntervalS c (s.limiter.lastEmit (toString c.id)) es)
            since til limit) ∧
    (Channels.getById (run E s es).world.db c.id = none → ∀ since til limit,
      ChannelService.getHistory (run E s es).world.db c.id since til limit = []) := by
  have hv := tables_valid h
  have ho := Database.tables_inOrder h
  obtain ⟨requests, htables, hrecorded⟩ := run_logged (E := E) (c := c) hv ho es
  obtain ⟨hlater, hview, -⟩ := Database.refines.run ⟨hv, ho⟩ requests
  obtain ⟨hkept, hgone⟩ := Store.series_after (s := s.world.db.store) (hv.channelFresh c hc)
    (fun hnone => Option.some_ne_none c ((getById_row hv hc).symm.trans hnone)) requests
  rw [hview, ← htables] at hkept hgone
  rw [← htables] at hlater
  constructor
  · intro hthere
    obtain ⟨hrow, hseries⟩ := hkept hthere
    refine ⟨hrow.trans (getById_row hv hc), fun since til limit => ?_⟩
    have hwindow := Database.window_store hlater.2 c.id since til limit
    rw [hseries, hrecorded hc hthere] at hwindow
    exact hwindow.symm
  · intro hnone since til limit
    have hwindow := Database.window_store hlater.2 c.id since til limit
    rw [(hgone hnone).series, Store.window_nil] at hwindow
    exact List.map_eq_nil_iff.mp hwindow.symm

end Step
end Recorder

def doorStatements : List Statement :=
  [.createDevice "AA:BB:CC:DD:EE:01" "door" 1 .publicAddr,
    .createChannel 1 "light" .display "2a6e" "uint8" (some "lx"),
    .createChannel 1 "lock" .controller "2a6f" "uint8" (some "0/1")]

def doorLight : Channel := ⟨1, 1, "light", .display, "2a6e", "uint8", some "lx"⟩

def doorTables : Database where
  devices := [⟨1, "AA:BB:CC:DD:EE:01", .publicAddr, "door", none, 1, none⟩]
  channels := [doorLight, ⟨2, 1, "lock", .controller, "2a6f", "uint8", some "0/1"⟩]
  nextDevice := 2
  nextChannel := 3

theorem doorTables_reachable : tables.Reachable doorTables := by
  have hreplay : tables.replay (fun _ _ => true) {} doorStatements = some doorTables := rfl
  exact (System.replay_run (.init rfl) hreplay).reachable

def door : Recorder MockBLEManager ℤ where
  world := { db := doorTables, outside := {} }
  limiter := { minIntervalS := 10 }

/-- The second reading comes too early, the third one after a restart, and the file is locked for
the fourth. -/
def doorEvents : List (ServerEvent MockBLEManager ℤ) :=
  [.notify (ChannelService.flagNotify 1 7 0) .works,
    .notify (ChannelService.flagNotify 1 8 4) .works, .call {} (.deleteChannel 2), .restart {},
    .setLabel {} 1 " front door ", .notify (ChannelService.flagNotify 1 9 6) .works,
    .notify (ChannelService.flagNotify 1 7 20) .insertFails]

theorem history_of_run_door :
    Channels.getById (Recorder.run (mockEnv 0) door doorEvents).world.db 1 = some doorLight ∧
      ∀ since til limit, (ChannelService.getHistory
        (Recorder.run (mockEnv 0) door doorEvents).world.db 1 since til limit).map Reading.point =
          Store.window [(.finite 7, 0), (.finite 9, 6)] since til limit := by
  have hthere : (Channels.getById (Recorder.run (mockEnv 0) door doorEvents).world.db 1).isSome =
      true := by decide +kernel
  have hrecorded : Recorder.recordings 10 doorLight none doorEvents =
      [(.finite 7, 0), (.finite 9, 6)] := by decide +kernel
  have hlight : doorLight ∈ door.world.db.channels := .head _
  obtain ⟨hkept, -⟩ := Recorder.history_of_run (E := mockEnv 0) (s := door) doorTables_reachable
    hlight doorEvents
  have hne : Channels.getById (Recorder.run (mockEnv 0) door doorEvents).world.db doorLight.id ≠
      none := Option.isSome_iff_ne_none.mp hthere
  obtain ⟨hrow, hhistory⟩ := hkept hne
  refine ⟨hrow, fun since til limit => ?_⟩
  rw [← hrecorded]
  exact hhistory since til limit

end HomeServer.Services
