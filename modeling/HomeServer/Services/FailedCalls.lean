import HomeServer.Services.Ingest

/-! What a call that raises has left behind: a command of the peripheral and the tables, a
notification of the tables and the limiter. -/
namespace HomeServer.Services.ChannelService
open HomeServer.Db HomeServer.Ble HomeServer.Lib
variable {τ : Type}

def AllOrNothing (w : ChannelWorld τ) (r : Except Err Unit) (w' : ChannelWorld τ) : Prop :=
  (r = .ok () ∧ (∃ target, w'.written = w.written ++ [target]) ∧
      ∃ reading, w'.db.readings = w.db.readings ++ [reading]) ∨
    (∃ e, r = .error e) ∧ w'.written = w.written ∧ w'.db.readings = w.db.readings

def SendsNan (db : Database) (cmd : Command) : Prop :=
  cmd.rawValue = .nan ∧ cmd.raised = none ∧ ∃ channel spec,
    Channels.getById db cmd.channelId = some channel ∧ channel.type = .controller ∧
      Parser.lookup channel.dataFormat = some spec ∧ spec.code = .float

theorem insert_nan (db : Database) (i : ℕ) (t : Timestamp) :
    Readings.insert db i .nan t = .error .integrityError := if_pos rfl

/-- A command is all or nothing but where the write has been done before the insert is refused. -/
theorem all_or_nothing {w : ChannelWorld τ} (hv : w.db.Valid) (cmd : Command) :
    AllOrNothing w ((writeCommand cmd).exec w).1 ((writeCommand cmd).exec w).2 ↔
      ¬SendsNan w.db cmd := by
  have hnan : SendsNan w.db cmd ↔ cmd.rawValue = .nan ∧ cmd.raised = none ∧
      ∃ target, encodeCommand w.db cmd.channelId cmd.rawValue = .ok target := by
    apply and_congr_right
    intro hraw
    have hnot : cmd.rawValue.isFinite = false := by rw [hraw]; rfl
    rw [encodeCommand_not_finite hv cmd.channelId hnot]
  rw [hnan]
  change (writeCommand cmd).After (fun r w' => AllOrNothing w r w' ↔ _) w
  cases htarget : encodeCommand w.db cmd.channelId cmd.rawValue with
  | error e =>
    apply (writeCommand_refused htarget).mono
    rintro r w' ⟨rfl, rfl⟩
    have hnothing : AllOrNothing w' (.error e) w' := Or.inr ⟨⟨e, rfl⟩, rfl, rfl⟩
    simp [hnothing]
  | ok target =>
    cases hraised : cmd.raised with
    | some e =>
      apply (writeCommand_raised htarget hraised).mono
      rintro r w' ⟨rfl, rfl⟩
      have hnothing : AllOrNothing w' (.error e) w' := Or.inr ⟨⟨e, rfl⟩, rfl, rfl⟩
      simp [hnothing]
    | none =>
      apply writeCommand_written htarget hraised
      rw [after_store]
      dsimp only
      by_cases hraw : cmd.rawValue = .nan
      · rw [hraw, insert_nan]
        dsimp only
        have hdone : ¬AllOrNothing w (.error .integrityError)
            { w with written := w.written ++ [target] } := by
          rintro (⟨hr, -⟩ | ⟨-, hwritten, -⟩)
          · cases hr
          · simp at hwritten
        simp [hdone]
      · obtain ⟨channel, -, -, hchannel, -⟩ := encodeCommand_ok htarget
        obtain ⟨db, hinsert⟩ := Readings.exists_insert hchannel hraw cmd.recordedAt
        rw [hinsert]
        dsimp only
        have hreadings : db.readings = w.db.readings ++
            [⟨w.db.nextReading, cmd.channelId, cmd.rawValue, cmd.recordedAt⟩] := by
          rw [(Readings.insert_ok hinsert).2]
        have hall : AllOrNothing w (.ok ()) { w with written := w.written ++ [target], db } :=
          Or.inl ⟨rfl, ⟨target, rfl⟩, _, hreadings⟩
        simp [hall, hraw]

/-- An infinity is both sent and stored. -/
theorem all_or_nothing_heater :
    let cmd : Command := { channelId := 2, rawValue := .inf false, recordedAt := 5 }
    AllOrNothing floatWorld ((writeCommand cmd).exec floatWorld).1
      ((writeCommand cmd).exec floatWorld).2 := by
  intro cmd
  apply (all_or_nothing floatWorld_valid cmd).mpr
  rintro ⟨hnan, -⟩
  cases hnan

/-- NaN is sent to the heater, and then refused by the table. -/
theorem nan_sent_not_stored : ¬∀ (w : ChannelWorld ℤ) (cmd : Command), w.db.Valid →
    AllOrNothing w ((writeCommand cmd).exec w).1 ((writeCommand cmd).exec w).2 := by
  intro hall
  have hheater := hall floatWorld { channelId := 2, rawValue := .nan, recordedAt := 5 }
    floatWorld_valid
  rcases hheater with ⟨hok, -⟩ | ⟨-, hwritten, -⟩
  · revert hok
    decide +kernel
  · revert hwritten
    decide +kernel

section Notifications
variable [Sub τ] [LE τ] [DecidableLE τ] {w w' : ChannelWorld τ} {n : Notification τ}

/-- Neither the readings nor the limiter show the call, and no later one comes out differently. -/
structure NoTrace (w w' : ChannelWorld τ) : Prop where
  readings : w'.db.readings = w.db.readings
  lastEmit : w'.limiter.lastEmit = w.limiter.lastEmit
  later : ∀ ns, (handleAll w' ns).db = (handleAll w ns).db

def TakesSlot (w : ChannelWorld τ) (n : Notification τ) : Prop :=
  decoded w.db n = some .nan ∧ (w.limiter.shouldEmit (toString n.channelId) n.clock).1 = true ∧
    w.limiter.lastEmit (toString n.channelId) ≠ some n.clock

/-- The tables and the limiter after a call, which the pushes have no part in. -/
def notified (db : Database) (limiter : RateLimiter τ) (n : Notification τ) :
    Database × RateLimiter τ :=
  match decoded db n with
  | none => (db, limiter)
  | some v =>
    let (emit, limiter') := limiter.shouldEmit (toString n.channelId) n.clock
    if emit then
      match Readings.insert db n.channelId v n.recordedAt with
      | .ok db' => (db', limiter')
      | .error _ => (db, limiter')
    else (db, limiter')

theorem handleNotify_notified (n : Notification τ) (w : ChannelWorld τ) :
    (handleNotify n).After (fun _ w' => (w'.db, w'.limiter) = notified w.db w.limiter n) w := by
  unfold notified
  cases hd : decoded w.db n with
  | none =>
    apply (handleNotify_undelivered hd).mono
    rintro r w' ⟨-, rfl⟩
    rfl
  | some v =>
    obtain ⟨c, hc, hv⟩ := exists_of_decoded hd
    apply handleNotify_delivered hc hv
    dsimp only
    split
    · rw [after_store]
      dsimp only
      cases Readings.insert w.db n.channelId v n.recordedAt <;> rfl
    · rfl

theorem handleAll_congr (hdb : w'.db = w.db) (hlimiter : w'.limiter = w.limiter)
    (ns : List (Notification τ)) : (handleAll w' ns).db = (handleAll w ns).db := by
  induction ns generalizing w w' with
  | nil => exact hdb
  | cons n ns ih =>
    have hw : _ = notified w.db w.limiter n := handleNotify_notified n w
    have hw' : _ = notified w'.db w'.limiter n := handleNotify_notified n w'
    rw [hdb, hlimiter, ← hw] at hw'
    exact ih (congrArg Prod.fst hw') (congrArg Prod.snd hw')

/-- A call that raises decoded nothing, or NaN that the limiter accepted. -/
theorem handleNotify_raises (n : Notification τ) (w : ChannelWorld τ) :
    (handleNotify n).After (fun r w' => (∃ e, r = .error e) →
      (w' = w ∧ decoded w.db n = none) ∨
        (decoded w.db n = some .nan ∧
          (w.limiter.shouldEmit (toString n.channelId) n.clock).1 = true ∧ w'.db = w.db ∧
          w'.limiter = (w.limiter.shouldEmit (toString n.channelId) n.clock).2)) w := by
  cases hd : decoded w.db n with
  | none => exact (handleNotify_undelivered hd).mono fun r w' h _ => Or.inl ⟨h.2, rfl⟩
  | some v =>
    obtain ⟨c, hc, hv⟩ := exists_of_decoded hd
    apply handleNotify_delivered hc hv
    dsimp only
    split
    · rename_i hemit
      rw [after_store]
      dsimp only
      by_cases hnan : v = .nan
      · rw [hnan, insert_nan]
        exact fun _ => Or.inr ⟨rfl, hemit, rfl, rfl⟩
      · obtain ⟨db, hinsert⟩ := Readings.exists_insert hc hnan n.recordedAt
        rw [hinsert]
        rintro ⟨e, he⟩
        cases he
    · rintro ⟨e, he⟩
      cases he

/-- A notification that raises leaves no trace but where its NaN has taken the slot of the
limiter. -/
theorem failed_leaves_no_trace {e : Err} (h : (handleNotify n).exec w = (.error e, w')) :
    NoTrace w w' ↔ ¬TakesSlot w n := by
  have hraises := handleNotify_raises n w
  unfold Action.After at hraises
  rw [h] at hraises
  rcases hraises ⟨e, rfl⟩ with ⟨rfl, hnone⟩ | ⟨hnan, hemit, hdb, hlimiter⟩
  · have hno : ¬TakesSlot w' n := by
      rintro ⟨hnan, -⟩
      rw [hnone] at hnan
      cases hnan
    exact ⟨fun _ => hno, fun _ => ⟨rfl, rfl, fun _ => rfl⟩⟩
  · obtain ⟨-, hupdate⟩ := RateLimiter.shouldEmit_true hemit
    have hinterval := RateLimiter.shouldEmit_minIntervalS w.limiter (toString n.channelId) n.clock
    rw [← hlimiter] at hupdate hinterval
    constructor
    · rintro ⟨-, hlast, -⟩ ⟨-, -, hother⟩
      rw [hupdate] at hlast
      have hkey := congrFun hlast (toString n.channelId)
      rw [Function.update_self] at hkey
      exact hother hkey.symm
    · intro hno
      have hsame : w.limiter.lastEmit (toString n.channelId) = some n.clock := by
        by_contra hother
        exact hno ⟨hnan, hemit, hother⟩
      have hlast : w'.limiter.lastEmit = w.limiter.lastEmit := by
        rw [hupdate, ← hsame, Function.update_eq_self]
      have hwhole : w'.limiter = w.limiter := by
        cases hl : w'.limiter
        cases hl' : w.limiter
        rw [hl, hl'] at hlast hinterval
        dsimp only at hlast hinterval
        rw [hlast, hinterval]
      exact ⟨by rw [hdb], hlast, handleAll_congr hdb hwhole⟩

end Notifications

def slowWorld : ChannelWorld ℤ := { floatWorld with limiter := { minIntervalS := 10 } }

def heatNotify (rawBytes : Bytes) (clock : ℤ) : Notification ℤ :=
  { channelId := 1, rawBytes, clock, timestamp := clock, recordedAt := clock }

/-- A short payload, and the next valid one is stored. -/
theorem failed_leaves_no_trace_heater :
    NoTrace slowWorld ((handleNotify (heatNotify [0, 0] 0)).exec slowWorld).2 := by
  have hraises : (handleNotify (heatNotify [0, 0] 0)).exec slowWorld =
      (.error (.shortData 4 "float32_le" [0, 0]),
        ((handleNotify (heatNotify [0, 0] 0)).exec slowWorld).2) :=
    Prod.ext (by decide +kernel) rfl
  apply (failed_leaves_no_trace hraises).mpr
  rintro ⟨hnan, -⟩
  revert hnan
  decide +kernel

/-- NaN takes the slot of the limiter: the next valid payload is not stored. -/
theorem nan_takes_slot : ¬∀ (w w' : ChannelWorld ℤ) n e,
    (handleNotify n).exec w = (.error e, w') → NoTrace w w' := by
  intro hall
  have hraises : (handleNotify (heatNotify [0, 0, 0xc0, 0x7f] 0)).exec slowWorld =
      (.error .integrityError,
        ((handleNotify (heatNotify [0, 0, 0xc0, 0x7f] 0)).exec slowWorld).2) :=
    Prod.ext (by decide +kernel) rfl
  have hlater := (hall _ _ _ _ hraises).later [heatNotify [0, 0, 0x80, 0x3f] 5]
  have hstored := congrArg (fun db => db.readings.length) hlater
  revert hstored
  decide +kernel

end HomeServer.Services.ChannelService
