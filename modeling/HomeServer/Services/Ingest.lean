import HomeServer.Services.Commands
import HomeServer.Services.Serving

/-! Runs of notifications and commands: all that is stored can be served as long as no
infinity gets past the decoder, the limiter and the float formats. -/
namespace HomeServer.Services
open HomeServer.Db HomeServer.Ble HomeServer.Lib ChannelService

inductive Ingest (τ : Type)
  | notification (n : Notification τ)
  | command (c : Command)

def StoreStep (bad : Prop) (db db' : Database) : Prop :=
  (db' = db ∧ ¬bad) ∨
    ∃ i v t, Readings.insert db i v t = .ok db' ∧ (v.isFinite = true ↔ ¬bad)

theorem StoreStep.valid {bad : Prop} {db db' : Database} (h : StoreStep bad db db')
    (hv : db.Valid) : db'.Valid := by
  rcases h with ⟨rfl, -⟩ | ⟨i, v, t, hins, -⟩
  · exact hv
  · exact hv.readingInsert hins

theorem StoreStep.finite_iff {bad : Prop} {db db' : Database} (h : StoreStep bad db db') :
    (∀ r ∈ db'.readings, r.value.isFinite = true) ↔
      (∀ r ∈ db.readings, r.value.isFinite = true) ∧ ¬bad := by
  rcases h with ⟨rfl, hbad⟩ | ⟨i, v, t, hins, hiff⟩
  · exact ⟨fun h => ⟨h, hbad⟩, fun h => h.1⟩
  · obtain ⟨-, rfl⟩ := Readings.insert_ok hins
    rw [List.forall_mem_append, List.forall_mem_singleton, hiff]

theorem encode_not_finite {value : PyFloat} (h : value.isFinite = false) (fmt : String) :
    (∃ data, Parser.encode value fmt = .ok data) ↔
      ∃ spec, Parser.lookup fmt = some spec ∧ spec.code = .float := by
  unfold Parser.encode
  cases Parser.lookup fmt with
  | none => simp
  | some spec =>
    cases value with
    | nan | inf => cases hcode : spec.code <;> simp [hcode, Parser.toInt, Struct.packFloat]
    | negZero | finite => cases h

variable {τ : Type} [Sub τ] [LE τ] [DecidableLE τ]

def ingest (w : ChannelWorld τ) : Ingest τ → ChannelWorld τ
  | .notification n => ((handleNotify n).exec w).2
  | .command c => ((writeCommand c).exec w).2

/-- A notification of an infinity that the limiter accepts, or a command of one that a float
controller's peripheral takes. -/
def StoresInf (w : ChannelWorld τ) : Ingest τ → Prop
  | .notification n => (∃ negative, decoded w.db n = some (.inf negative)) ∧
      (w.limiter.shouldEmit (toString n.channelId) n.clock).1 = true
  | .command c => (∃ negative, c.rawValue = .inf negative) ∧ c.raised = none ∧
      ∃ channel spec, Channels.getById w.db c.channelId = some channel ∧
        channel.type = .controller ∧ Parser.lookup channel.dataFormat = some spec ∧
        spec.code = .float

theorem handleNotify_storeStep (n : Notification τ) (w : ChannelWorld τ) :
    (handleNotify n).After
      (fun _ w' => StoreStep (StoresInf w (.notification n)) w.db w'.db) w := by
  cases hd : decoded w.db n with
  | none =>
    apply (handleNotify_undelivered hd).mono
    rintro r w' ⟨-, rfl⟩
    refine Or.inl ⟨rfl, ?_⟩
    rintro ⟨⟨negative, hinf⟩, -⟩
    rw [hd] at hinf
    cases hinf
  | some v =>
    obtain ⟨c, hc, hv⟩ := exists_of_decoded hd
    apply handleNotify_delivered hc hv
    dsimp only
    split
    · rename_i hemit
      have hiff : v ≠ .nan → (v.isFinite = true ↔ ¬StoresInf w (.notification n)) := by
        intro hnan
        change _ ↔ ¬((∃ negative, decoded w.db n = some (.inf negative)) ∧ _)
        rw [hd]
        cases v <;> simp_all [PyFloat.isFinite]
      rw [after_store]
      dsimp only
      by_cases hnan : v = .nan
      · subst hnan
        refine Or.inl ⟨rfl, ?_⟩
        rintro ⟨⟨negative, hinf⟩, -⟩
        rw [hd] at hinf
        cases hinf
      · obtain ⟨db', hins⟩ := Readings.exists_insert hc hnan n.recordedAt
        rw [hins]
        exact Or.inr ⟨_, v, _, hins, hiff hnan⟩
    · rename_i hemit
      exact Or.inl ⟨rfl, fun h => hemit h.2⟩

/-- Of the controllers, only one of a float format has a command of such a value encoded. -/
theorem encodeCommand_not_finite {db : Database} (hv : db.Valid) (i : ℕ) {value : PyFloat}
    (h : value.isFinite = false) :
    (∃ target, encodeCommand db i value = .ok target) ↔
      ∃ channel spec, Channels.getById db i = some channel ∧ channel.type = .controller ∧
        Parser.lookup channel.dataFormat = some spec ∧ spec.code = .float := by
  constructor
  · rintro ⟨target, htarget⟩
    obtain ⟨channel, -, data, hchannel, htype, hdata, -⟩ := encodeCommand_ok htarget
    obtain ⟨spec, hspec, hcode⟩ := (encode_not_finite h channel.dataFormat).mp ⟨data, hdata⟩
    exact ⟨channel, spec, hchannel, htype, hspec, hcode⟩
  · rintro ⟨channel, spec, hchannel, htype, hspec, hcode⟩
    obtain ⟨data, hdata⟩ := (encode_not_finite h channel.dataFormat).mpr ⟨spec, hspec, hcode⟩
    obtain ⟨device, hencode⟩ := encodeCommand_controller hv hchannel htype value
    rw [hencode, hdata]
    exact ⟨_, rfl⟩

theorem writeCommand_storeStep {w : ChannelWorld τ} (hw : w.db.Valid) (c : Command) :
    (writeCommand c).After (fun _ w' => StoreStep (StoresInf w (.command c)) w.db w'.db) w := by
  have hstores : StoresInf w (.command c) ↔ (∃ negative, c.rawValue = .inf negative) ∧
      c.raised = none ∧ ∃ target, encodeCommand w.db c.channelId c.rawValue = .ok target := by
    apply and_congr_right
    rintro ⟨negative, hinf⟩
    have hnot : c.rawValue.isFinite = false := by rw [hinf]; rfl
    rw [encodeCommand_not_finite hw c.channelId hnot]
  rw [hstores]
  cases htarget : encodeCommand w.db c.channelId c.rawValue with
  | error e =>
    apply (writeCommand_refused htarget).mono
    rintro r w' ⟨-, rfl⟩
    exact Or.inl ⟨rfl, by simp⟩
  | ok target =>
    cases hraised : c.raised with
    | some e =>
      apply (writeCommand_raised htarget hraised).mono
      rintro r w' ⟨-, rfl⟩
      exact Or.inl ⟨rfl, by simp⟩
    | none =>
      apply writeCommand_written htarget hraised
      rw [after_store]
      dsimp only
      by_cases hnan : c.rawValue = .nan
      · rw [hnan]
        exact Or.inl ⟨rfl, by simp⟩
      · obtain ⟨channel, -, -, hc, -⟩ := encodeCommand_ok htarget
        obtain ⟨db', hins⟩ := Readings.exists_insert hc hnan c.recordedAt
        rw [hins]
        refine Or.inr ⟨_, _, _, hins, ?_⟩
        cases hv : c.rawValue <;> simp_all [PyFloat.isFinite]

theorem ingest_storeStep {w : ChannelWorld τ} (hw : w.db.Valid) (e : Ingest τ) :
    StoreStep (StoresInf w e) w.db (ingest w e).db := by
  cases e with
  | notification n => exact handleNotify_storeStep n w
  | command c => exact writeCommand_storeStep hw c

def ingestAll (w : ChannelWorld τ) (es : List (Ingest τ)) : ChannelWorld τ := es.foldl ingest w

def NeverStoresInf : ChannelWorld τ → List (Ingest τ) → Prop
  | _, [] => True
  | w, e :: es => ¬StoresInf w e ∧ NeverStoresInf (ingest w e) es

theorem ingestAll_finite_iff {w : ChannelWorld τ} (hw : w.db.Valid) (es : List (Ingest τ)) :
    (ingestAll w es).db.Valid ∧ ((∀ r ∈ (ingestAll w es).db.readings, r.value.isFinite = true) ↔
      (∀ r ∈ w.db.readings, r.value.isFinite = true) ∧ NeverStoresInf w es) := by
  induction es generalizing w with
  | nil => exact ⟨hw, by simp [ingestAll, NeverStoresInf]⟩
  | cons e es ih =>
    have hstep := ingest_storeStep hw e
    obtain ⟨hv, hiff⟩ := ih (hstep.valid hw)
    refine ⟨hv, hiff.trans ?_⟩
    rw [hstep.finite_iff, and_assoc]
    rfl

/-- After every run, all calls can be answered exactly when the run stored no infinity. -/
theorem served_iff {w : ChannelWorld τ} (hw : w.db.Valid)
    (hfinite : ∀ r ∈ w.db.readings, r.value.isFinite = true) (es : List (Ingest τ)) :
    (∀ now request, Served (ingestAll w es).db now request) ↔ NeverStoresInf w es := by
  obtain ⟨hv, hiff⟩ := ingestAll_finite_iff hw es
  constructor
  · intro h
    exact (hiff.mp fun r hr => finite_of_served hv h hr).2
  · intro h now request
    exact served_of_finite (hiff.mpr ⟨hfinite, h⟩) now request

/-- A device with a float sensor and a float controller. -/
def floatWorld : ChannelWorld ℤ where
  db :=
    { devices := [⟨1, "A4:C1:38:00:00:03", .publicAddr, "heater", none, 1, none⟩]
      channels := [⟨1, 1, "t", .display, "2a6e", "float32_le", none⟩,
        ⟨2, 1, "target", .controller, "2a6f", "float32_le", none⟩]
      nextDevice := 2
      nextChannel := 3 }
  limiter := { minIntervalS := 1 }

def floatNotify (rawBytes : Bytes) (clock : ℤ) : Ingest ℤ :=
  .notification { channelId := 1, rawBytes, clock, timestamp := clock, recordedAt := clock }

theorem floatWorld_valid : floatWorld.db.Valid := by
  constructor <;> decide

theorem served_heater :
    let db := (ingestAll floatWorld [floatNotify [0, 0, 0x80, 0x3f] 5,
      .command { channelId := 2, rawValue := .finite 21, recordedAt := 6 }]).db
    Served db 7 (.latest 1) ∧ Served db 7 (.history 2 (some "1h") none) := by
  intro db
  have hone : decoded floatWorld.db
      { channelId := 1, rawBytes := [0, 0, 0x80, 0x3f], clock := 5, timestamp := 5
        recordedAt := 5 : Notification ℤ } = some (.finite 1) := by decide +kernel
  have hserved : ∀ now request, Served db now request := by
    apply (served_iff floatWorld_valid (by decide) _).mpr
    refine ⟨?_, ?_, trivial⟩
    · rintro ⟨⟨negative, hinf⟩, -⟩
      have hone' := hone.symm.trans hinf
      cases hone'
    · rintro ⟨⟨negative, hinf⟩, -⟩
      cases hinf
  exact ⟨hserved 7 _, hserved 7 _⟩

/-- A sensor that reports an infinity, or a command of one, is shown by `latest`; two opposite
infinities in one bucket make the window raise. -/
theorem infinity_not_served :
    ¬Served (ingestAll floatWorld [floatNotify [0, 0, 0x80, 0x7f] 5]).db 6 (.latest 1) ∧
      ¬Served (ingestAll floatWorld
        [.command { channelId := 2, rawValue := .inf false, recordedAt := 5 }]).db 6 (.latest 2) ∧
      Web.serve (ingestAll floatWorld
        [floatNotify [0, 0, 0x80, 0x7f] 1, floatNotify [0, 0, 0x80, 0xff] 2]).db 3
        (.history 1 (some "1h") none) = .error .typeError := by
  have hshown : ∀ {db : Database} {i : ℕ} {t : Timestamp},
      Web.serve db 6 (.latest i) = .ok (.latest i (some (.inf false)) (some t)) →
      ¬Served db 6 (.latest i) := by
    rintro db i t h ⟨reply, hreply, hfin⟩
    rw [h] at hreply
    cases hreply
    exact absurd (hfin (.inf false) (.head _)) (by decide)
  exact ⟨hshown (t := 5) (by decide +kernel), hshown (t := 5) (by decide +kernel),
    by decide +kernel⟩

end HomeServer.Services
