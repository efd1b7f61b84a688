import HomeServer.Core.PyText
import HomeServer.Services.Commands

/-! The form that writes to a controller: which exceptions of `encode` reach the user as a message,
and which as an error of the server. -/
namespace HomeServer.Services
open HomeServer.Db HomeServer.Ble HomeServer.Lib

/-- A posted form: `value` is its field, `raised` what the BLE write raises. -/
structure WriteRequest where
  channelId : ℕ
  value : Option String
  recordedAt : Timestamp
  raised : Option Err := none

/-- How the request ends; a redirect may carry a flashed message. -/
inductive WriteResponse
  | notFound
  | badRequest
  | redirect (deviceId : ℕ) (flash : Option String)
  deriving DecidableEq

namespace WriteRequest

/-- `request.form.get("value", "").strip()`. -/
def raw (request : WriteRequest) : PyText.Text := PyText.strip (request.value.getD "").toList

def command (request : WriteRequest) (value : PyFloat) : Command where
  channelId := request.channelId
  rawValue := value
  recordedAt := request.recordedAt
  raised := request.raised

end WriteRequest

namespace Web
open ChannelService
variable {τ : Type}

def writeChannel (request : WriteRequest) : Action (ChannelWorld τ) Err WriteResponse := do
  match Channels.getById (← get).db request.channelId with
  | none => pure .notFound
  | some channel =>
    match PyText.float request.raw with
    | none => pure (.redirect channel.deviceId (some "Value must be a number"))
    | some value =>
      tryCatch
        (do
          writeCommand (request.command value)
          pure (.redirect channel.deviceId none))
        fun e => match e with
          | .wrongChannelType _ => pure .badRequest
          | .shortData _ _ _ | .cannotEncode _ _ =>
            pure (.redirect channel.deviceId (some "Value out of range for this channel format"))
          | e => throw e

end Web

/-- The text is no number, or one that the format of the channel does not represent. -/
def Unencodable (channel : Channel) (request : WriteRequest) : Prop :=
  ∀ value spec, PyText.float request.raw = some value →
    Parser.lookup channel.dataFormat = some spec → ¬spec.Represents value

/-- The request ends on the page of the device, and what cannot be encoded is neither sent nor
stored. -/
def Answered {τ : Type} (channel : Channel) (request : WriteRequest) (w : ChannelWorld τ)
    (r : Except Err WriteResponse) (w' : ChannelWorld τ) : Prop :=
  (∃ flash, r = .ok (.redirect channel.deviceId flash)) ∧
    (Unencodable channel request → w'.written = w.written ∧ w'.db.readings = w.db.readings)

/-- What becomes of an exception of `write_command`. -/
def caught (channel : Channel) : Err → Except Err WriteResponse
  | .wrongChannelType _ => .ok .badRequest
  | .shortData _ _ _ | .cannotEncode _ _ =>
    .ok (.redirect channel.deviceId (some "Value out of range for this channel format"))
  | e => .error e

namespace Web
open ChannelService
variable {τ : Type} {w : ChannelWorld τ} {request : WriteRequest} {channel : Channel}
  {value : PyFloat}

theorem writeChannel_text (hchannel : Channels.getById w.db request.channelId = some channel)
    (htext : PyText.float request.raw = none) :
    (writeChannel request).After (fun r w' => w' = w ∧
      r = .ok (.redirect channel.deviceId (some "Value must be a number"))) w := by
  unfold writeChannel
  rw [Action.after_bind, Action.after_get, Action.then_ok, hchannel]
  dsimp only
  rw [htext]
  exact ⟨rfl, rfl⟩

/-- A number is handed to `write_command`, whose exceptions are caught. -/
theorem after_writeChannel (hchannel : Channels.getById w.db request.channelId = some channel)
    (htext : PyText.float request.raw = some value)
    {Q : Except Err WriteResponse → ChannelWorld τ → Prop}
    (h : (writeCommand (request.command value)).After (fun r => Q (match r with
      | .ok _ => .ok (.redirect channel.deviceId none)
      | .error e => caught channel e)) w) : (writeChannel request).After Q w := by
  unfold writeChannel
  rw [Action.after_bind, Action.after_get, Action.then_ok, hchannel]
  dsimp only
  rw [htext]
  dsimp only
  rw [Action.after_tryCatch, Action.after_bind]
  apply h.mono
  intro r w' hQ
  cases r with
  | ok u => exact hQ
  | error e => cases e <;> exact hQ

/-- An exception of `encode` leaves everything as it was. -/
theorem writeChannel_unencoded (hv : w.db.Valid)
    (hchannel : Channels.getById w.db request.channelId = some channel)
    (htype : channel.type = .controller) (htext : PyText.float request.raw = some value) {e : Err}
    (hencode : Parser.encode value channel.dataFormat = .error e) :
    (writeChannel request).After (fun r w' => w' = w ∧ r = caught channel e) w := by
  obtain ⟨device, htarget⟩ := encodeCommand_controller hv hchannel htype value
  rw [hencode] at htarget
  have hrefused : (writeCommand (request.command value)).After
      (fun r w' => r = .error e ∧ w' = w) w := writeCommand_refused htarget
  apply after_writeChannel hchannel htext
  apply hrefused.mono
  rintro r w' ⟨rfl, rfl⟩
  exact ⟨rfl, rfl⟩

/-- What is encoded is sent, and stored unless it is NaN. -/
theorem writeChannel_encoded (hv : w.db.Valid)
    (hchannel : Channels.getById w.db request.channelId = some channel)
    (htype : channel.type = .controller) (hraised : request.raised = none)
    (htext : PyText.float request.raw = some value) {data : Bytes}
    (hencode : Parser.encode value channel.dataFormat = .ok data) :
    (writeChannel request).After (fun r _ => r = if value = .nan then .error .integrityError
      else .ok (.redirect channel.deviceId none)) w := by
  obtain ⟨device, htarget⟩ := encodeCommand_controller hv hchannel htype value
  rw [hencode] at htarget
  apply after_writeChannel hchannel htext
  refine writeCommand_written htarget hraised ?_
  rw [after_store]
  dsimp only [WriteRequest.command]
  by_cases hnan : value = .nan
  · have hinsert : Readings.insert w.db request.channelId value request.recordedAt =
        .error .integrityError := if_pos hnan
    rw [hinsert, if_pos hnan]
    rfl
  · obtain ⟨db, hinsert⟩ := Readings.exists_insert hchannel hnan request.recordedAt
    rw [hinsert, if_neg hnan]

/-- Of the exceptions of `encode` those for finite numbers in an integer format are caught. -/
theorem caught_redirects_iff {fmt : String} {e : Err}
    (hencode : Parser.encode value fmt = .error e) :
    (∃ flash, caught channel e = .ok (.redirect channel.deviceId flash)) ↔
      ∃ spec, Parser.lookup fmt = some spec ∧ (spec.code ≠ .float → value.isFinite = true) ∧
        (spec.code = .float → value ≠ .nan ∧ spec.Represents value) := by
  rcases Parser.encode_error hencode with ⟨rfl, spec, hspec, hint, hfinite⟩ | ⟨hother, hnot⟩
  · exact ⟨fun _ => ⟨spec, hspec, fun _ => hfinite, fun hcode => absurd hcode hint⟩,
      fun _ => ⟨_, rfl⟩⟩
  · constructor
    · rintro ⟨flash, hflash⟩
      simp only [List.mem_cons, List.not_mem_nil, or_false] at hother
      rcases hother with rfl | rfl | rfl <;> cases hflash
    · rintro ⟨spec, hspec, hint, hfloat⟩
      obtain ⟨hrep, hfinite⟩ := hnot spec hspec
      by_cases hcode : spec.code = .float
      · exact absurd (hfloat hcode).2 (hrep hcode)
      · rw [hfinite hcode] at hint
        exact absurd (hint hcode) Bool.false_ne_true

/-- Of what is encoded only NaN cannot be stored. -/
theorem ne_nan_iff_of_encode {fmt : String} {data : Bytes}
    (hencode : Parser.encode value fmt = .ok data) :
    value ≠ .nan ↔
      ∃ spec, Parser.lookup fmt = some spec ∧ (spec.code ≠ .float → value.isFinite = true) ∧
        (spec.code = .float → value ≠ .nan ∧ spec.Represents value) := by
  constructor
  · intro hnan
    obtain ⟨spec, hspec, hrep⟩ := Parser.represents_of_encode hencode
    have hfinite : spec.code ≠ .float → value.isFinite = true := by
      intro hint
      obtain ⟨q, hq, -⟩ := Parser.decode_encode hspec hint hencode
      cases value with
      | nan | inf => cases hq
      | negZero | finite => rfl
    exact ⟨spec, hspec, hfinite, fun _ => ⟨hnan, hrep⟩⟩
  · rintro ⟨spec, -, hint, hfloat⟩ rfl
    by_cases hcode : spec.code = .float
    · exact (hfloat hcode).1 rfl
    · cases hint hcode

/-- With a write that succeeds, a request is answered unless its number is not finite and the
format an integer one, or it is NaN, or too large for a binary32. -/
theorem writeChannel_answered (hv : w.db.Valid)
    (hchannel : Channels.getById w.db request.channelId = some channel)
    (htype : channel.type = .controller) (hraised : request.raised = none) :
    (writeChannel request).After (Answered channel request w) w ↔
      ∀ value, PyText.float request.raw = some value →
        ∃ spec, Parser.lookup channel.dataFormat = some spec ∧
          (spec.code ≠ .float → value.isFinite = true) ∧
            (spec.code = .float → value ≠ .nan ∧ spec.Represents value) := by
  cases htext : PyText.float request.raw with
  | none =>
    have hanswered : (writeChannel request).After (Answered channel request w) w := by
      apply (writeChannel_text hchannel htext).mono
      rintro r w' ⟨rfl, rfl⟩
      exact ⟨⟨_, rfl⟩, fun _ => ⟨rfl, rfl⟩⟩
    simp [hanswered]
  | some value =>
    simp only [Option.some.injEq, forall_eq']
    cases hencode : Parser.encode value channel.dataFormat with
    | error e =>
      have houtcome : _ ∧ _ := writeChannel_unencoded hv hchannel htype htext hencode
      have hends : Answered channel request w (caught channel e) w ↔
          ∃ flash, caught channel e = .ok (.redirect channel.deviceId flash) :=
        ⟨fun h => h.1, fun h => ⟨h, fun _ => ⟨rfl, rfl⟩⟩⟩
      change Answered _ _ _ _ _ ↔ _
      rw [houtcome.1, houtcome.2, hends]
      exact caught_redirects_iff hencode
    | ok data =>
      have houtcome : _ = _ := writeChannel_encoded hv hchannel htype hraised htext hencode
      obtain ⟨spec, hspec, hrep⟩ := Parser.represents_of_encode hencode
      have hencodable : ¬Unencodable channel request := fun h => h value spec htext hspec hrep
      rw [← ne_nan_iff_of_encode hencode]
      change Answered _ _ _ _ _ ↔ _
      rw [houtcome]
      by_cases hnan : value = .nan
      · rw [if_pos hnan]
        apply iff_of_false
        · rintro ⟨⟨flash, hflash⟩, -⟩
          cases hflash
        · exact not_not.mpr hnan
      · rw [if_neg hnan]
        exact iff_of_true ⟨⟨none, rfl⟩, fun h => absurd h hencodable⟩ hnan

/-- `encode` fails as it declares but for what is not finite in an integer format and what is too
large for a binary32. The form answers but for these, for a NaN that is sent as a binary32 and then
not stored, and for a format that is not in the table. -/
theorem encode_fails_as_declared (fmt : String) (value : PyFloat) :
    (Parser.EncodesAsDeclared fmt value ↔ ∀ spec, Parser.lookup fmt = some spec →
        (spec.code ≠ .float → value.isFinite = true) ∧
          (spec.code = .float → spec.Represents value)) ∧
      ∀ (w : ChannelWorld τ) request channel, w.db.Valid →
        Channels.getById w.db request.channelId = some channel → channel.type = .controller →
        request.raised = none →
          ((writeChannel request).After (Answered channel request w) w ↔
            ∀ value, PyText.float request.raw = some value →
              ∃ spec, Parser.lookup channel.dataFormat = some spec ∧
                (spec.code ≠ .float → value.isFinite = true) ∧
                  (spec.code = .float → value ≠ .nan ∧ spec.Represents value)) :=
  ⟨Parser.encodesAsDeclared_iff fmt value, fun _ _ _ hv hchannel htype hraised =>
    writeChannel_answered hv hchannel htype hraised⟩

/-- What is too large for the valve is flashed, and not sent. -/
theorem encode_fails_as_declared_valve :
    let request : WriteRequest := { channelId := 1, value := some "256", recordedAt := 5 }
    Parser.EncodesAsDeclared "uint8" (.finite 256) ∧
      (writeChannel request).After (Answered valve request valveWorld) valveWorld := by
  intro request
  have hspec : Parser.lookup "uint8" = some ⟨.little, .int false, 1⟩ := rfl
  obtain ⟨hdeclared, hanswered⟩ := encode_fails_as_declared (τ := ℤ) "uint8" (.finite 256)
  constructor
  · apply hdeclared.mpr
    intro spec hspec'
    rw [hspec] at hspec'
    cases hspec'
    exact ⟨fun _ => rfl, fun hcode => nomatch hcode⟩
  · apply (hanswered valveWorld request valve valveWorld_valid rfl rfl rfl).mpr
    intro value htext
    have hnumber : PyText.float request.raw = some (.finite 256) := by decide +kernel
    rw [hnumber] at htext
    cases htext
    exact ⟨_, hspec, fun _ => rfl, fun hcode => nomatch hcode⟩

/-- An infinity for the valve raises what nothing catches. -/
theorem infinity_not_translated :
    (¬∀ fmt value, Parser.EncodesAsDeclared fmt value) ∧
      ¬∀ (w : ChannelWorld ℤ) request channel, w.db.Valid →
        Channels.getById w.db request.channelId = some channel → channel.type = .controller →
        request.raised = none → (writeChannel request).After (Answered channel request w) w := by
  constructor
  · intro hall
    have hinf := hall "uint8" (.inf false)
    have hraises : Parser.encode (.inf false) "uint8" = .error .overflowError := by decide +kernel
    unfold Parser.EncodesAsDeclared at hinf
    rw [hraises] at hinf
    rcases hinf with ⟨-, data, hok, -⟩ | ⟨-, hcannot⟩
    · cases hok
    · cases hcannot
  · intro hall
    have hinf : _ ∧ _ := hall valveWorld { channelId := 1, value := some "inf", recordedAt := 5 }
      valve valveWorld_valid rfl rfl rfl
    obtain ⟨⟨flash, hflash⟩, -⟩ := hinf
    have hraises : ((writeChannel { channelId := 1, value := some "inf", recordedAt := 5 }).exec
        valveWorld).1 = .error .overflowError := by
      decide +kernel
    rw [hraises] at hflash
    cases hflash

end Web
end HomeServer.Services
