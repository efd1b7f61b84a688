import HomeServer.Ble.Codec
import HomeServer.Db.Latest
import HomeServer.Services.Throttle

/-! `write_command`: what the device is sent against what is stored. -/
namespace HomeServer.PyFloat

theorem truncate_eq_iff (q : ℚ) : (truncate q : ℚ) = q ↔ q.den = 1 := by
  constructor
  · intro h
    rw [← h]
    exact Rat.den_intCast _
  · intro h
    have hq : (q.num : ℚ) = q := Rat.den_eq_one_iff q |>.mp h
    unfold truncate
    rw [← hq]
    split
    · rw [Int.floor_intCast]
    · rw [Int.ceil_intCast]

/-- Truncation moves a number across 0.5 only from the band below 1. -/
theorem half_le_truncate {q : ℚ} (h : ¬(1 / 2 ≤ q ∧ q < 1)) :
    (1 / 2 : ℚ) ≤ truncate q ↔ 1 / 2 ≤ q := by
  have hwhole : (1 / 2 : ℚ) ≤ truncate q ↔ 1 ≤ truncate q := by
    constructor
    · intro hhalf
      by_contra hlt
      have hle : truncate q ≤ 0 := by omega
      have hcast : (truncate q : ℚ) ≤ 0 := by exact_mod_cast hle
      linarith
    · intro hone
      have hcast : (1 : ℚ) ≤ truncate q := by exact_mod_cast hone
      linarith
  rw [hwhole]
  unfold truncate
  split
  · rw [Int.le_floor, Int.cast_one]
    constructor
    · intro hone
      linarith
    · intro hhalf
      by_contra hlt
      exact h ⟨hhalf, by linarith⟩
  · rename_i hneg
    constructor
    · intro hone
      have hceil : ⌈q⌉ ≤ 0 := Int.ceil_le.mpr (by push_cast; linarith)
      omega
    · intro hhalf
      linarith

end HomeServer.PyFloat

namespace HomeServer.Services.ChannelService
open HomeServer.Db HomeServer.Ble HomeServer.Lib
variable {τ : Type} {cmd : Command} {w w' : ChannelWorld τ}

theorem writeCommand_refused {e : Err}
    (h : encodeCommand w.db cmd.channelId cmd.rawValue = .error e) :
    (writeCommand cmd).After (fun r w' => r = .error e ∧ w' = w) w := by
  unfold writeCommand
  rw [Action.after_bind, Action.after_get, Action.then_ok, h]
  exact ⟨rfl, rfl⟩

theorem writeCommand_raised {target : Address × Uuid × Bytes} {e : Err}
    (h : encodeCommand w.db cmd.channelId cmd.rawValue = .ok target)
    (hraised : cmd.raised = some e) :
    (writeCommand cmd).After (fun r w' => r = .error e ∧ w' = w) w := by
  unfold writeCommand
  rw [Action.after_bind, Action.after_get, Action.then_ok, h, hraised]
  exact ⟨rfl, rfl⟩

theorem writeCommand_written {target : Address × Uuid × Bytes}
    (h : encodeCommand w.db cmd.channelId cmd.rawValue = .ok target) (hraised : cmd.raised = none)
    {Q : Except Err Unit → ChannelWorld τ → Prop}
    (hstore : (store cmd.channelId cmd.rawValue cmd.recordedAt).After Q
      { w with written := w.written ++ [target] }) : (writeCommand cmd).After Q w := by
  unfold writeCommand
  rw [Action.after_bind, Action.after_get, Action.then_ok, h, hraised]
  exact hstore

/-- A target is found for a controller whose format takes the value, with the row of its device. -/
theorem encodeCommand_ok {db : Database} {i : ℕ} {v : PyFloat} {target : Address × Uuid × Bytes}
    (h : encodeCommand db i v = .ok target) :
    ∃ channel device data, Channels.getById db i = some channel ∧ channel.type = .controller ∧
      Parser.encode v channel.dataFormat = .ok data ∧
      Devices.getById db channel.deviceId = some device ∧
      target = (device.address, channel.charUuid, data) := by
  unfold encodeCommand at h
  split at h
  · cases h
  rename_i channel hchannel
  split_ifs at h with htype
  split at h
  · cases h
  rename_i data hdata
  split at h
  · cases h
  rename_i device hdevice
  cases h
  exact ⟨channel, device, data, hchannel, htype, hdata, hdevice, rfl⟩

/-- For a controller the target is found as soon as its format takes the value. -/
theorem encodeCommand_controller {db : Database} (hv : db.Valid) {i : ℕ} {channel : Channel}
    (hchannel : Channels.getById db i = some channel) (htype : channel.type = .controller)
    (v : PyFloat) :
    ∃ device : Device, encodeCommand db i v = (Parser.encode v channel.dataFormat).map fun data =>
      (device.address, channel.charUuid, data) := by
  obtain ⟨d, hd, hid⟩ := hv.channelDevice channel (Channels.mem_of_getById hchannel).1
  obtain ⟨device, hdevice⟩ : ∃ device, Devices.getById db channel.deviceId = some device := by
    cases hget : Devices.getById db channel.deviceId with
    | none => exact absurd (List.find?_eq_none.mp hget d hd) (by simpa using hid)
    | some device => exact ⟨device, rfl⟩
  refine ⟨device, ?_⟩
  unfold encodeCommand
  rw [hchannel]
  dsimp only
  rw [if_pos htype]
  cases Parser.encode v channel.dataFormat with
  | error e => rfl
  | ok data =>
    dsimp only
    rw [hdevice]
    rfl

/-- A call that returns has sent the encoded value and stored the value itself. -/
theorem writeCommand_ok (h : (writeCommand cmd).exec w = (.ok (), w')) :
    ∃ target, encodeCommand w.db cmd.channelId cmd.rawValue = .ok target ∧
      w'.written = w.written ++ [target] ∧
      Readings.insert w.db cmd.channelId cmd.rawValue cmd.recordedAt = .ok w'.db := by
  have hgoal : (writeCommand cmd).After (fun r w' => r = .ok () →
      ∃ target, encodeCommand w.db cmd.channelId cmd.rawValue = .ok target ∧
        w'.written = w.written ++ [target] ∧
        Readings.insert w.db cmd.channelId cmd.rawValue cmd.recordedAt = .ok w'.db) w := by
    cases htarget : encodeCommand w.db cmd.channelId cmd.rawValue with
    | error e =>
      apply (writeCommand_refused htarget).mono
      rintro r w' ⟨hr, -⟩ hok
      rw [hr] at hok
      cases hok
    | ok target =>
      cases hraised : cmd.raised with
      | some e =>
        apply (writeCommand_raised htarget hraised).mono
        rintro r w' ⟨hr, -⟩ hok
        rw [hr] at hok
        cases hok
      | none =>
        apply writeCommand_written htarget hraised
        rw [after_store]
        dsimp only
        cases hinsert : Readings.insert w.db cmd.channelId cmd.rawValue cmd.recordedAt with
        | error e =>
          intro hok
          cases hok
        | ok db => exact fun _ => ⟨target, rfl, rfl, rfl⟩
  unfold Action.After at hgoal
  rw [h] at hgoal
  exact hgoal rfl

/-- The commanded value is stored as it is and sent truncated toward zero. Over a clock that was not
set back a 0/1 controller is then reported on exactly when the device was sent at least 0.5, but for
a value from 0.5 on and below 1. -/
theorem stored_and_sent (hv : w.db.Valid) {channel : Channel}
    (hchannel : Channels.getById w.db cmd.channelId = some channel) {spec : Parser.Format}
    (hspec : Parser.lookup channel.dataFormat = some spec) (hint : spec.code ≠ .float)
    (h : (writeCommand cmd).exec w = (.ok (), w')) :
    ∃ q address data, let sent := PyFloat.ofInt (PyFloat.truncate q)
      cmd.rawValue.toRat? = some q ∧
      w'.written = w.written ++ [(address, channel.charUuid, data)] ∧
      w'.db.readings = w.db.readings ++
        [⟨w.db.nextReading, channel.id, cmd.rawValue, cmd.recordedAt⟩] ∧
      Parser.decode data channel.dataFormat = .ok sent ∧
      (cmd.rawValue.toRat? = sent.toRat? ↔ q.den = 1) ∧
      (channel.unit = some "0/1" →
        (∀ r ∈ Readings.ofChannel w.db channel.id, r.recordedAt ≤ cmd.recordedAt) →
        ¬(1 / 2 ≤ q ∧ q < 1) →
          controlStates w'.db [channel] = [(channel.id, sent.atLeast flagOnThreshold)]) := by
  obtain ⟨target, htarget, hwritten, hinsert⟩ := writeCommand_ok h
  obtain ⟨channel', device, data, hchannel', htype, hdata, -, rfl⟩ := encodeCommand_ok htarget
  rw [hchannel] at hchannel'
  cases hchannel'
  have hid : channel.id = cmd.channelId := (Channels.mem_of_getById hchannel).2
  rw [← hid] at hinsert
  obtain ⟨q, hq, hdecode⟩ := Parser.decode_encode hspec hint hdata
  have hreadings : w'.db.readings = w.db.readings ++
      [⟨w.db.nextReading, channel.id, cmd.rawValue, cmd.recordedAt⟩] := by
    rw [(Readings.insert_ok hinsert).2]
  have hsame : cmd.rawValue.toRat? = (PyFloat.ofInt (PyFloat.truncate q)).toRat? ↔ q.den = 1 := by
    rw [hq, ← PyFloat.truncate_eq_iff, eq_comm]
    exact Option.some_inj
  refine ⟨q, device.address, data, hq, hwritten, hreadings, hdecode, hsame, ?_⟩
  intro hunit hclock hband
  have hlatest := Readings.latestByChannel_insert hv hinsert hclock
  have hon : cmd.rawValue.atLeast flagOnThreshold =
      (PyFloat.ofInt (PyFloat.truncate q)).atLeast flagOnThreshold := by
    have hhalf := PyFloat.half_le_truncate hband
    cases hraw : cmd.rawValue with
    | nan | inf =>
      rw [hraw] at hq
      cases hq
    | negZero =>
      rw [hraw] at hq
      cases hq
      decide +kernel
    | finite r =>
      rw [hraw] at hq
      cases hq
      exact (decide_eq_decide.mpr hhalf).symm
  unfold controlStates controlState
  simp [htype, hunit, hlatest, hon]

def valve : Channel := ⟨1, 1, "valve", .controller, "2a59", "uint8", some "0/1"⟩

def valveWorld : ChannelWorld ℤ where
  db :=
    { devices := [⟨1, "A4:C1:38:00:00:05", .publicAddr, "tank", none, 1, none⟩]
      channels := [valve]
      nextDevice := 2
      nextChannel := 2 }
  limiter := { minIntervalS := 1 }

theorem valveWorld_valid : valveWorld.db.Valid := by
  constructor <;> decide

/-- A command of 1.7 is sent as 1, and on. -/
theorem stored_and_sent_valve :
    let cmd : Command := { channelId := 1, rawValue := .finite (17 / 10), recordedAt := 5 }
    let out := (writeCommand cmd).exec valveWorld
    controlStates out.2.db [valve] = [(1, true)] ∧ ∃ data,
      out.2.written = [("A4:C1:38:00:00:05", "2a59", data)] ∧
      Parser.decode data "uint8" = .ok (.ofInt 1) := by
  intro cmd out
  have hout : out = (.ok (), out.2) := Prod.ext (by decide +kernel) rfl
  have hvalve : Channels.getById valveWorld.db 1 = some valve := rfl
  obtain ⟨q, address, data, hq, hwritten, -, hdecode, -, hcontrol⟩ :=
    stored_and_sent valveWorld_valid hvalve rfl (by decide) hout
  cases hq
  have htruncate : PyFloat.truncate (17 / 10) = 1 := by decide +kernel
  have hstates := hcontrol rfl (fun _ hr => nomatch hr) (by decide +kernel)
  have hon : (PyFloat.ofInt 1).atLeast flagOnThreshold = true := by decide +kernel
  rw [htruncate] at hdecode hstates
  rw [hon] at hstates
  have haddress : out.2.written.map Prod.fst = ["A4:C1:38:00:00:05"] := by decide +kernel
  rw [hwritten] at haddress
  cases haddress
  exact ⟨hstates, data, hwritten, hdecode⟩

/-- A command of 0.7 is stored as 0.7 and sent as 0, the switch reported on; and with a database
clock that was set back, a command of 0 is not the latest. -/
theorem stored_not_sent :
    let out := (writeCommand { channelId := 1, rawValue := .finite (7 / 10), recordedAt := 5 }).exec
      valveWorld
    let before := (writeCommand { channelId := 1, rawValue := .finite 1, recordedAt := 9 }).exec
      valveWorld
    let late := (writeCommand { channelId := 1, rawValue := .finite 0, recordedAt := 5 }).exec
      before.2
    (out.1 = .ok () ∧ out.2.db.readings.map Reading.value = [.finite (7 / 10)] ∧
        out.2.written.map (fun t => Parser.decode t.2.2 "uint8") = [.ok (.finite 0)] ∧
        controlStates out.2.db [valve] = [(1, true)]) ∧
      late.1 = .ok () ∧
      late.2.written.map (fun t => Parser.decode t.2.2 "uint8") =
        [.ok (.finite 1), .ok (.finite 0)] ∧
      controlStates late.2.db [valve] = [(1, true)] := by
  decide +kernel

end HomeServer.Services.ChannelService
