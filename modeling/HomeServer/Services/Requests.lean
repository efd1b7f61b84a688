import HomeServer.Ble.Parser
import HomeServer.Core.PyText
import HomeServer.Services.BleRuntime

/-! The requests that change the tables: devices and channels are added and removed by the
services, and the runtime is told of it. -/
namespace HomeServer.Services
open HomeServer.Db HomeServer.Ble HomeServer.Lib

namespace DeviceService
variable {β : Type} (E : Env β)

/-- A tampered `addr_type` reads as none given. -/
def resolveAddrType (address : Address) : Option AddrType → Except Err AddrType
  | some addrType => .ok addrType
  | none => inferAddrType address

def addDevice (ownerUserId : ℕ) (address : Address) (name : String)
    (addrType : Option AddrType) : Runtime β Device := do
  if matchesMac address then
    match resolveAddrType address addrType with
    | .error e => throw e
    | .ok resolved =>
      let deviceId ← execute E fun db => Devices.create db address name ownerUserId resolved
      ignoringErrors (call (E.ble.connect address resolved))
      match ← query E fun db => Devices.getById db deviceId with
      | some device => pure device
      | none => throw .assertionError
  else throw (.invalidAddress address)

def removeDevice (deviceId : ℕ) : Runtime β Unit := do
  match ← query E fun db => Devices.getById db deviceId with
  | none => throw (.deviceNotFound deviceId)
  | some device =>
    (if ← isConnected E device.address then call (E.ble.disconnect device.address) else pure ())
    execute E fun db => (Devices.delete db deviceId).map fun db => ((), db)

/-- `label.strip() or None`. -/
def normalizedLabel (label : String) : Option String :=
  match PyText.strip label.toList with
  | [] => none
  | text => some (String.ofList text)

def setLabel (deviceId : ℕ) (label : String) : Runtime β Unit := do
  match ← query E fun db => Devices.getById db deviceId with
  | none => throw (.deviceNotFound deviceId)
  | some _ =>
    execute E fun db =>
      (Devices.setLabel db deviceId (normalizedLabel label)).map fun db => ((), db)

end DeviceService

/-- An entry of the catalogue that the form offers. -/
structure ChannelPreset where
  label : String
  charUuid : Uuid
  type : ChannelType
  dataFormat : String
  unit : Option String
  deriving DecidableEq

namespace ChannelService
variable {β : Type} (E : Env β)

def addChannel (deviceId : ℕ) (name : String) (type : ChannelType) (charUuid : Uuid)
    (dataFormat : String) (unit : Option String) : Runtime β Channel := do
  if dataFormat ∈ Parser.supportedFormats then
    let existing ← query E fun db => Channels.listByDevice db deviceId
    if existing.any fun c => c.charUuid = charUuid then
      throw (.duplicateChannelUuid charUuid deviceId)
    else
      let channelId ← execute E fun db =>
        Channels.create db deviceId name type charUuid dataFormat unit
      match ← query E fun db => Channels.getById db channelId with
      | some channel => pure channel
      | none => throw .assertionError
  else throw (.unknownFormat dataFormat)

end ChannelService

/-- How a request ends when nothing is raised. -/
inductive Response
  | notFound
  | page
  | redirect (deviceId : ℕ)
  deriving DecidableEq

namespace Web
variable {β : Type} (E : Env β)

/-- `DataRequired`, which strips as `str.strip` does. -/
def filled (data : String) : Bool := PyText.strip data.toList ≠ []

/-- `DataRequired` on both fields, and the choices of the select field. -/
def validForm (presets : List ChannelPreset) (name preset : String) : Bool :=
  filled name && filled preset && presets.any fun p => p.charUuid = preset

example : validForm [⟨"temperature", "2a6e", .display, "int16_le", none⟩] "\u3000" "2a6e" =
    false := by decide

/-- The two duplicate errors are flashed; the page is then shown again. -/
def addChannel (presets : List ChannelPreset) (deviceId : ℕ) (name preset : String) :
    Runtime β Response := do
  match ← query E fun db => Devices.getById db deviceId with
  | none => pure .notFound
  | some device =>
    if validForm presets name preset then
      match presets.find? fun p => p.charUuid = preset with
      | none => pure .page
      | some p =>
        let added ← tryCatch
          (do return some (← ChannelService.addChannel E deviceId name p.type p.charUuid
                p.dataFormat p.unit))
          fun e => match e with
            | .duplicateChannelName _ _ | .duplicateChannelUuid _ _ => pure none
            | e => throw e
        match added with
        | none => pure .page
        | some channel =>
          BleRuntime.onChannelAdded E device channel
          pure (.redirect deviceId)
    else pure .page

def deleteChannel (channelId : ℕ) : Runtime β Response := do
  match ← query E fun db => Channels.getById db channelId with
  | none => pure .notFound
  | some channel =>
    match ← query E fun db => Devices.getById db channel.deviceId with
    | none => pure .notFound
    | some device =>
      execute E fun db => (Channels.delete db channelId).map fun db => ((), db)
      BleRuntime.onChannelRemoved E device channel
      pure (.redirect channel.deviceId)

end Web
end HomeServer.Services
