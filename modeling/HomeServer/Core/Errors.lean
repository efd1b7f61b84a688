import HomeServer.Core.PyFloat

/-! The exceptions of the modelled code. Each carries the data its message is formatted from. -/
namespace HomeServer

abbrev Address := String
abbrev Uuid := String
abbrev Bytes := List UInt8

inductive Err
  -- ble.parser
  | unknownFormat (fmt : String)
  | shortData (size : ℕ) (fmt : String) (data : Bytes)
  | cannotEncode (value : PyFloat) (fmt : String)
  -- raised by Python itself
  | overflowError
  | valueError
  | typeError
  | assertionError
  | attributeError
  | timeoutError
  -- sqlite3
  | integrityError
  | operationalError
  -- db and services
  | duplicateAddress (address : Address)
  | deviceNotFound (deviceId : ℕ)
  | invalidAddress (address : Address)
  | duplicateChannelName (name : String) (deviceId : ℕ)
  | duplicateChannelUuid (charUuid : Uuid) (deviceId : ℕ)
  | channelNotFound (channelId : ℕ)
  | wrongChannelType (channelId : ℕ)
  | unknownWindow (window : String)
  -- ble
  | notConnected (address : Address)
  | peripheralDisconnected
  | characteristicNotFound (charUuid : Uuid) (address : Address)
  | unknownOp (op : String)
  | btleException
  | btleDisconnectError
  | callbackError
  deriving DecidableEq

end HomeServer
