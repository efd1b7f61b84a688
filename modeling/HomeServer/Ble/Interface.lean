import HomeServer.Core.PyText
import HomeServer.Db.Tables

/-! The `BLEManager` protocol: what the services may ask of a Bluetooth backend. A backend is
any transition function per operation, over a state of its own. -/
namespace HomeServer.Ble
open HomeServer.Db

structure DiscoveredDevice where
  address : Address
  name : Option String
  rssi : ℤ
  addrType : AddrType := .publicAddr
  deriving DecidableEq

/-- An operation of something outside the services: it may raise and it changes `β`. -/
abbrev Call (β α : Type) := β → Except Err α × β

/-- A notify callback is the channel id that `subscribe_channel` captured in it. -/
structure BLEManager (β : Type) where
  startScan : ℚ → Call β (List DiscoveredDevice)
  connect : Address → AddrType → Call β Unit
  ensureConnecting : Address → AddrType → Call β Unit
  disconnect : Address → Call β Unit
  isConnected : Address → β → Bool × β
  read : Address → Uuid → Call β Bytes
  write : Address → Uuid → Bytes → Call β Unit
  subscribe : Address → Uuid → ℕ → Call β Unit
  unsubscribe : Address → Uuid → Call β Unit

/-- One of `[0-9A-Fa-f]`. -/
def hexDigit (c : Char) : Option ℕ :=
  if '0' ≤ c ∧ c ≤ '9' then some (c.toNat - '0'.toNat)
  else if 'a' ≤ c ∧ c ≤ 'f' then some (c.toNat - 'a'.toNat + 10)
  else if 'A' ≤ c ∧ c ≤ 'F' then some (c.toNat - 'A'.toNat + 10)
  else none

/-- `_MAC_RE`: six octets joined by colons; `$` also matches before a final newline. -/
def matchesMac (address : Address) : Bool :=
  octets 5 address.toList
where
  octets : ℕ → List Char → Bool
    | 0, a :: b :: rest => (hexDigit a).isSome && (hexDigit b).isSome &&
        (rest.isEmpty || rest == ['\n'])
    | n + 1, a :: b :: ':' :: rest => (hexDigit a).isSome && (hexDigit b).isSome && octets n rest
    | _, _ => false

/-- `int(text, 16)`: white space around it, a sign, a `0x` and single underscores between digits
are allowed, and the decimal digits may be those of any script. -/
def intBase16 (text : List Char) : Option ℤ :=
  match Lib.Trimming.trim PyText.isNumberSpace text with
  | '-' :: cs => (unsigned cs).map fun n => -(n : ℤ)
  | '+' :: cs => (unsigned cs).map Int.ofNat
  | cs => (unsigned cs).map Int.ofNat
where
  digit (c : Char) : Option ℕ := (hexDigit c).or (PyText.digit c)
  unsigned : List Char → Option ℕ
    | zero :: x :: cs =>
      if digit zero = some 0 ∧ (x = 'x' ∨ x = 'X') then
        match cs with
        | '_' :: cs => digits 0 false cs
        | cs => digits 0 false cs
      else digits 0 false (zero :: x :: cs)
    | cs => digits 0 false cs
  digits (value : ℕ) (afterDigit : Bool) : List Char → Option ℕ
    | [] => if afterDigit then some value else none
    | '_' :: cs => if afterDigit then digits value false cs else none
    | c :: cs => (digit c).bind fun d => digits (value * 16 + d) true cs

/-- The two top bits of the first octet decide. -/
def inferAddrType (address : Address) : Except Err AddrType :=
  match intBase16 (address.toList.takeWhile (· ≠ ':')) with
  | some msb => .ok (if msb / 64 = 3 then .randomAddr else .publicAddr)
  | none => .error .valueError

example : inferAddrType "C0:11:22:33:44:55" = .ok .randomAddr := by decide +kernel

example : inferAddrType "\u2003\uff10x_c0\x0b:old" = .ok .randomAddr := by decide +kernel

end HomeServer.Ble
