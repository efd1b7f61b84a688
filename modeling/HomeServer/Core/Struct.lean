import HomeServer.Core.Errors

/-! The part of Python's `struct` that the channel formats use: fixed-width two's-complement
integers and IEEE binary32, in either byte order. -/
namespace HomeServer.Struct

inductive ByteOrder
  | little
  | big
  deriving DecidableEq

/-- A format character: `B H I` unsigned, `b h i` signed, `f` a float. -/
inductive Code
  | int (signed : Bool)
  | float
  deriving DecidableEq

def toNat (order : ByteOrder) (data : Bytes) : ℕ :=
  let bytes := match order with
    | .little => data
    | .big => data.reverse
  bytes.foldr (fun b n => b.toNat + 256 * n) 0

/-- The lowest `size` bytes of a natural number. -/
def ofNat (order : ByteOrder) (size n : ℕ) : Bytes :=
  let bytes := (List.range size).map fun k => UInt8.ofNat (n / 256 ^ k)
  match order with
  | .little => bytes
  | .big => bytes.reverse

/-- The first value that `size` bytes cannot hold, and the first one below zero. -/
def bounds (signed : Bool) (size : ℕ) : ℤ × ℤ :=
  if signed then (-(256 ^ size / 2), 256 ^ size / 2) else (0, 256 ^ size)

def unpackInt (order : ByteOrder) (signed : Bool) (size : ℕ) (data : Bytes) : ℤ :=
  let n : ℤ := toNat order data
  if n < (bounds signed size).2 then n else n - 256 ^ size

/-- `none` is `struct.error`: the argument is out of range. -/
def packInt (order : ByteOrder) (signed : Bool) (size : ℕ) (n : ℤ) : Option Bytes :=
  let (low, high) := bounds signed size
  if low ≤ n ∧ n < high then some (ofNat order size (n % 256 ^ size).toNat) else none

/-- The value of a binary32 bit pattern. -/
def unpackFloat (bits : ℕ) : PyFloat :=
  let negative := decide (bits / 2 ^ 31 % 2 = 1)
  let exponent : ℕ := bits / 2 ^ 23 % 256
  let fraction : ℕ := bits % 2 ^ 23
  let scaled : ℚ := if exponent = 0 then (fraction : ℚ) / 2 ^ 149
    else ((2 ^ 23 + fraction : ℕ) : ℚ) * 2 ^ exponent / 2 ^ 150
  if exponent = 255 then if fraction = 0 then .inf negative else .nan
  else if negative then if scaled = 0 then .negZero else .finite (-scaled)
  else .finite scaled

/-- Ties go to the even neighbour. -/
def roundHalfEven (q : ℚ) : ℤ :=
  if q - ⌊q⌋ < 1 / 2 then ⌊q⌋
  else if 1 / 2 < q - ⌊q⌋ then ⌊q⌋ + 1
  else if ⌊q⌋ % 2 = 0 then ⌊q⌋ else ⌊q⌋ + 1

def floorLog2 (q : ℚ) : ℤ :=
  let e : ℤ := (q.num.natAbs.log2 : ℤ) - q.den.log2
  if (2 : ℚ) ^ e ≤ q then e else e - 1

/-- The bit pattern nearest to a positive rational, without a sign. A carry out of the
significand moves into the exponent; a result from `255 * 2 ^ 23` on has overflowed. -/
def nearestBits (q : ℚ) : ℕ :=
  let exponent := max (floorLog2 q) (-126)
  let significand := roundHalfEven (q / (2 : ℚ) ^ (exponent - 23))
  ((exponent + 126) * 2 ^ 23 + significand).toNat

/-- `none` is `OverflowError`: the magnitude is too large for a binary32. -/
def packFloat : PyFloat → Option ℕ
  | .nan => some 0x7fc00000
  | .inf negative => some (if negative then 0xff800000 else 0x7f800000)
  | .negZero => some 0x80000000
  | .finite q =>
    if q = 0 then some 0
    else
      let bits := nearestBits |q|
      if bits < 255 * 2 ^ 23 then some (if q < 0 then 2 ^ 31 + bits else bits) else none

end HomeServer.Struct
