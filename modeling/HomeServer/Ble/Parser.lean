import HomeServer.Core.Struct

/-! Raw GATT bytes and the numbers they stand for, by the channel's `data_format`. -/
namespace HomeServer.Ble.Parser
open HomeServer.Struct

structure Format where
  order : ByteOrder
  code : Code
  size : ℕ
  deriving DecidableEq

/-- `_FORMATS`, in the order of the source. The integer formats are those whose name starts
with `uint` or `int`. -/
def formats : List (String × Format) :=
  [("uint8", ⟨.little, .int false, 1⟩),
    ("int8", ⟨.little, .int true, 1⟩),
    ("uint16_le", ⟨.little, .int false, 2⟩),
    ("uint16_be", ⟨.big, .int false, 2⟩),
    ("int16_le", ⟨.little, .int true, 2⟩),
    ("int16_be", ⟨.big, .int true, 2⟩),
    ("uint32_le", ⟨.little, .int false, 4⟩),
    ("int32_le", ⟨.little, .int true, 4⟩),
    ("float32_le", ⟨.little, .float, 4⟩),
    ("float32_be", ⟨.big, .float, 4⟩)]

def lookup (fmt : String) : Option Format := formats.lookup fmt

def supportedFormats : List String := formats.map Prod.fst

/-- `struct.unpack` of exactly `size` bytes, then `float(value)`. -/
def Format.unpack (spec : Format) (data : Bytes) : PyFloat :=
  match spec.code with
  | .int signed => .ofInt (unpackInt spec.order signed spec.size data)
  | .float => unpackFloat (toNat spec.order data)

def decode (data : Bytes) (fmt : String) : Except Err PyFloat :=
  match lookup fmt with
  | none => .error (.unknownFormat fmt)
  | some spec =>
    if data.length < spec.size then .error (.shortData spec.size fmt data)
    else .ok (spec.unpack (data.take spec.size))

/-- `int(value)`. -/
def toInt : PyFloat → Except Err ℤ
  | .nan => .error .valueError
  | .inf _ => .error .overflowError
  | .negZero => .ok 0
  | .finite q => .ok (PyFloat.truncate q)

/-- Only `struct.error` becomes a `ParseError`; what `int` and the float packing raise on a
value that is no number of the format passes through. -/
def encode (value : PyFloat) (fmt : String) : Except Err Bytes :=
  match lookup fmt with
  | none => .error (.unknownFormat fmt)
  | some spec =>
    match spec.code with
    | .int signed =>
      match toInt value with
      | .error e => .error e
      | .ok n =>
        match packInt spec.order signed spec.size n with
        | some data => .ok data
        | none => .error (.cannotEncode value fmt)
    | .float =>
      match packFloat value with
      | some bits => .ok (ofNat spec.order spec.size bits)
      | none => .error .overflowError

/-- Only float formats carry values that are not finite. -/
theorem decode_isFinite {data : Bytes} {fmt : String} {spec : Format} {value : PyFloat}
    (hspec : lookup fmt = some spec) (hcode : spec.code ≠ .float)
    (h : decode data fmt = .ok value) : value.isFinite = true := by
  unfold decode at h
  rw [hspec] at h
  dsimp only at h
  split_ifs at h
  cases h
  unfold Format.unpack
  cases hc : spec.code with
  | int signed => rfl
  | float => exact absurd hc hcode

example : decode [0x00, 0x00, 0x80, 0x7f] "float32_le" = .ok (.inf false) := by decide +kernel

example : encode (.finite (1 / 3)) "float32_be" = .ok [0x3e, 0xaa, 0xaa, 0xab] := by
  decide +kernel

end HomeServer.Ble.Parser
