import HomeServer.Ble.Codec
import HomeServer.Core.FloatPacking

/-! The float formats of the codec: bytes that are a number survive reading and writing, and a
written number is read back as the nearest one that the format has. -/
namespace HomeServer.Ble.Parser
open HomeServer.Struct

section Floats
variable {fmt : String} {spec : Format}

theorem size_of_float (hspec : lookup fmt = some spec) (hcode : spec.code = .float) :
    spec.size = 4 := by
  have hall : ∀ entry ∈ formats, entry.2.code = .float → entry.2.size = 4 := by decide
  exact hall (fmt, spec) (mem_of_lookup hspec) hcode

theorem decode_of_float (hspec : lookup fmt = some spec) (hcode : spec.code = .float)
    {data : Bytes} (hlen : 4 ≤ data.length) :
    decode data fmt = .ok (unpackFloat (toNat spec.order (data.take 4))) := by
  have hsize := size_of_float hspec hcode
  unfold decode Format.unpack
  rw [hspec]
  dsimp only
  rw [hsize, if_neg (by omega), hcode]

theorem encode_of_float (hspec : lookup fmt = some spec) (hcode : spec.code = .float)
    {value : PyFloat} {bits : ℕ} (h : packFloat value = some bits) :
    encode value fmt = .ok (ofNat spec.order 4 bits) := by
  have hsize := size_of_float hspec hcode
  unfold encode
  rw [hspec]
  dsimp only
  rw [hcode]
  dsimp only
  rw [h, hsize]

theorem decode_ofNat (hspec : lookup fmt = some spec) (hcode : spec.code = .float) {bits : ℕ}
    (h : bits < 256 ^ 4) :
    decode (ofNat spec.order 4 bits) fmt = .ok (unpackFloat bits) := by
  have hlen := length_ofNat spec.order 4 bits
  rw [decode_of_float hspec hcode hlen.ge, List.take_of_length_le hlen.le, toNat_ofNat,
    Nat.mod_eq_of_lt h]

/-- Bytes that are a number, an infinity or a zero of either sign are written back as they were
read; the others are written back as bytes that are no number either. -/
theorem float_bytes_kept (hspec : lookup fmt = some spec) (hcode : spec.code = .float)
    {data : Bytes} (hlen : spec.size ≤ data.length) :
    ∃ value, decode data fmt = .ok value ∧
      (value ≠ .nan → encode value fmt = .ok (data.take spec.size)) ∧
      (value = .nan → ∃ written, encode value fmt = .ok written ∧
        decode written fmt = .ok .nan) := by
  have hsize := size_of_float hspec hcode
  rw [hsize] at hlen ⊢
  have htake : (data.take 4).length = 4 := List.length_take_of_le hlen
  refine ⟨_, decode_of_float hspec hcode hlen, fun hnumber => ?_, fun hnan => ?_⟩
  · have hlt := toNat_lt spec.order (data.take 4)
    rw [htake] at hlt
    have hpack := packFloat_unpackFloat (by omega) hnumber
    have hbytes := ofNat_toNat spec.order (data.take 4)
    rw [htake] at hbytes
    rw [encode_of_float hspec hcode hpack, hbytes]
  · have hpack : packFloat .nan = some 0x7fc00000 := rfl
    have hread : unpackFloat 0x7fc00000 = .nan := by decide +kernel
    have hsize : 0x7fc00000 < 256 ^ 4 := by norm_num
    have hdecode := decode_ofNat hspec hcode hsize
    rw [hread] at hdecode
    rw [hnan]
    exact ⟨_, encode_of_float hspec hcode hpack, hdecode⟩

/-- A number below the threshold is written, and read back as a number of the format that none is
nearer to; of two that are as near it is the one whose pattern is even. Writing what was read
changes nothing more. -/
theorem float_nearest (hspec : lookup fmt = some spec) (hcode : spec.code = .float)
    {value : PyFloat} {q : ℚ} (hq : value.toRat? = some q) (hlt : |q| < overflowThreshold) :
    ∃ data read r, encode value fmt = .ok data ∧ decode data fmt = .ok read ∧
      read.toRat? = some r ∧ encode read fmt = .ok data ∧
      ∀ other v s, decode other fmt = .ok v → v.toRat? = some s →
        |r - q| ≤ |s - q| ∧ (|r - q| = |s - q| → s = r ∨ toNat spec.order data % 2 = 0) := by
  have hrep : spec.Represents value := by
    unfold Format.Represents
    rw [hcode]
    intro r hr
    rw [hq] at hr
    cases hr
    exact hlt
  obtain ⟨bits, hpack⟩ : ∃ bits, packFloat value = some bits := by
    rw [← Option.ne_none_iff_exists']
    intro hnone
    obtain ⟨x, rfl, hge⟩ := packFloat_eq_none.mp hnone
    cases hq
    linarith
  have hbits := packFloat_lt hpack
  obtain ⟨r, hr, hnearest⟩ := packFloat_nearest hq hpack
  have hnumber : unpackFloat bits ≠ .nan := by
    intro hnan
    rw [hnan] at hr
    cases hr
  have hagain := packFloat_unpackFloat (by omega) hnumber
  refine ⟨_, _, r, encode_of_float hspec hcode hpack, decode_ofNat hspec hcode hbits, hr,
    encode_of_float hspec hcode hagain, fun other v s hother hs => ?_⟩
  have hlen : 4 ≤ other.length := by
    by_contra hshort
    unfold decode at hother
    rw [hspec] at hother
    dsimp only at hother
    rw [size_of_float hspec hcode, if_pos (by omega)] at hother
    cases hother
  rw [decode_of_float hspec hcode hlen] at hother
  cases hother
  rw [toNat_ofNat, Nat.mod_eq_of_lt hbits]
  exact hnearest s (isValue_of_unpackFloat hs)

end Floats

/-- The negative zero and trailing bytes. -/
theorem float_bytes_kept_negZero :
    ∃ value, decode [0x80, 0, 0, 0, 7] "float32_be" = .ok value ∧
      (value ≠ .nan → encode value "float32_be" = .ok [0x80, 0, 0, 0]) ∧
      (value = .nan → ∃ written, encode value "float32_be" = .ok written ∧
        decode written "float32_be" = .ok .nan) := by
  have hspec : lookup "float32_be" = some ⟨.big, .float, 4⟩ := rfl
  have hlen : 4 ≤ ([0x80, 0, 0, 0, 7] : Bytes).length := by decide
  exact float_bytes_kept hspec rfl hlen

/-- A third is read back as the nearest number of the format. -/
theorem float_nearest_third :
    ∃ data read r, encode (.finite (1 / 3)) "float32_le" = .ok data ∧
      decode data "float32_le" = .ok read ∧ read.toRat? = some r ∧
      encode read "float32_le" = .ok data ∧
      ∀ other v s, decode other "float32_le" = .ok v → v.toRat? = some s →
        |r - 1 / 3| ≤ |s - 1 / 3| ∧
          (|r - 1 / 3| = |s - 1 / 3| → s = r ∨ toNat .little data % 2 = 0) := by
  have hspec : lookup "float32_le" = some ⟨.little, .float, 4⟩ := rfl
  have hlt : |(1 / 3 : ℚ)| < overflowThreshold := by
    unfold overflowThreshold
    norm_num
  exact float_nearest hspec rfl rfl hlt

end HomeServer.Ble.Parser
