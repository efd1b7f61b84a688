import HomeServer.Ble.Parser
import HomeServer.Core.Binary32
import HomeServer.Core.Packing

/-! The codec of the formats: what `encode` and `decode` make of each other, and which values have
an encoding. -/
namespace HomeServer.Ble.Parser
open HomeServer.Struct

/-- The integers that the format has bits for. -/
def Format.Carries (spec : Format) (n : ℤ) : Prop :=
  match spec.code with
  | .int true => -2 ^ (8 * spec.size - 1) ≤ n ∧ n < 2 ^ (8 * spec.size - 1)
  | .int false => 0 ≤ n ∧ n < 2 ^ (8 * spec.size)
  | .float => False

/-- An integer format represents the numbers whose truncation it carries; a binary32 represents
what is no number, and the numbers that are not rounded to more than its greatest one. -/
def Format.Represents (spec : Format) (value : PyFloat) : Prop :=
  match spec.code with
  | .int _ => ∃ q, value.toRat? = some q ∧ spec.Carries (PyFloat.truncate q)
  | .float => ∀ q, value.toRat? = some q → |q| < overflowThreshold

theorem mem_of_lookup {fmt : String} {spec : Format} (h : lookup fmt = some spec) :
    (fmt, spec) ∈ formats := by
  obtain ⟨before, after, hsplit, -⟩ := List.lookup_eq_some_iff.mp h
  rw [hsplit]
  exact List.mem_append_right _ (.head _)

theorem exists_lookup {fmt : String} (h : fmt ∈ supportedFormats) :
    ∃ spec, lookup fmt = some spec := by
  have hall : ∀ fmt ∈ supportedFormats, (lookup fmt).isSome = true := by decide
  exact Option.isSome_iff_exists.mp (hall fmt h)

theorem size_pos {fmt : String} {spec : Format} (h : lookup fmt = some spec) : 0 < spec.size := by
  have hall : ∀ entry ∈ formats, 0 < entry.2.size := by decide
  exact hall (fmt, spec) (mem_of_lookup h)

/-- An integer format carries the number truncated toward zero. -/
theorem decode_encode {value : PyFloat} {fmt : String} {spec : Format} {data : Bytes}
    (hspec : lookup fmt = some spec) (hcode : spec.code ≠ .float)
    (h : encode value fmt = .ok data) :
    ∃ q, value.toRat? = some q ∧ decode data fmt = .ok (.ofInt (PyFloat.truncate q)) := by
  unfold encode at h
  rw [hspec] at h
  dsimp only at h
  cases hc : spec.code with
  | float => exact absurd hc hcode
  | int signed =>
    rw [hc] at h
    dsimp only at h
    obtain ⟨q, hq, hint⟩ : ∃ q, value.toRat? = some q ∧ toInt value = .ok (PyFloat.truncate q) := by
      cases value with
      | nan | inf => cases h
      | negZero => exact ⟨0, rfl, rfl⟩
      | finite q => exact ⟨q, rfl, rfl⟩
    rw [hint] at h
    dsimp only at h
    cases hpack : packInt spec.order signed spec.size (PyFloat.truncate q) with
    | none =>
      rw [hpack] at h
      cases h
    | some bytes =>
      rw [hpack] at h
      cases h
      obtain ⟨hunpack, hlen⟩ := unpackInt_packInt (size_pos hspec) hpack
      refine ⟨q, hq, ?_⟩
      unfold decode
      rw [hspec]
      dsimp only
      rw [if_neg (by omega), ← hlen, List.take_length]
      unfold Format.unpack
      rw [hc]
      dsimp only
      rw [hunpack]

section Codec
variable {value : PyFloat} {fmt : String} {spec : Format} {signed : Bool} {q : ℚ}

theorem carries_iff (hsize : 0 < spec.size) (hcode : spec.code = .int signed) (n : ℤ) :
    spec.Carries n ↔ (bounds signed spec.size).1 ≤ n ∧ n < (bounds signed spec.size).2 := by
  have hwhole : (256 : ℤ) ^ spec.size = 2 ^ (8 * spec.size) := by
    rw [pow_mul]
    norm_num
  have hhalf : (2 : ℤ) ^ (8 * spec.size) = 2 ^ (8 * spec.size - 1) * 2 := by
    rw [← pow_succ]
    congr 1
    omega
  unfold Format.Carries bounds
  rw [hcode, hwhole]
  cases signed with
  | false => rfl
  | true =>
    rw [hhalf, Int.mul_ediv_cancel _ two_ne_zero]
    rfl

theorem toInt_of_toRat (hq : value.toRat? = some q) : toInt value = .ok (PyFloat.truncate q) := by
  cases value with
  | nan | inf => cases hq
  | negZero | finite q =>
    cases hq
    rfl

/-- A number whose truncation has the bits is encoded, and read back truncated. -/
theorem encode_of_carries (hspec : lookup fmt = some spec) (hcode : spec.code = .int signed)
    (hq : value.toRat? = some q) (h : spec.Carries (PyFloat.truncate q)) :
    ∃ data, encode value fmt = .ok data ∧ data.length = spec.size ∧
      decode data fmt = .ok (.ofInt (PyFloat.truncate q)) := by
  have hbounds := (carries_iff (size_pos hspec) hcode _).mp h
  obtain ⟨data, hpack⟩ : ∃ data, packInt spec.order signed spec.size (PyFloat.truncate q) =
      some data := ⟨_, if_pos hbounds⟩
  have hlen := (unpackInt_packInt (size_pos hspec) hpack).2
  have hencode : encode value fmt = .ok data := by
    unfold encode
    rw [hspec]
    dsimp only
    rw [hcode]
    dsimp only
    rw [toInt_of_toRat hq]
    dsimp only
    rw [hpack]
  have hint : spec.code ≠ .float := by
    rw [hcode]
    exact Code.noConfusion
  obtain ⟨q', hq', hdecode⟩ := decode_encode hspec hint hencode
  rw [hq] at hq'
  cases hq'
  exact ⟨data, hencode, hlen, hdecode⟩

theorem encode_of_not_carries (hspec : lookup fmt = some spec) (hcode : spec.code = .int signed)
    (hq : value.toRat? = some q) (h : ¬spec.Carries (PyFloat.truncate q)) :
    encode value fmt = .error (.cannotEncode value fmt) := by
  rw [carries_iff (size_pos hspec) hcode] at h
  have hpack : packInt spec.order signed spec.size (PyFloat.truncate q) = none := if_neg h
  unfold encode
  rw [hspec]
  dsimp only
  rw [hcode]
  dsimp only
  rw [toInt_of_toRat hq]
  dsimp only
  rw [hpack]

/-- What an integer format decodes, it encodes as the same bytes. -/
theorem encode_decode (hspec : lookup fmt = some spec) (hcode : spec.code = .int signed)
    {data : Bytes} (hlen : spec.size ≤ data.length) :
    ∃ v, decode data fmt = .ok v ∧ encode v fmt = .ok (data.take spec.size) := by
  have htake : (data.take spec.size).length = spec.size := List.length_take_of_le hlen
  have hne : data.take spec.size ≠ [] := by
    rw [← List.length_pos_iff, htake]
    exact size_pos hspec
  have hpack := packInt_unpackInt spec.order signed hne
  rw [htake] at hpack
  have htruncate : ∀ n : ℤ, PyFloat.truncate n = n := by
    intro n
    unfold PyFloat.truncate
    split
    · exact Int.floor_intCast n
    · exact Int.ceil_intCast n
  refine ⟨spec.unpack (data.take spec.size), ?_, ?_⟩
  · unfold decode
    rw [hspec]
    dsimp only
    rw [if_neg (by omega)]
  · unfold Format.unpack encode
    rw [hspec]
    dsimp only
    rw [hcode]
    dsimp only [PyFloat.ofInt, toInt]
    rw [htruncate, hpack]

/-- An integer format is exact both ways: bytes are read and written back, and a number is written
and read back truncated where its truncation has the bits, and refused where it has not. -/
theorem codec_exact (hspec : lookup fmt = some spec) (hint : spec.code ≠ .float) :
    (∀ data : Bytes, spec.size ≤ data.length →
        ∃ v, decode data fmt = .ok v ∧ encode v fmt = .ok (data.take spec.size)) ∧
      (∀ data : Bytes, data.length < spec.size →
        decode data fmt = .error (.shortData spec.size fmt data)) ∧
      ∀ value q, value.toRat? = some q →
        (spec.Carries (PyFloat.truncate q) → ∃ data, encode value fmt = .ok data ∧
          decode data fmt = .ok (.ofInt (PyFloat.truncate q))) ∧
        (¬spec.Carries (PyFloat.truncate q) →
          encode value fmt = .error (.cannotEncode value fmt)) := by
  obtain ⟨signed, hcode⟩ : ∃ signed, spec.code = .int signed := by
    cases hc : spec.code with
    | int signed => exact ⟨signed, rfl⟩
    | float => exact absurd hc hint
  refine ⟨fun data hlen => encode_decode hspec hcode hlen, fun data hshort => ?_,
    fun value q hq => ⟨fun h => ?_, encode_of_not_carries hspec hcode hq⟩⟩
  · unfold decode
    rw [hspec]
    dsimp only
    rw [if_pos hshort]
  · obtain ⟨data, hencode, -, hdecode⟩ := encode_of_carries hspec hcode hq h
    exact ⟨data, hencode, hdecode⟩

/-- The one exception for a format that is not in the table, the other one for a value that its
format does not represent, and otherwise as many bytes as the format has. -/
def EncodesAsDeclared (fmt : String) (value : PyFloat) : Prop :=
  match lookup fmt with
  | none => encode value fmt = .error (.unknownFormat fmt)
  | some spec =>
    (spec.Represents value ∧ ∃ data, encode value fmt = .ok data ∧ data.length = spec.size) ∨
      (¬spec.Represents value ∧ encode value fmt = .error (.cannotEncode value fmt))

theorem encode_int_not_finite (hspec : lookup fmt = some spec) (hcode : spec.code = .int signed)
    (h : value.isFinite = false) :
    ¬spec.Represents value ∧
      (encode value fmt = .error .valueError ∨ encode value fmt = .error .overflowError) := by
  unfold Format.Represents encode
  rw [hspec]
  dsimp only
  rw [hcode]
  cases value with
  | nan => simp [toInt, PyFloat.toRat?]
  | inf negative => simp [toInt, PyFloat.toRat?]
  | negZero | finite => cases h

theorem toRat?_of_isFinite (h : value.isFinite = true) : ∃ q, value.toRat? = some q := by
  cases value with
  | nan | inf => cases h
  | negZero => exact ⟨0, rfl⟩
  | finite q => exact ⟨q, rfl⟩

theorem encode_float (value : PyFloat) (hspec : lookup fmt = some spec) (hcode : spec.code = .float) :
    (spec.Represents value ∧ ∃ data, encode value fmt = .ok data ∧ data.length = spec.size) ∨
      (¬spec.Represents value ∧ encode value fmt = .error .overflowError) := by
  have hnone : packFloat value = none ↔ ¬spec.Represents value := by
    rw [packFloat_eq_none]
    unfold Format.Represents
    rw [hcode]
    cases value with
    | nan | inf => simp [PyFloat.toRat?]
    | negZero =>
      have hpos : 0 < overflowThreshold := by
        unfold overflowThreshold
        norm_num
      simp [PyFloat.toRat?, hpos]
    | finite q => simp [PyFloat.toRat?]
  unfold encode
  rw [hspec]
  dsimp only
  rw [hcode]
  cases hpack : packFloat value with
  | none => exact Or.inr ⟨hnone.mp hpack, rfl⟩
  | some bits =>
    have hrep : spec.Represents value := by
      by_contra hnot
      rw [hnone.mpr hnot] at hpack
      cases hpack
    exact Or.inl ⟨hrep, _, rfl, length_ofNat _ _ _⟩

/-- `encode` keeps to its declaration but for what is not a number in an integer format, and for
the numbers that are too large for a binary32. -/
theorem encodesAsDeclared_iff (fmt : String) (value : PyFloat) :
    EncodesAsDeclared fmt value ↔ ∀ spec, lookup fmt = some spec →
      (spec.code ≠ .float → value.isFinite = true) ∧
        (spec.code = .float → spec.Represents value) := by
  unfold EncodesAsDeclared
  cases hspec : lookup fmt with
  | none => simp [encode, hspec]
  | some spec =>
    simp only [Option.some.injEq, forall_eq']
    cases hcode : spec.code with
    | float =>
      have hencode := encode_float value hspec hcode
      simp only [ne_eq, not_true_eq_false, false_implies, true_implies, true_and]
      rcases hencode with hok | ⟨hnot, herr⟩
      · exact ⟨fun _ => hok.1, fun _ => Or.inl hok⟩
      · simp [hnot, herr]
    | int signed =>
      have hint : (Code.int signed ≠ .float → value.isFinite = true) ↔ value.isFinite = true := by
        simp
      rw [hint]
      simp only [reduceCtorEq, false_implies, and_true]
      constructor
      · intro h
        by_contra hnot
        rw [Bool.not_eq_true] at hnot
        obtain ⟨hrep, herr⟩ := encode_int_not_finite hspec hcode hnot
        rcases h with ⟨hyes, -⟩ | ⟨-, hparse⟩
        · exact hrep hyes
        · rw [hparse] at herr
          simp at herr
      · intro hfinite
        obtain ⟨q, hq⟩ := toRat?_of_isFinite hfinite
        have hrep : spec.Represents value ↔ spec.Carries (PyFloat.truncate q) := by
          unfold Format.Represents
          rw [hcode]
          simp [hq]
        rw [hrep]
        by_cases hcarries : spec.Carries (PyFloat.truncate q)
        · obtain ⟨data, hencode, hlen, -⟩ := encode_of_carries hspec hcode hq hcarries
          exact Or.inl ⟨hcarries, data, hencode, hlen⟩
        · exact Or.inr ⟨hcarries, encode_of_not_carries hspec hcode hq hcarries⟩

/-- Of the exceptions of `encode` one is translated, for the numbers that an integer format has no
bits for. -/
theorem encode_error {e : Err} (h : encode value fmt = .error e) :
    (e = .cannotEncode value fmt ∧ ∃ spec, lookup fmt = some spec ∧ spec.code ≠ .float ∧
        value.isFinite = true) ∨
      (e ∈ [.unknownFormat fmt, .valueError, .overflowError] ∧ ∀ spec, lookup fmt = some spec →
        (spec.code = .float → ¬spec.Represents value) ∧
          (spec.code ≠ .float → value.isFinite = false)) := by
  cases hspec : lookup fmt with
  | none =>
    unfold encode at h
    rw [hspec] at h
    cases h
    simp
  | some spec =>
    cases hcode : spec.code with
    | float =>
      rcases encode_float value hspec hcode with ⟨-, data, hok, -⟩ | ⟨hnot, herr⟩
      · rw [h] at hok
        cases hok
      · rw [h] at herr
        cases herr
        simp [hcode, hnot]
    | int signed =>
      cases hfinite : value.isFinite with
      | false =>
        obtain ⟨-, herr⟩ := encode_int_not_finite hspec hcode hfinite
        rw [h] at herr
        rcases herr with herr | herr <;> cases herr <;> simp [hcode]
      | true =>
        obtain ⟨q, hq⟩ := toRat?_of_isFinite hfinite
        by_cases hcarries : spec.Carries (PyFloat.truncate q)
        · obtain ⟨data, hok, -⟩ := encode_of_carries hspec hcode hq hcarries
          rw [h] at hok
          cases hok
        · have hcannot := encode_of_not_carries hspec hcode hq hcarries
          rw [h] at hcannot
          cases hcannot
          simp [hcode]

theorem represents_of_encode {data : Bytes} (h : encode value fmt = .ok data) :
    ∃ spec, lookup fmt = some spec ∧ spec.Represents value := by
  cases hspec : lookup fmt with
  | none =>
    unfold encode at h
    rw [hspec] at h
    cases h
  | some spec =>
    refine ⟨spec, rfl, ?_⟩
    cases hcode : spec.code with
    | float =>
      rcases encode_float value hspec hcode with ⟨hrep, -⟩ | ⟨-, herr⟩
      · exact hrep
      · rw [h] at herr
        cases herr
    | int signed =>
      have hint : spec.code ≠ .float := by
        rw [hcode]
        exact Code.noConfusion
      obtain ⟨q, hq, -⟩ := decode_encode hspec hint h
      unfold Format.Represents
      rw [hcode]
      refine ⟨q, hq, ?_⟩
      by_contra hnot
      rw [encode_of_not_carries hspec hcode hq hnot] at h
      cases h

/-- Values that are neither truncated nor packed alike have encodings of their own. -/
theorem encode_ne {other : PyFloat} {data : Bytes}
    (htruncate : ∀ q r, value.toRat? = some q → other.toRat? = some r →
      PyFloat.truncate q ≠ PyFloat.truncate r)
    (hpack : packFloat value ≠ packFloat other) (h : encode value fmt = .ok data) :
    encode other fmt ≠ .ok data := by
  intro hother
  obtain ⟨spec, hspec, -⟩ := represents_of_encode h
  cases hcode : spec.code with
  | int signed =>
    have hint : spec.code ≠ .float := by
      rw [hcode]
      exact Code.noConfusion
    obtain ⟨q, hq, hdecode⟩ := decode_encode hspec hint h
    obtain ⟨r, hr, hdecode'⟩ := decode_encode hspec hint hother
    rw [hdecode] at hdecode'
    have hsame : ((PyFloat.truncate q : ℤ) : ℚ) = (PyFloat.truncate r : ℤ) :=
      PyFloat.finite.inj (Except.ok.inj hdecode')
    exact htruncate q r hq hr (Int.cast_injective hsame)
  | float =>
    have hsize : spec.size = 4 := by
      have hall : ∀ entry ∈ formats, entry.2.code = .float → entry.2.size = 4 := by decide
      exact hall (fmt, spec) (mem_of_lookup hspec) hcode
    have hbits : ∀ v, encode v fmt = .ok data →
        ∃ bits, packFloat v = some bits ∧ data = ofNat spec.order spec.size bits := by
      intro v hv
      unfold encode at hv
      rw [hspec] at hv
      dsimp only at hv
      rw [hcode] at hv
      dsimp only at hv
      cases hbits : packFloat v with
      | none =>
        rw [hbits] at hv
        cases hv
      | some bits =>
        rw [hbits] at hv
        exact ⟨bits, rfl, (Except.ok.inj hv).symm⟩
    obtain ⟨bits, hvalue, hdata⟩ := hbits value h
    obtain ⟨bits', hother, hdata'⟩ := hbits other hother
    have hread := congrArg (toNat spec.order) (hdata.symm.trans hdata')
    rw [toNat_ofNat, toNat_ofNat, hsize, Nat.mod_eq_of_lt (packFloat_lt hvalue),
      Nat.mod_eq_of_lt (packFloat_lt hother)] at hread
    rw [hvalue, hother, hread] at hpack
    exact hpack rfl

theorem truncate_of_nonneg (hq : 0 ≤ q) : PyFloat.truncate q = ⌊q⌋ := if_pos hq

theorem packFloat_of_pos (hq : 0 < q) (h : nearestBits q < 255 * 2 ^ 23) :
    packFloat (.finite q) = some (nearestBits q) := by
  unfold packFloat
  dsimp only
  rw [if_neg hq.ne', abs_of_pos hq, if_pos h, if_neg (not_lt.mpr hq.le)]

/-- All formats have bits for the numbers that no `int8` overflows on. -/
theorem encode_small (hfmt : fmt ∈ supportedFormats) (hq : value.toRat? = some q) (h0 : 0 ≤ q)
    (h : q < 128) : ∃ data, encode value fmt = .ok data := by
  obtain ⟨spec, hspec⟩ := exists_lookup hfmt
  have hbounds : ∀ entry ∈ formats, ∀ signed, entry.2.code = .int signed →
      (bounds signed entry.2.size).1 ≤ 0 ∧ 128 ≤ (bounds signed entry.2.size).2 := by decide
  cases hcode : spec.code with
  | int signed =>
    obtain ⟨hmin, hmax⟩ := hbounds (fmt, spec) (mem_of_lookup hspec) signed hcode
    have hfloor : 0 ≤ ⌊q⌋ := Int.floor_nonneg.mpr h0
    have hlt : ⌊q⌋ < 128 := Int.floor_lt.mpr (by exact_mod_cast h)
    have hcarries : spec.Carries (PyFloat.truncate q) := by
      rw [carries_iff (size_pos hspec) hcode, truncate_of_nonneg h0]
      dsimp only at hmin hmax
      omega
    obtain ⟨data, hdata, -⟩ := encode_of_carries hspec hcode hq hcarries
    exact ⟨data, hdata⟩
  | float =>
    have hrep : spec.Represents value := by
      unfold Format.Represents
      rw [hcode]
      intro r hr
      rw [hq] at hr
      cases hr
      have hthreshold : (128 : ℚ) ≤ overflowThreshold := by
        unfold overflowThreshold
        norm_num
      rw [abs_of_nonneg h0]
      exact h.trans_le hthreshold
    rcases encode_float value hspec hcode with ⟨-, data, hdata, -⟩ | ⟨hnot, -⟩
    · exact ⟨data, hdata⟩
    · exact absurd hrep hnot

end Codec

/-- 255.9 is written as 255, and 256 is refused. -/
theorem codec_exact_uint8 :
    (∃ data, encode (.finite (2559 / 10)) "uint8" = .ok data ∧
        decode data "uint8" = .ok (.ofInt 255)) ∧
      encode (.finite 256) "uint8" = .error (.cannotEncode (.finite 256) "uint8") := by
  have hspec : lookup "uint8" = some ⟨.little, .int false, 1⟩ := rfl
  obtain ⟨-, -, hnumber⟩ := codec_exact hspec (by decide)
  have htruncate : PyFloat.truncate (2559 / 10) = 255 ∧ PyFloat.truncate 256 = 256 := by
    decide +kernel
  constructor
  · have hwrite := (hnumber (.finite (2559 / 10)) (2559 / 10) rfl).1
    rw [htruncate.1] at hwrite
    exact hwrite (by unfold Format.Carries; decide)
  · have hrefuse := (hnumber (.finite 256) 256 rfl).2
    rw [htruncate.2] at hrefuse
    exact hrefuse (by unfold Format.Carries; decide)

end HomeServer.Ble.Parser
