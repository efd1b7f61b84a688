import HomeServer.Core.Struct
import Mathlib.Algebra.Order.Ring.Rat

/-! `struct.pack` and `struct.unpack` of integers, each the inverse of the other. -/
namespace HomeServer.Struct

/-- The lowest bytes of a number make up its remainder. -/
theorem foldr_lowBytes (size n : ℕ) :
    ((List.range size).map fun k => UInt8.ofNat (n / 256 ^ k)).foldr
      (fun b n => b.toNat + 256 * n) 0 = n % 256 ^ size := by
  induction size generalizing n with
  | zero => simp [Nat.mod_one]
  | succ size ih =>
    have hshift : ∀ k, n / 256 ^ (k + 1) = n / 256 / 256 ^ k := by
      intro k
      rw [Nat.div_div_eq_div_mul, ← Nat.pow_succ']
    have hbyte : (UInt8.ofNat n).toNat = n % 256 := UInt8.toNat_ofNat'
    rw [List.range_succ_eq_map, List.map_cons, List.map_map, List.foldr_cons]
    simp only [Function.comp_def, Nat.succ_eq_add_one, hshift, pow_zero, Nat.div_one]
    rw [ih, hbyte, Nat.pow_succ', Nat.mod_mul]

@[simp] theorem length_ofNat (order : ByteOrder) (size n : ℕ) :
    (ofNat order size n).length = size := by
  cases order <;> simp [ofNat]

theorem toNat_ofNat (order : ByteOrder) (size n : ℕ) :
    toNat order (ofNat order size n) = n % 256 ^ size := by
  have hbytes := foldr_lowBytes size n
  cases order with
  | little => exact hbytes
  | big =>
    unfold toNat ofNat
    dsimp only
    rw [List.reverse_reverse]
    exact hbytes

theorem foldr_lt (data : Bytes) :
    data.foldr (fun b n => b.toNat + 256 * n) 0 < 256 ^ data.length := by
  induction data with
  | nil => simp
  | cons b data ih =>
    have hbyte := b.toNat_lt
    rw [List.foldr_cons, List.length_cons, Nat.pow_succ']
    omega

theorem toNat_lt (order : ByteOrder) (data : Bytes) : toNat order data < 256 ^ data.length := by
  cases order with
  | little => exact foldr_lt data
  | big =>
    have hlt := foldr_lt data.reverse
    rwa [List.length_reverse] at hlt

/-- The bytes of a number made up of bytes are these bytes. -/
theorem lowBytes_foldr (data : Bytes) :
    ((List.range data.length).map fun k =>
      UInt8.ofNat (data.foldr (fun b n => b.toNat + 256 * n) 0 / 256 ^ k)) = data := by
  induction data with
  | nil => rfl
  | cons b data ih =>
    have hbyte := b.toNat_lt
    rw [List.length_cons, List.range_succ_eq_map, List.map_cons, List.map_map, List.foldr_cons]
    congr 1
    · have hlow : (b.toNat + 256 * data.foldr (fun b n => b.toNat + 256 * n) 0) % 256 =
          b.toNat := by
        omega
      rw [pow_zero, Nat.div_one]
      apply UInt8.toNat_inj.mp
      rw [UInt8.toNat_ofNat']
      exact hlow
    · refine (List.map_congr_left fun k _ => ?_).trans ih
      have hrest : (b.toNat + 256 * data.foldr (fun b n => b.toNat + 256 * n) 0) / 256 =
          data.foldr (fun b n => b.toNat + 256 * n) 0 := by
        omega
      rw [Function.comp, Nat.succ_eq_add_one, Nat.pow_succ', ← Nat.div_div_eq_div_mul, hrest]

theorem ofNat_toNat (order : ByteOrder) (data : Bytes) :
    ofNat order data.length (toNat order data) = data := by
  cases order with
  | little => exact lowBytes_foldr data
  | big =>
    have hbytes := lowBytes_foldr data.reverse
    rw [List.length_reverse] at hbytes
    unfold ofNat toNat
    dsimp only
    rw [hbytes, List.reverse_reverse]

/-- Packing within the bounds and unpacking give the number back. -/
theorem unpackInt_packInt {order : ByteOrder} {signed : Bool} {size : ℕ} {n : ℤ} {data : Bytes}
    (hsize : 0 < size) (h : packInt order signed size n = some data) :
    unpackInt order signed size data = n ∧ data.length = size := by
  unfold packInt at h
  dsimp only at h
  split_ifs at h with hbounds
  cases h
  refine ⟨?_, length_ofNat _ _ _⟩
  obtain ⟨hlow, hhigh⟩ := hbounds
  have hpos : (0 : ℤ) < 256 ^ size := by positivity
  have hrange : (n % 256 ^ size).toNat < 256 ^ size := by
    have hlt := Int.emod_lt_of_pos n hpos
    have hnonneg := Int.emod_nonneg n hpos.ne'
    zify
    rw [Int.toNat_of_nonneg hnonneg]
    exact hlt
  have hvalue : ((toNat order (ofNat order size (n % 256 ^ size).toNat) : ℕ) : ℤ) =
      n % 256 ^ size := by
    rw [toNat_ofNat, Nat.mod_eq_of_lt hrange]
    exact Int.toNat_of_nonneg (Int.emod_nonneg n hpos.ne')
  unfold unpackInt
  dsimp only
  rw [hvalue]
  obtain ⟨half, hhalf⟩ : (2 : ℤ) ∣ 256 ^ size := dvd_pow (by norm_num) hsize.ne'
  have hwrap : n % 256 ^ size = if 0 ≤ n then n else n + 256 ^ size := by
    have hmax : n < 256 ^ size := by
      cases signed <;> simp only [bounds, Bool.false_eq_true, if_false, if_true] at hhigh <;> omega
    split
    · exact Int.emod_eq_of_lt ‹_› hmax
    · have hmin : 0 ≤ n + 256 ^ size := by
        cases signed <;> simp only [bounds, Bool.false_eq_true, if_false, if_true] at hlow <;> omega
      rw [← Int.add_emod_right, Int.emod_eq_of_lt hmin (by omega)]
  rw [hwrap]
  cases signed with
  | false =>
    simp only [bounds, Bool.false_eq_true, if_false] at hlow hhigh ⊢
    rw [if_pos hlow, if_pos hhigh]
  | true =>
    simp only [bounds, if_true] at hlow hhigh ⊢
    split_ifs <;> omega

/-- Unpacking and packing give the bytes back. -/
theorem packInt_unpackInt (order : ByteOrder) (signed : Bool) {data : Bytes} (h : data ≠ []) :
    packInt order signed data.length (unpackInt order signed data.length data) = some data := by
  have hlt : ((toNat order data : ℕ) : ℤ) < 256 ^ data.length := by
    exact_mod_cast toNat_lt order data
  have hpos : 0 < data.length := List.length_pos_iff.mpr h
  obtain ⟨half, hhalf⟩ : (2 : ℤ) ∣ 256 ^ data.length := dvd_pow (by norm_num) hpos.ne'
  have hbounds : (bounds signed data.length).1 ≤ unpackInt order signed data.length data ∧
      unpackInt order signed data.length data < (bounds signed data.length).2 := by
    unfold unpackInt
    cases signed with
    | false =>
      simp only [bounds, Bool.false_eq_true, if_false]
      rw [if_pos hlt]
      exact ⟨Int.natCast_nonneg _, hlt⟩
    | true =>
      simp only [bounds, if_true]
      split <;> omega
  have hvalue : unpackInt order signed data.length data % 256 ^ data.length =
      (toNat order data : ℕ) := by
    have hnonneg := Int.natCast_nonneg (toNat order data)
    unfold unpackInt
    dsimp only
    split
    · exact Int.emod_eq_of_lt hnonneg hlt
    · rw [← Int.add_emod_right, sub_add_cancel]
      exact Int.emod_eq_of_lt hnonneg hlt
  unfold packInt
  dsimp only
  rw [if_pos hbounds, hvalue, Int.toNat_natCast, ofNat_toNat]

end HomeServer.Struct
