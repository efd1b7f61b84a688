import HomeServer.Core.Struct
import Mathlib.Algebra.Order.Field.Power
import Mathlib.Algebra.Order.Floor.Ring
import Mathlib.Data.Nat.Log
import Mathlib.Tactic.Linarith
import Mathlib.Tactic.NormNum.Pow
import Mathlib.Tactic.Positivity
import Mathlib.Tactic.Ring

/-! Which numbers `struct.pack` of a binary32 overflows on: those from the midpoint between the
greatest finite one and the next power of two. -/
namespace HomeServer.Struct

/-- The least magnitude that is rounded to more than the greatest binary32. -/
def overflowThreshold : ℚ := 2 ^ 128 - 2 ^ 103

theorem floorLog2_spec {q : ℚ} (hq : 0 < q) :
    (2 : ℚ) ^ floorLog2 q ≤ q ∧ q < (2 : ℚ) ^ (floorLog2 q + 1) := by
  have hnum : 0 < q.num := Rat.num_pos.mpr hq
  have hnat : q.num.natAbs ≠ 0 := by omega
  have hden : (0 : ℚ) < q.den := by exact_mod_cast q.pos
  have hmul : q * q.den = q.num.natAbs := by
    have habs : ((q.num.natAbs : ℤ) : ℚ) = q.num := congrArg _ (Int.natAbs_of_nonneg hnum.le)
    rw [Rat.mul_den_eq_num, ← habs, Int.cast_natCast]
  have hnumLow : (2 : ℚ) ^ (q.num.natAbs.log2 : ℤ) ≤ q.num.natAbs := by
    exact_mod_cast Nat.log2_self_le hnat
  have hnumHigh : (q.num.natAbs : ℚ) < 2 ^ ((q.num.natAbs.log2 : ℤ) + 1) := by
    exact_mod_cast Nat.lt_log2_self
  have hdenLow : (2 : ℚ) ^ (q.den.log2 : ℤ) ≤ q.den := by
    exact_mod_cast Nat.log2_self_le q.den_nz
  have hdenHigh : (q.den : ℚ) < 2 ^ ((q.den.log2 : ℤ) + 1) := by
    exact_mod_cast Nat.lt_log2_self
  have hlow : (2 : ℚ) ^ ((q.num.natAbs.log2 : ℤ) - q.den.log2 - 1) ≤ q := by
    apply le_of_mul_le_mul_right _ hden
    calc (2 : ℚ) ^ ((q.num.natAbs.log2 : ℤ) - q.den.log2 - 1) * q.den
        ≤ 2 ^ ((q.num.natAbs.log2 : ℤ) - q.den.log2 - 1) * 2 ^ ((q.den.log2 : ℤ) + 1) := by
          gcongr
      _ = 2 ^ (q.num.natAbs.log2 : ℤ) := by
          rw [← zpow_add₀ (by norm_num)]
          congr 1
          omega
      _ ≤ q.num.natAbs := hnumLow
      _ = q * q.den := hmul.symm
  have hhigh : q < (2 : ℚ) ^ ((q.num.natAbs.log2 : ℤ) - q.den.log2 + 1) := by
    apply lt_of_mul_lt_mul_right _ hden.le
    calc q * q.den = q.num.natAbs := hmul
      _ < 2 ^ ((q.num.natAbs.log2 : ℤ) + 1) := hnumHigh
      _ = 2 ^ ((q.num.natAbs.log2 : ℤ) - q.den.log2 + 1) * 2 ^ (q.den.log2 : ℤ) := by
          rw [← zpow_add₀ (by norm_num)]
          congr 1
          omega
      _ ≤ 2 ^ ((q.num.natAbs.log2 : ℤ) - q.den.log2 + 1) * q.den := by gcongr
  unfold floorLog2
  dsimp only
  split
  · rename_i hle
    exact ⟨hle, hhigh⟩
  · rename_i hlt
    rw [sub_add_cancel]
    exact ⟨hlow, not_le.mp hlt⟩

theorem floor_le_roundHalfEven (q : ℚ) : ⌊q⌋ ≤ roundHalfEven q := by
  unfold roundHalfEven
  split_ifs <;> omega

theorem roundHalfEven_le_ceil (q : ℚ) : roundHalfEven q ≤ ⌈q⌉ := by
  have hceil : ¬(q - ⌊q⌋ < 1 / 2) → ⌊q⌋ + 1 ≤ ⌈q⌉ := by
    intro hhalf
    rw [Int.add_one_le_iff, Int.lt_ceil]
    linarith
  have hfloor : ⌊q⌋ ≤ ⌈q⌉ := Int.floor_le_ceil q
  unfold roundHalfEven
  split_ifs with hlow
  · exact hfloor
  · exact hceil hlow
  · exact hfloor
  · exact hceil hlow

/-- An even number is not reached from below its midpoint. -/
theorem roundHalfEven_lt_iff {n : ℤ} (hn : n % 2 = 0) (q : ℚ) :
    roundHalfEven q < n ↔ q < n - 1 / 2 := by
  have hfloor := Int.floor_le q
  have hnext := Int.lt_floor_add_one q
  rcases lt_trichotomy ⌊q⌋ (n - 1) with hlt | heq | hgt
  · have hround : roundHalfEven q < n := by
      unfold roundHalfEven
      split_ifs <;> omega
    have hcast : (⌊q⌋ : ℚ) + 1 ≤ n - 1 := by exact_mod_cast (by omega : ⌊q⌋ + 1 ≤ n - 1)
    exact ⟨fun _ => by linarith, fun _ => hround⟩
  · have hcast : (⌊q⌋ : ℚ) = n - 1 := by exact_mod_cast heq
    have hodd : ¬⌊q⌋ % 2 = 0 := by omega
    unfold roundHalfEven
    rw [if_neg hodd, ite_self]
    split_ifs with hhalf
    · exact ⟨fun _ => by linarith, fun _ => by omega⟩
    · exact ⟨fun h => by omega, fun h => absurd (by linarith) hhalf⟩
  · have hround := floor_le_roundHalfEven q
    have hcast : (n : ℚ) ≤ ⌊q⌋ := by exact_mod_cast (by omega : n ≤ ⌊q⌋)
    exact ⟨fun h => by omega, fun h => by linarith⟩

section Significand
variable {q : ℚ} {l e : ℤ}

theorem roundHalfEven_nonneg (hq : 0 ≤ q) : 0 ≤ roundHalfEven q :=
  (Int.floor_nonneg.mpr hq).trans (floor_le_roundHalfEven q)

theorem zpow_mul_ulp (e d : ℤ) : (2 : ℚ) ^ d * 2 ^ (e - 23) = 2 ^ (e - 23 + d) := by
  rw [← zpow_add₀ (by norm_num), add_comm]

theorem significand_le (hq : q < (2 : ℚ) ^ (l + 1)) (h : l ≤ e) :
    roundHalfEven (q / 2 ^ (e - 23)) ≤ 2 ^ 24 := by
  have hscaled : q / (2 : ℚ) ^ (e - 23) ≤ ((2 ^ 24 : ℤ) : ℚ) := by
    have hpow : (2 : ℚ) ^ (l + 1) ≤ 2 ^ (e - 23 + 24) :=
      zpow_le_zpow_right₀ (by norm_num) (by omega)
    have hsame := zpow_mul_ulp e 24
    rw [div_le_iff₀ (by positivity)]
    push_cast
    linarith
  exact (roundHalfEven_le_ceil _).trans (Int.ceil_le.mpr hscaled)

theorem le_significand (hq : (2 : ℚ) ^ l ≤ q) : 2 ^ 23 ≤ roundHalfEven (q / 2 ^ (l - 23)) := by
  have hscaled : (2 : ℤ) ^ 23 ≤ ⌊q / (2 : ℚ) ^ (l - 23)⌋ := by
    have hsame := zpow_mul_ulp l 23
    rw [sub_add_cancel] at hsame
    rw [Int.le_floor, le_div_iff₀ (by positivity)]
    push_cast
    linarith
  exact hscaled.trans (floor_le_roundHalfEven _)

end Significand

/-- The bit pattern is that of a finite number exactly below the threshold. -/
theorem nearestBits_lt_iff {q : ℚ} (hq : 0 < q) :
    nearestBits q < 255 * 2 ^ 23 ↔ q < overflowThreshold := by
  obtain ⟨hlow, hhigh⟩ := floorLog2_spec hq
  unfold nearestBits
  dsimp only
  generalize floorLog2 q = l at hlow hhigh ⊢
  have hnonneg : ∀ e : ℤ, 0 ≤ roundHalfEven (q / 2 ^ (e - 23)) := fun e =>
    roundHalfEven_nonneg (by positivity)
  rcases lt_trichotomy l 127 with hlt | rfl | hgt
  · have hexp : l ≤ max l (-126) := le_max_left _ _
    have hmax : max l (-126) ≤ 126 := max_le (by omega) (by omega)
    have hmin : -126 ≤ max l (-126) := le_max_right _ _
    generalize max l (-126) = e at hexp hmax hmin ⊢
    have hround := significand_le hhigh hexp
    have hsig := hnonneg e
    have hbelow : q < overflowThreshold := by
      have hpow : (2 : ℚ) ^ (l + 1) ≤ 2 ^ (127 : ℤ) :=
        zpow_le_zpow_right₀ (by norm_num) (by omega)
      unfold overflowThreshold
      norm_num at hpow ⊢
      linarith
    exact ⟨fun _ => hbelow, fun _ => by omega⟩
  · have hmax : max (127 : ℤ) (-126) = 127 := by decide
    rw [hmax]
    have hsig := hnonneg 127
    have hiff := roundHalfEven_lt_iff (n := 2 ^ 24) (by decide) (q / (2 : ℚ) ^ ((127 : ℤ) - 23))
    have hthreshold : q / (2 : ℚ) ^ ((127 : ℤ) - 23) < ((2 ^ 24 : ℤ) : ℚ) - 1 / 2 ↔
        q < overflowThreshold := by
      rw [div_lt_iff₀ (by positivity)]
      unfold overflowThreshold
      norm_num
    rw [← hthreshold, ← hiff]
    omega
  · have hmax : max l (-126) = l := max_eq_left (by omega)
    rw [hmax]
    have hround := le_significand hlow
    have habove : overflowThreshold ≤ q := by
      have hpow : (2 : ℚ) ^ (128 : ℤ) ≤ 2 ^ l := zpow_le_zpow_right₀ (by norm_num) (by omega)
      unfold overflowThreshold
      norm_num at hpow ⊢
      linarith
    exact ⟨fun h => by omega, fun h => absurd habove (not_le.mpr h)⟩

/-- Packing a float overflows on the finite numbers from the threshold on. -/
theorem packFloat_eq_none {value : PyFloat} :
    packFloat value = none ↔ ∃ q, value = .finite q ∧ overflowThreshold ≤ |q| := by
  cases value with
  | nan | inf | negZero => simp [packFloat]
  | finite q =>
    have hpos : 0 < overflowThreshold := by
      unfold overflowThreshold
      norm_num
    unfold packFloat
    dsimp only
    by_cases hzero : q = 0
    · simp [hzero, hpos]
    · have hiff := nearestBits_lt_iff (abs_pos.mpr hzero)
      rw [if_neg hzero]
      split
      · rename_i hlt
        simpa using hiff.mp hlt
      · rename_i hge
        have hle := not_lt.mp (mt hiff.mpr hge)
        simpa using hle

theorem roundHalfEven_near (q : ℚ) : |(roundHalfEven q : ℚ) - q| ≤ 1 / 2 := by
  have hlow := Int.floor_le q
  have hhigh := Int.lt_floor_add_one q
  unfold roundHalfEven
  split_ifs <;> push_cast <;> rw [abs_le] <;> constructor <;> linarith

theorem roundHalfEven_mul_near {u : ℚ} (hu : 0 < u) (q : ℚ) :
    |(roundHalfEven (q / u) : ℚ) * u - q| ≤ u / 2 := by
  have hnear := roundHalfEven_near (q / u)
  have hscaled : (roundHalfEven (q / u) : ℚ) * u - q = (roundHalfEven (q / u) - q / u) * u := by
    rw [sub_mul, div_mul_cancel₀ _ hu.ne']
  rw [hscaled, abs_mul, abs_of_pos hu]
  nlinarith

theorem floorLog2_nonneg {q : ℚ} (h1 : 1 ≤ q) : 0 ≤ floorLog2 q := by
  have hhigh := (floorLog2_spec (by linarith : 0 < q)).2
  by_contra hneg
  have hpow : (2 : ℚ) ^ (floorLog2 q + 1) ≤ 2 ^ (0 : ℤ) :=
    zpow_le_zpow_right₀ (by norm_num) (by omega)
  rw [zpow_zero] at hpow
  linarith

/-- From 1 to 128 a bit pattern stands for a number that is not far from the one it was made of. -/
theorem nearestBits_near {q : ℚ} (h1 : 1 ≤ q) (h : q < 128) :
    ∃ l sig : ℤ, 2 ^ 23 ≤ sig ∧ sig ≤ 2 ^ 24 ∧ (nearestBits q : ℤ) = (l + 126) * 2 ^ 23 + sig ∧
      |(sig : ℚ) * 2 ^ (l - 23) - q| ≤ 1 / 2 ^ 18 := by
  obtain ⟨hlow, hhigh⟩ := floorLog2_spec (by linarith : 0 < q)
  have hpos := floorLog2_nonneg h1
  have hexp : floorLog2 q ≤ 6 := by
    by_contra hge
    have hpow : (2 : ℚ) ^ (7 : ℤ) ≤ 2 ^ floorLog2 q := zpow_le_zpow_right₀ (by norm_num) (by omega)
    norm_num at hpow
    linarith
  have hsigLow := le_significand hlow
  have hsigHigh := significand_le hhigh le_rfl
  have hnear := roundHalfEven_mul_near (u := (2 : ℚ) ^ (floorLog2 q - 23)) (by positivity) q
  have hulp : (2 : ℚ) ^ (floorLog2 q - 23) ≤ 2 ^ (-17 : ℤ) :=
    zpow_le_zpow_right₀ (by norm_num) (by omega)
  refine ⟨floorLog2 q, _, hsigLow, hsigHigh, ?_, ?_⟩
  · have hmax : max (floorLog2 q) (-126) = floorLog2 q := max_eq_left (by omega)
    unfold nearestBits
    rw [hmax]
    dsimp only
    omega
  · norm_num at hulp ⊢
    linarith

/-- Numbers that are one apart have patterns of their own. -/
theorem nearestBits_ne {q r : ℚ} (hq : 1 ≤ q) (h : q + 1 ≤ r) (hr : r < 128) :
    nearestBits q ≠ nearestBits r := by
  intro heq
  obtain ⟨l, sig, hlow, hhigh, hbits, hnear⟩ := nearestBits_near hq (by linarith)
  obtain ⟨l', sig', hlow', hhigh', hbits', hnear'⟩ := nearestBits_near (by linarith : 1 ≤ r) hr
  have hsame : (sig : ℚ) * 2 ^ (l - 23) = sig' * 2 ^ (l' - 23) := by
    have hcases : (l = l' ∧ sig = sig') ∨ (l' = l + 1 ∧ sig = 2 * sig') ∨
        (l = l' + 1 ∧ sig' = 2 * sig) := by
      omega
    -- a carry of one pattern is the first significand of the next exponent
    have hcarry : ∀ e : ℤ, (2 : ℚ) ^ (e + 1 - 23) = 2 * 2 ^ (e - 23) := fun e => by
      rw [← zpow_one_add₀ two_ne_zero]
      congr 1
      ring
    rcases hcases with ⟨rfl, rfl⟩ | ⟨rfl, rfl⟩ | ⟨rfl, rfl⟩
    · rfl
    · rw [hcarry]
      push_cast
      ring
    · rw [hcarry]
      push_cast
      ring
  rw [hsame] at hnear
  have hbelow := (abs_le.mp hnear).2
  have habove := (abs_le.mp hnear').1
  norm_num at hbelow habove
  linarith

theorem nearestBits_pos {q : ℚ} (h1 : 1 ≤ q) : 0 < nearestBits q := by
  obtain ⟨hlow, hhigh⟩ := floorLog2_spec (by linarith : 0 < q)
  have hpos := floorLog2_nonneg h1
  have hsig := le_significand hlow
  have hmax : max (floorLog2 q) (-126) = floorLog2 q := max_eq_left (by omega)
  unfold nearestBits
  rw [hmax]
  dsimp only
  omega

theorem packFloat_lt {value : PyFloat} {bits : ℕ} (h : packFloat value = some bits) :
    bits < 256 ^ 4 := by
  cases value with
  | nan | negZero =>
    cases h
    decide
  | inf negative =>
    cases h
    cases negative <;> decide
  | finite q =>
    unfold packFloat at h
    dsimp only at h
    split_ifs at h <;> cases h <;> omega

end HomeServer.Struct
