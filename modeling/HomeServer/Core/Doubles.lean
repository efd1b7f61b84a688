import HomeServer.Core.Binary32
import HomeServer.Core.PyText

/-! Arithmetic on binary64 numbers as far as the synthetic readings use it: a natural number as a
float, and a float times or plus a positive literal. -/
namespace HomeServer.PyFloat
open HomeServer.Struct HomeServer.PyText

/-- The binary64 nearest to a number. -/
def rounded (q : ℚ) : PyFloat :=
  if q < 0 then negated (nearestDouble (-q)) else nearestDouble q

/-- `float(n)`. -/
def float (n : ℤ) : Except Err PyFloat :=
  match rounded n with
  | .inf _ => .error .overflowError
  | x => .ok x

/-- `k * x` for a positive `k`; the quotient by a literal is the product with its inverse, rounded
once. -/
def scale (k : ℚ) : PyFloat → PyFloat
  | .nan => .nan
  | .inf negative => .inf negative
  | .negZero => .negZero
  | .finite q => rounded (k * q)

/-- `k + x` for a positive float `k`. -/
def shift (k : ℚ) : PyFloat → PyFloat
  | .nan => .nan
  | .inf negative => .inf negative
  | .negZero => .finite k
  | .finite q => rounded (k + q)

example : (float 1).map (scale (1 / 10)) = .ok (.finite (3602879701896397 / 2 ^ 55)) := by
  decide +kernel

theorem nearestDouble_ge_one {q : ℚ} (h1 : 1 ≤ q) :
    nearestDouble q = .inf false ∨ ∃ r, nearestDouble q = .finite r ∧ 1 ≤ r := by
  have hexp := floorLog2_nonneg h1
  have hlow := (floorLog2_spec (by linarith : 0 < q)).1
  have hmax : max (floorLog2 q) (-1022) = floorLog2 q := max_eq_left (by omega)
  have hscaled : (2 : ℚ) ^ (52 : ℤ) ≤ q / 2 ^ (floorLog2 q - 52) := by
    rw [le_div_iff₀ (by positivity), ← zpow_add₀ two_ne_zero, add_sub_cancel]
    exact hlow
  have hfloor : (2 : ℤ) ^ 52 ≤ ⌊q / (2 : ℚ) ^ (floorLog2 q - 52)⌋ := by
    rw [Int.le_floor]
    exact_mod_cast hscaled
  have hround := hfloor.trans (floor_le_roundHalfEven _)
  unfold nearestDouble
  rw [if_neg (by linarith), hmax]
  dsimp only
  split_ifs
  · refine Or.inr ⟨_, rfl, ?_⟩
    calc (1 : ℚ) ≤ 2 ^ floorLog2 q := one_le_zpow₀ (by norm_num) hexp
      _ = 2 ^ (52 : ℤ) * 2 ^ (floorLog2 q - 52) := by
        rw [← zpow_add₀ two_ne_zero, add_sub_cancel]
      _ ≤ _ := by
        gcongr
        exact_mod_cast hround
  · exact Or.inl rfl

/-- An integer but zero is a float that is no smaller than one, or too large for a float. -/
theorem float_of_ne_zero {k : ℤ} (hk : k ≠ 0) :
    float k = .error .overflowError ∨ ∃ r, float k = .ok (.finite r) ∧ 1 ≤ |r| := by
  unfold float rounded
  split_ifs with hneg
  · have hk1 : k ≤ -1 := by
      have hlt : k < 0 := by exact_mod_cast hneg
      omega
    have hcast : (k : ℚ) ≤ -1 := by exact_mod_cast hk1
    rcases nearestDouble_ge_one (q := -(k : ℚ)) (by linarith) with hinf | ⟨r, hr, hr1⟩
    · rw [hinf]
      exact Or.inl rfl
    · have hr0 : ¬r = 0 := by linarith
      rw [hr, negated, if_neg hr0]
      exact Or.inr ⟨-r, rfl, by rw [abs_neg]; exact hr1.trans (le_abs_self r)⟩
  · have hk1 : 1 ≤ k := by
      have hge : 0 ≤ k := by exact_mod_cast not_lt.mp hneg
      omega
    rcases nearestDouble_ge_one (q := (k : ℚ)) (by exact_mod_cast hk1) with hinf | ⟨r, hr, hr1⟩
    · rw [hinf]
      exact Or.inl rfl
    · rw [hr]
      exact Or.inr ⟨r, rfl, hr1.trans (le_abs_self r)⟩

def Near (x : PyFloat) (q error : ℚ) : Prop := ∃ r, x.toRat? = some r ∧ |r - q| ≤ error

section Near
variable {x : PyFloat} {q k error : ℚ}

theorem nearestDouble_near (h0 : 0 ≤ q) (h : q < 128) :
    ∃ r, nearestDouble q = .finite r ∧ |r - q| ≤ 1 / 2 ^ 46 := by
  unfold nearestDouble
  split_ifs with hzero
  · exact ⟨0, rfl, by simp [hzero]⟩
  have hlow := (floorLog2_spec (lt_of_le_of_ne h0 (Ne.symm hzero))).1
  have hexp : floorLog2 q ≤ 6 := by
    by_contra hge
    have hpow : (2 : ℚ) ^ (7 : ℤ) ≤ 2 ^ floorLog2 q := zpow_le_zpow_right₀ (by norm_num) (by omega)
    norm_num at hpow
    linarith
  have hmax : max (floorLog2 q) (-1022) ≤ 6 := max_le hexp (by omega)
  dsimp only
  generalize max (floorLog2 q) (-1022) = e at hmax ⊢
  have hulp : (2 : ℚ) ^ (e - 52) ≤ 2 ^ (-46 : ℤ) := zpow_le_zpow_right₀ (by norm_num) (by omega)
  have hnear := roundHalfEven_mul_near (u := (2 : ℚ) ^ (e - 52)) (by positivity) q
  have hpos : (0 : ℚ) < 2 ^ (e - 52) := by positivity
  have herror : |(roundHalfEven (q / 2 ^ (e - 52)) : ℚ) * 2 ^ (e - 52) - q| ≤ 1 / 2 ^ 46 := by
    norm_num at hulp ⊢
    linarith
  have hsmall : (roundHalfEven (q / 2 ^ (e - 52)) : ℚ) * 2 ^ (e - 52) < 2 ^ 1024 := by
    have habove := (abs_le.mp herror).2
    have hbelow : (roundHalfEven (q / 2 ^ (e - 52)) : ℚ) * 2 ^ (e - 52) < 2 ^ 8 := by
      norm_num at habove ⊢
      linarith
    exact hbelow.trans_le (pow_le_pow_right₀ (by norm_num) (by omega))
  rw [if_pos hsmall]
  exact ⟨_, rfl, herror⟩

theorem near_negated (h : Near x q error) : Near (negated x) (-q) error := by
  obtain ⟨r, hr, herror⟩ := h
  have hneg : |(-r) - (-q)| ≤ error := by
    rw [← neg_sub', abs_neg]
    exact herror
  cases x with
  | nan | inf => cases hr
  | negZero =>
    cases hr
    exact ⟨0, rfl, by simpa using hneg⟩
  | finite r =>
    cases hr
    unfold negated
    dsimp only
    split_ifs with hzero
    · exact ⟨0, rfl, by simpa [hzero] using hneg⟩
    · exact ⟨_, rfl, hneg⟩

theorem rounded_near (h : |q| < 128) : Near (rounded q) q (1 / 2 ^ 46) := by
  unfold rounded
  split_ifs with hneg
  · obtain ⟨r, hr, herror⟩ := nearestDouble_near (q := -q) (by linarith)
      (by rwa [abs_of_neg hneg] at h)
    have hnear := near_negated (x := nearestDouble (-q)) (by rw [hr]; exact ⟨r, rfl, herror⟩)
    rwa [neg_neg] at hnear
  · obtain ⟨r, hr, herror⟩ := nearestDouble_near (not_lt.mp hneg) (lt_of_abs_lt h)
    rw [hr]
    exact ⟨r, rfl, herror⟩

theorem scale_near (hk : 0 < k) (h : Near x q error) (hsmall : k * (|q| + error) < 128) :
    Near (scale k x) (k * q) (k * error + 1 / 2 ^ 46) := by
  obtain ⟨r, hr, herror⟩ := h
  have hscaled : |k * r - k * q| ≤ k * error := by
    rw [← mul_sub, abs_mul, abs_of_pos hk]
    gcongr
  have hbound : |k * r| < 128 := by
    have htriangle := abs_add_le (k * r - k * q) (k * q)
    rw [sub_add_cancel, abs_mul k q, abs_of_pos hk] at htriangle
    linarith
  have hround : Near (scale k x) (k * r) (1 / 2 ^ 46) := by
    cases x with
    | nan | inf => cases hr
    | negZero =>
      cases hr
      exact ⟨0, rfl, by norm_num⟩
    | finite r =>
      cases hr
      exact rounded_near hbound
  obtain ⟨s, hs, hserror⟩ := hround
  refine ⟨s, hs, ?_⟩
  have htriangle := abs_sub_le s (k * r) (k * q)
  linarith

theorem shift_near (h : Near x q error) (hsmall : |k + q| + error < 128) :
    Near (shift k x) (k + q) (error + 1 / 2 ^ 46) := by
  obtain ⟨r, hr, herror⟩ := h
  have hshifted : (k + r) - (k + q) = r - q := by ring
  have hbound : |k + r| < 128 := by
    have htriangle := abs_add_le ((k + r) - (k + q)) (k + q)
    rw [sub_add_cancel, hshifted] at htriangle
    linarith
  have hround : Near (shift k x) (k + r) (1 / 2 ^ 46) := by
    cases x with
    | nan | inf => cases hr
    | negZero =>
      cases hr
      exact ⟨k, rfl, by norm_num⟩
    | finite r =>
      cases hr
      exact rounded_near hbound
  obtain ⟨s, hs, hserror⟩ := hround
  refine ⟨s, hs, ?_⟩
  have htriangle := abs_sub_le s (k + r) (k + q)
  rw [hshifted] at htriangle
  linarith

theorem Near.isFinite (h : Near x q error) : x.isFinite = true := by
  obtain ⟨r, hr, -⟩ := h
  cases x with
  | nan | inf => cases hr
  | negZero | finite => rfl

theorem float_near {n : ℤ} (h : |(n : ℚ)| < 128) :
    ∃ x, float n = .ok x ∧ Near x n (1 / 2 ^ 46) := by
  have hnear := rounded_near h
  have hfinite := hnear.isFinite
  refine ⟨rounded n, ?_, hnear⟩
  unfold float
  cases hround : rounded n with
  | inf negative =>
    rw [hround] at hfinite
    cases hfinite
  | nan | negZero | finite => rfl

end Near

section Bounded
variable {x : PyFloat} {q k : ℚ} {n : ℕ}

/-- Rounding does not cross a power of two. -/
theorem nearestDouble_le (h0 : 0 ≤ q) (h : q < 2 ^ n) (hn : n < 1024) :
    ∃ r, nearestDouble q = .finite r ∧ 0 ≤ r ∧ r ≤ 2 ^ n := by
  unfold nearestDouble
  split_ifs with hzero
  · exact ⟨0, rfl, le_rfl, by positivity⟩
  have hlow := (floorLog2_spec (lt_of_le_of_ne h0 (Ne.symm hzero))).1
  have hexp : floorLog2 q < n := by
    by_contra hge
    have hpow : (2 : ℚ) ^ (n : ℤ) ≤ 2 ^ floorLog2 q :=
      zpow_le_zpow_right₀ (by norm_num) (by omega)
    rw [zpow_natCast] at hpow
    linarith
  have hmax : max (floorLog2 q) (-1022) < n := max_lt hexp (by omega)
  dsimp only
  generalize max (floorLog2 q) (-1022) = e at hmax ⊢
  have hpos : (0 : ℚ) < 2 ^ (e - 52) := by positivity
  have hscaled : q / 2 ^ (e - 52) ≤ ((2 ^ (n - e + 52).toNat : ℤ) : ℚ) := by
    rw [div_le_iff₀ hpos]
    push_cast
    rw [← zpow_natCast, ← zpow_add₀ two_ne_zero]
    have hsum : ((n - e + 52).toNat : ℤ) + (e - 52) = n := by omega
    rw [hsum, zpow_natCast]
    exact h.le
  have hround : roundHalfEven (q / 2 ^ (e - 52)) ≤ 2 ^ (n - e + 52).toNat :=
    (roundHalfEven_le_ceil _).trans (Int.ceil_le.mpr hscaled)
  have hnonneg : 0 ≤ roundHalfEven (q / 2 ^ (e - 52)) := roundHalfEven_nonneg (by positivity)
  have hle : (roundHalfEven (q / 2 ^ (e - 52)) : ℚ) * 2 ^ (e - 52) ≤ 2 ^ n := by
    have hcast : (roundHalfEven (q / 2 ^ (e - 52)) : ℚ) ≤ 2 ^ (n - e + 52).toNat := by
      exact_mod_cast hround
    calc (roundHalfEven (q / 2 ^ (e - 52)) : ℚ) * 2 ^ (e - 52)
        ≤ 2 ^ (n - e + 52).toNat * 2 ^ (e - 52) := by gcongr
      _ = 2 ^ n := by
        rw [← zpow_natCast, ← zpow_add₀ two_ne_zero]
        have hsum : ((n - e + 52).toNat : ℤ) + (e - 52) = n := by omega
        rw [hsum, zpow_natCast]
  have hsmall : (roundHalfEven (q / 2 ^ (e - 52)) : ℚ) * 2 ^ (e - 52) < 2 ^ 1024 :=
    hle.trans_lt (pow_lt_pow_right₀ (by norm_num) hn)
  rw [if_pos hsmall]
  exact ⟨_, rfl, mul_nonneg (by exact_mod_cast hnonneg) hpos.le, hle⟩

theorem rounded_le (h : |q| < 2 ^ n) (hn : n < 1024) :
    ∃ r, (rounded q).toRat? = some r ∧ |r| ≤ 2 ^ n := by
  unfold rounded
  split_ifs with hneg
  · have hq : -q < 2 ^ n := by rwa [← abs_of_neg hneg]
    obtain ⟨r, hr, hr0, hle⟩ := nearestDouble_le (by linarith) hq hn
    rw [hr, negated]
    split_ifs with hzero
    · exact ⟨0, rfl, by simp⟩
    · exact ⟨-r, rfl, by rwa [abs_neg, abs_of_nonneg hr0]⟩
  · obtain ⟨r, hr, hr0, hle⟩ := nearestDouble_le (not_lt.mp hneg) (lt_of_abs_lt h) hn
    rw [hr]
    exact ⟨r, rfl, by rwa [abs_of_nonneg hr0]⟩

theorem float_le {m : ℤ} (h : |(m : ℚ)| < 2 ^ n) (hn : n < 1024) :
    ∃ x r, float m = .ok x ∧ x.toRat? = some r ∧ |r| ≤ 2 ^ n := by
  obtain ⟨r, hr, hle⟩ := rounded_le h hn
  refine ⟨rounded m, r, ?_, hr, hle⟩
  unfold float
  cases hround : rounded m with
  | inf negative =>
    rw [hround] at hr
    cases hr
  | nan | negZero | finite => rfl

theorem isFinite_of_toRat {r : ℚ} (h : x.toRat? = some r) : x.isFinite = true := by
  cases x with
  | nan | inf => cases h
  | negZero | finite => rfl

theorem scale_isFinite {r : ℚ} (hr : x.toRat? = some r) (h : |k * r| < 2 ^ n) (hn : n < 1024) :
    (scale k x).isFinite = true := by
  cases x with
  | nan | inf => cases hr
  | negZero => rfl
  | finite q =>
    cases hr
    obtain ⟨s, hs, -⟩ := rounded_le h hn
    exact isFinite_of_toRat hs

end Bounded
end HomeServer.PyFloat
