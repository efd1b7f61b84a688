import HomeServer.Core.Binary32
import HomeServer.Core.Packing

/-! `struct.pack` and `struct.unpack` of a binary32: what is unpacked is packed as it was, and
packing takes the nearest of all the values there are, the even pattern at a midpoint. -/
namespace HomeServer.Struct

def magnitude (bits : ℕ) : ℚ :=
  if bits / 2 ^ 23 % 256 = 0 then ((bits % 2 ^ 23 : ℕ) : ℚ) / 2 ^ 149
  else ((2 ^ 23 + bits % 2 ^ 23 : ℕ) : ℚ) * 2 ^ (bits / 2 ^ 23 % 256) / 2 ^ 150

def IsValue (v : ℚ) : Prop :=
  ∃ bits < 255 * 2 ^ 23, v = magnitude bits ∨ v = -magnitude bits

theorem IsValue.neg {v : ℚ} (h : IsValue v) : IsValue (-v) := by
  obtain ⟨bits, hbits, rfl | rfl⟩ := h
  · exact ⟨bits, hbits, Or.inr rfl⟩
  · exact ⟨bits, hbits, Or.inl (neg_neg _)⟩

section Rounding
variable {q u : ℚ}

@[simp] theorem roundHalfEven_intCast (n : ℤ) : roundHalfEven (n : ℚ) = n := by
  simp [roundHalfEven]

/-- Away from its neighbour at a midpoint only an even number is rounded to. -/
theorem roundHalfEven_even_of_midpoint (h : 1 / 2 ≤ |(roundHalfEven q : ℚ) - q|) :
    roundHalfEven q % 2 = 0 := by
  have hlow := Int.floor_le q
  have hhigh := Int.lt_floor_add_one q
  unfold roundHalfEven at h ⊢
  split_ifs at h ⊢ with hbelow habove heven
  · rw [abs_sub_comm, abs_of_nonneg (by linarith)] at h
    linarith
  · push_cast at h
    rw [abs_of_nonneg (by linarith)] at h
    linarith
  · exact heven
  · omega

/-- Every other integer is farther away, or as far and the choice is even. -/
theorem roundHalfEven_nearest (q : ℚ) {n : ℤ} (hn : n ≠ roundHalfEven q) :
    |(roundHalfEven q : ℚ) - q| ≤ |(n : ℚ) - q| ∧
      (|(roundHalfEven q : ℚ) - q| = |(n : ℚ) - q| → roundHalfEven q % 2 = 0) := by
  have herror := roundHalfEven_near q
  have happart : (1 : ℚ) ≤ |(n : ℚ) - roundHalfEven q| := by
    have hpos := abs_pos.mpr (sub_ne_zero.mpr hn)
    exact_mod_cast (by omega : (1 : ℤ) ≤ |n - roundHalfEven q|)
  have htriangle := abs_sub_le (n : ℚ) q (roundHalfEven q)
  rw [abs_sub_comm q] at htriangle
  refine ⟨by linarith, fun htie => ?_⟩
  apply roundHalfEven_even_of_midpoint
  linarith

theorem abs_mul_sub (hu : 0 < u) (a : ℚ) : |a * u - q| = |a - q / u| * u := by
  rw [← abs_of_pos hu, ← abs_mul, abs_of_pos hu, sub_mul, div_mul_cancel₀ _ hu.ne']

theorem roundHalfEven_mul_nearest (hu : 0 < u) (q : ℚ) {n : ℤ} (hn : n ≠ roundHalfEven (q / u)) :
    |(roundHalfEven (q / u) : ℚ) * u - q| ≤ |(n : ℚ) * u - q| ∧
      (|(roundHalfEven (q / u) : ℚ) * u - q| = |(n : ℚ) * u - q| →
        roundHalfEven (q / u) % 2 = 0) := by
  obtain ⟨hle, htie⟩ := roundHalfEven_nearest (q / u) hn
  rw [abs_mul_sub hu, abs_mul_sub hu]
  refine ⟨by gcongr, fun hsame => htie ?_⟩
  exact mul_right_cancel₀ hu.ne' hsame

end Rounding

/-- A significand, or the carry out of one, and the exponent it is scaled by. -/
theorem magnitude_eq {k sig : ℕ} (hk : k < 254) (hlow : k = 0 ∨ 2 ^ 23 ≤ sig)
    (hhigh : sig ≤ 2 ^ 24) : magnitude (k * 2 ^ 23 + sig) = sig * (2 : ℚ) ^ ((k : ℤ) - 149) := by
  have hscale : (2 : ℚ) ^ ((k : ℤ) - 149) = 2 ^ k / 2 ^ 149 := by
    rw [zpow_sub₀ two_ne_zero]
    norm_cast
  unfold magnitude
  rw [hscale]
  rcases lt_or_ge sig (2 ^ 23) with hsub | hnormal
  · have hzero : k = 0 := by omega
    subst hzero
    rw [if_pos (by omega), show (0 * 2 ^ 23 + sig) % 2 ^ 23 = sig by omega]
    ring
  · rw [if_neg (by omega)]
    rcases lt_or_ge sig (2 ^ 24) with hplain | hcarry
    · rw [show (k * 2 ^ 23 + sig) / 2 ^ 23 % 256 = k + 1 by omega,
        show 2 ^ 23 + (k * 2 ^ 23 + sig) % 2 ^ 23 = sig by omega]
      ring
    · rw [show (k * 2 ^ 23 + sig) / 2 ^ 23 % 256 = k + 2 by omega,
        show 2 ^ 23 + (k * 2 ^ 23 + sig) % 2 ^ 23 = 2 ^ 23 by omega,
        show sig = 2 ^ 24 by omega]
      push_cast
      ring

/-- The exponent and the significand of a finite pattern. -/
theorem exists_significand {bits : ℕ} (h : bits < 255 * 2 ^ 23) :
    ∃ k sig : ℕ, bits = k * 2 ^ 23 + sig ∧ k < 254 ∧ (k = 0 ∨ 2 ^ 23 ≤ sig) ∧ sig < 2 ^ 24 := by
  rcases Nat.eq_zero_or_pos (bits / 2 ^ 23) with hsub | hnormal
  · exact ⟨0, bits, by omega, by omega, by omega, by omega⟩
  · exact ⟨bits / 2 ^ 23 - 1, 2 ^ 23 + bits % 2 ^ 23, by omega, by omega, by omega, by omega⟩

theorem magnitude_pos {bits : ℕ} (h0 : 0 < bits) (h : bits < 255 * 2 ^ 23) :
    0 < magnitude bits := by
  obtain ⟨k, sig, rfl, hk, hlow, hhigh⟩ := exists_significand h
  have hsig : 0 < sig := by omega
  rw [magnitude_eq hk hlow hhigh.le]
  positivity

/-- A value is a multiple of a spacing, or below the numbers that the spacing belongs to. -/
theorem IsValue.grid {v : ℚ} (h : IsValue v) (k : ℕ) :
    (∃ n : ℤ, v = n * (2 : ℚ) ^ ((k : ℤ) - 149)) ∨
      (0 < k ∧ v < 2 ^ 23 * (2 : ℚ) ^ ((k : ℤ) - 149)) := by
  obtain ⟨bits, hbits, hv⟩ := h
  obtain ⟨k', sig, rfl, hk', hlow, hhigh⟩ := exists_significand hbits
  rw [magnitude_eq hk' hlow hhigh.le] at hv
  rcases le_or_gt k k' with hle | hlt
  · have hscale : (2 : ℚ) ^ ((k' : ℤ) - 149) = 2 ^ (k' - k) * 2 ^ ((k : ℤ) - 149) := by
      rw [← zpow_natCast, ← zpow_add₀ two_ne_zero]
      congr 1
      omega
    rw [hscale] at hv
    rcases hv with rfl | rfl
    · refine Or.inl ⟨sig * 2 ^ (k' - k), ?_⟩
      push_cast
      ring
    · refine Or.inl ⟨-(sig * 2 ^ (k' - k)), ?_⟩
      push_cast
      ring
  · refine Or.inr ⟨by omega, ?_⟩
    have hsig : (sig : ℚ) < 2 ^ 24 := by exact_mod_cast hhigh
    have hscale : (2 : ℚ) ^ ((k' : ℤ) - 149) ≤ 2 ^ ((k : ℤ) - 150) :=
      zpow_le_zpow_right₀ (by norm_num) (by omega)
    have hbelow : (sig : ℚ) * 2 ^ ((k' : ℤ) - 149) < 2 ^ 23 * (2 : ℚ) ^ ((k : ℤ) - 149) := by
      calc (sig : ℚ) * 2 ^ ((k' : ℤ) - 149)
          < 2 ^ 24 * 2 ^ ((k' : ℤ) - 149) := by gcongr
        _ ≤ 2 ^ 24 * 2 ^ ((k : ℤ) - 150) := by gcongr
        _ = 2 ^ 23 * (2 : ℚ) ^ ((k : ℤ) - 149) := by
          rw [show (k : ℤ) - 149 = 1 + (k - 150) by ring, zpow_add₀ two_ne_zero]
          ring
    have hnonneg : 0 ≤ (sig : ℚ) * 2 ^ ((k' : ℤ) - 149) := by positivity
    rcases hv with rfl | rfl <;> linarith

section Nearest
variable {q : ℚ}

/-- A positive number, the exponent it is scaled by and the significand it is rounded to. -/
theorem nearestBits_eq (hq : 0 < q) :
    ∃ k sig : ℕ, nearestBits q = k * 2 ^ 23 + sig ∧
      (sig : ℤ) = roundHalfEven (q / 2 ^ ((k : ℤ) - 149)) ∧ sig ≤ 2 ^ 24 ∧
      (k = 0 ∨ 2 ^ 23 ≤ sig ∧ 2 ^ 23 * (2 : ℚ) ^ ((k : ℤ) - 149) ≤ q) := by
  obtain ⟨hlow, hhigh⟩ := floorLog2_spec hq
  have hexp : floorLog2 q ≤ max (floorLog2 q) (-126) := le_max_left _ _
  have hmin : -126 ≤ max (floorLog2 q) (-126) := le_max_right _ _
  have hnormal : max (floorLog2 q) (-126) = -126 ∨ max (floorLog2 q) (-126) = floorLog2 q :=
    (max_choice _ _).symm
  unfold nearestBits
  dsimp only
  generalize max (floorLog2 q) (-126) = e at hexp hmin hnormal ⊢
  obtain ⟨k, rfl⟩ : ∃ k : ℕ, e = k - 126 := ⟨(e + 126).toNat, by omega⟩
  have hspacing : (k : ℤ) - 126 - 23 = k - 149 := by ring
  have hsig := significand_le hhigh hexp
  have hnonneg : 0 ≤ roundHalfEven (q / 2 ^ ((k : ℤ) - 126 - 23)) :=
    roundHalfEven_nonneg (by positivity)
  rw [hspacing] at hsig hnonneg ⊢
  refine ⟨k, (roundHalfEven (q / 2 ^ ((k : ℤ) - 149))).toNat, by omega, by omega, by omega, ?_⟩
  rcases hnormal with hsub | hsame
  · left
    omega
  · right
    have hle := le_significand hlow
    rw [← hsame, hspacing] at hle
    have hscale := zpow_mul_ulp (floorLog2 q) 23
    rw [← hsame, hspacing, show (k : ℤ) - 149 + 23 = k - 126 by ring, hsame] at hscale
    refine ⟨by omega, ?_⟩
    rw [← hscale] at hlow
    exact_mod_cast hlow

/-- The pattern of a positive number stands for the nearest value, and at a midpoint it is even. -/
theorem nearestBits_nearest (hq : 0 < q) (h : nearestBits q < 255 * 2 ^ 23) {v : ℚ}
    (hv : IsValue v) :
    |magnitude (nearestBits q) - q| ≤ |v - q| ∧
      (|magnitude (nearestBits q) - q| = |v - q| →
        v = magnitude (nearestBits q) ∨ nearestBits q % 2 = 0) := by
  obtain ⟨k, sig, hbits, hsig, hhigh, hlow⟩ := nearestBits_eq hq
  have hvalue : magnitude (nearestBits q) =
      roundHalfEven (q / 2 ^ ((k : ℤ) - 149)) * (2 : ℚ) ^ ((k : ℤ) - 149) := by
    rw [hbits, magnitude_eq (by omega) (by omega) hhigh, ← hsig, Int.cast_natCast]
  have heven : nearestBits q % 2 = 0 ↔ roundHalfEven (q / 2 ^ ((k : ℤ) - 149)) % 2 = 0 := by
    omega
  have hu : (0 : ℚ) < 2 ^ ((k : ℤ) - 149) := by positivity
  rw [heven, hvalue]
  rcases hv.grid k with ⟨n, rfl⟩ | ⟨hk, hbelow⟩
  · by_cases hn : n = roundHalfEven (q / 2 ^ ((k : ℤ) - 149))
    · rw [hn]
      exact ⟨le_rfl, fun _ => Or.inl rfl⟩
    · obtain ⟨hle, htie⟩ := roundHalfEven_mul_nearest hu q hn
      exact ⟨hle, fun hsame => Or.inr (htie hsame)⟩
  · -- the least number of the spacing lies between the value and `q`
    have hbase : 2 ^ 23 * (2 : ℚ) ^ ((k : ℤ) - 149) ≤ q := by
      rcases hlow with hzero | ⟨-, hle⟩
      · omega
      · exact hle
    have hcloser : |(roundHalfEven (q / 2 ^ ((k : ℤ) - 149)) : ℚ) * 2 ^ ((k : ℤ) - 149) - q| ≤
        |((2 ^ 23 : ℤ) : ℚ) * 2 ^ ((k : ℤ) - 149) - q| := by
      by_cases hn : 2 ^ 23 = roundHalfEven (q / 2 ^ ((k : ℤ) - 149))
      · rw [← hn]
      · exact (roundHalfEven_mul_nearest hu q hn).1
    have hfarther : |((2 ^ 23 : ℤ) : ℚ) * 2 ^ ((k : ℤ) - 149) - q| < |v - q| := by
      push_cast
      rw [abs_sub_comm, abs_sub_comm v, abs_of_nonneg (by linarith), abs_of_nonneg (by linarith)]
      linarith
    have hstrict := hcloser.trans_lt hfarther
    exact ⟨hstrict.le, fun hsame => absurd hsame hstrict.ne⟩

/-- A value is the one its own pattern is nearest to. -/
theorem nearestBits_magnitude {bits : ℕ} (h0 : 0 < bits) (h : bits < 255 * 2 ^ 23) :
    nearestBits (magnitude bits) = bits := by
  obtain ⟨hlow, hhigh⟩ := floorLog2_spec (magnitude_pos h0 h)
  obtain ⟨k, sig, rfl, hk, hsig, hmax⟩ := exists_significand h
  rw [magnitude_eq hk hsig hmax.le] at hlow hhigh ⊢
  have hbelow : (sig : ℚ) * 2 ^ ((k : ℤ) - 149) < 2 ^ ((k : ℤ) - 125) := by
    have hcast : (sig : ℚ) < 2 ^ 24 := by exact_mod_cast hmax
    have hscale := zpow_mul_ulp ((k : ℤ) - 126) 24
    rw [show (k : ℤ) - 126 - 23 = k - 149 by ring, show (k : ℤ) - 149 + 24 = k - 125 by ring]
      at hscale
    rw [← hscale]
    have hu : (0 : ℚ) < 2 ^ ((k : ℤ) - 149) := by positivity
    exact mul_lt_mul_of_pos_right (by exact_mod_cast hcast) hu
  have hexp : max (floorLog2 (sig * (2 : ℚ) ^ ((k : ℤ) - 149))) (-126) = k - 126 := by
    generalize floorLog2 (sig * (2 : ℚ) ^ ((k : ℤ) - 149)) = l at hlow hhigh ⊢
    have hle : l < k - 125 := by
      rw [← zpow_lt_zpow_iff_right₀ (by norm_num : (1 : ℚ) < 2)]
      exact hlow.trans_lt hbelow
    rcases hsig with rfl | hnormal
    · omega
    · have habove : (2 : ℚ) ^ ((k : ℤ) - 126) ≤ sig * 2 ^ ((k : ℤ) - 149) := by
        have hcast : (2 : ℚ) ^ 23 ≤ sig := by exact_mod_cast hnormal
        have hscale := zpow_mul_ulp ((k : ℤ) - 126) 23
        rw [show (k : ℤ) - 126 - 23 = k - 149 by ring,
          show (k : ℤ) - 149 + 23 = k - 126 by ring] at hscale
        rw [← hscale]
        gcongr
        exact_mod_cast hcast
      have hge : (k : ℤ) - 126 < l + 1 := by
        rw [← zpow_lt_zpow_iff_right₀ (by norm_num : (1 : ℚ) < 2)]
        exact habove.trans_lt hhigh
      omega
  have hu : (2 : ℚ) ^ ((k : ℤ) - 149) ≠ 0 := by positivity
  have hround : roundHalfEven (sig * (2 : ℚ) ^ ((k : ℤ) - 149) / 2 ^ ((k : ℤ) - 149)) = sig := by
    rw [mul_div_cancel_right₀ _ hu]
    exact roundHalfEven_intCast sig
  unfold nearestBits
  rw [hexp]
  dsimp only
  rw [show (k : ℤ) - 126 - 23 = k - 149 by ring, hround]
  omega

end Nearest

theorem unpackFloat_eq (bits : ℕ) :
    unpackFloat bits =
      if bits / 2 ^ 23 % 256 = 255 then
        if bits % 2 ^ 23 = 0 then .inf (decide (bits / 2 ^ 31 % 2 = 1)) else .nan
      else if bits / 2 ^ 31 % 2 = 1 then
        if magnitude bits = 0 then .negZero else .finite (-magnitude bits)
      else .finite (magnitude bits) := by
  unfold unpackFloat magnitude
  simp only [decide_eq_true_eq]

theorem magnitude_sign (bits : ℕ) : magnitude (2 ^ 31 + bits) = magnitude bits := by
  have hexponent : (2 ^ 31 + bits) / 2 ^ 23 % 256 = bits / 2 ^ 23 % 256 := by omega
  have hfraction : (2 ^ 31 + bits) % 2 ^ 23 = bits % 2 ^ 23 := by omega
  unfold magnitude
  rw [hexponent, hfraction]

theorem magnitude_zero : magnitude 0 = 0 := by
  simp [magnitude]

/-- What is unpacked is packed as the pattern it was, unless it is no number. -/
theorem packFloat_unpackFloat {bits : ℕ} (h : bits < 2 ^ 32) (hnan : unpackFloat bits ≠ .nan) :
    packFloat (unpackFloat bits) = some bits := by
  rw [unpackFloat_eq] at hnan ⊢
  by_cases hspecial : bits / 2 ^ 23 % 256 = 255
  · rw [if_pos hspecial] at hnan ⊢
    by_cases hfraction : bits % 2 ^ 23 = 0
    · rw [if_pos hfraction]
      by_cases hsign : bits / 2 ^ 31 % 2 = 1
      · have hbits : bits = 0xff800000 := by omega
        rw [hbits]
        rfl
      · have hbits : bits = 0x7f800000 := by omega
        rw [hbits]
        rfl
    · rw [if_neg hfraction] at hnan
      exact absurd rfl hnan
  · rw [if_neg hspecial]
    have hpack : ∀ low : ℕ, 0 < low → low < 255 * 2 ^ 23 →
        packFloat (.finite (magnitude low)) = some low ∧
          packFloat (.finite (-magnitude low)) = some (2 ^ 31 + low) := by
      intro low h0 hlow
      have hpos := magnitude_pos h0 hlow
      have hbits := nearestBits_magnitude h0 hlow
      unfold packFloat
      dsimp only
      rw [if_neg hpos.ne', if_neg (neg_ne_zero.mpr hpos.ne'), abs_neg, abs_of_pos hpos, hbits,
        if_pos hlow, if_pos hlow, if_neg hpos.le.not_gt, if_pos (neg_lt_zero.mpr hpos)]
      exact ⟨rfl, rfl⟩
    by_cases hsign : bits / 2 ^ 31 % 2 = 1
    · obtain ⟨low, rfl⟩ : ∃ low, bits = 2 ^ 31 + low := ⟨bits - 2 ^ 31, by omega⟩
      rw [if_pos hsign, magnitude_sign]
      rcases Nat.eq_zero_or_pos low with rfl | h0
      · rw [if_pos magnitude_zero]
        rfl
      · have hlow : low < 255 * 2 ^ 23 := by omega
        rw [if_neg (magnitude_pos h0 hlow).ne']
        exact (hpack low h0 hlow).2
    · rw [if_neg hsign]
      rcases Nat.eq_zero_or_pos bits with rfl | h0
      · rw [magnitude_zero]
        rfl
      · exact (hpack bits h0 (by omega)).1

/-- The finite values that are unpacked. -/
theorem isValue_of_unpackFloat {bits : ℕ} {v : ℚ} (h : (unpackFloat bits).toRat? = some v) :
    IsValue v := by
  rw [unpackFloat_eq] at h
  by_cases hspecial : bits / 2 ^ 23 % 256 = 255
  · rw [if_pos hspecial] at h
    split_ifs at h <;> cases h
  · rw [if_neg hspecial] at h
    have hsame : magnitude (bits % 2 ^ 31) = magnitude bits := by
      have hexponent : bits % 2 ^ 31 / 2 ^ 23 % 256 = bits / 2 ^ 23 % 256 := by omega
      have hfraction : bits % 2 ^ 31 % 2 ^ 23 = bits % 2 ^ 23 := by omega
      unfold magnitude
      rw [hexponent, hfraction]
    refine ⟨bits % 2 ^ 31, by omega, ?_⟩
    rw [hsame]
    split_ifs at h with hsign hzero
    · cases h
      exact Or.inl hzero.symm
    · cases h
      exact Or.inr rfl
    · cases h
      exact Or.inl rfl

/-- What a finite number is packed as is unpacked as its sign and its nearest magnitude. -/
theorem toRat?_unpackFloat {bits : ℕ} (h : bits < 255 * 2 ^ 23) :
    (unpackFloat bits).toRat? = some (magnitude bits) ∧
      (unpackFloat (2 ^ 31 + bits)).toRat? = some (-magnitude bits) := by
  have hhigh : ¬(2 ^ 31 + bits) / 2 ^ 23 % 256 = 255 := by omega
  have hsign : (2 ^ 31 + bits) / 2 ^ 31 % 2 = 1 := by omega
  rw [unpackFloat_eq, unpackFloat_eq, if_neg (by omega), if_neg (by omega), if_neg hhigh,
    if_pos hsign, magnitude_sign]
  refine ⟨rfl, ?_⟩
  by_cases hzero : magnitude bits = 0
  · rw [if_pos hzero, hzero, neg_zero]
    rfl
  · rw [if_neg hzero]
    rfl

/-- The pattern of a number stands for the value nearest to it, the even one of two. -/
theorem packFloat_nearest {value : PyFloat} {q : ℚ} {bits : ℕ} (hq : value.toRat? = some q)
    (h : packFloat value = some bits) :
    ∃ r, (unpackFloat bits).toRat? = some r ∧ ∀ v, IsValue v →
      |r - q| ≤ |v - q| ∧ (|r - q| = |v - q| → v = r ∨ bits % 2 = 0) := by
  have hexact : ∀ v : ℚ, |(0 : ℚ) - 0| ≤ |v - 0| ∧
      (|(0 : ℚ) - 0| = |v - 0| → v = 0 ∨ bits % 2 = 0) := by
    intro v
    rw [sub_zero, sub_zero, abs_zero]
    exact ⟨abs_nonneg v, fun hsame => Or.inl (abs_eq_zero.mp hsame.symm)⟩
  cases value with
  | nan | inf => cases hq
  | negZero =>
    cases hq
    cases h
    exact ⟨0, by decide +kernel, fun v _ => hexact v⟩
  | finite x =>
    cases hq
    unfold packFloat at h
    dsimp only at h
    by_cases hzero : q = 0
    · subst hzero
      rw [if_pos rfl] at h
      cases h
      exact ⟨0, by decide +kernel, fun v _ => hexact v⟩
    · rw [if_neg hzero] at h
      split at h
      · rename_i hfinite
        have hnearest := fun v hv => nearestBits_nearest (v := v) (abs_pos.mpr hzero) hfinite hv
        obtain ⟨hplus, hminus⟩ := toRat?_unpackFloat hfinite
        cases h
        rcases lt_or_ge q 0 with hneg | hnonneg
        · rw [if_pos hneg]
          refine ⟨_, hminus, fun v hv => ?_⟩
          obtain ⟨hle, htie⟩ := hnearest (-v) hv.neg
          have hflip : ∀ a : ℚ, |a - (|q|)| = |-a - q| := by
            intro a
            rw [abs_of_neg hneg, abs_sub_comm]
            congr 1
            ring
          rw [hflip, hflip, neg_neg] at hle htie
          refine ⟨hle, fun hsame => ?_⟩
          rcases htie hsame with heq | heven
          · exact Or.inl (by rw [← heq, neg_neg])
          · exact Or.inr (by omega)
        · rw [if_neg hnonneg.not_gt]
          rw [abs_of_nonneg hnonneg] at hnearest hplus ⊢
          exact ⟨_, hplus, hnearest⟩
      · cases h

end HomeServer.Struct
