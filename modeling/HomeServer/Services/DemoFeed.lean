import HomeServer.Ble.FloatFormats
import HomeServer.Services.FeedIndependence

/-! What the feed makes at any count is a reading of the channel's own format. -/
namespace HomeServer.Services.MockFeed
open HomeServer.Db HomeServer.Ble HomeServer.Ble.Parser HomeServer.Services.Units HomeServer.Struct
variable {sin : PyFloat → PyFloat} {channel : Channel} {enumMap : EnumMap}

def SmallKeys (enumMap : EnumMap) : Prop := ∀ k ∈ enumMap, |(k : ℚ)| < 2 ^ 127

theorem wave_ok (hsin : BoundedSine sin) (level amplitude period : ℚ) {count : ℕ}
    (hcount : count < 2 ^ 64) (hperiod : 1 ≤ period) (hamplitude : 0 < amplitude)
    (hamplitude' : amplitude ≤ 16) (hlevel : 0 ≤ level) (hlevel' : level ≤ 96) :
    ∃ v q, wave sin level amplitude period count = .ok v ∧ v.toRat? = some q ∧
      level - amplitude - 1 ≤ q ∧ q ≤ level + amplitude + 1 := by
  have hsmall : |((count : ℤ) : ℚ)| < 2 ^ 64 := by
    rw [Int.cast_natCast, abs_of_nonneg (Nat.cast_nonneg _)]
    exact_mod_cast hcount
  obtain ⟨x, r, hx, hr, hle⟩ := PyFloat.float_le hsmall (by omega)
  have hinverse : 1 / period ≤ 1 := by
    rw [div_le_one (by linarith)]
    exact hperiod
  have hquotient : |1 / period * r| < 2 ^ 65 := by
    have hpos : 0 < 1 / period := by positivity
    rw [abs_mul, abs_of_pos hpos]
    calc 1 / period * |r| ≤ 1 * |r| := by gcongr
      _ ≤ 2 ^ 64 := by rwa [one_mul]
      _ < 2 ^ 65 := pow_lt_pow_right₀ (by norm_num) (by omega)
  have hfinite := PyFloat.scale_isFinite hr hquotient (by omega)
  exact wave_within hsin hx hfinite hamplitude hamplitude' hlevel hlevel'

/-- What an enum channel shows is a class of its unit, or zero. -/
theorem enumValue_ok (h : SmallKeys enumMap) (count : ℕ) :
    ∃ v q, enumValue enumMap count = .ok v ∧ v.toRat? = some q ∧ |q| ≤ 2 ^ 127 := by
  unfold enumValue
  dsimp only
  split_ifs with hsixth
  · set nonzeroKeys := (enumMap.keys.filter (· ≠ 0)).sort (· ≤ ·) with hkeys
    have hlt : (count / 6 - 1) % nonzeroKeys.length < nonzeroKeys.length :=
      Nat.mod_lt _ (List.length_pos_of_ne_nil hsixth.1)
    have hmem := List.getElem_mem hlt
    rw [List.getD_eq_getElem?_getD, List.getElem?_eq_getElem hlt, Option.getD_some]
    have hkey : nonzeroKeys[(count / 6 - 1) % nonzeroKeys.length] ∈ enumMap := by
      have hsorted := (Finset.mem_sort (· ≤ ·)).mp hmem
      exact Finmap.mem_keys.mp (Finset.mem_filter.mp hsorted).1
    obtain ⟨x, r, hx, hr, hle⟩ := PyFloat.float_le (h _ hkey) (by omega)
    exact ⟨x, r, hx, hr, hle⟩
  · exact ⟨.finite 0, 0, rfl, rfl, by simp⟩

/-- What is no enum channel shows a number that every format has room for. -/
theorem valueAt_small (hsin : BoundedSine sin) (henum : parseEnumUnit channel.unit = none)
    {count : ℕ} (hcount : count < 2 ^ 64) :
    ∃ v q, valueAt sin channel count = .ok v ∧ v.toRat? = some q ∧ 0 ≤ q ∧ q < 128 := by
  unfold valueAt
  rw [henum]
  dsimp only
  split_ifs
  · obtain ⟨v, q, hv, hq, hlow, hhigh⟩ := wave_ok hsin 40 8 10 hcount (by norm_num)
      (by norm_num) (by norm_num) (by norm_num) (by norm_num)
    unfold dbaValue
    rw [hv, Except.map]
    split_ifs
    · have hbase : PyFloat.Near v q 0 := ⟨q, hq, by simp⟩
      obtain ⟨s, hs, hnear⟩ := PyFloat.shift_near (k := 25) hbase (by
        rw [abs_of_nonneg (by linarith)]
        linarith)
      obtain ⟨hbelow, habove⟩ := abs_le.mp hnear
      norm_num at hbelow habove
      exact ⟨_, s, rfl, hs, by linarith, by linarith⟩
    · exact ⟨v, q, rfl, hq, by linarith, by linarith⟩
  · unfold mgValue
    dsimp only
    split_ifs
    · obtain ⟨v, q, hv, hq, hlow, hhigh⟩ := wave_ok hsin 80 10 3 hcount (by norm_num)
        (by norm_num) (by norm_num) (by norm_num) (by norm_num)
      exact ⟨v, q, hv, hq, by linarith, by linarith⟩
    · obtain ⟨v, q, hv, hq, hlow, hhigh⟩ := wave_ok hsin 5 3 7 hcount (by norm_num)
        (by norm_num) (by norm_num) (by norm_num) (by norm_num)
      exact ⟨v, q, hv, hq, by linarith, by linarith⟩
  · unfold flagValue
    split_ifs
    · exact ⟨_, 1, rfl, rfl, by norm_num, by norm_num⟩
    · exact ⟨_, 0, rfl, rfl, by norm_num, by norm_num⟩
  · obtain ⟨v, q, hv, hq, hlow, hhigh⟩ := wave_ok hsin 25 5 10 hcount (by norm_num)
      (by norm_num) (by norm_num) (by norm_num) (by norm_num)
    exact ⟨v, q, hv, hq, by linarith, by linarith⟩

/-- The bytes of a number are read back as a number. -/
theorem decode_finite {v : PyFloat} {q : ℚ} {fmt : String} {data : Bytes}
    (hq : v.toRat? = some q) (h : encode v fmt = .ok data) :
    ∃ r, decode data fmt = .ok r ∧ r.isFinite = true := by
  obtain ⟨spec, hspec, -⟩ := represents_of_encode h
  cases hcode : spec.code with
  | int signed =>
    have hint : spec.code ≠ .float := by
      rw [hcode]
      exact Code.noConfusion
    obtain ⟨q, -, hdecode⟩ := decode_encode hspec hint h
    exact ⟨_, hdecode, rfl⟩
  | float =>
    cases hpack : packFloat v with
    | none =>
      unfold encode at h
      rw [hspec] at h
      dsimp only at h
      rw [hcode] at h
      dsimp only at h
      rw [hpack] at h
      cases h
    | some bits =>
      rw [encode_of_float hspec hcode hpack, Except.ok.injEq] at h
      obtain ⟨r, hr, -⟩ := packFloat_nearest hq hpack
      have hbits := packFloat_lt hpack
      rw [← h, decode_ofNat hspec hcode (by omega)]
      exact ⟨_, rfl, PyFloat.isFinite_of_toRat hr⟩

/-- A number below the largest binary32 has its bytes, or an integer format refuses it. -/
theorem payload_ok {value : Except Err PyFloat} {v : PyFloat} {q : ℚ}
    (hfmt : channel.dataFormat ∈ supportedFormats) (hv : value = .ok v)
    (hq : v.toRat? = some q) (hle : |q| ≤ 2 ^ 127) : ∃ given, payload channel value = .ok given := by
  subst hv
  cases hencode : encode v channel.dataFormat with
  | ok data => exact ⟨some data, payload_eq_some.mpr ⟨v, rfl, hencode⟩⟩
  | error e =>
    rcases encode_error hencode with ⟨rfl, -⟩ | ⟨-, hspecs⟩
    · refine ⟨none, ?_⟩
      unfold payload
      dsimp only
      rw [hencode]
    · obtain ⟨spec, hspec⟩ := exists_lookup hfmt
      obtain ⟨hfloat, hint⟩ := hspecs spec hspec
      have hfinite := PyFloat.isFinite_of_toRat hq
      cases hcode : spec.code with
      | int signed =>
        rw [hint (by rw [hcode]; exact Code.noConfusion)] at hfinite
        cases hfinite
      | float =>
        refine absurd ?_ (hfloat hcode)
        unfold Format.Represents
        rw [hcode]
        intro r hr
        rw [hq] at hr
        cases hr
        have hthreshold : (2 : ℚ) ^ 127 < overflowThreshold := by
          unfold overflowThreshold
          norm_num
        exact hle.trans_lt hthreshold

/-- The feed makes readings that are read as numbers; only an enum channel may be left without. -/
theorem payload_given (hsin : BoundedSine sin) (hfmt : channel.dataFormat ∈ supportedFormats)
    (hkeys : ∀ enumMap, parseEnumUnit channel.unit = some enumMap → SmallKeys enumMap) {count : ℕ}
    (hcount : count < 2 ^ 64) :
    ∃ given, payload channel (valueAt sin channel count) = .ok given ∧
      (∀ data, given = some data →
        ∃ r, decode data channel.dataFormat = .ok r ∧ r.isFinite = true) ∧
      (parseEnumUnit channel.unit = none → given ≠ none) := by
  obtain ⟨v, q, hv, hq, hle, hsmall⟩ : ∃ v q, valueAt sin channel count = .ok v ∧
      v.toRat? = some q ∧ |q| ≤ 2 ^ 127 ∧
        (parseEnumUnit channel.unit = none → 0 ≤ q ∧ q < 128) := by
    cases henum : parseEnumUnit channel.unit with
    | none =>
      obtain ⟨v, q, hv, hq, h0, hlt⟩ := valueAt_small hsin henum hcount
      refine ⟨v, q, hv, hq, ?_, fun _ => ⟨h0, hlt⟩⟩
      rw [abs_of_nonneg h0]
      norm_num
      linarith
    | some enumMap =>
      obtain ⟨v, q, hv, hq, hle⟩ := enumValue_ok (hkeys enumMap henum) count
      rw [valueAt_enum henum]
      exact ⟨v, q, hv, hq, hle, fun hnone => nomatch hnone⟩
  obtain ⟨given, hgiven⟩ := payload_ok hfmt hv hq hle
  refine ⟨given, hgiven, fun data hdata => ?_, fun hnone hgone => ?_⟩
  · rw [hdata] at hgiven
    obtain ⟨v', hv', hencode⟩ := payload_eq_some.mp hgiven
    rw [hv] at hv'
    cases hv'
    exact decode_finite hq hencode
  · obtain ⟨h0, hlt⟩ := hsmall hnone
    obtain ⟨data, hdata⟩ := encode_small hfmt hq h0 hlt
    rw [payload_eq_some.mpr ⟨v, hv, hdata⟩, hgone] at hgiven
    cases hgiven

end HomeServer.Services.MockFeed
