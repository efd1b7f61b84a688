import HomeServer.Services.MockFeed

/-! Whether the synthetic readings of one channel depend on the calls for the others. -/
namespace HomeServer.Services.MockFeed
open HomeServer.Db HomeServer.Ble HomeServer.Ble.Parser HomeServer.Lib.Overwrites
open HomeServer.Lib.Tally HomeServer.Services.Units HomeServer.Struct

def Counted (channel : Channel) : Prop :=
  (parseEnumUnit channel.unit).isSome = true ∨
    channel.unit ∈ [some "dBA", some "mg", some "0/1"]

def Quiet (channel : Channel) : Prop :=
  ∃ enumMap, parseEnumUnit channel.unit = some enumMap ∧ ∀ k ∈ enumMap, k = 0

/-- No other subscribed channel has the same characteristic and measures the same. -/
def OwnCounter (subscribed : Key → Option Channel) (key : Key) (channel : Channel) : Prop :=
  ∀ key' channel', subscribed key' = some channel' →
    counterOf channel' key'.2 = counterOf channel key.2 → key' = key

def alone (sin : PyFloat → PyFloat) (key : Key) (channel : Channel) (n : ℕ) :
    List (Except Err (Option Bytes)) :=
  payloads sin (Function.update (fun _ => none) key (some channel)) (List.replicate n key) key

/-- What a channel is given does not depend on the other channels and the calls for them. -/
def Independent (sin : PyFloat → PyFloat) (subscribed : Key → Option Channel) (key : Key)
    (channel : Channel) : Prop :=
  ∀ calls, payloads sin subscribed calls key = alone sin key channel (calls.count key)

def EveryTwentieth (sin : PyFloat → PyFloat) (subscribed : Key → Option Channel) (key : Key)
    (channel : Channel) : Prop :=
  ∀ calls i, i < calls.count key → ∃ data,
    (payloads sin subscribed calls key)[i]? = some (.ok (some data)) ∧
      decode data channel.dataFormat = .ok (.ofInt (if 20 ∣ i + 1 then 1 else 0))

/-- `math.sin` of a number is a number up to one. -/
def BoundedSine (sin : PyFloat → PyFloat) : Prop :=
  ∀ x, x.isFinite = true → ∃ q, (sin x).toRat? = some q ∧ |q| ≤ 1

section Runs
variable {sin : PyFloat → PyFloat} {subscribed : Key → Option Channel} {key : Key}
  {channel : Channel}

theorem counterOfKey_eq (h : subscribed key = some channel) :
    counterOfKey subscribed key = some (counterOf channel key.2) := by
  rw [counterOfKey, h, Option.map_some]

theorem givenAt_eq (h : subscribed key = some channel) :
    givenAt sin subscribed key = fun count => payload channel (valueAt sin channel count) := by
  funext count
  rw [givenAt, h]

/-- A channel with a counter of its own is given the payloads of consecutive counts. -/
theorem payloads_of_ownCounter (h : subscribed key = some channel)
    (hown : OwnCounter subscribed key channel) (calls : List Key) :
    payloads sin subscribed calls key = (List.range' 1 (calls.count key)).map fun count =>
      payload channel (valueAt sin channel count) := by
  have hnobody : ∀ key' ∈ calls,
      counterOfKey subscribed key' = counterOfKey subscribed key → key' = key := by
    intro key' _ heq
    rw [counterOfKey_eq h] at heq
    obtain ⟨channel', hsub, hcounter⟩ := Option.map_eq_some_iff.mp heq
    exact hown key' channel' hsub hcounter
  rw [payloads_eq, ofCaller_numbered hnobody, givenAt_eq h, Nat.zero_add]

theorem alone_eq (n : ℕ) : alone sin key channel n = (List.range' 1 n).map fun count =>
    payload channel (valueAt sin channel count) := by
  have hown : OwnCounter (Function.update (fun _ => none) key (some channel)) key channel := by
    intro key' channel' hsub _
    by_contra hne
    rw [Function.update_of_ne hne] at hsub
    cases hsub
  unfold alone
  rw [payloads_of_ownCounter (Function.update_self _ _ _) hown, List.count_replicate_self]

theorem independent_of_ownCounter (h : subscribed key = some channel)
    (hown : OwnCounter subscribed key channel) : Independent sin subscribed key channel := by
  intro calls
  rw [payloads_of_ownCounter h hown, alone_eq]

theorem independent_of_constant {x : Except Err (Option Bytes)}
    (h : subscribed key = some channel)
    (hconstant : ∀ count, payload channel (valueAt sin channel count) = x) :
    Independent sin subscribed key channel := by
  intro calls
  rw [payloads_eq, alone_eq, givenAt_eq h]
  simp only [hconstant, List.map_const', length_ofCaller_numbered, List.length_range']

/-- Independence fails where another channel moves the counter and the readings change. -/
theorem not_independent {m : ℕ} (h : subscribed key = some channel)
    (hshared : ¬OwnCounter subscribed key channel)
    (hchange : payload channel (valueAt sin channel (m + 1)) ≠
      payload channel (valueAt sin channel 1)) :
    ¬Independent sin subscribed key channel := by
  intro hind
  obtain ⟨key', channel', hsub, hcounter, hne⟩ : ∃ key' channel', subscribed key' = some channel' ∧
      counterOf channel' key'.2 = counterOf channel key.2 ∧ key' ≠ key := by
    simpa [OwnCounter] using hshared
  have hsame : counterOfKey subscribed key' = counterOfKey subscribed key := by
    rw [counterOfKey_eq h, counterOfKey_eq hsub, hcounter]
  have hcount : (List.replicate m key' ++ [key]).count key = 1 := by
    rw [List.count_append, List.count_replicate, List.count_singleton_self]
    simp [hne]
  have hrun := hind (List.replicate m key' ++ [key])
  rw [payloads_eq, ofCaller_after_replicate hne hsame, hcount, alone_eq, givenAt_eq h] at hrun
  rw [List.map_singleton, Nat.zero_add] at hrun
  exact hchange (List.cons.inj hrun).1

end Runs

section Values
variable {sin : PyFloat → PyFloat} {channel : Channel}

theorem payload_eq_some {value : Except Err PyFloat} {data : Bytes} :
    payload channel value = .ok (some data) ↔
      ∃ v, value = .ok v ∧ encode v channel.dataFormat = .ok data := by
  cases value with
  | error e => simp [payload]
  | ok v =>
    unfold payload
    dsimp only
    cases hencode : encode v channel.dataFormat with
    | ok data' => simp [hencode]
    | error e => cases e <;> simp [hencode]

theorem toRat?_pos {v : PyFloat} {q : ℚ} (hv : v.toRat? = some q) (hq : 0 < q) : v = .finite q := by
  cases v with
  | nan | inf => cases hv
  | negZero =>
    cases hv
    exact absurd hq (lt_irrefl 0)
  | finite r =>
    cases hv
    rfl

theorem packFloat_small {q : ℚ} (hq : 0 < q) (h : q < 128) :
    packFloat (.finite q) = some (nearestBits q) := by
  have hthreshold : (128 : ℚ) ≤ overflowThreshold := by
    unfold overflowThreshold
    norm_num
  exact packFloat_of_pos hq ((nearestBits_lt_iff hq).mpr (h.trans_le hthreshold))

/-- Readings that are one apart have payloads of their own. -/
theorem payload_ne_of_apart (hfmt : channel.dataFormat ∈ supportedFormats) {v w : PyFloat}
    {q r : ℚ} (hv : v.toRat? = some q) (hw : w.toRat? = some r) (h1 : 1 ≤ q) (h : q + 1 ≤ r)
    (hr : r < 128) : payload channel (.ok v) ≠ payload channel (.ok w) := by
  obtain ⟨data, hdata⟩ := encode_small hfmt hv (by linarith) (by linarith)
  have htruncate : ∀ q' r', v.toRat? = some q' → w.toRat? = some r' →
      PyFloat.truncate q' ≠ PyFloat.truncate r' := by
    intro q' r' hq' hr'
    rw [hv] at hq'
    rw [hw] at hr'
    cases hq'
    cases hr'
    have hfloor : ⌊q⌋ + 1 ≤ ⌊r⌋ := by
      have hlow := Int.floor_le q
      rw [Int.le_floor]
      push_cast
      linarith
    rw [truncate_of_nonneg (by linarith), truncate_of_nonneg (by linarith)]
    omega
  have hpack : packFloat v ≠ packFloat w := by
    rw [toRat?_pos hv (by linarith), toRat?_pos hw (by linarith),
      packFloat_small (by linarith) (by linarith), packFloat_small (by linarith) hr]
    exact mt Option.some.inj (nearestBits_ne h1 h hr)
  intro heq
  rw [payload_eq_some.mpr ⟨v, rfl, hdata⟩] at heq
  obtain ⟨w', hw', hother⟩ := payload_eq_some.mp heq.symm
  cases hw'
  exact encode_ne htruncate hpack hdata hother

theorem encode_zero {fmt : String} (hfmt : fmt ∈ supportedFormats) :
    ∃ data, encode (.finite 0) fmt = .ok data := by
  have hzero : (PyFloat.finite 0).toRat? = some 0 := rfl
  exact encode_small hfmt hzero le_rfl (by norm_num)

/-- A reading no smaller than one has not the payload of zero. -/
theorem payload_ne_zero (hfmt : channel.dataFormat ∈ supportedFormats) {r : ℚ} (h1 : 1 ≤ |r|) :
    payload channel (.ok (.finite r)) ≠ payload channel (.ok (.finite 0)) := by
  obtain ⟨data, hdata⟩ := encode_zero hfmt
  have hr0 : r ≠ 0 := by
    intro hzero
    rw [hzero, abs_zero] at h1
    norm_num at h1
  have htruncate : PyFloat.truncate r ≠ 0 := by
    unfold PyFloat.truncate
    split_ifs with hneg
    · rw [abs_of_nonneg hneg] at h1
      have hfloor : 1 ≤ ⌊r⌋ := Int.le_floor.mpr (by exact_mod_cast h1)
      omega
    · rw [abs_of_neg (not_le.mp hneg)] at h1
      have hceil : ⌈r⌉ ≤ -1 := Int.ceil_le.mpr (by push_cast; linarith)
      omega
  have hpack : packFloat (.finite 0) ≠ packFloat (.finite r) := by
    have hbits := nearestBits_pos h1
    unfold packFloat
    dsimp only
    rw [if_pos rfl, if_neg hr0]
    split_ifs <;> simp <;> omega
  intro heq
  rw [payload_eq_some.mpr ⟨_, rfl, hdata⟩] at heq
  obtain ⟨w, hw, hother⟩ := payload_eq_some.mp heq
  cases hw
  refine encode_ne (fun q' r' hq' hr' => ?_) hpack hdata hother
  cases hq'
  cases hr'
  exact fun h => htruncate (h.symm.trans rfl)

theorem quotient_isFinite {period : ℚ} {count : ℕ} (hcount : count < 100) (hperiod : 1 ≤ period) :
    ∃ x, PyFloat.float count = .ok x ∧ (x.scale (1 / period)).isFinite = true := by
  have hcount0 : (0 : ℚ) ≤ count := Nat.cast_nonneg _
  have hcount' : (count : ℚ) < 100 := by exact_mod_cast hcount
  have hsmall : |((count : ℤ) : ℚ)| < 100 := by
    rw [Int.cast_natCast, abs_of_nonneg hcount0]
    exact hcount'
  obtain ⟨x, hx, hnear⟩ := PyFloat.float_near (n := count) (by linarith)
  have hpos : 0 < 1 / period := by positivity
  have hle : 1 / period ≤ 1 := by
    rw [div_le_one (by linarith)]
    exact hperiod
  have hscaled := PyFloat.scale_near hpos hnear (by
    calc 1 / period * (|((count : ℤ) : ℚ)| + 1 / 2 ^ 46)
        ≤ 1 * (|((count : ℤ) : ℚ)| + 1 / 2 ^ 46) := by gcongr
      _ < 128 := by
        norm_num at hsmall ⊢
        linarith)
  exact ⟨x, hx, hscaled.isFinite⟩

/-- A wave over a quotient that is a number stays within its amplitude, but for the rounding. -/
theorem wave_within (hsin : BoundedSine sin) {level amplitude period : ℚ} {count : ℕ} {x : PyFloat}
    (hx : PyFloat.float count = .ok x) (hfinite : (x.scale (1 / period)).isFinite = true)
    (hamplitude : 0 < amplitude) (hamplitude' : amplitude ≤ 16) (hlevel : 0 ≤ level)
    (hlevel' : level ≤ 96) :
    ∃ v q, wave sin level amplitude period count = .ok v ∧ v.toRat? = some q ∧
      level - amplitude - 1 ≤ q ∧ q ≤ level + amplitude + 1 := by
  obtain ⟨q, hq, hq1⟩ := hsin _ hfinite
  have hsine : PyFloat.Near (sin (x.scale (1 / period))) q 0 := ⟨q, hq, by simp⟩
  have hswing : |amplitude * q| ≤ amplitude := by
    rw [abs_mul, abs_of_pos hamplitude]
    exact mul_le_of_le_one_right hamplitude.le hq1
  have hscaled := PyFloat.scale_near hamplitude hsine (by
    rw [add_zero, ← abs_of_pos hamplitude, ← abs_mul]
    linarith)
  obtain ⟨hleft, hright⟩ := abs_le.mp hswing
  have habs : |level + amplitude * q| ≤ 112 := abs_le.mpr ⟨by linarith, by linarith⟩
  obtain ⟨r, hr, hnear⟩ := PyFloat.shift_near (k := level) hscaled (by
    norm_num
    linarith)
  obtain ⟨hlow, hhigh⟩ := abs_le.mp hnear
  norm_num at hlow hhigh
  have hwave : wave sin level amplitude period count =
      .ok (((sin (x.scale (1 / period))).scale amplitude).shift level) := by
    unfold wave
    rw [hx]
    rfl
  exact ⟨_, r, hwave, hr, by linarith, by linarith⟩

theorem wave_bounds (hsin : BoundedSine sin) (level amplitude period : ℚ) {count : ℕ}
    (hcount : count < 100) (hperiod : 1 ≤ period) (hamplitude : 0 < amplitude)
    (hamplitude' : amplitude ≤ 16) (hlevel : 0 ≤ level) (hlevel' : level ≤ 96) :
    ∃ v q, wave sin level amplitude period count = .ok v ∧ v.toRat? = some q ∧
      level - amplitude - 1 ≤ q ∧ q ≤ level + amplitude + 1 := by
  obtain ⟨x, hx, hfinite⟩ := quotient_isFinite hcount hperiod
  exact wave_within hsin hx hfinite hamplitude hamplitude' hlevel hlevel'

theorem not_enum : ∀ unit ∈ [some "dBA", some "mg", some "0/1"], parseEnumUnit unit = none := by
  decide

theorem valueAt_flag (h : channel.unit = some "0/1") (count : ℕ) :
    valueAt sin channel count = flagValue count := by
  unfold valueAt
  rw [h, not_enum _ (by simp)]
  rfl

theorem valueAt_dba (h : channel.unit = some "dBA") (count : ℕ) :
    valueAt sin channel count = dbaValue sin count := by
  unfold valueAt
  rw [h, not_enum _ (by simp)]
  rfl

theorem valueAt_mg (h : channel.unit = some "mg") (count : ℕ) :
    valueAt sin channel count = mgValue sin count := by
  unfold valueAt
  rw [h, not_enum _ (by simp)]
  rfl

theorem valueAt_enum {enumMap : EnumMap} (h : parseEnumUnit channel.unit = some enumMap)
    (count : ℕ) : valueAt sin channel count = enumValue enumMap count := by
  unfold valueAt
  rw [h]

end Values

def Changes (sin : PyFloat → PyFloat) (channel : Channel) : Prop :=
  ∃ m, payload channel (valueAt sin channel (m + 1)) ≠ payload channel (valueAt sin channel 1)

section Changes
variable {sin : PyFloat → PyFloat} {channel : Channel}

theorem changes_flag (hfmt : channel.dataFormat ∈ supportedFormats)
    (h : channel.unit = some "0/1") : Changes sin channel := by
  have htwenty : flagValue 20 = .ok (.finite 1) := rfl
  have hone : flagValue 1 = .ok (.finite 0) := rfl
  refine ⟨19, ?_⟩
  rw [valueAt_flag h, valueAt_flag h, htwenty, hone]
  exact payload_ne_zero hfmt (by norm_num)

theorem changes_dba (hsin : BoundedSine sin) (hfmt : channel.dataFormat ∈ supportedFormats)
    (h : channel.unit = some "dBA") : Changes sin channel := by
  have hwave : ∀ count < 100, ∃ v q, wave sin 40 8 10 count = .ok v ∧ v.toRat? = some q ∧
      40 - 8 - 1 ≤ q ∧ q ≤ 40 + 8 + 1 := fun count hcount =>
    wave_bounds hsin 40 8 10 hcount (by norm_num) (by norm_num) (by norm_num) (by norm_num)
      (by norm_num)
  obtain ⟨v, q, hv, hvq, hlow, hhigh⟩ := hwave 1 (by omega)
  obtain ⟨w, r, hw, hwr, hlow', hhigh'⟩ := hwave 30 (by omega)
  have hbase : PyFloat.Near w r 0 := ⟨r, hwr, by simp⟩
  obtain ⟨s, hs, hnear⟩ := PyFloat.shift_near (k := 25) hbase (by
    rw [abs_of_nonneg (by linarith)]
    linarith)
  obtain ⟨hbelow, habove⟩ := abs_le.mp hnear
  norm_num at hbelow habove
  have hone : dbaValue sin 1 = .ok v := by
    unfold dbaValue
    rw [hv]
    rfl
  have hthirty : dbaValue sin 30 = .ok (w.shift 25) := by
    unfold dbaValue
    rw [hw]
    rfl
  refine ⟨29, ?_⟩
  rw [valueAt_dba h, valueAt_dba h, hone, hthirty]
  exact (payload_ne_of_apart hfmt hvq hs (by linarith) (by linarith) (by linarith)).symm

theorem changes_mg (hsin : BoundedSine sin) (hfmt : channel.dataFormat ∈ supportedFormats)
    (h : channel.unit = some "mg") : Changes sin channel := by
  obtain ⟨v, q, hv, hvq, hlow, hhigh⟩ := wave_bounds hsin 80 10 3 (by omega : 1 < 100)
    (by norm_num) (by norm_num) (by norm_num) (by norm_num) (by norm_num)
  obtain ⟨w, r, hw, hwr, hlow', hhigh'⟩ := wave_bounds hsin 5 3 7 (by omega : 16 < 100)
    (by norm_num) (by norm_num) (by norm_num) (by norm_num) (by norm_num)
  have hone : mgValue sin 1 = .ok v := hv
  have hsixteen : mgValue sin 16 = .ok w := hw
  refine ⟨15, ?_⟩
  rw [valueAt_mg h, valueAt_mg h, hone, hsixteen]
  exact payload_ne_of_apart hfmt hwr hvq (by linarith) (by linarith) (by linarith)

theorem changes_enum (hfmt : channel.dataFormat ∈ supportedFormats) {enumMap : EnumMap}
    (h : parseEnumUnit channel.unit = some enumMap) {k : ℤ} (hk : k ∈ enumMap) (hk0 : k ≠ 0) :
    Changes sin channel := by
  have hone : enumValue enumMap 1 = .ok (.finite 0) := if_neg fun hsixth => by omega
  refine ⟨5, ?_⟩
  rw [valueAt_enum h, valueAt_enum h, hone]
  set nonzeroKeys := (enumMap.keys.filter (· ≠ 0)).sort (· ≤ ·) with hkeys
  have hmem : ∀ k', k' ∈ nonzeroKeys ↔ k' ∈ enumMap ∧ k' ≠ 0 := by
    simp [hkeys, Finmap.mem_keys]
  obtain ⟨first, rest, hcons⟩ : ∃ first rest, nonzeroKeys = first :: rest :=
    List.exists_cons_of_ne_nil (List.ne_nil_of_mem ((hmem k).mpr ⟨hk, hk0⟩))
  have hfirst : first ≠ 0 := ((hmem first).mp (hcons ▸ .head _)).2
  have hsix : enumValue enumMap 6 = PyFloat.float first := by
    unfold enumValue
    rw [← hkeys, hcons]
    simp
  rw [hsix]
  rcases PyFloat.float_of_ne_zero hfirst with herror | ⟨r, hr, hr1⟩
  · obtain ⟨data, hdata⟩ := encode_zero hfmt
    rw [herror, payload_eq_some.mpr ⟨_, rfl, hdata⟩]
    exact fun heq => nomatch heq
  · rw [hr]
    exact payload_ne_zero hfmt hr1

theorem valueAt_quiet (h : Quiet channel) (count : ℕ) :
    valueAt sin channel count = .ok (.finite 0) := by
  obtain ⟨enumMap, henum, hzero⟩ := h
  have hnil : (enumMap.keys.filter (· ≠ 0)).sort (· ≤ ·) = [] := by
    rw [List.eq_nil_iff_forall_not_mem]
    intro k hk
    have hk' : k ∈ enumMap ∧ k ≠ 0 := by simpa [Finmap.mem_keys] using hk
    exact hk'.2 (hzero k hk'.1)
  rw [valueAt_enum henum, enumValue, hnil]
  exact if_neg fun hsixth => hsixth.1 rfl

theorem changes_of_counted (hsin : BoundedSine sin)
    (hfmt : channel.dataFormat ∈ supportedFormats) (h : Counted channel) (hquiet : ¬Quiet channel) :
    Changes sin channel := by
  rcases h with henum | hunit
  · obtain ⟨enumMap, henum⟩ := Option.isSome_iff_exists.mp henum
    obtain ⟨k, hk, hk0⟩ : ∃ k ∈ enumMap, k ≠ 0 := by
      by_contra hnone
      push Not at hnone
      exact hquiet ⟨enumMap, henum, hnone⟩
    exact changes_enum hfmt henum hk hk0
  · simp only [List.mem_cons, List.not_mem_nil, or_false] at hunit
    rcases hunit with hunit | hunit | hunit
    · exact changes_dba hsin hfmt hunit
    · exact changes_mg hsin hfmt hunit
    · exact changes_flag hfmt hunit

end Changes

section Main
variable {sin : PyFloat → PyFloat} {subscribed : Key → Option Channel} {key : Key}
  {channel : Channel}

theorem flagValue_shown (hfmt : channel.dataFormat ∈ supportedFormats) (count : ℕ) :
    ∃ data, payload channel (flagValue count) = .ok (some data) ∧
      decode data channel.dataFormat = .ok (.ofInt (if 20 ∣ count then 1 else 0)) := by
  have hall : ∀ fmt ∈ supportedFormats, ∀ n ∈ [(0 : ℤ), 1],
      (encode (.ofInt n) fmt).bind (fun data => decode data fmt) = .ok (.ofInt n) := by
    decide +kernel
  have hshown : ∀ n ∈ [(0 : ℤ), 1], ∃ data, payload channel (.ok (.ofInt n)) = .ok (some data) ∧
      decode data channel.dataFormat = .ok (.ofInt n) := by
    intro n hn
    have hread := hall _ hfmt n hn
    cases hencode : encode (.ofInt n) channel.dataFormat with
    | error e =>
      rw [hencode] at hread
      cases hread
    | ok data =>
      rw [hencode] at hread
      exact ⟨data, payload_eq_some.mpr ⟨_, rfl, hencode⟩, hread⟩
  unfold flagValue
  simp only [← Nat.dvd_iff_mod_eq_zero]
  split_ifs
  · exact hshown 1 (by simp)
  · exact hshown 0 (by simp)

theorem everyTwentieth_of_ownCounter (h : subscribed key = some channel)
    (hfmt : channel.dataFormat ∈ supportedFormats) (hunit : channel.unit = some "0/1")
    (hown : OwnCounter subscribed key channel) : EveryTwentieth sin subscribed key channel := by
  intro calls i hi
  obtain ⟨data, hgiven, hdecode⟩ := flagValue_shown hfmt (i + 1)
  refine ⟨data, ?_, hdecode⟩
  have hcount : (List.range' 1 (calls.count key))[i]? = some (i + 1) := by
    rw [List.getElem?_range' hi]
    congr 1
    omega
  rw [payloads_of_ownCounter h hown, List.getElem?_map, hcount, Option.map_some, valueAt_flag hunit,
    hgiven]

/-- **The readings of a channel are its own** exactly if no other channel has its characteristic
and measures the same, or it shows zero at all times: then they depend on its own calls alone, and
a flag is raised by every twentieth of them. -/
theorem independent_iff (hsin : BoundedSine sin) (h : subscribed key = some channel)
    (hkind : Counted channel) (hfmt : channel.dataFormat ∈ supportedFormats) :
    (Independent sin subscribed key channel ∧
        (channel.unit = some "0/1" → EveryTwentieth sin subscribed key channel)) ↔
      OwnCounter subscribed key channel ∨ Quiet channel := by
  constructor
  · rintro ⟨hind, -⟩
    by_contra hnot
    obtain ⟨hshared, hquiet⟩ := not_or.mp hnot
    obtain ⟨m, hchange⟩ := changes_of_counted hsin hfmt hkind hquiet
    exact not_independent h hshared hchange hind
  · intro hcases
    rcases hcases with hown | hquiet
    · exact ⟨independent_of_ownCounter h hown,
        fun hunit => everyTwentieth_of_ownCounter h hfmt hunit hown⟩
    · have hconstant : ∀ count, payload channel (valueAt sin channel count) =
          payload channel (.ok (.finite 0)) := fun count => by
        rw [valueAt_quiet hquiet]
      refine ⟨independent_of_constant h hconstant, fun hunit => ?_⟩
      obtain ⟨enumMap, henum, -⟩ := hquiet
      rw [hunit, not_enum _ (by simp)] at henum
      cases henum

end Main

/-- Two flags on two devices, added with one preset. -/
def flagOf (id deviceId : ℕ) : Channel where
  id := id
  deviceId := deviceId
  name := "Alarm"
  type := .display
  charUuid := "2a57"
  dataFormat := "uint8"
  unit := some "0/1"

def porch : Key := ("AA:BB:CC:DD:EE:01", "2a57")

def cellar : Key := ("AA:BB:CC:DD:EE:02", "2a57")

def porchOnly : Key → Option Channel := fun key => if key = porch then some (flagOf 1 1) else none

def porchAndCellar : Key → Option Channel := fun key =>
  if key = porch then some (flagOf 1 1) else if key = cellar then some (flagOf 2 2) else none

theorem boundedSine_zero : BoundedSine fun _ => .finite 0 :=
  fun _ _ => ⟨0, rfl, by simp⟩

theorem independent_iff_porchOnly :
    Independent (fun _ => .finite 0) porchOnly porch (flagOf 1 1) ∧
      EveryTwentieth (fun _ => .finite 0) porchOnly porch (flagOf 1 1) := by
  have hown : OwnCounter porchOnly porch (flagOf 1 1) := by
    intro key' channel' hsub _
    by_contra hne
    rw [porchOnly, if_neg hne] at hsub
    cases hsub
  have hcounted : Counted (flagOf 1 1) := .inr (by decide)
  obtain ⟨hind, htwentieth⟩ :=
    (independent_iff boundedSine_zero rfl hcounted (by decide)).mpr (.inl hown)
  exact ⟨hind, htwentieth rfl⟩

def twentyTicks : List Key := (List.replicate 20 [porch, cellar]).flatten

/-- The twentieth call for the first flag finds its counter at 39. -/
theorem porch_not_independent :
    (payloads (fun _ => .finite 0) porchAndCellar twentyTicks porch)[19]? =
        some (.ok (some [0])) ∧
      ¬Independent (fun _ => .finite 0) porchAndCellar porch (flagOf 1 1) ∧
      ¬EveryTwentieth (fun _ => .finite 0) porchAndCellar porch (flagOf 1 1) := by
  have hcount : twentyTicks.count porch = 20 := by decide +kernel
  have hshared : (payloads (fun _ => .finite 0) porchAndCellar twentyTicks porch)[19]? =
      some (.ok (some [0])) := by
    decide +kernel
  have halone : (alone (fun _ => .finite 0) porch (flagOf 1 1) 20)[19]? =
      some (.ok (some [1])) := by
    decide +kernel
  refine ⟨hshared, fun hind => ?_, fun htwentieth => ?_⟩
  · rw [hind twentyTicks, hcount, halone] at hshared
    exact absurd hshared (by decide)
  · obtain ⟨data, hdata, hdecode⟩ := htwentieth twentyTicks 19 (by omega)
    rw [hshared] at hdata
    cases hdata
    exact absurd hdecode (by decide +kernel)

end HomeServer.Services.MockFeed
