import Mathlib.Order.Nat
import Mathlib.Tactic.Common

/-! The Gregorian calendar carried back to year 1, its days counted from the first of January
of that year, which is day 1. -/
namespace HomeServer.Lib.Calendar

@[ext] structure Date where
  year : ℕ
  month : ℕ
  day : ℕ
  deriving DecidableEq

def isLeap (year : ℕ) : Bool := year % 4 = 0 ∧ (year % 100 ≠ 0 ∨ year % 400 = 0)

def daysInMonth (leap : Bool) : ℕ → ℕ
  | 2 => if leap then 29 else 28
  | 4 | 6 | 9 | 11 => 30
  | _ => 31

def daysBeforeMonth (leap : Bool) (month : ℕ) : ℕ :=
  [0, 0, 31, 59, 90, 120, 151, 181, 212, 243, 273, 304, 334].getD month 0 +
    if 2 < month ∧ leap then 1 else 0

def daysBeforeYear (year : ℕ) : ℕ :=
  (year - 1) * 365 + (year - 1) / 4 - (year - 1) / 100 + (year - 1) / 400

namespace Date

structure Valid (d : Date) : Prop where
  year : 1 ≤ d.year
  month : 1 ≤ d.month ∧ d.month ≤ 12
  day : 1 ≤ d.day ∧ d.day ≤ daysInMonth (isLeap d.year) d.month

def toOrdinal (d : Date) : ℕ :=
  daysBeforeYear d.year + daysBeforeMonth (isLeap d.year) d.month + d.day

end Date

/-- Month and day of the day of a year, counted from zero. The first estimate of the month is
right or one too high. -/
def ofDayOfYear (leap : Bool) (n : ℕ) : ℕ × ℕ :=
  let month := (n + 50) / 32
  if daysBeforeMonth leap month > n then (month - 1, n - daysBeforeMonth leap (month - 1) + 1)
  else (month, n - daysBeforeMonth leap month + 1)

/-- Cycles of 400, 100, 4 years and one are taken off in turn. The last day of a cycle is one too
many for its parts. -/
def Date.ofOrdinal (ordinal : ℕ) : Date :=
  let n := ordinal - 1
  let n400 := n / 146097
  let n100 := n % 146097 / 36524
  let n4 := n % 146097 % 36524 / 1461
  let n1 := n % 146097 % 36524 % 1461 / 365
  let year := n400 * 400 + n100 * 100 + n4 * 4 + n1 + 1
  if n1 = 4 ∨ n100 = 4 then ⟨year - 1, 12, 31⟩
  else
    let leap := n1 = 3 ∧ (n4 ≠ 24 ∨ n100 = 3)
    let (month, day) := ofDayOfYear leap (n % 146097 % 36524 % 1461 % 365)
    ⟨year, month, day⟩

def daysInYear (leap : Bool) : ℕ := if leap then 366 else 365

theorem isLeap_iff {y : ℕ} : isLeap y = true ↔ 4 ∣ y ∧ (¬100 ∣ y ∨ 400 ∣ y) := by
  simp [isLeap, Nat.dvd_iff_mod_eq_zero]

theorem daysBeforeYear_succ {y : ℕ} (hy : 1 ≤ y) :
    daysBeforeYear (y + 1) = daysBeforeYear y + daysInYear (isLeap y) := by
  obtain ⟨z, rfl⟩ := Nat.exists_eq_add_of_le' hy
  have hle : z / 100 ≤ z / 4 := Nat.div_le_div_left (by omega) (by omega)
  have h100 : 100 ∣ z + 1 → 4 ∣ z + 1 := fun h => Nat.dvd_trans (by decide) h
  have h400 : 400 ∣ z + 1 → 100 ∣ z + 1 := fun h => Nat.dvd_trans (by decide) h
  unfold daysBeforeYear daysInYear
  rw [Nat.add_sub_cancel, Nat.add_sub_cancel, Nat.succ_div, Nat.succ_div, Nat.succ_div]
  simp only [isLeap_iff]
  split_ifs <;> omega

theorem daysInMonth_le (leap : Bool) (m : ℕ) : daysInMonth leap m ≤ 31 := by
  unfold daysInMonth
  split
  · split <;> omega
  all_goals omega

theorem daysBeforeMonth_add (leap : Bool) {m m' : ℕ} (hm : m < m') (hm' : m' ≤ 12) (h : 1 ≤ m) :
    daysBeforeMonth leap m + daysInMonth leap m ≤ daysBeforeMonth leap m' := by
  have hall : ∀ leap, ∀ m' ≤ 12, ∀ m < m', 1 ≤ m →
      daysBeforeMonth leap m + daysInMonth leap m ≤ daysBeforeMonth leap m' := by decide
  exact hall leap m' hm' m hm h

theorem daysBeforeMonth_le (leap : Bool) {m : ℕ} (h : 1 ≤ m) (hm : m ≤ 12) :
    daysBeforeMonth leap m + daysInMonth leap m ≤ daysInYear leap := by
  have hall : ∀ leap, ∀ m ≤ 12, 1 ≤ m →
      daysBeforeMonth leap m + daysInMonth leap m ≤ daysInYear leap := by decide
  exact hall leap m hm h

theorem ofDayOfYear_spec {leap : Bool} {n : ℕ} (hn : n < daysInYear leap) :
    (1 ≤ (ofDayOfYear leap n).1 ∧ (ofDayOfYear leap n).1 ≤ 12) ∧
      (1 ≤ (ofDayOfYear leap n).2 ∧
        (ofDayOfYear leap n).2 ≤ daysInMonth leap (ofDayOfYear leap n).1) ∧
      daysBeforeMonth leap (ofDayOfYear leap n).1 + (ofDayOfYear leap n).2 = n + 1 := by
  have hall : ∀ leap, ∀ n < daysInYear leap,
      (1 ≤ (ofDayOfYear leap n).1 ∧ (ofDayOfYear leap n).1 ≤ 12) ∧
        (1 ≤ (ofDayOfYear leap n).2 ∧
          (ofDayOfYear leap n).2 ≤ daysInMonth leap (ofDayOfYear leap n).1) ∧
        daysBeforeMonth leap (ofDayOfYear leap n).1 + (ofDayOfYear leap n).2 = n + 1 := by
    decide +kernel
  exact hall leap n hn

theorem daysBeforeYear_le {y y' : ℕ} (hy : 1 ≤ y) (h : y < y') :
    daysBeforeYear y + daysInYear (isLeap y) ≤ daysBeforeYear y' := by
  induction y', h using Nat.le_induction with
  | base => exact (daysBeforeYear_succ hy).ge
  | succ n hn ih =>
    have hnext := daysBeforeYear_succ (y := n) (by omega)
    omega

theorem daysBeforeYear_cycles (n400 n100 n4 n1 : ℕ) (h100 : n100 ≤ 3) (h4 : n4 ≤ 24)
    (h1 : n1 ≤ 3) :
    daysBeforeYear (n400 * 400 + n100 * 100 + n4 * 4 + n1 + 1) =
      n400 * 146097 + n100 * 36524 + n4 * 1461 + n1 * 365 := by
  unfold daysBeforeYear
  omega

theorem isLeap_cycles (n400 n100 n4 n1 : ℕ) (h100 : n100 ≤ 3) (h4 : n4 ≤ 24) (h1 : n1 ≤ 3) :
    isLeap (n400 * 400 + n100 * 100 + n4 * 4 + n1 + 1) =
      decide (n1 = 3 ∧ (n4 ≠ 24 ∨ n100 = 3)) := by
  unfold isLeap
  apply decide_eq_decide.mpr
  omega

namespace Date
variable {d d' : Date}

theorem toOrdinal_le (h : d.Valid) :
    d.toOrdinal ≤ daysBeforeYear d.year + daysInYear (isLeap d.year) := by
  have hmonth := daysBeforeMonth_le (isLeap d.year) h.month.1 h.month.2
  have hday := h.day.2
  unfold toOrdinal
  omega

theorem toOrdinal_lt (h : d.Valid) (h' : d'.Valid)
    (hlt : d.year < d'.year ∨ d.year = d'.year ∧
      (d.month < d'.month ∨ d.month = d'.month ∧ d.day < d'.day)) :
    d.toOrdinal < d'.toOrdinal := by
  have hday := h'.day.1
  rcases hlt with hyear | ⟨hyear, hmonth | ⟨hmonth, hday⟩⟩
  · have hend := toOrdinal_le h
    have hnext := daysBeforeYear_le h.year hyear
    unfold toOrdinal at hend ⊢
    omega
  · have hend := h.day.2
    have hnext := daysBeforeMonth_add (isLeap d.year) hmonth h'.month.2 h.month.1
    unfold toOrdinal
    rw [← hyear]
    omega
  · unfold toOrdinal
    rw [← hyear, ← hmonth]
    omega

/-- The last day of a leap year. -/
theorem leapDay_spec (n400 : ℕ) {n100 n4 : ℕ} (h100 : n100 ≤ 3) (h4 : n4 ≤ 24)
    (hleap : n4 ≠ 24 ∨ n100 = 3) :
    (⟨n400 * 400 + n100 * 100 + n4 * 4 + 3 + 1, 12, 31⟩ : Date).Valid ∧
      (⟨n400 * 400 + n100 * 100 + n4 * 4 + 3 + 1, 12, 31⟩ : Date).toOrdinal =
        n400 * 146097 + n100 * 36524 + n4 * 1461 + 3 * 365 + 366 := by
  have hisLeap := isLeap_cycles n400 n100 n4 3 h100 h4 le_rfl
  rw [decide_eq_true ⟨rfl, hleap⟩] at hisLeap
  have hmonth : daysInMonth true 12 = 31 := rfl
  have hbefore : daysBeforeMonth true 12 = 335 := rfl
  constructor
  · exact ⟨by simp, by simp, by simp [hisLeap, hmonth]⟩
  · unfold toOrdinal
    rw [hisLeap, daysBeforeYear_cycles n400 n100 n4 3 h100 h4 le_rfl, hbefore]
    dsimp only

theorem ofOrdinal_spec {n : ℕ} (hn : 1 ≤ n) :
    (ofOrdinal n).Valid ∧ (ofOrdinal n).toOrdinal = n := by
  obtain ⟨m, rfl⟩ := Nat.exists_eq_add_of_le' hn
  unfold ofOrdinal
  dsimp only
  rw [Nat.add_sub_cancel]
  generalize h400 : m / 146097 = n400
  generalize hr400 : m % 146097 = r400
  generalize h100 : r400 / 36524 = n100
  generalize hr100 : r400 % 36524 = r100
  generalize h4 : r100 / 1461 = n4
  generalize hr4 : r100 % 1461 = r4
  generalize h1 : r4 / 365 = n1
  generalize hr1 : r4 % 365 = r1
  have hsum : m = n400 * 146097 + n100 * 36524 + n4 * 1461 + n1 * 365 + r1 := by omega
  have h4le : n4 ≤ 24 := by omega
  split_ifs with hlast
  · rcases hlast with hlast | hlast
    · have hspec := leapDay_spec n400 (show n100 ≤ 3 by omega) h4le (by omega)
      rw [hlast, Nat.add_sub_cancel]
      exact ⟨hspec.1, hspec.2.trans (by omega)⟩
    · have hspec := leapDay_spec n400 (le_refl 3) (le_refl 24) (by omega)
      have hyear : n400 * 400 + n100 * 100 + n4 * 4 + n1 + 1 - 1 =
          n400 * 400 + 3 * 100 + 24 * 4 + 3 + 1 := by omega
      rw [hyear]
      exact ⟨hspec.1, hspec.2.trans (by omega)⟩
  · have h100le : n100 ≤ 3 := by omega
    have h1le : n1 ≤ 3 := by omega
    have hisLeap := isLeap_cycles n400 n100 n4 n1 h100le h4le h1le
    have hday : r1 < daysInYear (decide (n1 = 3 ∧ (n4 ≠ 24 ∨ n100 = 3))) := by
      unfold daysInYear
      split_ifs <;> omega
    obtain ⟨hmonth, hdays, hcount⟩ := ofDayOfYear_spec hday
    constructor
    · exact ⟨by simp, hmonth, by rw [hisLeap]; exact hdays⟩
    · unfold toOrdinal
      rw [hisLeap, daysBeforeYear_cycles n400 n100 n4 n1 h100le h4le h1le, Nat.add_assoc, hcount]
      omega

end Date
end HomeServer.Lib.Calendar
