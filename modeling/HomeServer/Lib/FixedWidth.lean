import Mathlib.Data.String.Basic
import Mathlib.Data.Nat.Notation
import Mathlib.Tactic.Common
import Mathlib.Tactic.Ring

/-! Numbers written in a fixed width: as texts they compare like the numbers they denote, and
texts of blocks of equal length compare block by block. They are read back by their widths. -/
namespace HomeServer.Lib.FixedWidth

def digits : ℕ → ℕ → List Char
  | 0, _ => []
  | w + 1, n => digits w (n / 10) ++ [(n % 10).digitChar]

@[simp] theorem length_digits (w n : ℕ) : (digits w n).length = w := by
  induction w generalizing n with
  | zero => rfl
  | succ w ih => simp [digits, ih]

theorem digitChar_lt {i j : ℕ} (hj : j < 10) (h : i < j) : i.digitChar < j.digitChar := by
  have hall : ∀ j < 10, ∀ i < j, i.digitChar < j.digitChar := by decide
  exact hall j hj i h

section Blocks
variable {α : Type*} [LinearOrder α] {a b c d : List α}

theorem append_lt_append_iff (h : a.length = b.length) :
    a ++ c < b ++ d ↔ a < b ∨ a = b ∧ c < d := by
  induction a generalizing b with
  | nil =>
    obtain rfl := List.length_eq_zero_iff.mp h.symm
    simp
  | cons x a ih =>
    cases b with
    | nil => cases h
    | cons y b =>
      have hlength : a.length = b.length := Nat.succ.inj h
      rw [List.cons_append, List.cons_append, List.cons_lt_cons_iff, List.cons_lt_cons_iff,
        ih hlength, List.cons.injEq]
      tauto

end Blocks

section Numbers
variable {w n m : ℕ}

theorem digits_lt (hm : m < 10 ^ w) (h : n < m) : digits w n < digits w m := by
  induction w generalizing n m with
  | zero => omega
  | succ w ih =>
    unfold digits
    rw [append_lt_append_iff (by simp)]
    rcases Nat.lt_or_ge (n / 10) (m / 10) with htens | htens
    · have hlt := ih (m := m / 10) (by omega) htens
      exact Or.inl hlt
    · have heq : n / 10 = m / 10 := by omega
      have hunits : n % 10 < m % 10 := by omega
      have hlt := digitChar_lt (Nat.mod_lt m (by omega)) hunits
      exact Or.inr ⟨congrArg (digits w) heq, List.cons_lt_cons_iff.mpr (Or.inl hlt)⟩

theorem digits_lt_iff (hn : n < 10 ^ w) (hm : m < 10 ^ w) : digits w n < digits w m ↔ n < m := by
  constructor
  · intro h
    by_contra hge
    rcases (not_lt.mp hge).lt_or_eq with hlt | rfl
    · exact lt_asymm h (digits_lt hn hlt)
    · exact lt_irrefl _ h
  · exact digits_lt hm

theorem digits_inj (hn : n < 10 ^ w) (hm : m < 10 ^ w) : digits w n = digits w m ↔ n = m := by
  constructor
  · intro h
    rcases lt_trichotomy n m with hlt | heq | hgt
    · exact absurd h (digits_lt hm hlt).ne
    · exact heq
    · exact absurd h.symm (digits_lt hn hgt).ne
  · exact congrArg (digits w)

/-- A number in front decides, and what follows it only where the numbers are equal. -/
theorem digits_append_lt_iff (hn : n < 10 ^ w) (hm : m < 10 ^ w) {c d : List Char} :
    digits w n ++ c < digits w m ++ d ↔ n < m ∨ n = m ∧ c < d := by
  rw [append_lt_append_iff (by simp), digits_lt_iff hn hm, digits_inj hn hm]

theorem toDigits_eq_digits (hlo : 10 ^ w ≤ n) (hhi : n < 10 ^ (w + 1)) :
    Nat.toDigits 10 n = digits (w + 1) n := by
  induction w generalizing n with
  | zero =>
    have hmod : n % 10 = n := Nat.mod_eq_of_lt (by omega)
    rw [Nat.toDigits_of_lt_base (by omega)]
    simp [digits, hmod]
  | succ w ih =>
    have hbase : 10 ≤ n := by omega
    rw [Nat.toDigits_of_base_le (by omega) hbase, ih (by omega) (by omega)]
    rfl

end Numbers

/-- The number that `w` digits in front of a text continue `n` to, and the text after them. -/
def readFrom (n : ℕ) : ℕ → List Char → Option (ℕ × List Char)
  | 0, s => some (n, s)
  | _ + 1, [] => none
  | w + 1, c :: s => if c.isDigit then readFrom (n * 10 + (c.toNat - '0'.toNat)) w s else none

/-- The number that `w` digits in front of a text make up, and the text after them. -/
def readNumber : ℕ → List Char → Option (ℕ × List Char) := readFrom 0

/-- The text after a character that has to come first. -/
def expect (c : Char) : List Char → Option (List Char)
  | [] => none
  | d :: s => if d = c then some s else none

section Reading
variable {w n : ℕ} {s : List Char}

@[simp] theorem expect_cons (c : Char) (s : List Char) : expect c (c :: s) = some s := if_pos rfl

theorem digitChar_spec {d : ℕ} (h : d < 10) :
    d.digitChar.isDigit = true ∧ d.digitChar.toNat - '0'.toNat = d := by
  have hall : ∀ d < 10, d.digitChar.isDigit = true ∧ d.digitChar.toNat - '0'.toNat = d := by
    decide
  exact hall d h

/-- Digits are read one part after the other. -/
theorem readFrom_add (m v w : ℕ) (s : List Char) :
    readFrom m (v + w) s = (readFrom m v s).bind fun p => readFrom p.1 w p.2 := by
  induction v generalizing m s with
  | zero => simp [readFrom]
  | succ v ih =>
    rw [Nat.succ_add]
    cases s with
    | nil => rfl
    | cons c s =>
      rw [readFrom, readFrom]
      split
      · exact ih _ s
      · rfl

theorem readFrom_digits (m w n : ℕ) (s : List Char) :
    readFrom m w (digits w n ++ s) = some (m * 10 ^ w + n % 10 ^ w, s) := by
  induction w generalizing n s with
  | zero => simp [digits, readFrom, Nat.mod_one]
  | succ w ih =>
    obtain ⟨hdigit, hvalue⟩ := digitChar_spec (Nat.mod_lt n (by decide : 0 < 10))
    have hlast : (m * 10 ^ w + n / 10 % 10 ^ w) * 10 + n % 10 =
        m * 10 ^ (w + 1) + n % 10 ^ (w + 1) := by
      rw [Nat.pow_succ', Nat.mod_mul]
      ring
    unfold digits
    rw [List.append_assoc, readFrom_add, ih, Option.bind_some]
    dsimp only [List.singleton_append]
    unfold readFrom
    rw [if_pos hdigit, hvalue, hlast]
    rfl

/-- A number is read back by its width. -/
theorem readNumber_digits (h : n < 10 ^ w) : readNumber w (digits w n ++ s) = some (n, s) := by
  have hread := readFrom_digits 0 w n s
  rwa [Nat.zero_mul, Nat.zero_add, Nat.mod_eq_of_lt h] at hread

end Reading
end HomeServer.Lib.FixedWidth
