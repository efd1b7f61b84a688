import HomeServer.Core.Struct
import HomeServer.Lib.Trimming

/-! What Python reads numbers from: `str.strip`, `float(text)` and `int(text)`. -/
namespace HomeServer.PyText
open Lib.Trimming

abbrev Text := List Char

/-- `str.isspace` of one character. -/
def isSpace (c : Char) : Bool :=
  let n := c.toNat
  (0x09 ≤ n && n ≤ 0x0d) || (0x1c ≤ n && n ≤ 0x20) || (0x2000 ≤ n && n ≤ 0x200a) ||
    [0x85, 0xa0, 0x1680, 0x2028, 0x2029, 0x202f, 0x205f, 0x3000].contains n

def strip (text : Text) : Text := (text.dropWhile isSpace).rdropWhile isSpace

/-- The white space that `int` and `float` skip: the separators from 0x1c on are not in it. -/
def isNumberSpace (c : Char) : Bool := isSpace c && !(0x1c ≤ c.toNat && c.toNat ≤ 0x1f)

/-- The zeros of the scripts that have decimal digits, in the order of the code points. -/
def zeros : List ℕ :=
  [0x0030, 0x0660, 0x06f0, 0x07c0, 0x0966, 0x09e6, 0x0a66, 0x0ae6, 0x0b66, 0x0be6, 0x0c66, 0x0ce6,
    0x0d66, 0x0de6, 0x0e50, 0x0ed0, 0x0f20, 0x1040, 0x1090, 0x17e0, 0x1810, 0x1946, 0x19d0, 0x1a80,
    0x1a90, 0x1b50, 0x1bb0, 0x1c40, 0x1c50, 0xa620, 0xa8d0, 0xa900, 0xa9d0, 0xa9f0, 0xaa50, 0xabf0,
    0xff10, 0x104a0, 0x10d30, 0x11066, 0x110f0, 0x11136, 0x111d0, 0x112f0, 0x11450, 0x114d0,
    0x11650, 0x116c0, 0x11730, 0x118e0, 0x11950, 0x11c50, 0x11d50, 0x11da0, 0x11f50, 0x16a60,
    0x16ac0, 0x16b50, 0x1d7ce, 0x1d7d8, 0x1d7e2, 0x1d7ec, 0x1d7f6, 0x1e140, 0x1e2f0, 0x1e4f0,
    0x1e950, 0x1fbf0]

def digit (c : Char) : Option ℕ :=
  zeros.findSome? fun n => if n ≤ c.toNat ∧ c.toNat < n + 10 then some (c.toNat - n) else none

def isDigit (c : Char) : Bool := (digit c).isSome

def digitsValue (digits : Text) : ℕ := digits.foldl (fun n c => 10 * n + (digit c).getD 0) 0

/-- Underscores may stand between digits only; `afterDigit` tells of the character before. -/
def dropUnderscores (afterDigit : Bool) : Text → Option Text
  | [] => some []
  | '_' :: c :: text => if afterDigit && isDigit c then dropUnderscores false (c :: text) else none
  | ['_'] => none
  | c :: text => (dropUnderscores (isDigit c) text).map (c :: ·)

/-- The binary64 nearest to a number that is not negative. -/
def nearestDouble (q : ℚ) : PyFloat :=
  if q = 0 then .finite 0
  else
    let exponent := max (Struct.floorLog2 q) (-1022)
    let rounded := (Struct.roundHalfEven (q / (2 : ℚ) ^ (exponent - 52)) : ℚ) *
      (2 : ℚ) ^ (exponent - 52)
    if rounded < (2 : ℚ) ^ 1024 then .finite rounded else .inf false

/-- What stands after the digits: nothing, or an exponent. -/
def exponent : Text → Option ℤ
  | [] => some 0
  | e :: text =>
    if e = 'e' ∨ e = 'E' then
      let (negative, digits) := match text with
        | '-' :: digits => (true, digits)
        | '+' :: digits => (false, digits)
        | digits => (false, digits)
      if digits ≠ [] ∧ digits.all isDigit then
        some (if negative then -(digitsValue digits : ℤ) else digitsValue digits)
      else none
    else none

/-- Digits with at most one point among them, and an exponent. -/
def decimal (text : Text) : Option PyFloat :=
  let whole := text.takeWhile isDigit
  let (fraction, rest) := match text.dropWhile isDigit with
    | '.' :: rest => (rest.takeWhile isDigit, rest.dropWhile isDigit)
    | rest => ([], rest)
  if whole ++ fraction = [] then none
  else (exponent rest).map fun e : ℤ =>
    nearestDouble (digitsValue (whole ++ fraction) * (10 : ℚ) ^ (e - fraction.length))

def magnitude (text : Text) : Option PyFloat :=
  let name := text.map Char.toLower
  if name = "inf".toList ∨ name = "infinity".toList then some (.inf false)
  else if name = "nan".toList then some .nan
  else decimal text

def negated : PyFloat → PyFloat
  | .nan => .nan
  | .inf negative => .inf !negative
  | .negZero => .finite 0
  | .finite q => if q = 0 then .negZero else .finite (-q)

/-- `float(text)` of a stripped text, where `none` is the `ValueError`. -/
def float (text : Text) : Option PyFloat :=
  match dropUnderscores false (strip text) with
  | none => none
  | some ('-' :: text) => (magnitude text).map negated
  | some ('+' :: text) => magnitude text
  | some text => magnitude text

example : float " 1_0.5e1\n".toList = some (.finite 105) := by decide +kernel

example : float "-INF".toList = some (.inf true) := by decide +kernel

example : float "1__0".toList = none := by decide +kernel

/-- `sys.int_info.default_max_str_digits`. -/
def maxStrDigits : ℕ := 4300

/-- `none` where there is no digit, a character that is none, or more digits than are read. -/
def natural (digits : Text) : Option ℕ :=
  if digits ≠ [] ∧ digits.all isDigit ∧ digits.length ≤ maxStrDigits then some (digitsValue digits)
  else none

/-- `int(text)` of a stripped text, where `none` is the `ValueError`. -/
def int (text : Text) : Option ℤ :=
  match dropUnderscores false (strip text) with
  | none => none
  | some ('-' :: digits) => (natural digits).map fun n => -(n : ℤ)
  | some ('+' :: digits) => (natural digits).map Int.ofNat
  | some digits => (natural digits).map Int.ofNat

example : int " +1_0".toList = some 10 := by decide +kernel

def str : ℤ → Text
  | .ofNat n => Nat.toDigits 10 n
  | .negSucc n => '-' :: Nat.toDigits 10 (n + 1)

theorem strip_eq (text : Text) : strip text = trim isSpace text := rfl

@[simp] theorem strip_strip (text : Text) : strip (strip text) = strip text := trim_trim _ _

theorem int_strip (text : Text) : int (strip text) = int text := by
  unfold int
  rw [strip_strip]

section Decimal
variable {n : ℕ} {c : Char}

theorem digit_digitChar (hn : n < 10) : digit n.digitChar = some n := by
  have hall : ∀ n < 10, digit n.digitChar = some n := by decide
  exact hall n hn

theorem exists_digit_of_mem (hc : c ∈ Nat.toDigits 10 n) : ∃ d < 10, c = d.digitChar := by
  induction n using Nat.strongRecOn with
  | ind n ih =>
    rw [Nat.toDigits_eq_if (by decide)] at hc
    split_ifs at hc with hn
    · exact ⟨n, hn, List.mem_singleton.mp hc⟩
    · rcases List.mem_append.mp hc with hc | hc
      · exact ih (n / 10) (by omega) hc
      · exact ⟨n % 10, by omega, List.mem_singleton.mp hc⟩

theorem digitsValue_toDigits (n : ℕ) : digitsValue (Nat.toDigits 10 n) = n := by
  induction n using Nat.strongRecOn with
  | ind n ih =>
    rw [Nat.toDigits_eq_if (by decide)]
    split_ifs with hn
    · simp [digitsValue, digit_digitChar hn]
    · have hrest := ih (n / 10) (by omega)
      have hlast : digit (n % 10).digitChar = some (n % 10) := digit_digitChar (by omega)
      unfold digitsValue at hrest ⊢
      rw [List.foldl_append, hrest, List.foldl_cons, List.foldl_nil, hlast, Option.getD_some]
      omega

theorem natural_toDigits (n : ℕ) :
    natural (Nat.toDigits 10 n) = if n < 10 ^ maxStrDigits then some n else none := by
  have hdigits : (Nat.toDigits 10 n).all isDigit = true := by
    rw [List.all_eq_true]
    intro c hc
    obtain ⟨d, hd, rfl⟩ := exists_digit_of_mem hc
    rw [isDigit, digit_digitChar hd, Option.isSome_some]
  have hlength : (Nat.toDigits 10 n).length ≤ maxStrDigits ↔ n < 10 ^ maxStrDigits :=
    Nat.length_toDigits_le_iff (by decide) (by decide)
  unfold natural
  rw [digitsValue_toDigits]
  simp [hdigits, hlength]

theorem dropUnderscores_of_not_mem {text : Text} (h : '_' ∉ text) (b : Bool) :
    dropUnderscores b text = some text := by
  induction text generalizing b with
  | nil => rfl
  | cons c text ih =>
    obtain ⟨hc, htext⟩ := List.ne_and_not_mem_of_not_mem_cons h
    rw [dropUnderscores, ih htext]
    · rfl
    · exact fun _ _ heq => absurd heq.symm hc
    · exact fun heq => absurd heq.symm hc

theorem cleaned_eq {text : Text} (hspace : ∀ c ∈ text, ¬isSpace c = true) (h : '_' ∉ text) :
    dropUnderscores false (strip text) = some text := by
  rw [strip_eq, trim_eq_self hspace, dropUnderscores_of_not_mem h]

theorem plain_of_mem_toDigits (hc : c ∈ Nat.toDigits 10 n) :
    ¬isSpace c = true ∧ c ∉ ['_', '-', '+', ',', '='] := by
  obtain ⟨d, hd, rfl⟩ := exists_digit_of_mem hc
  have hall : ∀ d < 10, ¬isSpace d.digitChar = true ∧
      d.digitChar ∉ ['_', '-', '+', ',', '='] := by decide
  exact hall d hd

theorem not_mem_str {k : ℤ} (hc : c ∈ [',', '=']) : c ∉ str k := by
  have hdigits : ∀ n, c ∉ Nat.toDigits 10 n := fun n hmem =>
    (plain_of_mem_toDigits hmem).2 (by simp_all)
  cases k with
  | ofNat n => exact hdigits n
  | negSucc n =>
    intro hmem
    rcases List.mem_cons.mp hmem with rfl | hmem
    · exact absurd hc (by decide)
    · exact hdigits _ hmem

/-- The decimal text of a number is read as that number if it is not too long. -/
theorem int_str (k : ℤ) : int (str k) = if k.natAbs < 10 ^ maxStrDigits then some k else none := by
  cases k with
  | ofNat n =>
    have hclean : dropUnderscores false (strip (Nat.toDigits 10 n)) =
        some (Nat.toDigits 10 n) :=
      cleaned_eq (fun c hc => (plain_of_mem_toDigits hc).1)
        fun hmem => (plain_of_mem_toDigits hmem).2 (by decide)
    unfold int str
    rw [hclean]
    split
    · rename_i heq
      cases heq
    · rename_i digits heq
      have hmem : '-' ∈ Nat.toDigits 10 n := by
        rw [Option.some.inj heq]
        exact .head _
      exact absurd (by decide) (plain_of_mem_toDigits hmem).2
    · rename_i digits heq
      have hmem : '+' ∈ Nat.toDigits 10 n := by
        rw [Option.some.inj heq]
        exact .head _
      exact absurd (by decide) (plain_of_mem_toDigits hmem).2
    · rename_i heq
      rw [← Option.some.inj heq, natural_toDigits]
      change _ = if n < 10 ^ maxStrDigits then some (Int.ofNat n) else none
      split <;> rfl
  | negSucc n =>
    have hclean : dropUnderscores false (strip ('-' :: Nat.toDigits 10 (n + 1))) =
        some ('-' :: Nat.toDigits 10 (n + 1)) := by
      apply cleaned_eq
      · intro c hc
        rcases List.mem_cons.mp hc with rfl | hc
        · decide
        · exact (plain_of_mem_toDigits hc).1
      · intro hmem
        rcases List.mem_cons.mp hmem with heq | hmem
        · cases heq
        · exact (plain_of_mem_toDigits hmem).2 (by decide)
    unfold int str
    rw [hclean]
    change (natural (Nat.toDigits 10 (n + 1))).map (fun n => -(n : ℤ)) = _
    rw [natural_toDigits]
    change _ = if n + 1 < 10 ^ maxStrDigits then some (Int.negSucc n) else none
    split <;> rfl

end Decimal

end HomeServer.PyText
