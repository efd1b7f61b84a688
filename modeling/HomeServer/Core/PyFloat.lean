import Mathlib.Data.Rat.Floor

/-! Python floats by exact value: a finite float is the rational it denotes, with the
negative zero kept apart because `struct.pack` tells it from the positive one. -/
namespace HomeServer

inductive PyFloat
  | nan
  | inf (negative : Bool)
  | negZero
  | finite (q : ℚ)
  deriving DecidableEq

namespace PyFloat

def ofInt (n : ℤ) : PyFloat := .finite n

def isFinite : PyFloat → Bool
  | .negZero | .finite _ => true
  | .nan | .inf _ => false

def toRat? : PyFloat → Option ℚ
  | .negZero => some 0
  | .finite q => some q
  | .nan | .inf _ => none

/-- The comparison `x >= q` with a float literal `q`. -/
def atLeast (x : PyFloat) (q : ℚ) : Bool :=
  match x with
  | .nan => false
  | .inf negative => !negative
  | .negZero => decide (q ≤ 0)
  | .finite r => decide (q ≤ r)

/-- Truncation toward zero, the finite case of `int(x)`. -/
def truncate (q : ℚ) : ℤ := if 0 ≤ q then ⌊q⌋ else ⌈q⌉

def add : PyFloat → PyFloat → PyFloat
  | .nan, _ | _, .nan => .nan
  | .inf negative, .inf negative' => if negative = negative' then .inf negative else .nan
  | .inf negative, _ | _, .inf negative => .inf negative
  | x, y => .finite (x.toRat?.getD 0 + y.toRat?.getD 0)

theorem isFinite_add (x y : PyFloat) :
    (x.add y).isFinite = true ↔ x.isFinite = true ∧ y.isFinite = true := by
  cases x with
  | inf negative =>
    cases y with
    | inf negative' => by_cases h : negative = negative' <;> simp [add, h, isFinite]
    | nan | negZero | finite q => simp [add, isFinite]
  | nan | negZero | finite q => cases y <;> simp [add, isFinite]

theorem isFinite_foldl_add (vs : List PyFloat) (x : PyFloat) :
    (vs.foldl add x).isFinite = true ↔ x.isFinite = true ∧ ∀ v ∈ vs, v.isFinite = true := by
  induction vs generalizing x with
  | nil => simp
  | cons v vs ih => rw [List.foldl_cons, ih, isFinite_add, List.forall_mem_cons, and_assoc]

end PyFloat
end HomeServer
