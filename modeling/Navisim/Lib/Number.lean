import Mathlib.Algebra.Order.Ring.Rat
import Mathlib.Tactic

/-!
# Numbers with infinities and NaN

What a floating-point variable of C holds, with exact numbers in place of the finite ones: there is
one zero, and no rounding.  The operations are those of the standard on infinities and NaN.
-/

namespace Navisim

inductive Number
  | finite (x : ℚ)
  | infinite (negative : Bool)
  | nan
  deriving DecidableEq, Repr

namespace Number

instance : Coe ℚ Number where
  coe := finite

instance (n : Nat) : OfNat Number n where
  ofNat := finite n

instance : OfScientific Number where
  ofScientific m sign e := finite (OfScientific.ofScientific m sign e)

/-! ## Arithmetic -/

def neg : Number → Number
  | finite x => finite (-x)
  | infinite negative => infinite !negative
  | nan => nan

instance : Neg Number where
  neg := neg

def add : Number → Number → Number
  | finite x, finite y => finite (x + y)
  | finite _, infinite negative | infinite negative, finite _ => infinite negative
  -- infinities of opposite signs have no sum
  | infinite negative, infinite negative' =>
      if negative = negative' then infinite negative else nan
  | nan, _ | _, nan => nan

instance : Add Number where
  add := add

instance : Sub Number where
  sub x y := x + -y

def mul : Number → Number → Number
  | finite x, finite y => finite (x * y)
  | finite x, infinite negative | infinite negative, finite x =>
      if x = 0 then nan else infinite (negative ^^ decide (x < 0))
  | infinite negative, infinite negative' => infinite (negative ^^ negative')
  | nan, _ | _, nan => nan

instance : Mul Number where
  mul := mul

def div : Number → Number → Number
  | finite x, finite y =>
      if y ≠ 0 then finite (x / y) else if x = 0 then nan else infinite (decide (x < 0))
  | finite _, infinite _ => finite 0
  | infinite negative, finite y => infinite (negative ^^ decide (y < 0))
  | infinite _, infinite _ => nan
  | nan, _ | _, nan => nan

instance : Div Number where
  div := div

/-! ## Comparison -/

/-- Nothing compares with NaN. -/
def le : Number → Number → Prop
  | nan, _ | _, nan => False
  | infinite true, _ | _, infinite false => True
  | finite x, finite y => x ≤ y
  | infinite false, _ | _, infinite true => False

instance : LE Number where
  le := le

instance : LT Number where
  lt x y := x ≤ y ∧ ¬ y ≤ x

instance : DecidableLE Number := fun x y =>
  match x, y with
  | nan, nan | nan, finite _ | nan, infinite _ | finite _, nan | infinite true, nan
  | infinite false, nan => isFalse id
  | infinite true, finite _ | infinite true, infinite _ | finite _, infinite false
  | infinite false, infinite false => isTrue trivial
  | finite x, finite y => inferInstanceAs (Decidable (x ≤ y))
  | infinite false, finite _ | infinite false, infinite true | finite _, infinite true =>
      isFalse id

instance : DecidableLT Number := fun x y =>
  inferInstanceAs (Decidable (x ≤ y ∧ ¬ y ≤ x))

/-! ## Finite numbers -/

/-- The finite number, and 0 for others. -/
def toRat : Number → ℚ
  | finite x => x
  | infinite _ | nan => 0

@[simp] theorem toRat_finite (x : ℚ) : (finite x).toRat = x := rfl

section Finite

variable (x y : ℚ) (n : Nat)

@[simp] theorem neg_finite : -finite x = finite (-x) := rfl

@[simp] theorem add_finite : finite x + finite y = finite (x + y) := rfl

@[simp] theorem mul_finite : finite x * finite y = finite (x * y) := rfl

theorem div_finite {y : ℚ} (nonzero : y ≠ 0) : finite x / finite y = finite (x / y) :=
  if_pos nonzero

end Finite

end Number

end Navisim
