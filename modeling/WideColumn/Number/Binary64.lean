import WideColumn.Number.Decimal
import WideColumn.Number.Power

/-!
# Binary floating-point numbers

Numbers of the 64-bit binary format as exact values on natural numbers and
integers: a finite one is `± mantissa · 2 ^ exponent`. A decimal is rounded to the
nearest such number, a tie going to the even mantissa. No machine
floating-point operation takes part, so every statement is about integers.
-/

namespace WideColumn

/-- A 64-bit binary floating-point number. -/
inductive Binary64 where
  /-- Not a number. -/
  | nan
  /-- An infinity of either sign. -/
  | infinite (negative : Bool)
  /-- The number `± mantissa · 2 ^ exponent`; a zero keeps its sign. -/
  | finite (negative : Bool) (mantissa : Nat) (exponent : Int)
  deriving DecidableEq, Repr

namespace Binary64

/-- The least exponent, that of the numbers next to zero. -/
def leastExponent : Int := -1074

/-- The greatest exponent of a finite number. -/
def greatestExponent : Int := 971

/-- The mantissas of the numbers that are not next to zero start here. -/
def normalMantissa : Nat := wholePower 2 52

/-- Zero of the given sign. -/
def zero (negative : Bool) : Binary64 := finite negative 0 leastExponent

/-- The quotient of two naturals, rounded to the nearest natural and at a tie to the even one. -/
def roundDiv (num den : Nat) : Nat :=
  let q := num / den
  let r := num % den
  if 2 * r < den then q else if den < 2 * r then q + 1 else if q % 2 = 0 then q else q + 1

/-- The numerator and denominator of `num / den` divided by `2 ^ e`. -/
def scaled (num den : Nat) (e : Int) : Nat × Nat :=
  (num * wholePower 2 (-e), den * wholePower 2 e)

/-- The exponent at which the quotient has a mantissa of full width, or the least exponent. -/
def fittingExponent (num den : Nat) : Int :=
  let e := (num.log2 : Int) - den.log2 - 52
  let (a, b) := scaled num den e
  max leastExponent (if normalMantissa * b ≤ a then e else e - 1)

/-- The nearest number to a positive quotient. -/
def ofQuotient (negative : Bool) (num den : Nat) : Binary64 :=
  let e := fittingExponent num den
  let (a, b) := scaled num den e
  let m := roundDiv a b
  let (m, e) := if m = 2 * normalMantissa then (normalMantissa, e + 1) else (m, e)
  if greatestExponent < e then infinite negative else finite negative m e

/-- The nearest number to a decimal. Powers far outside the format are settled at once. -/
def ofDecimal (d : Decimal) : Binary64 :=
  if d.digits = 0 then zero d.negative
  else if 400 < d.power then infinite d.negative
  else if d.power + (d.digits.log2 / 3 + 1 : Nat) < -400 then zero d.negative
  else ofQuotient d.negative (d.digits * wholePower 10 d.power) (wholePower 10 (-d.power))

/-- The mantissa with its sign. -/
def signed (negative : Bool) (mantissa : Nat) : Int :=
  if negative then -(mantissa : Int) else mantissa

/-- The number is a zero of either sign. -/
def isZero : Binary64 → Bool
  | finite _ m _ => m == 0
  | _ => false

/-- Equality as numbers: both zeros are equal, and not-a-number equals nothing. -/
def sameNumber : Binary64 → Binary64 → Bool
  | infinite s, infinite t => s == t
  | finite s m e, finite t n f =>
    signed s m * wholePower 2 (e - f) == signed t n * wholePower 2 (f - e)
  | _, _ => false

/-- Equality with an integer as numbers. -/
def sameInt : Binary64 → Int → Bool
  | finite s m e, n => signed s m * wholePower 2 e == n * wholePower 2 (-e)
  | _, _ => false

/-- Not-a-number equals nothing, not even itself. -/
@[simp] theorem sameNumber_nan (x : Binary64) : sameNumber nan x = false := by
  cases x <;> rfl

/-- The two zeros are the same number. -/
example : sameNumber (zero true) (zero false) = true := by decide

end Binary64

end WideColumn
