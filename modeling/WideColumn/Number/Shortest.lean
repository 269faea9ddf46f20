import WideColumn.Number.Binary64

/-!
# Shortest decimal text of a binary number

A finite binary number is written with the fewest significant digits that read
back as the same number, and of the decimals with that many digits with the
nearest one. The search tries one to seventeen digits: on each decimal grid
only the two neighbours of the number can lie in the interval that rounds to
it. How the digits are laid out is a separate decision, held in a `FloatStyle`.
-/

namespace WideColumn.Binary64

/-- The interval of reals that round to a number, over one denominator. -/
structure RoundingInterval where
  /-- The number itself. -/
  value : Nat
  /-- The lower end. -/
  low : Nat
  /-- The upper end. -/
  high : Nat
  /-- The common denominator. -/
  den : Nat
  /-- The ends round to the number too. -/
  closed : Bool

/-- The reals that round to `mantissa · 2 ^ exponent`; below a power of two the grid is finer. -/
def roundingInterval (mantissa : Nat) (exponent : Int) : RoundingInterval :=
  let up := wholePower 2 exponent
  let below := if mantissa = normalMantissa ∧ leastExponent < exponent then 1 else 2
  { value := 4 * mantissa * up
    low := (4 * mantissa - below) * up
    high := (4 * mantissa + 2) * up
    den := 4 * wholePower 2 (-exponent)
    closed := mantissa % 2 == 0 }

/-- The quotient is at least `10 ^ e`. -/
def reachesPower (num den : Nat) (e : Int) : Bool :=
  decide (den * wholePower 10 e ≤ num * wholePower 10 (-e))

/-- The power of ten of the leading digit, from an estimate that is off by one at most. -/
def leadingPower (mantissa : Nat) (exponent : Int) (i : RoundingInterval) : Int :=
  let estimate := ((mantissa.log2 : Int) + exponent) * 30103 / 100000
  if reachesPower i.value i.den (estimate + 1) then estimate + 1
  else if reachesPower i.value i.den estimate then estimate
  else estimate - 1

/-- The point `n · 10 ^ power` of the grid lies in the interval. -/
def RoundingInterval.holds (i : RoundingInterval) (power : Int) (n : Nat) : Bool :=
  let point := n * (i.den * wholePower 10 power)
  let low := i.low * wholePower 10 (-power)
  let high := i.high * wholePower 10 (-power)
  if i.closed then decide (low ≤ point ∧ point ≤ high) else decide (low < point ∧ point < high)

/-- The nearer of the number's two neighbours on a decimal grid that lies in the interval. -/
def RoundingInterval.pick? (i : RoundingInterval) (power : Int) : Option Nat :=
  let a := i.value * wholePower 10 (-power)
  let b := i.den * wholePower 10 power
  let n := a / b
  let r := a % b
  match i.holds power n, i.holds power (n + 1) with
  | false, false => none
  | true, false => some n
  | false, true => some (n + 1)
  | true, true =>
    some (if 2 * r < b then n else if b < 2 * r then n + 1 else if n % 2 = 0 then n else n + 1)

/-- The shortest decimal `digits · 10 ^ power` that reads back as a positive finite number. -/
def shortest (mantissa : Nat) (exponent : Int) : Nat × Int :=
  let i := roundingInterval mantissa exponent
  let lead := leadingPower mantissa exponent i
  ((List.range 17).findSome? fun (k : Nat) =>
    (i.pick? (lead - k)).map fun n => (n, lead - (k : Int))).getD (0, 0)

/-- How the digits of a floating-point number are laid out. -/
structure FloatStyle where
  /-- Leading powers from here up to `highestPlain` are written without a power of ten. -/
  lowestPlain : Int
  /-- The last leading power that is written without a power of ten. -/
  highestPlain : Int
  /-- The least number of digits of a written power of ten. -/
  powerDigits : Nat
  /-- The text of not-a-number. -/
  nan : String
  /-- The text of the positive infinity. -/
  infinity : String

/-- Fill up with zeros on the left. -/
def padLeft (width : Nat) (cs : List Char) : List Char :=
  List.replicate (width - cs.length) '0' ++ cs

/-- Digits with the point after the first `point` of them, zeros filling the gaps. -/
def layPlain (ds : List Char) (point : Int) : List Char :=
  if point ≤ 0 then '0' :: '.' :: (List.replicate (-point).toNat '0' ++ ds)
  else if (ds.length : Int) ≤ point then
    ds ++ List.replicate (point.toNat - ds.length) '0' ++ ['.', '0']
  else ds.take point.toNat ++ '.' :: ds.drop point.toNat

/-- One digit, the rest behind a point, and the power of ten with its sign. -/
def layPower (style : FloatStyle) (ds : List Char) (power : Int) : List Char :=
  let fraction := if ds.length ≤ 1 then [] else '.' :: ds.drop 1
  let sign := if power < 0 then '-' else '+'
  ds.take 1 ++ fraction ++ 'e' :: sign ::
    padLeft style.powerDigits (Decimal.digitsOf power.natAbs)

/-- Drop the zeros at the end of a row of digits, but keep the first digit. -/
def trimZeros (ds : List Char) : List Char :=
  match (ds.reverse.dropWhile (· = '0')).reverse with
  | [] => ['0']
  | kept => kept

/-- Lay out the positive decimal `n · 10 ^ power`. -/
def layDecimal (style : FloatStyle) (n : Nat) (power : Int) : List Char :=
  let all := Decimal.digitsOf n
  let point := (all.length : Int) + power
  let ds := trimZeros all
  if style.lowestPlain ≤ point - 1 ∧ point - 1 ≤ style.highestPlain then layPlain ds point
  else layPower style ds (point - 1)

/-- The text of a number in a style. -/
def text (style : FloatStyle) : Binary64 → String
  | nan => style.nan
  | infinite negative => (if negative then "-" else "") ++ style.infinity
  | finite negative m e =>
    let body :=
      if m = 0 then ['0', '.', '0']
      else let (n, power) := shortest m e; layDecimal style n power
    String.ofList (if negative then '-' :: body else body)

end WideColumn.Binary64
