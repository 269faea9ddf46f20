/-!
# Powers with an exponent of either sign

A number `m · b ^ e` with a negative `e` is the quotient of `m` by `b ^ (-e)`. Over
a common denominator every such number needs only natural powers: `wholePower b e`
multiplies the numerator, `wholePower b (-e)` the denominator, and one of the two is 1.
-/

namespace WideColumn

/-- The power of a base, an exponent below zero counting as zero. -/
def wholePower (base : Nat) (exponent : Int) : Nat := Nat.pow base exponent.toNat

/-- Exponents below zero leave the number as it is. -/
theorem wholePower_of_nonpos (base : Nat) {e : Int} (h : e ≤ 0) : wholePower base e = 1 := by
  have : e.toNat = 0 := by omega
  simp [wholePower, this]

/-- A power of a base above zero is above zero. -/
theorem wholePower_pos {base : Nat} (h : 0 < base) (e : Int) : 0 < wholePower base e :=
  Nat.pow_pos h

end WideColumn
