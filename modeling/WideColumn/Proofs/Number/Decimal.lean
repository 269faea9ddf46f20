import Mathlib.Data.List.Induction
import WideColumn.Number.Decimal

/-!
# Whole numbers in base ten

A number is written in one way only: by decimal digits of which the first is not
zero, unless it is the only one. The digits that are printed for a number are
these, and the number can be read off them.
-/

namespace WideColumn.Decimal

/-- The digits are the characters 48 to 57. -/
theorem toNat_of_isDigit {c : Char} (h : c.isDigit = true) : 48 ≤ c.toNat ∧ c.toNat ≤ 57 :=
  Char.isDigit_iff_toNat.mp h

theorem digitValue_lt {c : Char} (h : c.isDigit = true) : digitValue c < 10 := by
  have hc := toNat_of_isDigit h
  change c.toNat - 48 < 10
  omega

/-- A digit is the one that is printed for its value. -/
theorem digitChar_digitValue {c : Char} (h : c.isDigit = true) : (digitValue c).digitChar = c := by
  have hc := toNat_of_isDigit h
  refine Char.toNat_inj.mp ?_
  rw [Nat.toNat_digitChar_of_lt_ten (digitValue_lt h)]
  change 48 + (c.toNat - 48) = c.toNat
  omega

/-- A digit that is put behind others counts itself, and the others tenfold. -/
theorem ofDigits_concat (cs : List Char) (c : Char) :
    ofDigits (cs ++ [c]) = ofDigits cs * 10 + digitValue c := by
  rw [ofDigits, List.foldl_append]
  rfl

/-- Printed digits stand for the number for which they were printed. -/
theorem ofDigits_digitsOf (n : Nat) : ofDigits (digitsOf n) = n := by
  have hsame : ofDigits (digitsOf n) = Nat.ofDigitChars 10 (Nat.toDigits 10 n) 0 := by
    rw [ofDigits, digitsOf, Nat.ofDigitChars_eq_foldl]
    simp only [Nat.mul_comm, digitValue]
  rw [hsame, Nat.ofDigitChars_ten_toDigits]

/-- The last digit comes off the end. -/
theorem digitsOf_concat {n d : Nat} (hn : 0 < n) (hd : d < 10) :
    digitsOf (n * 10 + d) = digitsOf n ++ [d.digitChar] := by
  have hlarge : ¬ n * 10 + d < 10 := by omega
  have hdiv : (n * 10 + d) / 10 = n := by omega
  have hmod : (n * 10 + d) % 10 = d := by omega
  rw [digitsOf, Nat.toDigits_eq_if (by decide), if_neg hlarge, hdiv, hmod]
  rfl

/-- The characters write the number in base ten: they are digits that stand for it, and there is no
zero in front of others. -/
structure Writes (cs : List Char) (n : Nat) : Prop where
  /-- There is a digit. -/
  nonempty : cs ≠ []
  /-- All characters are digits. -/
  digits : ∀ c ∈ cs, c.isDigit = true
  /-- A zero in front stands alone. -/
  lead : cs.head? = some '0' → cs = ['0']
  /-- The digits stand for the number. -/
  value : ofDigits cs = n

/-- No zero is printed in front of a number above zero; by induction over its digits. -/
theorem head?_digitsOf {n : Nat} (h : 0 < n) : (digitsOf n).head? ≠ some '0' := by
  induction n using Nat.strongRecOn with
  | ind n ih =>
    by_cases hsmall : n < 10
    · rw [digitsOf, Nat.toDigits_of_lt_base hsmall, List.head?_singleton, Ne, Option.some.injEq]
      intro hzero
      have hcode := congrArg Char.toNat hzero
      rw [Nat.toNat_digitChar_of_lt_ten hsmall] at hcode
      change 48 + n = 48 at hcode
      omega
    · have hfront : 0 < n / 10 := by omega
      have hlast : n % 10 < 10 := by omega
      have hn : n / 10 * 10 + n % 10 = n := by omega
      rw [← hn, digitsOf_concat hfront hlast]
      have hnonempty : Nat.toDigits 10 (n / 10) ≠ [] := Nat.toDigits_ne_nil
      obtain ⟨c, rest, hcs⟩ := List.exists_cons_of_ne_nil hnonempty
      have hhead := ih (n / 10) (by omega) hfront
      rw [digitsOf, hcs] at hhead ⊢
      exact hhead

/-- The digits that are printed for a number write it. -/
theorem writes_digitsOf (n : Nat) : Writes (digitsOf n) n where
  nonempty := Nat.toDigits_ne_nil
  digits _ hc := Nat.isDigit_of_mem_toDigits (by decide) (by decide) hc
  lead h := by
    cases n with
    | zero => rfl
    | succ n => exact absurd h (head?_digitsOf n.succ_pos)
  value := ofDigits_digitsOf n

/-- What is in front of the last digit of a number above nine writes a number, and not zero. -/
theorem Writes.front {cs : List Char} {c : Char} {n : Nat} (h : Writes (cs ++ [c]) n)
    (hcs : cs ≠ []) : Writes cs (ofDigits cs) ∧ cs.head? ≠ some '0' := by
  have hlead : cs.head? ≠ some '0' := by
    intro hzero
    have hall := h.lead (by rw [List.head?_append, hzero]; rfl)
    have hlength := congrArg List.length hall
    rw [List.length_append, List.length_singleton, List.length_singleton, Nat.add_eq_right,
      List.length_eq_zero_iff] at hlength
    exact hcs hlength
  exact ⟨⟨hcs, fun d hd => h.digits d (List.mem_append_left _ hd), fun hzero => absurd hzero hlead,
    rfl⟩, hlead⟩

/-- Digits that write a number are those that are printed for it; by induction from the last one. -/
theorem Writes.eq_digitsOf {cs : List Char} {n : Nat} (h : Writes cs n) : cs = digitsOf n := by
  induction cs using List.reverseRecOn generalizing n with
  | nil => exact absurd rfl h.nonempty
  | append_singleton cs c ih =>
    have hc : c.isDigit = true := h.digits c (List.mem_append_right _ (List.mem_singleton_self c))
    have hvalue := h.value
    rw [ofDigits_concat] at hvalue
    by_cases hcs : cs = []
    · subst hcs
      have hn : digitValue c = n := (Nat.zero_add _).symm.trans hvalue
      rw [← hn, digitsOf, Nat.toDigits_of_lt_base (digitValue_lt hc), digitChar_digitValue hc]
      rfl
    · obtain ⟨hfront, hlead⟩ := h.front hcs
      have hprinted := ih hfront
      have hpos : 0 < ofDigits cs := by
        refine Nat.pos_of_ne_zero fun hzero => hlead ?_
        rw [hprinted, hzero]
        rfl
      rw [← hvalue, digitsOf_concat hpos (digitValue_lt hc), digitChar_digitValue hc, ← hprinted]

end WideColumn.Decimal
