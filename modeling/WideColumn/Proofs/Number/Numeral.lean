import WideColumn.Number.Numeral
import WideColumn.Proofs.Number.Decimal
import WideColumn.Value.Basic

/-!
# Integers in base ten

The decimal form of an integer is a minus, if the integer is below zero, and then
its absolute value in base ten. It is the text that is printed for the integer.
The reader of numerals, which also takes space around a numeral, digits of other
scripts and underscores, finds none of these in it and reads the integer.
-/

namespace WideColumn.Numeral

/-- The text is the decimal form of the integer. -/
def DecimalForm (n : Int) (s : String) : Prop :=
  ∃ cs, Decimal.Writes cs n.natAbs ∧ s.toList = if n < 0 then '-' :: cs else cs

/-- An integer is written as a sign, if it is negative, and the digits of its size. -/
theorem toList_intText (n : Int) :
    (Value.intText n).toList =
      if n < 0 then '-' :: Decimal.digitsOf n.natAbs else Decimal.digitsOf n.natAbs := by
  cases n with
  | ofNat n => exact String.toList_ofList
  | negSucc n =>
    rw [if_pos (Int.negSucc_lt_zero n)]
    exact String.toList_ofList

/-- An integer has one decimal form, the text that is printed for it. -/
theorem decimalForm_iff {n : Int} {s : String} : DecimalForm n s ↔ s = Value.intText n := by
  constructor
  · rintro ⟨cs, hcs, hs⟩
    refine String.toList_injective ?_
    rw [hs, toList_intText, hcs.eq_digitsOf]
  · rintro rfl
    exact ⟨_, Decimal.writes_digitsOf _, toList_intText n⟩

/-- The characters of a printed integer are digits, but for a minus. -/
theorem isDigit_or_minus_of_mem {n : Int} {c : Char} (h : c ∈ (Value.intText n).toList) :
    c.isDigit = true ∨ c = '-' := by
  rw [toList_intText] at h
  have hdigits := (Decimal.writes_digitsOf n.natAbs).digits
  split at h
  · obtain rfl | h := List.mem_cons.mp h
    · exact .inr rfl
    · exact .inl (hdigits c h)
  · exact .inl (hdigits c h)

theorem isSpace_of_isDigit {c : Char} (h : c.isDigit = true) : isSpace c = false := by
  obtain ⟨hlow, hhigh⟩ := Decimal.toNat_of_isDigit h
  have hblank : Text.isBlankChar c = false := by
    rw [← Bool.not_eq_true]
    simp only [Text.isBlankChar, Bool.or_eq_true, Bool.and_eq_true, decide_eq_true_eq, beq_iff_eq]
    omega
  rw [isSpace, hblank, Bool.false_and]

/-- The digits of the core library are plain. -/
theorem plainDigit_of_isDigit {c : Char} (h : c.isDigit = true) : plainDigit c = c := by
  obtain ⟨hlow, hhigh⟩ := Decimal.toNat_of_isDigit h
  have hvalue : Text.decimalDigitValue? c = some (c.toNat - 48) := by
    simp [Text.decimalDigitValue?, Text.digitZeros, hlow, hhigh]
  have hcode : '0'.toNat + (c.toNat - 48) = c.toNat := by
    change 48 + (c.toNat - 48) = c.toNat
    omega
  rw [plainDigit, hvalue]
  exact (congrArg Char.ofNat hcode).trans (Char.ofNat_toNat c)

/-- Where no underscore is, there is none to take out. -/
theorem ungroup_of_not_mem {cs : List Char} (h : '_' ∉ cs) : ungroup cs = cs := by
  induction cs using ungroup.induct with
  | case1 a b rest hdigits ih => simp at h
  | case2 a b rest hdigits ih => simp at h
  | case3 c rest hshape ih =>
    rw [ungroup, ih fun hm => h (List.mem_cons_of_mem c hm)]
    exact hshape
  | case4 => rfl

/-- Where there are no blanks, none are dropped. -/
theorem dropWhile_isSpace_eq_self {cs : List Char} (h : ∀ c ∈ cs, isSpace c = false) :
    cs.dropWhile isSpace = cs := by
  cases cs with
  | nil => rfl
  | cons c rest => rw [List.dropWhile_cons, h c (List.mem_cons_self ..), if_neg Bool.false_ne_true]

/-- A numeral of digits and minuses is in its plain form. -/
theorem plain_eq_toList {s : String} (h : ∀ c ∈ s.toList, c.isDigit = true ∨ c = '-') :
    plain s = s.toList := by
  have hspace : ∀ c ∈ s.toList, isSpace c = false := by
    intro c hc
    obtain hdigit | rfl := h c hc
    · exact isSpace_of_isDigit hdigit
    · rfl
  have hplain : ∀ c ∈ s.toList, plainDigit c = c := by
    intro c hc
    obtain hdigit | rfl := h c hc
    · exact plainDigit_of_isDigit hdigit
    · rfl
  have hungrouped : '_' ∉ s.toList := by
    intro hc
    obtain hdigit | heq := h '_' hc
    · cases hdigit
    · cases heq
  have htrimmed : ((s.toList.dropWhile isSpace).reverse.dropWhile isSpace).reverse = s.toList := by
    have hreverse : ∀ c ∈ s.toList.reverse, isSpace c = false := fun c hc =>
      hspace c (List.mem_reverse.mp hc)
    rw [dropWhile_isSpace_eq_self hspace, dropWhile_isSpace_eq_self hreverse, List.reverse_reverse]
  simp only [plain]
  rw [htrimmed, List.map_congr_left hplain, List.map_id', ungroup_of_not_mem hungrouped]

/-- Digits begin with no sign. -/
theorem splitSign_of_digits {cs : List Char} (h : ∀ c ∈ cs, c.isDigit = true) :
    Decimal.splitSign cs = (false, cs) := by
  unfold Decimal.splitSign
  split
  · cases h '-' (List.mem_cons_self ..)
  · cases h '+' (List.mem_cons_self ..)
  · rfl

/-- A printed integer is read as that integer. -/
theorem integer?_intText (n : Int) : integer? (Value.intText n) = some n := by
  obtain ⟨hnonempty, hdigits, -, hvalue⟩ := Decimal.writes_digitsOf n.natAbs
  have hgood : ((Decimal.digitsOf n.natAbs).isEmpty ||
      !(Decimal.digitsOf n.natAbs).all Char.isDigit) = false := by
    rw [List.isEmpty_eq_false_iff.mpr hnonempty, List.all_eq_true.mpr hdigits]
    rfl
  rw [integer?, plain_eq_toList fun c hc => isDigit_or_minus_of_mem hc, toList_intText]
  by_cases hneg : n < 0
  · have habs : -(n.natAbs : Int) = n := by omega
    simp only [hneg, if_true, Decimal.splitSign, hgood, Bool.false_eq_true, if_false, hvalue, habs]
  · have habs : (n.natAbs : Int) = n := by omega
    simp only [hneg, if_false, splitSign_of_digits hdigits, hgood, Bool.false_eq_true, hvalue, habs]

end WideColumn.Numeral
