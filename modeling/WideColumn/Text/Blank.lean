/-!
# Blank text

The characters that count as space at the ends of a name, and the names that
consist of nothing else. The set is the Unicode white space together with the
four information separators `U+001C` to `U+001F`.
-/

namespace WideColumn.Text

/-- The character stands for nothing but space. -/
def isBlankChar (c : Char) : Bool :=
  let n := c.toNat
  (0x09 ≤ n && n ≤ 0x0D) || (0x1C ≤ n && n ≤ 0x20) || n == 0x85 || n == 0xA0 || n == 0x1680 ||
    (0x2000 ≤ n && n ≤ 0x200A) || n == 0x2028 || n == 0x2029 || n == 0x202F || n == 0x205F ||
    n == 0x3000

/-- Nothing is left of the text once space is taken off its ends. -/
def isBlank (s : String) : Bool := s.toList.all isBlankChar

/-- What is left of a row of characters once space is taken off its ends. -/
def trimChars (cs : List Char) : List Char :=
  ((cs.dropWhile isBlankChar).reverse.dropWhile isBlankChar).reverse

/-- What is left of a text once space is taken off its ends. -/
def trim (s : String) : String := String.ofList (trimChars s.toList)

/-- The empty text is blank. -/
@[simp] theorem isBlank_empty : isBlank "" = true := by simp [isBlank]

/-- Whatever the core library takes for white space is blank here too. -/
theorem isBlankChar_of_isWhitespace {c : Char} (h : c.isWhitespace = true) :
    isBlankChar c = true := by
  simp only [Char.isWhitespace, Bool.or_eq_true, decide_eq_true_eq] at h
  rcases h with ((rfl | rfl) | rfl) | rfl <;> decide

end WideColumn.Text
