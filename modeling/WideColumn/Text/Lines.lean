/-!
# Lines of a text

Two rules about line ends. Reading a text file turns the three common line ends
into a single line feed; showing a text line by line cuts it at every character
that ends a line, and a final line end opens no further line.
-/

namespace WideColumn.Text

/-- Carriage returns, alone or before a line feed, become line feeds. -/
def unifyLineEnds : List Char → List Char
  | [] => []
  | '\r' :: '\n' :: rest => '\n' :: unifyLineEnds rest
  | '\r' :: rest => '\n' :: unifyLineEnds rest
  | c :: rest => c :: unifyLineEnds rest

/-- The character ends a line. -/
def isLineEnd (c : Char) : Bool :=
  let n := c.toNat
  (0x0A ≤ n && n ≤ 0x0D) || (0x1C ≤ n && n ≤ 0x1E) || n == 0x85 || n == 0x2028 || n == 0x2029

/-- Cut at every line end; `current` holds the characters of the open line, last first. -/
def cutLines (current : List Char) : List Char → List (List Char)
  | [] => if current.isEmpty then [] else [current.reverse]
  | '\r' :: '\n' :: rest => current.reverse :: cutLines [] rest
  | c :: rest =>
    if isLineEnd c then current.reverse :: cutLines [] rest else cutLines (c :: current) rest

/-- The lines of a text, without their ends. -/
def lines (s : String) : List String := (cutLines [] s.toList).map String.ofList

/-- No carriage return is left in a text with unified line ends. -/
theorem not_mem_unifyLineEnds (s : List Char) : '\r' ∉ unifyLineEnds s := by
  fun_induction unifyLineEnds s with
  | case1 => simp
  | case2 rest ih => simp [ih]
  | case3 rest _ ih => simp [ih]
  | case4 c rest _ hc ih =>
    simp only [List.mem_cons, not_or]
    exact ⟨fun he => hc he.symm, ih⟩

end WideColumn.Text
