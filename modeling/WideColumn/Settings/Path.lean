/-!
# Paths and places

A path in its normal form, without empty parts and without parts that stay where
they are. Parts that go up are kept, since what they mean depends on what is there.
A place is where a path leads when all its parts are taken by their names.
-/

namespace WideColumn

/-- A path in normal form. -/
structure Path where
  /-- What an absolute path starts with; empty for a relative one. -/
  root : String
  /-- The parts, outermost first. -/
  parts : List String
  deriving DecidableEq, Repr

/-- A place: the names that lead to it from the outermost one. -/
abbrev Place := List String

namespace Path

/-- Cut a row of characters at every slash. -/
def cutSlashes : List Char → List (List Char)
  | [] => [[]]
  | c :: rest =>
    match cutSlashes rest with
    | [] => [[c]]
    | part :: parts => if c = '/' then [] :: part :: parts else (c :: part) :: parts

/-- What an absolute path starts with: a slash, or two when there are exactly two. -/
def rootOf : List Char → String
  | '/' :: '/' :: '/' :: _ => "/"
  | '/' :: '/' :: _ => "//"
  | '/' :: _ => "/"
  | _ => ""

/-- The part leads somewhere. -/
def isStep (part : String) : Bool := part ≠ "" && part ≠ "."

/-- The path that a text stands for. -/
def ofText (s : String) : Path :=
  ⟨rootOf s.toList, ((cutSlashes s.toList).map String.ofList).filter isStep⟩

/-- The text of a path; the path that leads nowhere is a point. -/
def text (p : Path) : String :=
  if p.root = "" ∧ p.parts = [] then "." else p.root ++ "/".intercalate p.parts

/-- The part goes up. -/
def isUp (part : String) : Bool := part = ".."

/-- Go on from a place, part by part; the outermost place has nothing above it. -/
def climb : Place → List String → Place
  | here, [] => here
  | here, part :: rest =>
    if isUp part then climb here.dropLast rest else climb (here ++ [part]) rest

/-- Going on part by part is the same in one go or in two. -/
theorem climb_append (here : Place) (parts more : List String) :
    climb here (parts ++ more) = climb (climb here parts) more := by
  induction parts generalizing here with
  | nil => rfl
  | cons part rest ih =>
    simp only [List.cons_append, climb]
    split <;> exact ih _

/-- The place where a path starts. -/
def origin (start : Place) (p : Path) : Place := if p.root = "" then start else []

/-- The place that a path leads to, where relative paths start from a place. -/
def place (start : Place) (p : Path) : Place := climb (p.origin start) p.parts

end Path

/-- The text of a place. -/
def Place.text (place : Place) : String := "/" ++ "/".intercalate place

end WideColumn
