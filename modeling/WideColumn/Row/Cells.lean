import WideColumn.Collections.OrderedMap
import WideColumn.Error
import WideColumn.Value.Mapping

/-!
# Cells

The cells of a row: for each family its qualifiers and their values, both in the
order in which they first came. A value given for a whole family contributes
one cell for each of its bindings, under the plain text of the key.
-/

namespace WideColumn

/-- Values under a qualifier under a family. -/
abbrev Cells := OrderedMap String (OrderedMap String Value)

namespace Value

/-- A pair made of the two parts of an item; anything without exactly two parts is refused. -/
def pairOf : Value → Except Error (Value × Value)
  | text s =>
    match s.toList with
    | [a, b] => .ok (text (String.ofList [a]), text (String.ofList [b]))
    | _ => .error .badValue
  | bytes b =>
    match b.toList with
    | [x, y] => .ok (int x.toNat, int y.toNat)
    | _ => .error .badValue
  | list [a, b] => .ok (a, b)
  | list _ => .error .badValue
  | mapping [(a, _), (b, _)] => .ok (a, b)
  | mapping _ => .error .badValue
  | _ => .error .wrongKind

/-- Collect the bindings that the items of a list stand for. -/
def bindItems : List (Value × Value) → List Value → Except Error (List (Value × Value))
  | acc, [] => .ok acc
  | acc, item :: rest =>
    match pairOf item with
    | .error e => .error e
    | .ok (key, value) =>
      if isKey key then bindItems (bindKey key value acc) rest else .error .wrongKind

/-- The bindings of a value that can be read as a mapping: a mapping, or a list of pairs. -/
def bindings : Value → Except Error (List (Value × Value))
  | mapping entries => .ok entries
  | list items => bindItems [] items
  | text s => if s.isEmpty then .ok [] else .error .badValue
  | bytes b => if b.isEmpty then .ok [] else .error .wrongKind
  | _ => .error .wrongKind

@[simp] theorem bindings_mapping (entries : List (Value × Value)) :
    (mapping entries).bindings = .ok entries := rfl

end Value

namespace Cells

/-- The cells of one family, or none. -/
def family (cells : Cells) (name : String) : OrderedMap String Value :=
  (OrderedMap.get? cells name).getD ∅

/-- The value of one cell. -/
def cell? (cells : Cells) (name qualifier : String) : Option Value :=
  (cells.family name).get? qualifier

/-- Put further cells under one family. -/
def addFamily (cells : Cells) (name : String) (l : List (String × Value)) : Cells :=
  OrderedMap.insert cells name ((cells.family name).insertAll l)

/-- Lay `added` on top of `cells`, family by family and qualifier by qualifier. -/
def overlay (cells added : Cells) : Cells :=
  added.entries.foldl (fun acc e => acc.addFamily e.1 e.2.entries) cells

/-- The names of the families. -/
def families (cells : Cells) : List String := OrderedMap.keys cells

/-- Bindings under the plain text of their keys. -/
def textKeyed (entries : List (Value × Value)) : List (String × Value) :=
  entries.map fun e => (e.1.plainText, e.2)

end Cells

end WideColumn
