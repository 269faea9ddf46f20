import WideColumn.Error

/-!
# Copies of values

A store in memory keeps copies, so that a caller who changes what was given does
not change what is stored. A list or a mapping is copied part by part; what has
no parts that could change is its own copy, but a handle has no copy at all.
-/

namespace WideColumn.Value

mutual

/-- A copy of a value; a handle, wherever it stands, is refused. -/
def copy : Value → Except Error Value
  | list items => do
    let items ← copyItems items
    return list items
  | mapping entries => do
    let entries ← copyEntries entries
    return mapping entries
  | handle _ _ => .error .wrongKind
  | v => .ok v

/-- Copies of the items of a list, in turn. -/
def copyItems : List Value → Except Error (List Value)
  | [] => .ok []
  | item :: rest => do
    let item ← item.copy
    let rest ← copyItems rest
    return item :: rest

/-- Copies of the bindings of a mapping, in turn. -/
def copyEntries : List (Value × Value) → Except Error (List (Value × Value))
  | [] => .ok []
  | (key, value) :: rest => do
    let key ← key.copy
    let value ← value.copy
    let rest ← copyEntries rest
    return (key, value) :: rest

end

/-- Copies of values under their names, in turn. -/
def copyNamed : List (String × Value) → Except Error (List (String × Value))
  | [] => .ok []
  | (name, value) :: rest => do
    let value ← value.copy
    let rest ← copyNamed rest
    return (name, value) :: rest

end WideColumn.Value
