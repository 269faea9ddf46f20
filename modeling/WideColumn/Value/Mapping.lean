import WideColumn.Value.Basic

/-!
# Keys and bindings of mappings

When two values are one key, and how bindings are collected under that rule.
Truth values, integers and floating-point numbers are compared as numbers, so
`True`, `1` and `1.0` are one key. A key keeps its first spelling and its first
place and has the last value given for it.
-/

namespace WideColumn.Value

/-- The value as a number, where a truth value counts as zero or one. -/
inductive Numeric where
  /-- An exact integer. -/
  | whole (n : Int)
  /-- A floating-point number. -/
  | float (x : Binary64)

/-- The number that a value stands for as a key. -/
def numeric? : Value → Option Numeric
  | bool b => some (.whole (if b then 1 else 0))
  | int n => some (.whole n)
  | float x => some (.float x)
  | _ => none

/-- Equality of numbers of either kind. -/
def Numeric.same : Numeric → Numeric → Bool
  | whole m, whole n => m == n
  | whole m, float y => y.sameInt m
  | float x, whole n => x.sameInt n
  | float x, float y => x.sameNumber y

/-- The two values are one key of a mapping. -/
def sameKey (a b : Value) : Bool :=
  match numeric? a, numeric? b with
  | some m, some n => m.same n
  | some _, none => false
  | none, some _ => false
  | none, none =>
    match a, b with
    | null, null => true
    | text s, text t => s == t
    | bytes s, bytes t => s == t
    | timestamp s, timestamp t => s.sameInstant t
    | date s, date t => s == t
    | handle k s, handle l t => k == l && s == t
    | _, _ => false

/-- The value can be a key: it has no parts that could change. -/
def isKey : Value → Bool
  | list _ => false
  | mapping _ => false
  | _ => true

/-- Bind a key in a list of bindings: in place if it is there, else at the end. -/
def bindKey (key value : Value) : List (Value × Value) → List (Value × Value)
  | [] => [(key, value)]
  | e :: rest => if sameKey e.1 key then (e.1, value) :: rest else e :: bindKey key value rest

/-- Collect bindings in turn, one for each key. -/
def collect (entries : List (Value × Value)) : List (Value × Value) :=
  entries.foldl (fun acc e => bindKey e.1 e.2 acc) []

/-- The mapping of a list of bindings. -/
def mappingOf (entries : List (Value × Value)) : Value := mapping (collect entries)

/-- The value bound to a text in a list of bindings. -/
def field? (name : String) (entries : List (Value × Value)) : Option Value :=
  (entries.find? fun e => sameKey e.1 (text name)).map Prod.snd

/-- Texts are one key exactly when they are equal. -/
@[simp] theorem sameKey_text (s t : String) : sameKey (text s) (text t) = (s == t) := rfl

/-- A truth value and an integer of the same number are one key; a text of its digits is not. -/
example : sameKey (bool true) (int 1) = true ∧ sameKey (int 1) (text "1") = false := by decide

end WideColumn.Value
