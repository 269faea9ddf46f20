import WideColumn.Error

/-!
# Checking the fields of a record

Records are made of values of any kind, and each field has its rule: a text, a
text that may be missing, a positive integer that may be missing. All fields are
checked, so a record that is refused names every field that breaks its rule, in
the order of the fields.
-/

namespace WideColumn

/-- An integer greater than zero. -/
abbrev Positive := { n : Nat // 0 < n }

namespace FieldCheck

/-- A field that has to be a text. -/
def text (field : String) : Value → Except FieldFault String
  | .text s => .ok s
  | _ => .error ⟨field, none, .text⟩

/-- A field that has to be a text or missing. -/
def optionalText (field : String) : Value → Except FieldFault (Option String)
  | .null => .ok none
  | .text s => .ok (some s)
  | _ => .error ⟨field, none, .text⟩

/-- A field that has to be a positive integer or missing. -/
def optionalPositive (field : String) : Value → Except FieldFault (Option Positive)
  | .null => .ok none
  | .int n => if h : 0 < n.toNat then .ok (some ⟨n.toNat, h⟩) else .error ⟨field, none, .positive⟩
  | _ => .error ⟨field, none, .integer⟩

/-- The fault of a checked field, if there is one. -/
def faults {α : Type} : Except FieldFault α → List FieldFault
  | .ok _ => []
  | .error f => [f]

@[simp] theorem faults_ok {α : Type} (a : α) :
    faults (.ok a : Except FieldFault α) = [] := rfl

@[simp] theorem faults_error {α : Type} (f : FieldFault) :
    faults (.error f : Except FieldFault α) = [f] := rfl

end FieldCheck

end WideColumn
