import WideColumn.Value.Copying

/-!
# Which values can be copied

A copy of a value is the value itself, and it can be made exactly if no handle
stands anywhere in the value.
-/

namespace WideColumn.Value

mutual

/-- No handle stands in the value. -/
def isCopyable : Value → Bool
  | list items => itemsCopyable items
  | mapping entries => entriesCopyable entries
  | handle _ _ => false
  | _ => true

/-- No handle stands in the items. -/
def itemsCopyable : List Value → Bool
  | [] => true
  | item :: rest => item.isCopyable && itemsCopyable rest

/-- No handle stands in the bindings. -/
def entriesCopyable : List (Value × Value) → Bool
  | [] => true
  | (key, value) :: rest => key.isCopyable && (value.isCopyable && entriesCopyable rest)

end

/-- No handle stands in the named values. -/
def namedCopyable (l : List (String × Value)) : Bool := l.all fun e => e.2.isCopyable

mutual

/-- A copy of a value is the value itself; only a handle stands in its way. -/
theorem copy_eq : (v : Value) → v.copy = if v.isCopyable then .ok v else .error .wrongKind
  | list items => by
    rw [copy, isCopyable, copyItems_eq items]
    cases itemsCopyable items <;> rfl
  | mapping entries => by
    rw [copy, isCopyable, copyEntries_eq entries]
    cases entriesCopyable entries <;> rfl
  | handle _ _ => by simp [copy, isCopyable]
  | null | bool _ | int _ | float _ | text _ | bytes _ | timestamp _ | date _ => by
    simp [copy, isCopyable]

/-- Copies of items are the items themselves. -/
theorem copyItems_eq : (items : List Value) →
    copyItems items = if itemsCopyable items then .ok items else .error .wrongKind
  | [] => rfl
  | item :: rest => by
    rw [copyItems, itemsCopyable, copy_eq item, copyItems_eq rest]
    cases item.isCopyable <;> cases itemsCopyable rest <;> rfl

/-- Copies of bindings are the bindings themselves. -/
theorem copyEntries_eq : (entries : List (Value × Value)) →
    copyEntries entries = if entriesCopyable entries then .ok entries else .error .wrongKind
  | [] => rfl
  | (key, value) :: rest => by
    rw [copyEntries, entriesCopyable, copy_eq key, copy_eq value, copyEntries_eq rest]
    cases key.isCopyable <;> cases value.isCopyable <;> cases entriesCopyable rest <;> rfl

end

/-- Copies of named values are the named values themselves. -/
theorem copyNamed_eq (l : List (String × Value)) :
    copyNamed l = if namedCopyable l then .ok l else .error .wrongKind := by
  induction l with
  | nil => rfl
  | cons e rest ih =>
    obtain ⟨name, value⟩ := e
    rw [copyNamed, copy_eq value, ih, namedCopyable, namedCopyable, List.all_cons]
    cases value.isCopyable <;> cases rest.all fun e => e.2.isCopyable <;> rfl

end WideColumn.Value
