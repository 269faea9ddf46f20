import WideColumn.TableRequest

/-!
# Checks that refuse for causes of the library's own

What a caller asks for is checked by values alone: the name and the families of a
table, the columns of a request, the name of a column. When such a check refuses,
the cause is one of the library's own, never one from below it.
-/

namespace WideColumn

variable {α β : Type}

/-- The caller is refused: what was asked for is wrong in itself, or against the rules. -/
def Error.isRefusal (e : Error) : Bool :=
  match e.category with
  | some .argument | some .rule => true
  | _ => false

/-- If it fails, the cause is one of the library's own. -/
def OwnFailures (r : Except Error α) : Prop := ∀ e, r = .error e → e.category.isSome = true

namespace OwnFailures

theorem ok (a : α) : OwnFailures (.ok a : Except Error α) := fun _ h => by cases h

theorem error {e : Error} (h : e.category.isSome = true) :
    OwnFailures (.error e : Except Error α) := by
  intro e' he
  cases he
  exact h

/-- What is made of a result fails of the same causes. -/
theorem map {r : Except Error α} (h : OwnFailures r) (f : α → β) : OwnFailures (r.map f) := by
  cases r with
  | ok a => exact .ok (f a)
  | error e => exact .error (h e rfl)

/-- Checks that follow each other fail of own causes if each does. -/
theorem bind {r : Except Error α} {f : α → Except Error β} (h : OwnFailures r)
    (hf : ∀ a, OwnFailures (f a)) : OwnFailures (r >>= f) := by
  cases r with
  | ok a => exact hf a
  | error e => exact .error (h e rfl)

end OwnFailures

/-- The check of a table and its families fails of own causes only. -/
theorem Client.ownFailures_checkedTable (table : Option String) (families : FamilyArgument) :
    OwnFailures (checkedTable table families) := by
  unfold checkedTable
  split
  · exact .error rfl
  · exact .error rfl
  · exact .error rfl
  · split
    · exact .error rfl
    · exact .ok _

/-- The check of a request fails of own causes only. -/
theorem TableRequest.ownFailures_validFamilies (r : TableRequest) :
    OwnFailures r.validFamilies := by
  unfold validFamilies
  split
  · exact .error rfl
  · split
    · exact .error rfl
    · split
      · exact .error rfl
      · exact .ok _

/-- Reading the name of a column fails of own causes only. -/
theorem Column.ownFailures_parse (name : String) (dataType : Option DataType) :
    OwnFailures (parse name dataType) := by
  unfold parse
  split
  · exact .ok _
  · split <;> split
    · exact .error rfl
    · exact .ok _
    · exact .error rfl
    · exact .ok _

end WideColumn
