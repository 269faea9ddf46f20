import WideColumn.Row.Basic
import WideColumn.Store.Gateway

/-!
# Values that cannot be read

A row key, the cells of a row and a row that a server gives back are read from
values and bytes. Where that fails, the cause lies in what was to be read: it is
neither a refusal of what the caller asked for nor a look-up that found nothing.
-/

namespace WideColumn

namespace Error

/-- The cause lies in a value or in bytes that cannot be read. -/
def ofReading : Error → Bool
  | undecodable | wrongKind | badValue => true
  | _ => false

/-- No error of reading a value is one of the library's own. -/
theorem category_of_ofReading {e : Error} (h : e.ofReading = true) : e.category = none := by
  cases e <;> first | rfl | cases h

/-- No error of reading a value is that of a look-up that found nothing. -/
theorem ne_missingKey_of_ofReading {e : Error} (h : e.ofReading = true) : e ≠ .missingKey := by
  rintro rfl
  cases h

end Error

namespace Value

/-- Making a key fails in reading the value only. -/
theorem ofReading_of_rowKey {v : Value} {e : Error} (h : v.rowKey = .error e) :
    e.ofReading = true := by
  unfold rowKey at h
  split at h
  · split at h
    · cases h
    · cases h
      rfl
  · cases h

theorem ofReading_of_pairOf {v : Value} {e : Error} (h : v.pairOf = .error e) :
    e.ofReading = true := by
  unfold pairOf at h
  split at h
  · split at h <;> cases h
    rfl
  · split at h <;> cases h
    rfl
  all_goals cases h
  all_goals rfl

theorem ofReading_of_bindItems {acc : List (Value × Value)} {items : List Value} {e : Error}
    (h : bindItems acc items = .error e) : e.ofReading = true := by
  induction items generalizing acc with
  | nil => cases h
  | cons item rest ih =>
    unfold bindItems at h
    split at h
    · rename_i e' hpair
      cases h
      exact ofReading_of_pairOf hpair
    · split at h
      · exact ih h
      · cases h
        rfl

/-- Taking a value as a mapping fails in reading it only. -/
theorem ofReading_of_bindings {v : Value} {e : Error} (h : v.bindings = .error e) :
    e.ofReading = true := by
  unfold bindings at h
  split at h
  · cases h
  · exact ofReading_of_bindItems h
  · split at h <;> cases h
    rfl
  · split at h <;> cases h
    rfl
  · cases h
    rfl

end Value

namespace Row

/-- A contribution fails in reading its value only. -/
theorem ofReading_of_contribute {cells : Cells} {c : Column} {v : Value} {e : Error}
    (h : contribute cells c v = .error e) : e.ofReading = true := by
  unfold contribute at h
  split at h
  · cases h
  · cases h
  · split at h
    · cases h
    · rename_i e' hread
      cases h
      exact Value.ofReading_of_bindings hread

theorem ofReading_of_contributeAll {cells : Cells} {l : List (Column × Value)} {e : Error}
    (h : contributeAll cells l = .error e) : e.ofReading = true := by
  induction l generalizing cells with
  | nil => cases h
  | cons entry rest ih =>
    unfold contributeAll at h
    split at h
    · exact ih h
    · rename_i e' hone
      cases h
      exact ofReading_of_contribute hone

/-- Making the cells of a row fails in reading its values only. -/
theorem ofReading_of_cells {r : Row} {e : Error} (h : r.cells = .error e) : e.ofReading = true :=
  ofReading_of_contributeAll h

end Row

namespace Gateway

theorem ofReading_of_decodeEntry {cells : Cells} {key value : Bytes} {e : Error}
    (h : decodeEntry cells key value = .error e) : e.ofReading = true := by
  unfold decodeEntry at h
  split at h <;> cases h
  rfl

theorem ofReading_of_decodeEntries {cells : Cells} {l : List (Bytes × Bytes)} {e : Error}
    (h : decodeEntries cells l = .error e) : e.ofReading = true := by
  induction l generalizing cells with
  | nil => cases h
  | cons entry rest ih =>
    unfold decodeEntries at h
    split at h
    · exact ih h
    · rename_i e' hone
      cases h
      exact ofReading_of_decodeEntry hone

/-- Decoding a row fails in reading its bytes only. -/
theorem ofReading_of_decodeRow {row : ServerRow} {e : Error} (h : decodeRow row = .error e) :
    e.ofReading = true := by
  unfold decodeRow at h
  split at h
  · cases h
  · cases hread : decodeEntries ∅ row.entries with
    | ok cells => rw [hread] at h; cases h
    | error e' =>
      rw [hread] at h
      cases h
      exact ofReading_of_decodeEntries hread

end Gateway

end WideColumn
