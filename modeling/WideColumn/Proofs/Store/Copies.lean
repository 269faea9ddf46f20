import WideColumn.Proofs.Row.Cells
import WideColumn.Proofs.Value.Copying
import WideColumn.Store.Memory

/-!
# What a put into memory writes

A put ends at the first family that holds a value that cannot be copied. The
families before it are in the row by then, and this family is there as well, but
without its new values. So a put whose families are known always lays cells on
top of a row: all that it was given, or the part that it came to.
-/

namespace WideColumn

open Operation OrderedMap

/-- The rows with cells laid on top of what is stored under a key. -/
def Rows.lay (rows : Rows) (key : String) (cells : Cells) : Rows :=
  OrderedMap.insert rows key (Cells.overlay ((OrderedMap.get? rows key).getD ∅) cells)

namespace Cells

/-- All values can be copied. -/
def isCopyable (cells : Cells) : Bool :=
  cells.entries.all fun e => Value.namedCopyable e.2.entries

/-- All values can be copied exactly if that of each cell can. -/
theorem isCopyable_iff {cells : Cells} :
    cells.isCopyable = true ↔ ∀ f q v, cells.cell? f q = some v → v.isCopyable = true := by
  simp only [isCopyable, Value.namedCopyable, List.all_eq_true]
  constructor
  · intro h f q v hv
    unfold cell? family at hv
    cases hf : OrderedMap.get? cells f with
    | none =>
      rw [hf] at hv
      cases hv
    | some values =>
      rw [hf] at hv
      exact h (f, values) (mem_entries_iff.mpr hf) (q, v) (mem_entries_iff.mpr hv)
  · intro h e he p hp
    have hf : OrderedMap.get? cells e.1 = some e.2 := mem_entries_iff.mp he
    refine h e.1 p.1 p.2 ?_
    rw [cell?, family, hf]
    exact mem_entries_iff.mp hp

/-- Cells that can be copied, on top of others that can, can be copied. -/
theorem IsOverlay.isCopyable {before added after : Cells} (h : IsOverlay before added after)
    (hbefore : before.isCopyable = true) (hadded : added.isCopyable = true) :
    after.isCopyable = true := by
  rw [isCopyable_iff] at hbefore hadded ⊢
  intro f q v hv
  rw [h.cells, Option.or_eq_some_iff] at hv
  rcases hv with hv | ⟨-, hv⟩
  · exact hadded f q v hv
  · exact hbefore f q v hv

/-- The families before the first that cannot be copied, and that one without values. -/
def writtenFamilies :
    List (String × OrderedMap String Value) → List (String × OrderedMap String Value)
  | [] => []
  | e :: rest =>
    if Value.namedCopyable e.2.entries then e :: writtenFamilies rest else [(e.1, ∅)]

/-- What is written are families that were given, in their order. -/
theorem keys_writtenFamilies_sublist (l : List (String × OrderedMap String Value)) :
    ((writtenFamilies l).map Prod.fst).Sublist (l.map Prod.fst) := by
  induction l with
  | nil => exact .slnil
  | cons e rest ih =>
    rw [writtenFamilies]
    split
    · exact ih.cons_cons e.1
    · exact (List.nil_sublist _).cons_cons e.1

/-- The cells that a put of the given cells writes. -/
def written (cells : Cells) : Cells :=
  ⟨writtenFamilies cells.entries, (keys_writtenFamilies_sublist cells.entries).nodup cells.nodup⟩

/-- Only families that were given are written. -/
theorem mem_families_of_written {cells : Cells} {f : String} (h : f ∈ cells.written.families) :
    f ∈ cells.families :=
  (keys_writtenFamilies_sublist cells.entries).subset h

/-- If all values can be copied, all families are written. -/
theorem writtenFamilies_of_all {l : List (String × OrderedMap String Value)}
    (h : (l.all fun e => Value.namedCopyable e.2.entries) = true) : writtenFamilies l = l := by
  induction l with
  | nil => rfl
  | cons e rest ih =>
    rw [List.all_cons, Bool.and_eq_true] at h
    rw [writtenFamilies, if_pos h.1, ih h.2]

/-- All of the cells are written if all of them can be copied. -/
theorem written_of_isCopyable {cells : Cells} (h : cells.isCopyable = true) :
    cells.written = cells :=
  OrderedMap.ext (writtenFamilies_of_all h)

/-- What is written can always be copied. -/
theorem isCopyable_written (cells : Cells) : cells.written.isCopyable = true := by
  change ((writtenFamilies cells.entries).all fun e => Value.namedCopyable e.2.entries) = true
  induction cells.entries with
  | nil => rfl
  | cons e rest ih =>
    rw [writtenFamilies]
    split
    · rename_i he
      rw [List.all_cons, he, ih]
      rfl
    · rfl

theorem split_writtenFamilies {l : List (String × OrderedMap String Value)}
    (h : (l.all fun e => Value.namedCopyable e.2.entries) = false) :
    ∃ before f values after, l = before ++ (f, values) :: after ∧
      (∀ e ∈ before, Value.namedCopyable e.2.entries = true) ∧
      Value.namedCopyable values.entries = false ∧ writtenFamilies l = before ++ [(f, ∅)] := by
  induction l with
  | nil => cases h
  | cons e rest ih =>
    cases he : Value.namedCopyable e.2.entries with
    | false => exact ⟨[], e.1, e.2, rest, rfl, nofun, he, by rw [writtenFamilies, he]; rfl⟩
    | true =>
      rw [List.all_cons, he, Bool.true_and] at h
      obtain ⟨before, f, values, after, hsplit, hbefore, hvalues, hwritten⟩ := ih h
      refine ⟨e :: before, f, values, after, congrArg (e :: ·) hsplit,
        List.forall_mem_cons.mpr ⟨he, hbefore⟩, hvalues, ?_⟩
      rw [writtenFamilies, if_pos he, hwritten]
      rfl

/-- Otherwise a first family stands in the way: it is opened, and nothing after it is written. -/
theorem written_of_not_isCopyable {cells : Cells} (h : cells.isCopyable = false) :
    ∃ before f values after, cells.entries = before ++ (f, values) :: after ∧
      (∀ e ∈ before, Value.namedCopyable e.2.entries = true) ∧
      Value.namedCopyable values.entries = false ∧ cells.written.entries = before ++ [(f, ∅)] :=
  split_writtenFamilies h

/-- How a put of the cells ends. -/
def outcome (cells : Cells) : Except Error Unit :=
  if cells.isCopyable then .ok () else .error .wrongKind

/-- A family that is opened before it is written is written as else. -/
theorem addFamily_addFamily_nil (row : Cells) (f : String) (l : List (String × Value)) :
    (row.addFamily f []).addFamily f l = row.addFamily f l := by
  rw [addFamily, family, addFamily, get?_insert_self, insert_insert]
  rfl

/-- A family is written with all its values, or opened only, if one cannot be copied. -/
theorem copyFamily_apply (f : String) (values : OrderedMap String Value) (row : Cells) :
    copyFamily f values row =
      if Value.namedCopyable values.entries then (.ok (), row.addFamily f values.entries)
      else (.error .wrongKind, row.addFamily f []) := by
  unfold copyFamily
  rw [bind_of_ok (change_apply _ _), Value.copyNamed_eq]
  cases Value.namedCopyable values.entries with
  | false => rfl
  | true => exact congrArg (Prod.mk _) (addFamily_addFamily_nil row f values.entries)

/-- Copying families lays the written ones on top of a row. -/
theorem copyFamilies_apply (l : List (String × OrderedMap String Value)) (row : Cells) :
    copyFamilies l row =
      (if l.all fun e => Value.namedCopyable e.2.entries then .ok () else .error .wrongKind,
        (writtenFamilies l).foldl (fun acc e => acc.addFamily e.1 e.2.entries) row) := by
  induction l generalizing row with
  | nil => rfl
  | cons e rest ih =>
    rw [copyFamilies, writtenFamilies, List.all_cons]
    cases he : Value.namedCopyable e.2.entries with
    | false =>
      have hcopy := copyFamily_apply e.1 e.2 row
      rw [he] at hcopy
      exact bind_of_error hcopy
    | true =>
      have hcopy := copyFamily_apply e.1 e.2 row
      rw [he] at hcopy
      rw [bind_of_ok hcopy, ih]
      rfl

end Cells

/-- To copy the families of cells into a row is to lay the written cells on top of it. -/
theorem Memory.onRow_copyFamilies (table key : String) (rows : Rows) (cells : Cells) (m : Memory) :
    onRow table key rows (Cells.copyFamilies cells.entries) m =
      (cells.outcome, { m with rows := m.rows.insert table (rows.lay key cells.written) }) := by
  simp only [onRow, within, Cells.copyFamilies_apply]
  rfl

end WideColumn
