import WideColumn.Proofs.Collections.NameSet
import WideColumn.Proofs.Row.Contributions

/-!
# The cells of a row, read off its entries

The cells of a row are an overlay of what its entries hold, in their order. The
entry of a qualifier holds one cell, and that of a whole family holds one for
each text of a key. A cell is there if some entry holds it, and has the value
of the last one that does. The families stand in the order in which they first
come among the columns, also those that hold no cell.
-/

namespace WideColumn

open OrderedMap

/-- The item is the last one of the list that satisfies a condition. -/
def IsLast {α : Type} (p : α → Prop) (l : List α) (a : α) : Prop :=
  ∃ before after, l = before ++ a :: after ∧ p a ∧ ∀ b ∈ after, ¬ p b

theorem IsLast.holds {α : Type} {p : α → Prop} {l : List α} {a : α} (h : IsLast p l a) : p a := by
  obtain ⟨-, -, -, ha, -⟩ := h
  exact ha

/-- There is a last item that satisfies a condition if there is any. -/
theorem exists_isLast_iff {α : Type} {p : α → Prop} {l : List α} :
    (∃ a, IsLast p l a) ↔ ∃ a ∈ l, p a := by
  constructor
  · rintro ⟨a, before, after, rfl, ha, -⟩
    exact ⟨a, List.mem_append_right _ (List.mem_cons_self ..), ha⟩
  · intro h
    induction l with
    | nil => exact nomatch h
    | cons b rest ih =>
      by_cases hrest : ∃ a ∈ rest, p a
      · obtain ⟨a, before, after, rfl, ha⟩ := ih hrest
        exact ⟨a, b :: before, after, rfl, ha⟩
      · obtain ⟨a, hmem, ha⟩ := h
        obtain rfl | hmem := List.mem_cons.mp hmem
        · exact ⟨a, [], rest, rfl, ha, fun c hc hpc => hrest ⟨c, hc, hpc⟩⟩
        · exact absurd ⟨a, hmem, ha⟩ hrest

/-- What is found from the end of a list comes from the last item that gives something. -/
theorem findSome?_reverse_eq_some_iff {α β : Type} {g : α → Option β} {l : List α} {b : β} :
    l.reverse.findSome? g = some b ↔
      ∃ a, IsLast (fun a => ∃ b, g a = some b) l a ∧ g a = some b := by
  rw [List.findSome?_eq_some_iff]
  constructor
  · rintro ⟨after, a, before, hl, ha, hafter⟩
    refine ⟨a, ⟨before.reverse, after.reverse, ?_, ⟨b, ha⟩, fun c hc => ?_⟩, ha⟩
    · rw [← List.reverse_reverse l, hl]
      simp
    · simp [hafter c (List.mem_reverse.mp hc)]
  · rintro ⟨a, ⟨before, after, rfl, -, hafter⟩, ha⟩
    refine ⟨after.reverse, a, before.reverse, by simp, ha, fun c hc => ?_⟩
    exact Option.eq_none_iff_forall_ne_some.mpr fun b hb =>
      hafter c (List.mem_reverse.mp hc) ⟨b, hb⟩

/-- The last binding of a text is the one that a value is looked up in. -/
theorem Value.lastUnder_eq_some_iff {q : String} {entries : List (Value × Value)} {w : Value} :
    lastUnder q entries = some w ↔
      ∃ key, IsLast (fun b => b.1.plainText = q) entries (key, w) := by
  have hgives : ∀ (b : Value × Value) (v : Value),
      (Option.guard (fun b => b.1.plainText = q) b).map Prod.snd = some v ↔
        b.1.plainText = q ∧ b.2 = v := by
    intro b v
    simp [Option.guard]
  rw [lastUnder, List.find?_eq_findSome?_guard, List.map_findSome?, findSome?_reverse_eq_some_iff]
  simp only [Function.comp_apply, hgives, exists_and_left, exists_eq', and_true]
  constructor
  · rintro ⟨⟨key, _⟩, hlast, -, rfl⟩
    exact ⟨key, hlast⟩
  · rintro ⟨key, hlast⟩
    exact ⟨(key, w), hlast, hlast.holds, rfl⟩

namespace Row

/-- The entry reaches the cell `q` of the family `f`: it is for this cell, or it is for the whole
family, and its value, read as a mapping, has a key of the text `q`. -/
def Reaches (f q : String) (e : Column × Value) : Prop :=
  e.1.family = some f ∧
    (e.1.qualifier = some q ∨
      e.1.qualifier = none ∧ ∃ entries, e.2.bindings = .ok entries ∧
        ∃ b ∈ entries, b.1.plainText = q)

/-- What an entry holds for the qualifier `q`: its value if it is for this qualifier, and if it is
for a whole family, what its value has under the last key of the text `q`. -/
def Holds (q : String) (e : Column × Value) (w : Value) : Prop :=
  (e.1.qualifier = some q ∧ e.2 = w) ∨
    (e.1.qualifier = none ∧ ∃ entries key, e.2.bindings = .ok entries ∧
      IsLast (fun b => b.1.plainText = q) entries (key, w))

/-- An entry gives a cell a value exactly if it lies in the family and holds the value there. -/
theorem given?_eq_some_iff {c : Column} {v w : Value} {f q : String} :
    given? c v f q = some w ↔ c.family = some f ∧ Holds q (c, v) w := by
  obtain ⟨family, qualifier, t⟩ := c
  cases family with
  | none => simp [given?]
  | some g =>
    cases qualifier with
    | some p => simp [given?, Holds, and_assoc]
    | none =>
      cases hread : v.bindings with
      | error e => simp [given?, Holds, hread]
      | ok entries => simp [given?, Holds, hread, Value.lastUnder_eq_some_iff]

/-- An entry reaches the cells that it gives a value. -/
theorem reaches_iff {e : Column × Value} {f q : String} :
    Reaches f q e ↔ ∃ w, given? e.1 e.2 f q = some w := by
  simp only [given?_eq_some_iff, exists_and_left, Reaches]
  refine and_congr_right fun _ => ⟨?_, ?_⟩
  · rintro (hq | ⟨hq, entries, hread, hkey⟩)
    · exact ⟨e.2, .inl ⟨hq, rfl⟩⟩
    · obtain ⟨⟨key, w⟩, hlast⟩ := exists_isLast_iff.mpr hkey
      exact ⟨w, .inr ⟨hq, entries, key, hread, hlast⟩⟩
  · rintro ⟨w, ⟨hq, -⟩ | ⟨hq, entries, key, hread, hlast⟩⟩
    · exact .inl hq
    · exact .inr ⟨hq, entries, hread, exists_isLast_iff.mp ⟨_, hlast⟩⟩

/-- The last value that is given to a cell is what the last entry that reaches it holds for it. -/
theorem lastGiven?_eq_some_iff {l : List (Column × Value)} {f q : String} {w : Value} :
    lastGiven? l f q = some w ↔ ∃ e, IsLast (Reaches f q) l e ∧ Holds q e w := by
  have hreach : Reaches f q = fun e => ∃ w, given? e.1 e.2 f q = some w :=
    funext fun e => propext reaches_iff
  rw [lastGiven?, findSome?_reverse_eq_some_iff, hreach]
  refine exists_congr fun e => and_congr_right fun hlast => ?_
  obtain ⟨_, hgiven⟩ := hlast.holds
  rw [given?_eq_some_iff]
  exact and_iff_right (given?_eq_some_iff.mp hgiven).1

/-- The families of a row come in the order of its columns, and a cell has the value of the last
entry that reaches it. Values for whole families must be read as mappings. -/
theorem cells_are_overlay (r : Row) :
    (∀ C, r.cells = .ok C →
      (C.families = (r.columns.filterMap Column.family).eraseDups ∧
        NameSet.ofList C.families = Column.familiesOf r.columns) ∧
      ∀ f q, ((∃ w, C.cell? f q = some w) ↔ ∃ e ∈ r.values.entries, Reaches f q e) ∧
        ∀ w, C.cell? f q = some w ↔ ∃ e, IsLast (Reaches f q) r.values.entries e ∧ Holds q e w) ∧
    ((∃ C, r.cells = .ok C) ↔ ∀ e ∈ r.values.entries, Readable e.1 e.2) ∧
    ((∀ e ∈ r.values.entries, e.1.isIdentifier = false → e.1.qualifier = none →
      e.2.isMapping = true) → ∃ C, r.cells = .ok C) := by
  refine ⟨fun C hC => ⟨⟨families_cells hC, ?_⟩, fun f q => ⟨?_, fun w => ?_⟩⟩,
    exists_cells_iff, fun hmaps => ?_⟩
  · rw [families_cells hC]
    refine NameSet.ext_mem fun f => ?_
    simp [List.mem_eraseDups]
  · rw [cell?_cells hC, ← Option.isSome_iff_exists, ← Option.ne_none_iff_isSome, Ne,
      lastGiven?_eq_none_iff]
    simp only [Classical.not_forall, reaches_iff, ← Option.ne_none_iff_exists', exists_prop]
  · rw [cell?_cells hC, lastGiven?_eq_some_iff]
  · refine exists_cells_iff.mpr fun e he hc hq => ?_
    obtain ⟨entries, hmapping⟩ := (Value.isMapping_iff e.2).mp (hmaps e he hc hq)
    exact ⟨entries, by rw [hmapping]; rfl⟩

/-- A cell that is given twice, under columns of different types; a mapping with two keys of one
text, of which a later list of pairs covers a part; and a family without cells. -/
theorem cells_are_overlay_of_pairs :
    let r : Row := ⟨⟨"s", "t", [], ∅⟩, ofList [(.cell "b" "x" .int, .int 1),
      (.identifier .text, .text "k"),
      (.wholeFamily "a" .map, .mapping [(.int 1, .text "old"), (.text "1", .text "new"),
        (.null, .int 5)]), (.wholeFamily "c" .map, .mapping []), (.cell "b" "x" .text, .int 2),
      (.wholeFamily "a" .text, .list [.list [.text "None", .int 6], .text "yz"])]⟩
    ∃ C, r.cells = .ok C ∧ C.families = ["b", "a", "c"] ∧
      (∃ e, IsLast (Reaches "b" "x") r.values.entries e ∧ Holds "x" e (.int 2)) ∧
      (∃ e, IsLast (Reaches "a" "1") r.values.entries e ∧ Holds "1" e (.text "new")) ∧
      (∃ e, IsLast (Reaches "a" "None") r.values.entries e ∧ Holds "None" e (.int 6)) ∧
      ¬ ∃ e ∈ r.values.entries, Reaches "c" "y" e := by
  intro r
  obtain ⟨hcells, -, -⟩ := cells_are_overlay r
  obtain ⟨⟨hfamilies, -⟩, hcell⟩ := hcells _ rfl
  refine ⟨_, rfl, hfamilies, ((hcell "b" "x").2 _).mp rfl, ((hcell "a" "1").2 _).mp rfl,
    ((hcell "a" "None").2 _).mp rfl, fun h => ?_⟩
  obtain ⟨w, hw⟩ := (hcell "c" "y").1.mpr h
  cases hw

end Row

end WideColumn
