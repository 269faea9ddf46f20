import WideColumn.Proofs.Column
import WideColumn.Proofs.Row.Cells

/-!
# What each value of a row gives

A value gives cells according to its column: none for the identifier, one for a
qualifier, one for each binding for a whole family. The cell of a row at a place
is what the last value gives that gives something there. All statements about
the cells of a row are read off this one.
-/

namespace WideColumn

open OrderedMap

/-- The value of the last binding whose key has the given plain text. -/
def Value.lastUnder (q : String) (entries : List (Value × Value)) : Option Value :=
  (entries.reverse.find? fun e => e.1.plainText = q).map Prod.snd

/-- Under the text of keys is found the first entry with that text. -/
theorem Cells.lookupEntry_textKeyed (q : String) (l : List (Value × Value)) :
    lookupEntry q (textKeyed l) = (l.find? fun e => e.1.plainText = q).map Prod.snd := by
  induction l with
  | nil => rfl
  | cons e rest ih =>
    by_cases h : e.1.plainText = q
    · simp [textKeyed, lookupEntry, h]
    · simpa [textKeyed, lookupEntry, h] using ih

/-- Bindings that are put under one family give each of its cells the last value of that text. -/
theorem Cells.cell?_addFamily_textKeyed (cells : Cells) (f g q : String)
    (entries : List (Value × Value)) :
    (cells.addFamily f (textKeyed entries)).cell? g q =
      if f = g then (Value.lastUnder q entries).or (cells.cell? g q) else cells.cell? g q := by
  rw [cell?, family_addFamily]
  split
  · rename_i h
    subst h
    have hreverse : (textKeyed entries).reverse = textKeyed entries.reverse :=
      List.map_reverse.symm
    rw [get?_insertAll_last, hreverse, lookupEntry_textKeyed]
    rfl
  · rfl

namespace Row

/-- The value that a value for a column gives a cell, if it gives that cell one. -/
def given? (c : Column) (v : Value) (f q : String) : Option Value :=
  match c.family, c.qualifier with
  | none, _ => none
  | some g, some p => if g = f ∧ p = q then some v else none
  | some g, none =>
    match v.bindings with
    | .ok entries => if g = f then Value.lastUnder q entries else none
    | .error _ => none

/-- The last value that a list of values gives a cell. -/
def lastGiven? (l : List (Column × Value)) (f q : String) : Option Value :=
  l.reverse.findSome? fun e => given? e.1 e.2 f q

/-- An identifier contributes to no cell. -/
theorem given?_of_identifier {c : Column} (hc : c.isIdentifier = true) (v : Value) (f q : String) :
    given? c v f q = none := by
  simp only [given?, Column.isIdentifier_iff.mp hc]

/-- A column with a qualifier contributes its value to its own cell. -/
theorem given?_of_qualifier {c : Column} {f q : String} (hf : c.family = some f)
    (hq : c.qualifier = some q) (v : Value) (g p : String) :
    given? c v g p = if f = g ∧ q = p then some v else none := by
  simp only [given?, hf, hq]

/-- A whole family contributes, under each qualifier, the last value with that text. -/
theorem given?_of_wholeFamily {c : Column} {f : String} (hf : c.family = some f)
    (hq : c.qualifier = none) (entries : List (Value × Value)) (g q : String) :
    given? c (.mapping entries) g q = if f = g then Value.lastUnder q entries else none := by
  simp only [given?, hf, hq, Value.bindings_mapping]

/-- What a value gives depends on the family and the qualifier of its column alone. -/
theorem given?_congr {c d : Column} (hf : c.family = d.family) (hq : c.qualifier = d.qualifier)
    (v : Value) (f q : String) : given? c v f q = given? d v f q := by
  simp only [given?, hf, hq]

/-- A cell comes from a value for that cell or for its whole family. -/
theorem place_of_given? {c : Column} {v w : Value} {f q : String} (h : given? c v f q = some w) :
    c.family = some f ∧ (c.qualifier = some q ∨ c.qualifier = none) := by
  unfold given? at h
  split at h
  · cases h
  · rename_i g p hf hq
    split at h
    · rename_i heq
      obtain ⟨rfl, rfl⟩ := heq
      exact ⟨hf, .inl hq⟩
    · cases h
  · rename_i g hf hq
    split at h
    · split at h
      · rename_i heq
        subst heq
        exact ⟨hf, .inr hq⟩
      · cases h
    · cases h

/-- Of two lists the later gives the value, if it gives one. -/
theorem lastGiven?_append (l l' : List (Column × Value)) (f q : String) :
    lastGiven? (l ++ l') f q = (lastGiven? l' f q).or (lastGiven? l f q) := by
  rw [lastGiven?, List.reverse_append, List.findSome?_append]
  rfl

theorem lastGiven?_cons (e : Column × Value) (l : List (Column × Value)) (f q : String) :
    lastGiven? (e :: l) f q = (lastGiven? l f q).or (given? e.1 e.2 f q) := by
  rw [← List.singleton_append, lastGiven?_append]
  congr 1
  simp [lastGiven?]

/-- No value is given exactly if no entry gives one. -/
theorem lastGiven?_eq_none_iff {l : List (Column × Value)} {f q : String} :
    lastGiven? l f q = none ↔ ∀ e ∈ l, given? e.1 e.2 f q = none := by
  simp [lastGiven?, List.findSome?_eq_none_iff]

/-- Identifiers give no cell. -/
theorem lastGiven?_of_identifiers {l : List (Column × Value)}
    (h : ∀ e ∈ l, e.1.isIdentifier = true) (f q : String) : lastGiven? l f q = none :=
  lastGiven?_eq_none_iff.mpr fun e he => given?_of_identifier (h e he) e.2 f q

/-- What is added to cells replaces what was there before. -/
theorem cell?_contribute {cells cells' : Cells} {c : Column} {v : Value}
    (h : contribute cells c v = .ok cells') (f q : String) :
    cells'.cell? f q = (given? c v f q).or (cells.cell? f q) := by
  unfold contribute at h
  split at h
  · rename_i hf
    cases h
    rw [given?_of_identifier (Column.isIdentifier_iff.mpr hf), Option.none_or]
  · rename_i g p hf hq
    cases h
    rw [given?_of_qualifier hf hq, Cells.cell?_addFamily_one]
    split <;> rfl
  · rename_i g hf hq
    split at h
    · rename_i entries hentries
      cases h
      rw [Cells.cell?_addFamily_textKeyed]
      simp only [given?, hf, hq, hentries]
      split <;> rfl
    · cases h

/-- A cell has the value that was contributed last, or the one it had. -/
theorem cell?_contributeAll {l : List (Column × Value)} {cells cells' : Cells}
    (h : contributeAll cells l = .ok cells') (f q : String) :
    cells'.cell? f q = (lastGiven? l f q).or (cells.cell? f q) := by
  induction l generalizing cells with
  | nil =>
    cases h
    rfl
  | cons e rest ih =>
    rw [contributeAll] at h
    split at h
    · rename_i mid hmid
      rw [ih h, cell?_contribute hmid, lastGiven?_cons, Option.or_assoc]
    · cases h

/-- The cell of a row at a place is the last value that is given there. -/
theorem cell?_cells {r : Row} {C : Cells} (h : r.cells = .ok C) (f q : String) :
    C.cell? f q = lastGiven? r.values.entries f q := by
  rw [cell?_contributeAll h]
  exact Option.or_none

/-- The value can be added to cells: if its column is a whole family, it can be read as a mapping.
-/
def Readable (c : Column) (v : Value) : Prop :=
  c.isIdentifier = false → c.qualifier = none → ∃ entries, v.bindings = .ok entries

/-- A contribution succeeds exactly if its value can be read. -/
theorem exists_contribute_iff (cells : Cells) {c : Column} {v : Value} :
    (∃ cells', contribute cells c v = .ok cells') ↔ Readable c v := by
  constructor
  · rintro ⟨cells', h⟩ hc hq
    obtain ⟨f, hf⟩ := Column.isIdentifier_eq_false_iff.mp hc
    simp only [contribute, hf, hq] at h
    split at h
    · rename_i entries hentries
      exact ⟨entries, hentries⟩
    · cases h
  · intro h
    unfold contribute
    split
    · exact ⟨_, rfl⟩
    · exact ⟨_, rfl⟩
    · rename_i f hf hq
      obtain ⟨entries, hentries⟩ := h (Column.isIdentifier_eq_false_iff.mpr ⟨f, hf⟩) hq
      rw [hentries]
      exact ⟨_, rfl⟩

/-- Contributions succeed exactly if each of their values can be read. -/
theorem exists_contributeAll_iff (cells : Cells) {l : List (Column × Value)} :
    (∃ cells', contributeAll cells l = .ok cells') ↔ ∀ e ∈ l, Readable e.1 e.2 := by
  induction l generalizing cells with
  | nil => exact iff_of_true ⟨cells, rfl⟩ nofun
  | cons e rest ih =>
    rw [contributeAll, List.forall_mem_cons, ← exists_contribute_iff cells]
    cases contribute cells e.1 e.2 with
    | ok mid => simp [ih mid]
    | error err => simp

/-- A row has cells exactly if the values for its whole families can be read as mappings. -/
theorem exists_cells_iff {r : Row} :
    (∃ C, r.cells = .ok C) ↔ ∀ e ∈ r.values.entries, Readable e.1 e.2 :=
  exists_contributeAll_iff ∅

end Row

end WideColumn
