import WideColumn.Proofs.Column

/-!
# Which texts are column names, and which columns have one

A text is no column name exactly when nothing stands before its first colon, or
nothing after it. A column is read from some name exactly when it is the
identifier without a qualifier, a cell of a family without a colon, or such a
family that is not called like the identifier. It is then read from its own
name, so names tell the columns that are read apart.
-/

namespace WideColumn.Column

/-- What stands before the first colon of a text; all of it if there is none. -/
def beforeColon (s : String) : List Char := s.toList.takeWhile (· ≠ ':')

/-- What stands after the first colon of a text; nothing if there is none. -/
def afterColon (s : String) : List Char := (s.toList.dropWhile (· ≠ ':')).tail

/-- Nothing stands before the first colon of the text, or it has a colon and nothing stands after
the first one. -/
def Malformed (s : String) : Prop := beforeColon s = [] ∨ (':' ∈ s.toList ∧ afterColon s = [])

instance (s : String) : Decidable (Malformed s) := inferInstanceAs (Decidable (_ ∨ _))

/-- A text is cut at its first colon, if it has one. -/
theorem cutColon_eq (cs : List Char) :
    cutColon cs = (cs.takeWhile (· ≠ ':'),
      if ':' ∈ cs then some (cs.dropWhile (· ≠ ':')).tail else none) := by
  induction cs with
  | nil => rfl
  | cons c rest ih =>
    by_cases h : c = ':'
    · simp [cutColon, h]
    · have h' : ¬ ':' = c := fun he => h he.symm
      simp [cutColon, h, h', ih]

/-- A text is malformed exactly when one of the parts that it is split into is there and empty. -/
theorem malformed_iff (s : String) :
    Malformed s ↔ (splitName s).1 = "" ∨ (splitName s).2 = some "" := by
  have hempty : ∀ l : List Char, String.ofList l = "" ↔ l = [] := fun l =>
    ⟨fun h => String.ofList_injective h, fun h => congrArg String.ofList h⟩
  rw [splitName, cutColon_eq, Malformed]
  refine or_congr (hempty _).symm ?_
  by_cases hcolon : ':' ∈ s.toList
  · simp only [hcolon, true_and, if_true, Option.map_some, Option.some.injEq, hempty]
    rfl
  · simp only [hcolon, false_and, if_false, Option.map_none, reduceCtorEq]

/-- A text is refused with its own text if it is malformed, and is else the name of the column that
it is read as. -/
theorem malformed_or_named (s : String) (t : Option DataType) :
    (Malformed s ∧ parse s t = .error (.invalidColumnName s)) ∨
      (¬ Malformed s ∧ ∃ c, parse s t = .ok c ∧ c.name = s) := by
  obtain ⟨rfl, hparse⟩ | ⟨-, hcolon, hparse⟩ | ⟨f, q, hcolon, rfl, hparse⟩ := parse_cases s t
  · exact .inr ⟨by decide, _, hparse, rfl⟩
  · rw [malformed_iff, splitName_of_not_mem hcolon, hparse]
    by_cases hs : s = ""
    · exact .inl ⟨.inl hs, if_pos hs⟩
    · exact .inr ⟨by simp [hs], _, if_neg hs, rfl⟩
  · rw [malformed_iff, splitName_joinName hcolon, hparse, Option.some.injEq]
    by_cases hparts : f = "" ∨ q = ""
    · exact .inl ⟨hparts, if_pos hparts⟩
    · exact .inr ⟨hparts, _, if_neg hparts, rfl⟩

/-- Exactly the malformed texts are refused. -/
theorem parse_eq_error_iff {s : String} {t : Option DataType} :
    parse s t = .error (.invalidColumnName s) ↔ Malformed s := by
  obtain ⟨hbad, h⟩ | ⟨hgood, c, h, -⟩ := malformed_or_named s t
  · exact iff_of_true h hbad
  · exact iff_of_false (by rw [h]; nofun) hgood

/-- The column can be written as a name: it is the identifier and has no qualifier, or its family is
not empty and has no colon, and it has a qualifier that is not empty, or none and a family that is
not called like the identifier. -/
def Writable (c : Column) : Prop :=
  (c.family = none ∧ c.qualifier = none) ∨
    ∃ f, c.family = some f ∧ f ≠ "" ∧ ':' ∉ f.toList ∧
      ((∃ q, c.qualifier = some q ∧ q ≠ "") ∨ (c.qualifier = none ∧ f ≠ identifierName))

/-- The columns that can be written are those that are what their name is read as. -/
theorem readBack_iff {c : Column} : c.ReadBack ↔ c.Writable := by
  constructor
  · intro h
    obtain ⟨-, hc⟩ | ⟨hid, hf, hcolon, hc⟩ | ⟨f, q, hcolon, hf, hq, -, hc⟩ := parse_eq_ok h
    · rw [hc]
      exact .inl ⟨rfl, rfl⟩
    · rw [hc] at hid hf hcolon ⊢
      exact .inr ⟨_, rfl, hf, hcolon, .inr ⟨rfl, hid⟩⟩
    · rw [hc]
      exact .inr ⟨f, rfl, hf, hcolon, .inl ⟨q, rfl, hq⟩⟩
  · obtain ⟨family, qualifier, t⟩ := c
    rintro (⟨rfl, rfl⟩ | ⟨f, rfl, hf, hcolon, ⟨q, rfl, hq⟩ | ⟨rfl, hid⟩⟩)
    · exact parse_identifierName _
    · exact parse_joinName hcolon hf hq _
    · exact parse_of_not_mem hid hf hcolon _

/-- A column that is read from some name is read from its own. -/
theorem exists_parse_iff {c : Column} : (∃ s t, parse s t = .ok c) ↔ c.Writable :=
  ⟨fun ⟨_, _, h⟩ => readBack_iff.mp (readBack_of_parse h), fun h => ⟨_, _, readBack_iff.mpr h⟩⟩

/-- Columns that are read from their names have one name only if they agree in family and
qualifier. -/
theorem ReadBack.name_eq_iff {c d : Column} (hc : c.ReadBack) (hd : d.ReadBack) :
    c.name = d.name ↔ c.family = d.family ∧ c.qualifier = d.qualifier := by
  refine ⟨fun h => ?_, fun h => name_congr h.1 h.2⟩
  obtain ⟨c', hc', hcf, hcq⟩ := hc.exists_parse none
  obtain ⟨d', hd', hdf, hdq⟩ := hd.exists_parse none
  rw [h, hd'] at hc'
  cases hc'
  exact ⟨hcf.symm.trans hdf, hcq.symm.trans hdq⟩

/-- Reading names and writing them are inverse to each other: a text is refused exactly if it is
malformed, and else it is read as a column of that name. -/
theorem parse_inverts_name :
    (∀ s t, (parse s t = .error (.invalidColumnName s) ↔ Malformed s) ∧
      (¬ Malformed s → ∃ c, parse s t = .ok c ∧ c.name = s)) ∧
    (∀ c : Column, ((∃ s t, parse s t = .ok c) ↔ c.Writable) ∧
      (parse c.name (some c.dataType) = .ok c ↔ c.Writable)) ∧
    ∀ s s' t t' c d, parse s t = .ok c → parse s' t' = .ok d →
      (c.name = d.name ↔ c.family = d.family ∧ c.qualifier = d.qualifier) := by
  refine ⟨fun s t => ⟨parse_eq_error_iff, fun hgood => ?_⟩,
    fun c => ⟨exists_parse_iff, readBack_iff⟩, fun s s' t t' c d hc hd =>
    (readBack_of_parse hc).name_eq_iff (readBack_of_parse hd)⟩
  obtain ⟨hbad, -⟩ | ⟨-, h⟩ := malformed_or_named s t
  · exact absurd hbad hgood
  · exact h

/-- A family called like the identifier has names for its cells, but none for itself; a qualifier
may have colons, also in front. -/
theorem parse_inverts_name_of_cells :
    (∃ c, parse "_id::x:" (some .int) = .ok c ∧ c.name = "_id::x:") ∧
      (¬ ∃ s t, parse s t = .ok (wholeFamily "_id" .map)) ∧
      parse "_id:" none = .error (.invalidColumnName "_id:") ∧
      (cell "_id" ":x:" .int).name ≠ (cell "_id" "x:" .text).name := by
  obtain ⟨hnames, hcolumns, happart⟩ := parse_inverts_name
  refine ⟨(hnames _ _).2 (by decide), ?_, (hnames _ _).1.mpr (by decide), ?_⟩
  · rw [(hcolumns _).1]
    rintro (⟨hf, -⟩ | ⟨f, hf, -, -, ⟨q, hq, -⟩ | ⟨-, hid⟩⟩)
    · cases hf
    · cases hq
    · cases hf
      exact hid rfl
  · have hfirst : parse "_id::x:" (some .int) = .ok (cell "_id" ":x:" .int) := rfl
    have hsecond : parse "_id:x:" (some .text) = .ok (cell "_id" "x:" .text) := rfl
    rw [Ne, happart _ _ _ _ _ _ hfirst hsecond]
    decide

end WideColumn.Column
