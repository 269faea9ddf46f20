import WideColumn.Proofs.Column.Reading
import WideColumn.Proofs.Session.Requests
import WideColumn.Proofs.TableRequest.Names

/-!
# A column that is declared again replaces the one before

A request keeps of all columns that were declared those of which no later one has
the name, in the order of these last declarations. Other actions do not touch the
declared columns, and an action that fails does not either. Columns of one name
differ in their type at most, so what is declared again is the same column with
another type.
-/

namespace WideColumn

namespace TableRequest

/-- A column is kept unless a later one has its name. -/
theorem mem_lastDeclared_cons {l : List Column} {c e : Column} :
    c ∈ lastDeclared (e :: l) ↔ (c = e ∧ ∀ d ∈ l, d.name ≠ e.name) ∨ c ∈ lastDeclared l := by
  have hlast : (∀ d ∈ l, d.name ≠ e.name) ↔ ¬ l.any (fun d => d.name = e.name) = true := by simp
  rw [lastDeclared, hlast]
  split
  · rename_i hagain
    simp [hagain]
  · rename_i hlater
    simp [hlater]

/-- A column is left exactly if it stands somewhere without a later one of its name. -/
theorem mem_lastDeclared_iff {l : List Column} {c : Column} :
    c ∈ lastDeclared l ↔
      ∃ before after, l = before ++ c :: after ∧ ∀ d ∈ after, d.name ≠ c.name := by
  induction l with
  | nil => simp [lastDeclared]
  | cons e l ih =>
    rw [mem_lastDeclared_cons, ih]
    constructor
    · rintro (⟨rfl, hlater⟩ | ⟨before, after, rfl, hlater⟩)
      · exact ⟨[], l, rfl, hlater⟩
      · exact ⟨e :: before, after, rfl, hlater⟩
    · rintro ⟨before, after, hl, hlater⟩
      obtain ⟨-, hsplit⟩ | ⟨before, -, hrest⟩ := List.cons_eq_append_iff.mp hl
      · cases hsplit
        exact .inl ⟨rfl, hlater⟩
      · exact .inr ⟨before, after, hrest, hlater⟩

/-- Columns of different names have one identifier among them at most. -/
theorem countP_isIdentifier_le_one {columns : List Column}
    (h : (columns.map Column.name).Nodup) : columns.countP Column.isIdentifier ≤ 1 := by
  cases hany : columns.any Column.isIdentifier with
  | true =>
    obtain ⟨c, hc⟩ := filter_isIdentifier_of_any h hany
    rw [List.countP_eq_length_filter, hc]
    exact Nat.le_refl 1
  | false =>
    rw [List.countP_eq_zero.mpr (List.any_eq_false.mp hany)]
    exact Nat.zero_le 1

/-- The column that an action declares, if it names one. -/
def Action.declared? : Action → Option Column
  | .withColumn name dataType => (Column.parse name dataType).toOption
  | .setFamilies _ | .execute _ _ => none

/-- An action declares a column exactly if it names it and the name is read as the column. -/
theorem Action.declared?_eq_some_iff {action : Action} {c : Column} :
    action.declared? = some c ↔
      ∃ t, action = .withColumn c.name t ∧ Column.parse c.name t = .ok c := by
  cases action with
  | setFamilies families => exact iff_of_false nofun fun ⟨_, h, _⟩ => nomatch h
  | execute s k => exact iff_of_false nofun fun ⟨_, h, _⟩ => nomatch h
  | withColumn name t =>
    rw [declared?]
    constructor
    · intro h
      cases hparse : Column.parse name t with
      | error e =>
        rw [hparse] at h
        cases h
      | ok d =>
        rw [hparse] at h
        cases h
        obtain rfl := Column.name_of_parse hparse
        exact ⟨t, rfl, hparse⟩
    · rintro ⟨_, ⟨rfl, rfl⟩, hparse⟩
      rw [hparse]
      rfl

/-- The columns that actions declare, in turn. -/
def declarations (actions : List Action) : List Column := actions.filterMap Action.declared?

/-- What was declared is what its name is read as. -/
theorem readBack_of_mem_declarations {actions : List Action} {c : Column}
    (h : c ∈ declarations actions) : c.ReadBack := by
  obtain ⟨action, -, haction⟩ := List.mem_filterMap.mp h
  obtain ⟨t, -, hparse⟩ := Action.declared?_eq_some_iff.mp haction
  exact Column.readBack_of_parse hparse

/-- The declarations split at a column exactly where the actions split at one that declares it. -/
theorem declarations_eq_append_iff {actions : List Action} {c : Column} {after : List Column} :
    (∃ before, declarations actions = before ++ c :: after) ↔
      ∃ earlier t later, actions = earlier ++ .withColumn c.name t :: later ∧
        Column.parse c.name t = .ok c ∧ declarations later = after := by
  constructor
  · rintro ⟨before, hsplit⟩
    obtain ⟨front, back, rfl, -, hback⟩ := List.filterMap_eq_append_iff.mp hsplit
    obtain ⟨idle, action, later, rfl, -, haction, hlater⟩ := List.filterMap_eq_cons_iff.mp hback
    obtain ⟨t, rfl, hparse⟩ := Action.declared?_eq_some_iff.mp haction
    exact ⟨front ++ idle, t, later, (List.append_assoc ..).symm, hparse, hlater⟩
  · rintro ⟨earlier, t, later, rfl, hparse, rfl⟩
    have hdeclared := Action.declared?_eq_some_iff.mpr ⟨t, rfl, hparse⟩
    refine ⟨declarations earlier, ?_⟩
    rw [declarations, List.filterMap_append, List.filterMap_cons_some hdeclared]
    rfl

/-- An action that declares a column declares it on top, and all others leave the declared columns
as they are, whether they succeed or not. -/
theorem columns_attempt (r : TableRequest) (action : Action) :
    (r.attempt action).columns =
      action.declared?.elim r.columns fun c => (r.declare c).columns := by
  cases action with
  | setFamilies families =>
    simp only [attempt, take, setFamilies]
    cases familySet families <;> rfl
  | withColumn name t =>
    simp only [attempt, take, withColumn, Action.declared?]
    cases Column.parse name t <;> rfl
  | execute s c =>
    simp only [attempt, take]
    rcases hexecute : r.execute s c with ⟨e | ⟨T, s', r'⟩, c'⟩
    · rfl
    · obtain ⟨_, _, -, -, -, -, -, rfl, -⟩ := execute_eq_ok hexecute
      rfl

variable {table : Option String} {families : FamilyArgument} {r : TableRequest}

theorem columns_of_new (h : new table families = .ok r) : r.columns = [] := by
  unfold new at h
  cases hfamilies : familySet families with
  | error e =>
    rw [hfamilies] at h
    cases h
  | ok fs =>
    rw [hfamilies] at h
    cases h
    rfl

/-- The declared columns are what is left of the declarations, by induction on the actions from the
last one. -/
theorem columns_reached (h : new table families = .ok r) (actions : List Action) :
    (r.reached actions).columns = lastDeclared (declarations actions) := by
  induction actions using List.reverseRecOn with
  | nil => exact columns_of_new h
  | append_singleton actions action ih =>
    have hlast : r.reached (actions ++ [action]) = (r.reached actions).attempt action :=
      List.foldl_append
    rw [hlast, columns_attempt, declarations, List.filterMap_append, List.filterMap_cons,
      List.filterMap_nil]
    cases action.declared? with
    | none => rw [Option.elim_none, ih, List.append_nil, declarations]
    | some c =>
      rw [Option.elim_some, declare, ih]
      exact (lastDeclared_concat _ c).symm

/-- The declared columns of a request are those read from the given names, each in the order and
with the type of its last declaration. -/
theorem columns_redeclared (hnew : new table families = .ok r) (actions : List Action) :
    let columns := (r.reached actions).columns
    columns = lastDeclared (declarations actions) ∧
    (∀ c, c ∈ columns ↔
      ∃ earlier t later, actions = earlier ++ .withColumn c.name t :: later ∧
        Column.parse c.name t = .ok c ∧ ∀ d ∈ declarations later, d.name ≠ c.name) ∧
    (∀ c ∈ declarations actions, ∀ d ∈ declarations actions, c.name = d.name →
      c.family = d.family ∧ c.qualifier = d.qualifier) ∧
    (columns.map Column.name).Nodup ∧ columns.countP Column.isIdentifier ≤ 1 := by
  intro columns
  have hcolumns : columns = lastDeclared (declarations actions) := columns_reached hnew actions
  have hnodup : (columns.map Column.name).Nodup := hcolumns ▸ nodup_lastDeclared _
  refine ⟨hcolumns, fun c => ?_, fun c hc d hd => ?_, hnodup, countP_isIdentifier_le_one hnodup⟩
  · rw [hcolumns, mem_lastDeclared_iff]
    constructor
    · rintro ⟨before, after, hsplit, hafter⟩
      obtain ⟨earlier, t, later, hactions, hparse, rfl⟩ :=
        declarations_eq_append_iff.mp ⟨before, hsplit⟩
      exact ⟨earlier, t, later, hactions, hparse, hafter⟩
    · rintro ⟨earlier, t, later, hactions, hparse, hlater⟩
      obtain ⟨before, hsplit⟩ :=
        declarations_eq_append_iff.mpr ⟨earlier, t, later, hactions, hparse, rfl⟩
      exact ⟨before, _, hsplit, hlater⟩
  · exact ((readBack_of_mem_declarations hc).name_eq_iff (readBack_of_mem_declarations hd)).mp

/-- A cell and the identifier are declared again, some attempts are refused, and so is carrying the
request out. -/
theorem columns_redeclared_after_failures :
    let r : TableRequest := ⟨some "t", none, [], false⟩
    let actions : List Action :=
      [.withColumn "f:q" none, .withColumn "_id" (some .int), .withColumn ":q" none,
        .execute (.ofTables "s" []) (.of (.memory .empty)), .withColumn "f" none,
        .setFamilies (.names ["g"]), .withColumn "f:q" (some .text),
        .setFamilies (.single (.text "f")), .execute (.ofTables "s" []) (.of (.memory .empty)),
        .withColumn "_id" none]
    new (some "t") .missing = .ok r ∧
      (r.reached actions).columns =
        [.wholeFamily "f" .map, .cell "f" "q" .text, .identifier .binary] ∧
      Column.cell "f" "q" .binary ∉ (r.reached actions).columns := by
  intro r actions
  have hnew : new (some "t") .missing = .ok r := rfl
  obtain ⟨hcolumns, -⟩ := columns_redeclared hnew actions
  have hlast : (r.reached actions).columns =
      [.wholeFamily "f" .map, .cell "f" "q" .text, .identifier .binary] := hcolumns.trans rfl
  refine ⟨hnew, hlast, ?_⟩
  rw [hlast]
  decide

end TableRequest

end WideColumn
