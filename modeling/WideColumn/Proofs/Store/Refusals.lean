import WideColumn.Proofs.Store.MemoryClient
import WideColumn.Proofs.TableRequest

/-!
# When a request is refused

A request on a memory store is refused for the first of five causes that is
there: it has been carried out already, it has no families, a declared column
belongs to none of them, its name or one of the families is missing, or the store
has a table of the name. Where there is none of these, its table is made.
-/

namespace WideColumn

open Operation OrderedMap

/-- The column belongs to one of the families, or to none. -/
def Column.LiesIn (families : NameSet) (c : Column) : Prop := ∀ f, c.family = some f → f ∈ families

namespace TableRequest

/-- The cause for which a request on a memory store is refused; each one stands behind those that
come before it. -/
inductive Refused (r : TableRequest) (m : Memory) : Error → Prop where
  /-- It has been carried out. -/
  | again (h : r.executed = true) : Refused r m (.alreadyExecuted r.tableName)
  /-- Its families were not given, or there are none of them. -/
  | familiesMissing (hopen : r.executed = false)
    (h : ∀ fs, r.families = some fs → fs.isEmpty = true) : Refused r m .familiesMissing
  /-- The first of its columns that lies in none of its families. -/
  | unknownFamily {fs : NameSet} {before after : List Column} {c : Column}
    (hopen : r.executed = false) (hfs : r.families = some fs) (hsome : fs.isEmpty = false)
    (hcolumns : r.columns = before ++ c :: after) (hbefore : ∀ d ∈ before, d.LiesIn fs)
    (h : ¬ c.LiesIn fs) : Refused r m (.unknownFamily c.name r.tableName)
  /-- Its name was not given or is empty, or one of its families is blank. -/
  | nameOrFamiliesMissing {fs : NameSet} (hopen : r.executed = false) (hfs : r.families = some fs)
    (hsome : fs.isEmpty = false) (hcolumns : ∀ c ∈ r.columns, c.LiesIn fs)
    (h : (∀ n, r.tableName = some n → n = "") ∨ ∃ f ∈ fs, Text.isBlank f = true) :
    Refused r m .nameOrFamiliesMissing
  /-- The store has a table of its name. -/
  | tableExists {fs : NameSet} {n : String} (hopen : r.executed = false)
    (hfs : r.families = some fs) (hsome : fs.isEmpty = false)
    (hcolumns : ∀ c ∈ r.columns, c.LiesIn fs) (hname : r.tableName = some n) (hnamed : n ≠ "")
    (hproper : ∀ f ∈ fs, Text.isBlank f = false) (h : n ∈ m.families.keys) :
    Refused r m (.tableExists n)

/-- None of the causes is there: a table of the name can be made with the families. -/
structure Accepted (r : TableRequest) (m : Memory) (n : String) (fs : NameSet) : Prop where
  /-- It has not been carried out. -/
  isOpen : r.executed = false
  /-- The families were given. -/
  families : r.families = some fs
  /-- There are some of them. -/
  isSome : fs.isEmpty = false
  /-- Every declared column lies in them. -/
  columns : ∀ c ∈ r.columns, c.LiesIn fs
  /-- The name was given. -/
  name : r.tableName = some n
  /-- It is not empty. -/
  isNamed : n ≠ ""
  /-- No family is blank. -/
  proper : ∀ f ∈ fs, Text.isBlank f = false
  /-- The store has no table of the name. -/
  isNew : n ∉ m.families.keys

variable {r : TableRequest} {m : Memory} {fs : NameSet} {n : String}

/-- A list has a first column outside the families, or all of its columns lie in them. -/
theorem liesIn_or_first_stray (fs : NameSet) (columns : List Column) :
    (∀ c ∈ columns, c.LiesIn fs) ∨
      ∃ before c after, columns = before ++ c :: after ∧ (∀ d ∈ before, d.LiesIn fs) ∧
        ¬ c.LiesIn fs := by
  induction columns with
  | nil => exact .inl nofun
  | cons c columns ih =>
    by_cases hc : c.LiesIn fs
    · obtain hall | ⟨before, d, after, rfl, hbefore, hd⟩ := ih
      · exact .inl (List.forall_mem_cons.mpr ⟨hc, hall⟩)
      · exact .inr ⟨c :: before, d, after, rfl, List.forall_mem_cons.mpr ⟨hc, hbefore⟩, hd⟩
    · exact .inr ⟨[], c, columns, rfl, nofun, hc⟩

/-- Every request is refused for some cause or accepted. -/
theorem refused_or_accepted (r : TableRequest) (m : Memory) :
    (∃ e, r.Refused m e) ∨ ∃ n fs, r.Accepted m n fs := by
  cases hopen : r.executed with
  | true => exact .inl ⟨_, .again hopen⟩
  | false =>
    by_cases hmissing : ∀ fs, r.families = some fs → fs.isEmpty = true
    · exact .inl ⟨_, .familiesMissing hopen hmissing⟩
    · obtain ⟨fs, hfs, hempty⟩ : ∃ fs, r.families = some fs ∧ fs.isEmpty = false := by
        simpa using hmissing
      obtain hcolumns | ⟨before, c, after, hsplit, hbefore, hc⟩ :=
        liesIn_or_first_stray fs r.columns
      · by_cases hlacking : (∀ n, r.tableName = some n → n = "") ∨ ∃ f ∈ fs, Text.isBlank f = true
        · exact .inl ⟨_, .nameOrFamiliesMissing hopen hfs hempty hcolumns hlacking⟩
        · obtain ⟨hname, hblank⟩ := not_or.mp hlacking
          obtain ⟨n, hn, hne⟩ : ∃ n, r.tableName = some n ∧ n ≠ "" := by simpa using hname
          have hproper : ∀ f ∈ fs, Text.isBlank f = false := by simpa using hblank
          by_cases hknown : n ∈ m.families.keys
          · exact .inl ⟨_, .tableExists hopen hfs hempty hcolumns hn hne hproper hknown⟩
          · exact .inr ⟨n, fs, hopen, hfs, hempty, hcolumns, hn, hne, hproper, hknown⟩
      · exact .inl ⟨_, .unknownFamily hopen hfs hempty hsplit hbefore hc⟩

theorem belongs_iff {c : Column} : belongs fs c = true ↔ c.LiesIn fs := by
  unfold belongs Column.LiesIn
  cases c.family with
  | none => simp
  | some f => simp

/-- Without families a request is refused for that. -/
theorem validFamilies_of_missing (h : ∀ fs, r.families = some fs → fs.isEmpty = true) :
    r.validFamilies = .error .familiesMissing := by
  unfold validFamilies
  cases hfs : r.families with
  | none => rfl
  | some fs => simp only [h fs hfs, if_true]

/-- With families a request is refused for the first column outside of them. -/
theorem validFamilies_of_some (hfs : r.families = some fs) (hsome : fs.isEmpty = false) :
    r.validFamilies =
      match r.columns.find? fun c => !belongs fs c with
      | some c => .error (.unknownFamily c.name r.tableName)
      | none => .ok fs := by
  simp only [validFamilies, hfs, hsome]
  rfl

/-- The first column outside of the families is the one that is told. -/
theorem validFamilies_of_stray {before after : List Column} {c : Column}
    (hfs : r.families = some fs) (hsome : fs.isEmpty = false)
    (hcolumns : r.columns = before ++ c :: after) (hbefore : ∀ d ∈ before, d.LiesIn fs)
    (h : ¬ c.LiesIn fs) : r.validFamilies = .error (.unknownFamily c.name r.tableName) := by
  have hfirst : r.columns.find? (fun c => !belongs fs c) = some c := by
    rw [hcolumns, List.find?_append, List.find?_eq_none.mpr, Option.none_or, List.find?_cons_of_pos]
    · simpa [← belongs_iff] using h
    · intro d hd
      simp [belongs_iff.mpr (hbefore d hd)]
  rw [validFamilies_of_some hfs hsome, hfirst]

/-- A request whose columns lie in its families is taken. -/
theorem validFamilies_of_liesIn (hfs : r.families = some fs) (hsome : fs.isEmpty = false)
    (h : ∀ c ∈ r.columns, c.LiesIn fs) : r.validFamilies = .ok fs := by
  have hnone : r.columns.find? (fun c => !belongs fs c) = none := by
    refine List.find?_eq_none.mpr fun c hc => ?_
    simp [belongs_iff.mpr (h c hc)]
  rw [validFamilies_of_some hfs hsome, hnone]

/-- A name that is missing and a blank family are both refused by the client. -/
theorem checkedTable_of_lacking {table : Option String}
    (h : (∀ n, table = some n → n = "") ∨ ∃ f ∈ fs, Text.isBlank f = true) :
    Client.checkedTable table (.names fs.names) = .error .nameOrFamiliesMissing := by
  cases table with
  | none => rfl
  | some n =>
    have hlacking : n = "" ∨ fs.names = [] ∨ fs.names.any Text.isBlank = true := by
      obtain hname | ⟨f, hf, hblank⟩ := h
      · exact .inl (hname n rfl)
      · exact .inr (.inr (List.any_eq_true.mpr ⟨f, hf, hblank⟩))
    simp only [Client.checkedTable, if_pos hlacking]

/-- A name and families that are proper are taken as they are. -/
theorem checkedTable_of_proper (hnamed : n ≠ "") (hsome : fs.isEmpty = false)
    (hproper : ∀ f ∈ fs, Text.isBlank f = false) :
    Client.checkedTable (some n) (.names fs.names) = .ok (n, fs) := by
  have hproper : ¬ (n = "" ∨ fs.names = [] ∨ fs.names.any Text.isBlank = true) := by
    rintro (hn | hnil | hblank)
    · exact hnamed hn
    · rw [NameSet.isEmpty, hnil] at hsome
      cases hsome
    · obtain ⟨f, hf, hblank⟩ := List.any_eq_true.mp hblank
      cases (hproper f hf).symm.trans hblank
  simp only [Client.checkedTable, if_neg hproper, NameSet.ofList_names]

end TableRequest

namespace Client

variable {c : Client} {m : Memory} {table : Option String} {families : FamilyArgument} {n : String}
variable {fs : NameSet}

/-- What is to be made in memory is made, or the store has a table of the name. -/
theorem createTable_of_checked (hc : c.store = .memory m)
    (hcheck : checkedTable table families = .ok (n, fs)) :
    (n ∈ m.families.keys ∧ ∃ c', createTable table families c = (.error (.tableExists n), c')) ∨
      (n ∉ m.families.keys ∧ ∃ c', createTable table families c = (.ok (), c') ∧
        c'.store = .memory { m with
          families := m.families.insert n fs, rows := m.rows.insert n ∅ }) := by
  have hmake : ∀ {r m'}, Memory.createTable n fs m = (r, m') → ∀ c₁ : Client, c₁.store = .memory m →
      onStore (Store.createTable n fs) c₁ = (r, { c₁ with store := .memory m' }) :=
    fun h _ hc₁ => onStore_of_memory hc₁ h
  let shown := (Value.list (fs.names.map Value.text)).literal
  let noted : Client := { c with log := c.log ++
    [⟨.debug, "Creating table " ++ n ++ " with column families " ++ shown ++ "."⟩] }
  have happly : createTable table families c =
      (onStore (Store.createTable n fs) >>= fun _ =>
        note .info ("Created table " ++ n ++ ".")) noted := by
    unfold createTable
    rw [hcheck]
    rfl
  rw [happly]
  obtain ⟨hknown, hcases⟩ | ⟨hnew, hcases⟩ := Memory.createTable_cases m n fs
  · exact .inl ⟨(contains_iff_mem_keys ..).mp hknown, _, bind_of_error (hmake hcases noted hc)⟩
  · refine .inr ⟨fun hmem => ?_, _, bind_of_ok (hmake hcases noted hc), rfl⟩
    cases hnew.symm.trans ((contains_iff_mem_keys ..).mpr hmem)

end Client

namespace TableRequest

variable {r : TableRequest} {m : Memory} {fs : NameSet} {n : String} {c : Client} (S : LiveSchema)

/-- An open request is checked, then its table is made. -/
theorem create_of_open (h : r.executed = false) (schemaName : String) :
    r.create schemaName = Operation.lift r.validFamilies >>= fun families =>
      Client.createTable r.tableName (.names families.names) >>= fun _ =>
        pure (r.table schemaName (r.tableName.getD "") families) := by
  unfold create
  simp only [h]
  rfl

/-- A request that has been carried out is refused, and the client is as it was. -/
theorem execute_of_executed (h : r.executed = true) :
    r.execute S c = (.error (.alreadyExecuted r.tableName), c) := by
  have hcreate : r.create S.name c = (.error (.alreadyExecuted r.tableName), c) := by
    unfold create
    simp only [h]
    rfl
  exact bind_of_error hcreate

/-- A request that does not pass its check fails for the cause that the check gives. -/
theorem execute_of_invalid {e : Error} (hopen : r.executed = false)
    (hvalid : r.validFamilies = .error e) : (r.execute S c).1 = .error e := by
  have hcreate : r.create S.name c = (.error e, c) := by
    rw [create_of_open hopen, hvalid]
    rfl
  exact congrArg Prod.fst (bind_of_error hcreate)

/-- A request whose table cannot be made fails for the cause that the client gives. -/
theorem execute_of_unmade {e : Error} {c' : Client} (hopen : r.executed = false)
    (hvalid : r.validFamilies = .ok fs)
    (hmake : Client.createTable r.tableName (.names fs.names) c = (.error e, c')) :
    (r.execute S c).1 = .error e := by
  have hcreate : r.create S.name c = (.error e, c') := by
    rw [create_of_open hopen, hvalid]
    exact (bind_of_ok rfl).trans (bind_of_error hmake)
  exact congrArg Prod.fst (bind_of_error hcreate)

/-- A request that is refused fails for the cause that is there. -/
theorem execute_of_refused {e : Error} (hc : c.store = .memory m) (h : r.Refused m e) :
    (r.execute S c).1 = .error e := by
  cases h with
  | again h => exact congrArg Prod.fst (execute_of_executed S h)
  | familiesMissing hopen h => exact execute_of_invalid S hopen (validFamilies_of_missing h)
  | unknownFamily hopen hfs hsome hcolumns hbefore h =>
    exact execute_of_invalid S hopen (validFamilies_of_stray hfs hsome hcolumns hbefore h)
  | @nameOrFamiliesMissing fs hopen hfs hsome hcolumns h =>
    have hmake : Client.createTable r.tableName (.names fs.names) c =
        (.error .nameOrFamiliesMissing, c) := by
      rw [Client.createTable, checkedTable_of_lacking h]
      rfl
    exact execute_of_unmade S hopen (validFamilies_of_liesIn hfs hsome hcolumns) hmake
  | tableExists hopen hfs hsome hcolumns hname hnamed hproper h =>
    have hcheck := checkedTable_of_proper hnamed hsome hproper
    rw [← hname] at hcheck
    obtain ⟨-, c', hmake⟩ | ⟨hnew, -⟩ := Client.createTable_of_checked hc hcheck
    · exact execute_of_unmade S hopen (validFamilies_of_liesIn hfs hsome hcolumns) hmake
    · exact absurd h hnew

/-- A request that is accepted makes its table in the store and adds it to the schema. -/
theorem execute_of_accepted (hc : c.store = .memory m) (h : r.Accepted m n fs) :
    ∃ c', r.execute S c = (.ok (r.table S.name n fs, S.addTable (r.table S.name n fs),
        { r with executed := true }), c') ∧
      c'.store = .memory { m with
        families := m.families.insert n fs, rows := m.rows.insert n ∅ } := by
  have hcheck := checkedTable_of_proper h.isNamed h.isSome h.proper
  rw [← h.name] at hcheck
  obtain ⟨hknown, -⟩ | ⟨-, c', hmake, hstore⟩ := Client.createTable_of_checked hc hcheck
  · exact absurd hknown h.isNew
  · have hcreate : r.create S.name c = (.ok (r.table S.name n fs), c') := by
      rw [create_of_open h.isOpen, validFamilies_of_liesIn h.families h.isSome h.columns]
      refine (bind_of_ok rfl).trans ((bind_of_ok hmake).trans ?_)
      rw [h.name]
      rfl
    exact ⟨_, bind_of_ok hcreate, hstore⟩

end TableRequest

end WideColumn
