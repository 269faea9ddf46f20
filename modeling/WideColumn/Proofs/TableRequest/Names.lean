import WideColumn.Proofs.Row.Resolution
import WideColumn.Proofs.Store.Client
import WideColumn.Proofs.Store.Refusals

/-!
# The names of the columns of a requested table

A request comes to be by actions on a new one, and declares columns of different
names, each of which is what its name is read as. The finished table adds an
identifier and a mapping for every family without a declared column. These
mappings are called like their families, and a family may be called like the
identifier, like a declared cell, or in a way that no name of a whole family is
read. Only they can share a name with another column of the table, or not be what
their name is read as; every other column is led to by its name, and a draft takes
its values under it.
-/

namespace WideColumn

open OrderedMap

namespace TableRequest

/-- An action on a request. -/
inductive Action where
  /-- Set the families. -/
  | setFamilies (families : FamilyArgument)
  /-- Declare a column. -/
  | withColumn (name : String) (dataType : Option DataType)
  /-- Carry the request out, with the schema and the client as they are then. -/
  | execute (s : LiveSchema) (c : Client)

/-- What the request becomes by an action that succeeds. -/
def take (r : TableRequest) : Action → Except Error TableRequest
  | .setFamilies families => r.setFamilies families
  | .withColumn name dataType => r.withColumn name dataType
  | .execute s c => (r.execute s c).1.map fun made => made.2.2

/-- The request after an action, whether it succeeds or not. -/
def attempt (r : TableRequest) (action : Action) : TableRequest :=
  match r.take action with
  | .ok r' => r'
  | .error _ => r

/-- The request that actions in turn lead to. -/
def reached (r : TableRequest) (actions : List Action) : TableRequest := actions.foldl attempt r

/-- Of the declared columns an action that succeeds changes none, or it declares one that is read from
a name. -/
theorem columns_of_take {r r' : TableRequest} {action : Action} (h : r.take action = .ok r') :
    r'.columns = r.columns ∨
      ∃ name t c, Column.parse name t = .ok c ∧ r'.columns = (r.declare c).columns := by
  cases action with
  | setFamilies families =>
    simp only [take, setFamilies] at h
    cases hfamilies : familySet families with
    | error e =>
      rw [hfamilies] at h
      cases h
    | ok fs =>
      rw [hfamilies] at h
      cases h
      exact .inl rfl
  | withColumn name t =>
    simp only [take, withColumn] at h
    cases hparse : Column.parse name t with
    | error e =>
      rw [hparse] at h
      cases h
    | ok c =>
      rw [hparse] at h
      cases h
      exact .inr ⟨name, t, c, hparse, rfl⟩
  | execute s c =>
    simp only [take] at h
    rcases hexecute : r.execute s c with ⟨e | ⟨T, s', r''⟩, c'⟩
    · rw [hexecute] at h
      cases h
    · rw [hexecute] at h
      cases h
      obtain ⟨_, _, -, -, -, -, -, rfl, -⟩ := execute_eq_ok hexecute
      exact .inl rfl

/-- Declared columns that have different names, each of which is what its name is read as. -/
structure Named (declared : List Column) : Prop where
  /-- No name is declared twice. -/
  nodup : (declared.map Column.name).Nodup
  /-- Every column is what its name is read as. -/
  readBack : ∀ c ∈ declared, c.ReadBack

/-- Declaring a column that was read keeps the names apart. -/
theorem named_declare {r : TableRequest} (h : Named r.columns) {c : Column} (hc : c.ReadBack) :
    Named (r.declare c).columns := by
  have hkept : ∀ d ∈ r.columns.filter (fun d => d.name ≠ c.name), d ∈ r.columns ∧ d.name ≠ c.name :=
    fun d hd => by simpa using hd
  constructor
  · rw [declare, List.map_append, List.nodup_append]
    refine ⟨h.nodup.sublist (List.filter_sublist.map _), List.pairwise_singleton _ _,
      fun n hn m hm => ?_⟩
    obtain ⟨d, hd, rfl⟩ := List.mem_map.mp hn
    rw [List.map_singleton, List.mem_singleton] at hm
    rw [hm]
    exact (hkept d hd).2
  · intro d hd
    obtain hd | hd := List.mem_append.mp hd
    · exact h.readBack d (hkept d hd).1
    · rw [List.mem_singleton.mp hd]
      exact hc

/-- Whatever is done to a new request, its declared columns have different names, each of which is
what its name is read as; by induction on the actions. -/
theorem named_reached {table : Option String} {families : FamilyArgument} {r : TableRequest}
    (hnew : new table families = .ok r) (actions : List Action) :
    Named (r.reached actions).columns := by
  have hstart : Named r.columns := by
    unfold new at hnew
    cases hfamilies : familySet families with
    | error e =>
      rw [hfamilies] at hnew
      cases hnew
    | ok fs =>
      rw [hfamilies] at hnew
      cases hnew
      exact ⟨List.nodup_nil, nofun⟩
  refine List.foldlRecOn (motive := fun r => Named r.columns) actions attempt hstart
    fun r hr action _ => ?_
  unfold attempt
  split
  · rename_i r' htake
    obtain hsame | ⟨name, t, c, hparse, hdeclared⟩ := columns_of_take htake
    · rw [hsame]
      exact hr
    · rw [hdeclared]
      exact named_declare hr (Column.readBack_of_parse hparse)
  · exact hr

/-- No family of a table that was made is blank. -/
theorem proper_of_execute {r r' : TableRequest} {s s' : LiveSchema} {t : Table} {c c' : Client}
    (h : r.execute s c = (.ok (t, s', r'), c')) : ∀ f ∈ t.families, Text.isBlank f = false := by
  intro f hf
  obtain ⟨n, fs, hopen, -, hvalid, rfl, -⟩ := execute_eq_ok h
  have hmem : f ∈ fs := hf
  rw [← Bool.not_eq_true]
  intro hblank
  have hmake : Client.createTable r.tableName (.names fs.names) c =
      (.error .nameOrFamiliesMissing, c) := by
    rw [Client.createTable, checkedTable_of_lacking (.inr ⟨f, hmem, hblank⟩)]
    rfl
  cases (execute_of_unmade s hopen hvalid hmake).symm.trans (congrArg Prod.fst h)

/-- The finished columns but for the mappings of families without a declared column. -/
def ownColumns (declared : List Column) : List Column :=
  (if declared.any Column.isIdentifier then [] else [Column.identifier .binary]) ++ declared

/-- The families without a declared column. -/
def bareFamilies (declared : List Column) (families : NameSet) : List String :=
  (families.diff (Column.familiesOf declared)).names

variable {declared : List Column} {families : NameSet} {f : String} {c : Column}

/-- The finished columns are the own ones and the mappings of the bare families. -/
theorem finishedColumns_eq (declared : List Column) (families : NameSet) :
    finishedColumns declared families =
      ownColumns declared ++
        (bareFamilies declared families).map fun f => Column.wholeFamily f .map := rfl

/-- A family is bare if no declared column lies in it. -/
theorem mem_bareFamilies :
    f ∈ bareFamilies declared families ↔ f ∈ families ∧ ∀ c ∈ declared, c.family ≠ some f := by
  rw [bareFamilies, ← NameSet.mem_def, NameSet.mem_diff, Column.mem_familiesOf]
  simp only [not_exists, not_and]

theorem nodup_bareFamilies (declared : List Column) (families : NameSet) :
    (bareFamilies declared families).Nodup :=
  (NameSet.sorted _).imp fun hlt => String.ne_of_lt hlt

/-- The mappings of families are called like the families. -/
theorem names_wholeFamilies (l : List String) :
    (l.map fun f => Column.wholeFamily f .map).map Column.name = l := by
  rw [List.map_map]
  exact List.map_id l

/-- An own column in a family was declared. -/
theorem mem_ownColumns_of_family (h : c ∈ ownColumns declared) (hf : c.family = some f) :
    c ∈ declared := by
  obtain hid | hdeclared := List.mem_append.mp h
  · split at hid
    · cases hid
    · rw [List.mem_singleton.mp hid] at hf
      cases hf
  · exact hdeclared

/-- There is a column called like the identifier, whether it is declared or not. -/
theorem mem_names_ownColumns {n : String} :
    n ∈ (ownColumns declared).map Column.name ↔
      n = Column.identifierName ∨ n ∈ declared.map Column.name := by
  rw [ownColumns, List.map_append, List.mem_append]
  cases hany : declared.any Column.isIdentifier with
  | true =>
    obtain ⟨d, hd, hid⟩ := List.any_eq_true.mp hany
    simp only [if_true, List.map_nil, List.not_mem_nil, false_or]
    refine ⟨.inr, fun h => h.elim (fun hn => ?_) id⟩
    rw [hn, ← Column.name_of_isIdentifier hid]
    exact List.mem_map_of_mem hd
  | false =>
    rw [if_neg Bool.false_ne_true, List.map_singleton, List.mem_singleton]
    rfl

/-- The own columns have names of their own. -/
theorem named_ownColumns (h : Named declared) : Named (ownColumns declared) := by
  cases hany : declared.any Column.isIdentifier with
  | true =>
    rw [ownColumns, hany]
    exact h
  | false =>
    rw [ownColumns, hany, if_neg Bool.false_ne_true, List.singleton_append]
    refine ⟨List.nodup_cons.mpr ⟨fun hmem => ?_, h.nodup⟩, List.forall_mem_cons.mpr ⟨?_, h.readBack⟩⟩
    · -- What is read from the name of the identifier is an identifier.
      obtain ⟨d, hd, hname⟩ := List.mem_map.mp hmem
      have hread := h.readBack d hd
      rw [Column.ReadBack, hname, Column.name_identifier, Column.parse_identifierName] at hread
      exact List.any_eq_false.mp hany d hd (congrArg Column.isIdentifier (Except.ok.inj hread)).symm
    · exact Column.parse_identifierName _

/-- The names of the finished columns are different exactly when no family without a declared column
is called like the identifier or like a declared column. -/
theorem nodup_names_finished_iff (h : Named declared) (families : NameSet) :
    ((finishedColumns declared families).map Column.name).Nodup ↔
      ∀ f ∈ bareFamilies declared families,
        f ≠ Column.identifierName ∧ f ∉ declared.map Column.name := by
  rw [finishedColumns_eq, List.map_append, names_wholeFamilies, List.nodup_append]
  constructor
  · rintro ⟨-, -, happart⟩ f hf
    rw [← not_or, ← mem_names_ownColumns]
    exact fun hmem => happart f hmem f hf rfl
  · intro happart
    refine ⟨(named_ownColumns h).nodup, nodup_bareFamilies .., fun n hn f hf hsame => ?_⟩
    rw [hsame, mem_names_ownColumns] at hn
    exact not_or.mpr (happart f hf) hn

/-- Every finished column but the mappings of families without a declared column is found under its
name. -/
theorem find?_name_of_own (h : Named declared) (hc : c ∈ ownColumns declared)
    (families : NameSet) :
    (finishedColumns declared families).find? (fun d => d.name = c.name) = some c := by
  rw [finishedColumns_eq, List.find?_append,
    Column.find?_name_of_nodup (named_ownColumns h).nodup hc]
  rfl

/-- The mapping of a family without a declared column is found under its name exactly when the
family is called neither like the identifier nor like a declared column. -/
theorem find?_name_of_bare_iff (h : Named declared) (hf : f ∈ bareFamilies declared families) :
    (finishedColumns declared families).find? (fun d => d.name = f) =
        some (Column.wholeFamily f .map) ↔
      f ≠ Column.identifierName ∧ f ∉ declared.map Column.name := by
  rw [← not_or, ← mem_names_ownColumns]
  constructor
  · intro hfound hmem
    obtain ⟨c, hc, hname⟩ := List.mem_map.mp hmem
    have hown := find?_name_of_own h hc families
    rw [hname, hfound] at hown
    cases hown
    exact (mem_bareFamilies.mp hf).2 _ (mem_ownColumns_of_family hc rfl) rfl
  · intro hnone
    have hown : (ownColumns declared).find? (fun d => d.name = f) = none :=
      List.find?_eq_none.mpr fun d hd hname =>
        hnone (List.mem_map.mpr ⟨d, hd, of_decide_eq_true hname⟩)
    have hbare : (((bareFamilies declared families).map fun f =>
        Column.wholeFamily f .map).map Column.name).Nodup :=
      (names_wholeFamilies _).symm ▸ nodup_bareFamilies ..
    rw [finishedColumns_eq, List.find?_append, hown]
    exact Column.find?_name_of_nodup hbare (List.mem_map.mpr ⟨f, hf, rfl⟩)

/-- What holds of all other columns, and of the mappings of some families without a declared column,
holds of a finished column unless it is the mapping of another such family. -/
theorem forall_finished_iff {Q : Column → Prop} {P : String → Prop}
    (hown : ∀ c ∈ ownColumns declared, Q c)
    (hbare : ∀ f ∈ bareFamilies declared families, Q (Column.wholeFamily f .map) ↔ P f) :
    ∀ c ∈ finishedColumns declared families,
      Q c ↔ ∀ f ∈ bareFamilies declared families, c = Column.wholeFamily f .map → P f := by
  intro c hc
  rw [finishedColumns_eq] at hc
  obtain hc | hc := List.mem_append.mp hc
  · refine iff_of_true (hown c hc) fun f hf hsame => ?_
    have hfamily : c.family = some f := congrArg Column.family hsame
    exact absurd hfamily ((mem_bareFamilies.mp hf).2 c (mem_ownColumns_of_family hc hfamily))
  · obtain ⟨f, hf, rfl⟩ := List.mem_map.mp hc
    rw [hbare f hf]
    refine ⟨fun h g _ hsame => ?_, fun h => h f hf rfl⟩
    cases hsame
    exact h

/-- A family without a declared column is called like one only if it is called like the identifier
or holds a colon. -/
theorem not_mem_names_of_bare (hf : ∀ c ∈ declared, c.family ≠ some f)
    (hid : f ≠ Column.identifierName) (hcolon : ':' ∉ f.toList) :
    f ∉ declared.map Column.name := by
  intro hmem
  obtain ⟨c, hc, hname⟩ := List.mem_map.mp hmem
  cases hfamily : c.family with
  | none =>
    rw [Column.name_of_isIdentifier (Column.isIdentifier_iff.mpr hfamily)] at hname
    exact hid hname.symm
  | some g =>
    cases hqualifier : c.qualifier with
    | none =>
      rw [Column.name_of_wholeFamily hfamily hqualifier] at hname
      exact hf c hc (hname ▸ hfamily)
    | some q =>
      rw [Column.name_of_qualifier hfamily hqualifier] at hname
      rw [← hname] at hcolon
      exact hcolon (Column.colon_mem_joinName g q)

end TableRequest

/-- Whether a table has a column depends on its family and qualifier only. -/
theorem Table.hasColumn_congr (t : Table) {c d : Column} (hf : c.family = d.family)
    (hq : c.qualifier = d.qualifier) : t.hasColumn c = t.hasColumn d := by
  simp only [hasColumn, covers, hf, hq]

/-- A draft that is given a value under a name keeps it for the column that the name leads to. -/
theorem RowDraft.stageNamed_name {d : RowDraft} {c : Column} (hcolumn : d.table.hasColumn c = true)
    (hfound : d.table.getColumn c.name = some c) (hread : c.ReadBack) (v : Value) :
    d.stageNamed c.name v =
      match c.family with
      | none => d.stageId v
      | some f =>
        if c.qualifier = none ∧ v.isMapping = false then
          .error (.familyNeedsMapping f v.kindName)
        else .ok { d with values := d.values.insert c v } := by
  obtain ⟨c', hparse, hfamily, hqualifier⟩ := hread.exists_parse none
  have hresolve : resolve d.table c' = c := by
    rw [resolve, Column.name_of_parse hparse, hfound, Option.getD_some]
  have htaken : d.table.hasColumn c' = true :=
    (d.table.hasColumn_congr hfamily hqualifier).trans hcolumn
  simp only [stageNamed, hparse, stage, hfamily, hqualifier, htaken, hresolve]
  rfl

namespace Table

/-- Names identify the columns of the table: each column is found under its name and is what its name
is read as. -/
structure ToldByName (t : Table) : Prop where
  /-- No two columns have one name. -/
  nodup : (t.columns.map Column.name).Nodup
  /-- A column is found under its name. -/
  found : ∀ c ∈ t.columns, t.getColumn c.name = some c
  /-- A column is read from its name. -/
  readBack : ∀ c ∈ t.columns, Column.parse c.name (some c.dataType) = .ok c

/-- The family is one of the table's, and none of the declared columns belongs to it. -/
def Bare (t : Table) (declared : List Column) (f : String) : Prop :=
  f ∈ t.families ∧ ∀ c ∈ declared, c.family ≠ some f

end Table

namespace TableRequest

variable {table : Option String} {families : FamilyArgument} {r₀ r' : TableRequest}
variable {actions : List Action} {S S' : LiveSchema} {k k' : Client} {T : Table}

/-- Only the mapping of a family without a declared column can be taken for another, and it is so
exactly if it is called like the identifier or a column, or has a colon. -/
theorem columns_told_by_name (hnew : new table families = .ok r₀)
    (hmade : (r₀.reached actions).execute S k = (.ok (T, S', r'), k')) :
    let declared := (r₀.reached actions).columns
    (T.ToldByName ↔
      ∀ f, T.Bare declared f → f ≠ Column.identifierName ∧ ':' ∉ f.toList) ∧
    ((T.columns.map Column.name).Nodup ↔
      ∀ f, T.Bare declared f → f ≠ Column.identifierName ∧ f ∉ declared.map Column.name) ∧
    ∀ c ∈ T.columns,
      (T.getColumn c.name = some c ↔ ∀ f, T.Bare declared f → c = .wholeFamily f .map →
        f ≠ Column.identifierName ∧ f ∉ declared.map Column.name) ∧
      (Column.parse c.name (some c.dataType) = .ok c ↔
        ∀ f, T.Bare declared f → c = .wholeFamily f .map →
          f ≠ Column.identifierName ∧ ':' ∉ f.toList) ∧
      (T.getColumn c.name = some c → Column.parse c.name (some c.dataType) = .ok c →
        ∀ d : RowDraft, d.table = T → ∀ v, d.stageNamed c.name v =
          match c.family with
          | none => d.stageId v
          | some f =>
            if c.qualifier = none ∧ v.isMapping = false then
              .error (.familyNeedsMapping f v.kindName)
            else .ok { d with values := d.values.insert c v }) := by
  intro declared
  obtain ⟨n, fs, -, -, hvalid, hT, -⟩ := execute_eq_ok hmade
  have hnamed : Named declared := named_reached hnew actions
  have hcolumns : T.columns = finishedColumns declared T.families := by rw [hT]; rfl
  have hclosed : T.Closed := hT ▸ closed_table hvalid S.name n
  have hbare : ∀ f, T.Bare declared f ↔ f ∈ bareFamilies declared T.families :=
    fun f => mem_bareFamilies.symm
  have hread : ∀ f ∈ bareFamilies declared T.families,
      (Column.wholeFamily f .map).ReadBack ↔ f ≠ Column.identifierName ∧ ':' ∉ f.toList := by
    intro f hf
    have hnonempty : f ≠ "" := fun hempty => by
      cases hempty ▸ proper_of_execute hmade f (mem_bareFamilies.mp hf).1
    rw [Column.readBack_wholeFamily_iff]
    exact and_iff_right hnonempty
  have hnodup := nodup_names_finished_iff hnamed T.families
  have hfoundIff := forall_finished_iff (Q := fun c => T.getColumn c.name = some c)
    (fun c hc => (congrArg _ hcolumns).trans (find?_name_of_own hnamed hc T.families))
    (fun f hf => hcolumns ▸ find?_name_of_bare_iff hnamed hf)
  have hreadIff := forall_finished_iff (named_ownColumns hnamed).readBack hread
  rw [← hcolumns] at hnodup hfoundIff hreadIff
  simp only [hbare]
  refine ⟨⟨fun h f hf => ?_, fun h => ?_⟩, hnodup, fun c hc =>
    ⟨hfoundIff c hc, hreadIff c hc, fun hfound hback d hd v => ?_⟩⟩
  · have hmem : Column.wholeFamily f .map ∈ T.columns := by
      rw [hcolumns, finishedColumns_eq]
      exact List.mem_append_right _ (List.mem_map.mpr ⟨f, hf, rfl⟩)
    exact (hread f hf).mp (h.readBack _ hmem)
  · have hapart : ∀ f ∈ bareFamilies declared T.families,
        f ≠ Column.identifierName ∧ f ∉ declared.map Column.name := fun f hf =>
      ⟨(h f hf).1, not_mem_names_of_bare (mem_bareFamilies.mp hf).2 (h f hf).1 (h f hf).2⟩
    exact ⟨hnodup.mpr hapart, fun c hc => (hfoundIff c hc).mpr fun f hf _ => hapart f hf,
      fun c hc => (hreadIff c hc).mpr fun f hf _ => h f hf⟩
  · subst hd
    exact RowDraft.stageNamed_name (Table.hasColumn_of_mem hclosed hc) hfound hback v

/-- Columns that were declared again after failures, families that were set again, and a family whose
declared cell has a colon in its qualifier. -/
theorem columns_told_by_name_after_failures :
    let r : TableRequest := ⟨some "t", none, [], false⟩
    let actions : List Action :=
      [.withColumn "f:q" none, .execute (.ofTables "s" []) (.of (.memory .empty)),
        .setFamilies (.single (.text "f")), .withColumn ":q" none, .withColumn "_id" (some .int),
        .setFamilies (.names ["h", "g", "f"]), .withColumn "g:x:y" none,
        .withColumn "f:q" (some .text)]
    let declared : List Column := [.identifier .int, .cell "g" "x:y" .binary, .cell "f" "q" .text]
    let T : Table :=
      ⟨"s", "t", declared ++ [.wholeFamily "h" .map], NameSet.ofList ["f", "g", "h"]⟩
    new (some "t") .missing = .ok r ∧
      ((r.reached actions).execute (.ofTables "s" []) (.of (.memory .empty))).1.map Prod.fst = .ok T ∧
      T.ToldByName ∧
      ∀ v, (RowDraft.new T).stageNamed "g:x:y" v =
        .ok { RowDraft.new T with values := OrderedMap.insert ∅ (.cell "g" "x:y" .binary) v } := by
  intro r actions declared T
  have hnew : new (some "t") .missing = .ok r := rfl
  have hreached : r.reached actions =
      ⟨some "t", some (NameSet.ofList ["f", "g", "h"]), declared, false⟩ := rfl
  obtain ⟨S', r', k', hmade⟩ : ∃ S' r' k', (r.reached actions).execute (.ofTables "s" [])
      (.of (.memory .empty)) = (.ok (T, S', r'), k') := by
    rw [hreached]
    exact ⟨_, _, _, rfl⟩
  obtain ⟨htold, -, hcolumns⟩ := columns_told_by_name hnew hmade
  have hbare : ∀ f, T.Bare declared f → f = "h" := by
    rintro f ⟨hf, hnone⟩
    have hcases : f = "f" ∨ f = "g" ∨ f = "h" := by simpa [T] using NameSet.mem_ofList.mp hf
    obtain rfl | rfl | rfl := hcases
    · exact absurd rfl (hnone (.cell "f" "q" .text) (by decide))
    · exact absurd rfl (hnone (.cell "g" "x:y" .binary) (by decide))
    · rfl
  refine ⟨hnew, by rw [hmade]; rfl, htold.mpr fun f hf => ?_, fun v => ?_⟩
  · rw [hbare f hf]
    decide
  · exact (hcolumns (.cell "g" "x:y" .binary) (by decide)).2.2 rfl rfl (RowDraft.new T) rfl v

/-- The mapping of a family called like a declared cell is hidden behind the cell, and that of one
called like the identifier becomes the identifier. -/
theorem columns_mistaken_by_name :
    let r : TableRequest := ⟨some "t", some (NameSet.ofList ["_id", "a", "a:b"]), [], false⟩
    let T : Table := ⟨"s", "t", [.identifier .binary, .cell "a" "b" .int, .wholeFamily "_id" .map,
      .wholeFamily "a:b" .map], NameSet.ofList ["_id", "a", "a:b"]⟩
    new (some "t") (.names ["_id", "a", "a:b"]) = .ok r ∧
      ((r.reached [.withColumn "a:b" (some .int)]).execute (.ofTables "s" [])
        (.of (.memory .empty))).1.map Prod.fst = .ok T ∧
      ¬ (T.columns.map Column.name).Nodup ∧
      T.getColumn "a:b" = some (.cell "a" "b" .int) ∧
      Column.parse "a:b" (some .map) = .ok (.cell "a" "b" .map) ∧
      (RowDraft.new T).stageNamed "_id" (.mapping []) =
        .ok { RowDraft.new T with id := some (.mapping []) } := by
  refine ⟨rfl, rfl, by decide, rfl, rfl, rfl⟩

end TableRequest

end WideColumn
