import WideColumn.Proofs.Store.Holdings

/-!
# What a client does to the tables of its store

Work on rows keeps whatever survives it on the store. The two operations that
make and drop tables bind and erase them among the holdings exactly when they
succeed, and so do the request for a table and its removal from a schema.
-/

namespace WideColumn

open Operation OrderedMap

namespace Client

variable {α : Type} {Q : Store → Prop}

/-- A property of the store that an operation keeps is kept by a client that carries it out. -/
theorem keeps_onStore {op : Operation Store α} (h : Keeps Q op) :
    Keeps (fun c => Q c.store) (onStore op) :=
  h.within (fun _ hc => hc) fun _ _ _ ht => ht

theorem keeps_note (level : Level) (message : String) :
    Keeps (fun c => Q c.store) (note level message) :=
  fun _ hc => hc

section RowWork

variable (hQ : Store.RowStable Q)
include hQ

theorem keeps_requireTable (table : String) : Keeps (fun c => Q c.store) (requireTable table) :=
  (keeps_onStore (hQ.tableExists table)).bind fun _ => .ite (.pure _) (.fail _)

omit hQ in
theorem keeps_keyOfRow (r : Row) : Keeps (fun c => Q c.store) (keyOfRow r) := by
  unfold keyOfRow
  split
  · exact fun _ hc => hc
  · exact .lift _

theorem keeps_putRow (r : Row) : Keeps (fun c => Q c.store) (putRow r) :=
  (keeps_requireTable hQ _).bind fun _ => (keeps_keyOfRow r).bind fun _ =>
    (keeps_note _ _).bind fun _ => (Keeps.lift _).bind fun _ =>
      (keeps_onStore (hQ.put _ _ _)).bind fun _ => .pure _

theorem keeps_insertRow (r : Row) : Keeps (fun c => Q c.store) (insertRow r) :=
  (keeps_putRow hQ r).bind fun _ => (keeps_note _ _).bind fun _ => .pure _

theorem keeps_deleteRow (table key : String) :
    Keeps (fun c => Q c.store) (deleteRow table key) :=
  (keeps_requireTable hQ table).bind fun _ => keeps_onStore (hQ.delete table key)

theorem keeps_deleteById (t : Table) (id : Value) :
    Keeps (fun c => Q c.store) (deleteById t id) := by
  unfold deleteById
  have hrest : Keeps (fun c : Client => Q c.store) (do
      let key ← Operation.lift id.rowKey
      deleteRow t.name key
      note .debug ("Deleted row " ++ id.plainText ++ " from " ++ t.name ++ ".")) :=
    (Keeps.lift _).bind fun _ => (keeps_deleteRow hQ _ _).bind fun _ => keeps_note _ _
  exact .ite ((Keeps.fail _).bind fun _ => hrest) hrest

end RowWork

/-- What succeeds on the store of a client has succeeded on that store. -/
theorem store_of_onStore {op : Operation Store α} {c c' : Client} {a : α}
    (h : onStore op c = (.ok a, c')) : op c.store = (.ok a, c'.store) := by
  obtain ⟨st, hst, rfl⟩ := within_eq h
  exact hst

/-- Families that pass the check were given as a collection of names that are not blank, for a table
that has a name. -/
theorem checkedTable_eq_ok {table : Option String} {families : FamilyArgument} {name : String}
    {fs : NameSet} (h : checkedTable table families = .ok (name, fs)) :
    ∃ l, table = some name ∧ families = .names l ∧ name ≠ "" ∧ l ≠ [] ∧
      l.any Text.isBlank = false ∧ fs = NameSet.ofList l := by
  unfold checkedTable at h
  split at h
  · cases h
  · cases h
  · cases h
  · rename_i l given
    split at h
    · cases h
    · rename_i hgood
      cases h
      simp only [not_or, Bool.not_eq_true] at hgood
      exact ⟨l, rfl, rfl, hgood.1, hgood.2.1, hgood.2.2, rfl⟩

/-- A table that is made has passed the check and is bound among the tables of the store. -/
theorem createTable_eq_ok {table : Option String} {families : FamilyArgument} {c c' : Client}
    (h : createTable table families c = (.ok (), c')) :
    ∃ name fs, checkedTable table families = .ok (name, fs) ∧
      c'.store.holdings = c.store.holdings.insert name fs := by
  unfold createTable at h
  obtain ⟨⟨name, fs⟩, c₁, hcheck, h₁⟩ := bind_eq_ok h
  obtain ⟨_, c₂, hdebug, h₂⟩ := bind_eq_ok h₁
  obtain ⟨_, c₃, hmake, hinfo⟩ := bind_eq_ok h₂
  cases hdebug
  cases hinfo
  simp only [lift_apply, Prod.mk.injEq] at hcheck
  obtain ⟨hcheck, rfl⟩ := hcheck
  have hstore := store_of_onStore hmake
  exact ⟨name, fs, hcheck, Store.holdings_createTable hstore⟩

/-- Requiring a table does not touch what the store holds. -/
theorem leaves_holdings_requireTable (table : String) :
    Leaves (fun c : Client => c.store.holdings) (requireTable table) :=
  .of_keeps fun x => keeps_requireTable (Store.rowStable_holdings (· = x)) table

/-- A table that is dropped is erased from the tables of the store. -/
theorem dropTable_eq_ok {table : String} {c c' : Client} (h : dropTable table c = (.ok (), c')) :
    c'.store.holdings = c.store.holdings.erase table := by
  unfold dropTable at h
  obtain ⟨_, c₁, hreq, h₁⟩ := bind_eq_ok h
  obtain ⟨_, c₂, hdrop, hinfo⟩ := bind_eq_ok h₁
  cases hinfo
  have hsame : c₁.store.holdings = c.store.holdings := by
    have := leaves_holdings_requireTable table c
    rwa [hreq] at this
  have hstore := store_of_onStore hdrop
  rw [← hsame]
  exact Store.holdings_deleteTable hstore

/-- A table leaves a schema only together with the store. -/
theorem dropFrom_eq_ok {s s' : LiveSchema} {table : String} {c c' : Client}
    (h : dropFrom s table c = (.ok s', c')) :
    s' = s.removeTable table ∧ c'.store.holdings = c.store.holdings.erase table := by
  obtain ⟨_, c₁, hdrop, hgive⟩ := bind_eq_ok h
  cases hgive
  exact ⟨rfl, dropTable_eq_ok hdrop⟩

/-- What survives the making of a table on the store survives it on a client. -/
theorem keeps_createTable {table : Option String}
    (hQ : ∀ name fs, table = some name → Keeps Q (Store.createTable name fs))
    (families : FamilyArgument) : Keeps (fun c => Q c.store) (createTable table families) := by
  refine (Leaves.lift _).bind_keeps fun checked c hcheck hc => ?_
  obtain ⟨l, hname, -⟩ := checkedTable_eq_ok (congrArg Prod.fst hcheck)
  exact ((keeps_note _ _).bind fun _ =>
    (keeps_onStore (hQ checked.1 checked.2 hname)).bind fun _ => keeps_note _ _) c hc

/-- What survives work on rows and the dropping of a table on the store survives it on a client. -/
theorem keeps_dropTable (hrow : Store.RowStable Q) {table : String}
    (hQ : Keeps Q (Store.deleteTable table)) : Keeps (fun c => Q c.store) (dropTable table) :=
  (keeps_requireTable hrow table).bind fun _ =>
    (keeps_onStore hQ).bind fun _ => keeps_note _ _

/-- So does the dropping of a table together with its removal from a schema. -/
theorem keeps_dropFrom (hrow : Store.RowStable Q) {table : String}
    (hQ : Keeps Q (Store.deleteTable table)) (s : LiveSchema) :
    Keeps (fun c => Q c.store) (dropFrom s table) :=
  (keeps_dropTable hrow hQ).bind fun _ => .pure _

end Client

namespace TableRequest

/-- The name and families of a request that is carried out are those of the table it makes. -/
theorem checkedTable_names_eq_ok {table : Option String} {fs fs' : NameSet} {name : String}
    (h : Client.checkedTable table (.names fs.names) = .ok (name, fs')) :
    table = some name ∧ fs' = fs := by
  obtain ⟨l, hname, hl, -, -, -, rfl⟩ := Client.checkedTable_eq_ok h
  cases hl
  exact ⟨hname, NameSet.ofList_names fs⟩

/-- All that carrying out a request can do when it succeeds: it was open and valid, its table is
bound in the schema and among the tables of the store, and it is carried out afterwards. -/
theorem execute_eq_ok {r r' : TableRequest} {s s' : LiveSchema} {t : Table} {c c' : Client}
    (h : r.execute s c = (.ok (t, s', r'), c')) :
    ∃ name fs, r.executed = false ∧ r.tableName = some name ∧ r.validFamilies = .ok fs ∧
      t = r.table s.name name fs ∧ s' = s.addTable t ∧ r' = { r with executed := true } ∧
      c'.store.holdings = c.store.holdings.insert name fs := by
  obtain ⟨t₁, c₁, hcreate, h₁⟩ := bind_eq_ok h
  obtain ⟨_, c₂, hinfo, hgive⟩ := bind_eq_ok h₁
  cases hinfo
  cases hgive
  unfold create at hcreate
  cases hex : r.executed with
  | true =>
    simp only [hex] at hcreate
    cases hcreate
  | false =>
    simp only [hex] at hcreate
    obtain ⟨fs, c₃, hvalid, h₂⟩ := bind_eq_ok hcreate
    obtain ⟨_, c₄, hmake, htable⟩ := bind_eq_ok h₂
    cases htable
    simp only [lift_apply, Prod.mk.injEq] at hvalid
    obtain ⟨hvalid, rfl⟩ := hvalid
    obtain ⟨name, fs', hcheck, hhold⟩ := Client.createTable_eq_ok hmake
    obtain ⟨hname, rfl⟩ := checkedTable_names_eq_ok hcheck
    exact ⟨name, fs', rfl, hname, hvalid, by rw [hname]; rfl, rfl, rfl, hhold⟩

/-- What survives the making of the requested table on the store survives the carrying out of the
request. -/
theorem keeps_execute {Q : Store → Prop} {r : TableRequest}
    (hQ : ∀ name fs, r.tableName = some name → Keeps Q (Store.createTable name fs))
    (s : LiveSchema) : Keeps (fun c => Q c.store) (r.execute s) := by
  have hcreate : Keeps (fun c => Q c.store) (r.create s.name) := by
    unfold create
    have hrest : Keeps (fun c : Client => Q c.store) (do
        let families ← Operation.lift r.validFamilies
        Client.createTable r.tableName (.names families.names)
        return r.table s.name (r.tableName.getD "") families) :=
      (Keeps.lift _).bind fun _ => (Client.keeps_createTable hQ _).bind fun _ => .pure _
    exact .ite ((Keeps.fail _).bind fun _ => hrest) hrest
  exact hcreate.bind fun _ => (Client.keeps_note _ _).bind fun _ => .pure _

end TableRequest

end WideColumn
