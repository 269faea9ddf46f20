import WideColumn.CommandLine.Run
import WideColumn.Proofs.Store.Client

/-!
# The ways to make a table

A table is made by the client, by carrying out a request, or by the program.
Each way checks what it is given in its own order and then asks the store once;
what is logged and answered besides does not concern the store. So each way
fails and changes the store exactly as the store itself does when it is asked
after the checks.
-/

namespace WideColumn

open Operation

variable {α β : Type}

/-- A success in two steps has a success in each. -/
theorem exists_of_bind_eq_ok {r : Except Error α} {f : α → Except Error β} {b : β}
    (h : r >>= f = .ok b) : ∃ a, r = .ok a ∧ f a = .ok b := by
  cases r with
  | error e => cases h
  | ok a => exact ⟨a, rfl, h⟩

theorem exists_of_map_eq_ok {r : Except Error α} {f : α → β} {b : β} (h : r.map f = .ok b) :
    ∃ a, r = .ok a ∧ f a = b := by
  cases r with
  | error e => cases h
  | ok a => exact ⟨a, rfl, Except.ok.inj h⟩

namespace Store

/-- Make a table of the families that some checks settled on, unless they found a cause to refuse. -/
def make (table : String) (verdict : Except Error NameSet) : Operation Store Unit :=
  Operation.lift verdict >>= createTable table

@[simp] theorem make_ok (table : String) (fs : NameSet) :
    make table (.ok fs) = createTable table fs := rfl

/-- What comes of making a table does not depend on the calls on record. -/
theorem make_congr {st st' : Store} (h : st.forgetCalls = st'.forgetCalls) (table : String)
    (verdict : Except Error NameSet) :
    (make table verdict st).1 = (make table verdict st').1 ∧
      (make table verdict st).2.forgetCalls = (make table verdict st').2.forgetCalls := by
  cases verdict with
  | error e => exact ⟨rfl, h⟩
  | ok fs =>
    cases st with
    | memory m =>
      cases st' with
      | memory m' =>
        cases h
        exact ⟨rfl, rfl⟩
      | gateway s' => cases h
    | gateway s =>
      cases st' with
      | memory m' => cases h
      | gateway s' =>
        have hcontents : s.forgetCalls = s'.forgetCalls := Store.gateway.inj h
        have hmade := congrArg (fun s : Server =>
          Store.gateway { s with tables := s.tables.insert table ⟨fs.names, ∅⟩ }) hcontents
        exact ⟨rfl, hmade⟩

end Store

namespace Client

/-- The operation fails of the cause of which the one on the store fails, or succeeds with it, and
leaves the store as that one does. -/
def ActsAs (op : Operation Client α) (op' : Operation Store Unit) : Prop :=
  ∀ c, (op c).1.map (fun _ => ()) = (op' c.store).1 ∧ (op c).2.store = (op' c.store).2

/-- The operation succeeds and leaves the store. -/
def Quiet (op : Operation Client α) : Prop :=
  ∀ c, ∃ a c', op c = (.ok a, c') ∧ c'.store = c.store

theorem quiet_pure (a : α) : Quiet (pure a) := fun c => ⟨a, c, rfl, rfl⟩

theorem quiet_note (level : Level) (message : String) : Quiet (note level message) :=
  fun _ => ⟨(), _, rfl, rfl⟩

/-- Quiet operations may follow each other. -/
theorem Quiet.bind {op : Operation Client α} {f : α → Operation Client β} (hop : Quiet op)
    (hf : ∀ a, Quiet (f a)) : Quiet (op >>= f) := by
  intro c
  obtain ⟨a, c₁, hc₁, hstore⟩ := hop c
  obtain ⟨b, c₂, hc₂, hstore'⟩ := hf a c₁
  exact ⟨b, c₂, (bind_of_ok hc₁).trans hc₂, hstore'.trans hstore⟩

section Combine

variable {op : Operation Client α} {f : α → Operation Client β} {op' : Operation Store Unit}

/-- An operation of the client that is one on the store acts as that one. -/
theorem actsAs_onStore (op' : Operation Store Unit) : ActsAs (onStore op') op' := by
  intro c
  rcases hr : op' c.store with ⟨e | ⟨⟩, st⟩ <;> simp only [onStore, within, hr] <;>
    exact ⟨rfl, trivial⟩

/-- What comes quietly before does not matter to the store. -/
theorem Quiet.bind_actsAs (hop : Quiet op) (hf : ∀ a, ActsAs (f a) op') :
    ActsAs (op >>= f) op' := by
  intro c
  obtain ⟨a, c₁, hc₁, hstore⟩ := hop c
  rw [bind_of_ok hc₁, ← hstore]
  exact hf a c₁

/-- Nor does what follows quietly. -/
theorem ActsAs.bind_quiet (hop : ActsAs op op') (hf : ∀ a, Quiet (f a)) :
    ActsAs (op >>= f) op' := by
  intro c
  have h := hop c
  rcases hr : op c with ⟨e | a, c₁⟩ <;> rw [hr] at h
  · rw [bind_of_error hr]
    exact h
  · obtain ⟨b, c₂, hc₂, hstore⟩ := hf a c₁
    rw [bind_of_ok hr, hc₂]
    exact ⟨h.1, hstore.trans h.2⟩

/-- A check that comes before may refuse, and then nothing is made. -/
theorem actsAs_lift_bind {r : Except Error α} {table : String} {verdict : Except Error NameSet}
    (herror : ∀ e, r = .error e → verdict = .error e)
    (hok : ∀ a, r = .ok a → ActsAs (f a) (Store.make table verdict)) :
    ActsAs (lift r >>= f) (Store.make table verdict) := by
  intro c
  cases hr : r with
  | error e =>
    rw [herror e hr]
    exact ⟨rfl, rfl⟩
  | ok a => exact hok a hr c

end Combine

/-- The client makes a table of the families that its check lets through. -/
theorem actsAs_createTable (table : String) (families : FamilyArgument) :
    ActsAs (createTable (some table) families)
      (Store.make table ((checkedTable (some table) families).map Prod.snd)) := by
  refine actsAs_lift_bind (fun e he => by rw [he]; rfl) fun ⟨name, fs⟩ hcheck => ?_
  obtain ⟨l, hname, -⟩ := checkedTable_eq_ok hcheck
  cases hname
  rw [hcheck]
  exact (quiet_note _ _).bind_actsAs fun _ =>
    (actsAs_onStore (Store.createTable table fs)).bind_quiet fun _ => quiet_note _ _

end Client

namespace TableRequest

/-- The families of which carrying out a request makes its table, if its checks let them through. -/
def checkedFamilies (r : TableRequest) : Except Error NameSet :=
  if r.executed then .error (.alreadyExecuted r.tableName)
  else do
    let fs ← r.validFamilies
    (Client.checkedTable r.tableName (.names fs.names)).map Prod.snd

/-- Families that pass all checks are those that were set. -/
theorem checkedFamilies_eq_ok {r : TableRequest} {fs : NameSet} (h : r.checkedFamilies = .ok fs) :
    r.families = some fs := by
  unfold checkedFamilies at h
  split at h
  · cases h
  · obtain ⟨gs, hvalid, hmap⟩ := exists_of_bind_eq_ok h
    obtain ⟨⟨name, fs'⟩, hcheck, rfl⟩ := exists_of_map_eq_ok hmap
    obtain ⟨-, rfl⟩ := checkedTable_names_eq_ok hcheck
    exact (validFamilies_eq_ok hvalid).1

/-- A request makes its table of the families that its checks let through. -/
theorem actsAs_execute {r : TableRequest} {table : String} (hname : r.tableName = some table)
    (s : LiveSchema) :
    Client.ActsAs (r.execute s) (Store.make table r.checkedFamilies) := by
  have hcreate : Client.ActsAs (r.create s.name) (Store.make table r.checkedFamilies) := by
    unfold create checkedFamilies
    split
    · exact fun c => ⟨rfl, rfl⟩
    · refine Client.actsAs_lift_bind (fun e he => by rw [he]; rfl) fun fs hvalid => ?_
      rw [hvalid, hname]
      exact (Client.actsAs_createTable table _).bind_quiet fun _ => Client.quiet_pure _
  exact hcreate.bind_quiet fun _ => (Client.quiet_note _ _).bind fun _ => Client.quiet_pure _

end TableRequest

namespace CommandLine

/-- Declaring columns changes neither the name nor the families of a request. -/
theorem declareAll_eq_ok {r r' : TableRequest} {columns : List String}
    (h : declareAll r columns = .ok r') :
    r'.tableName = r.tableName ∧ r'.families = r.families := by
  induction columns generalizing r with
  | nil =>
    cases h
    exact ⟨rfl, rfl⟩
  | cons name rest ih =>
    unfold declareAll at h
    split at h
    · rename_i r₁ hdeclared
      obtain ⟨c, -, rfl⟩ := exists_of_map_eq_ok hdeclared
      obtain ⟨hname, hfamilies⟩ := ih h
      exact ⟨hname, hfamilies⟩
    · cases h

/-- The families of which the program makes a table, if its checks let them through. -/
def checkedFamilies (table : String) (families columns : List String) : Except Error NameSet := do
  let r ← TableRequest.new (some table) (.names families)
  let r ← declareAll r columns
  r.checkedFamilies

/-- Families that pass all checks are those that were asked for. -/
theorem checkedFamilies_eq_ok {table : String} {families columns : List String} {fs : NameSet}
    (h : checkedFamilies table families columns = .ok fs) : fs = NameSet.ofList families := by
  obtain ⟨r, hnew, hrest⟩ := exists_of_bind_eq_ok h
  cases hnew
  obtain ⟨r', hdeclared, hchecked⟩ := exists_of_bind_eq_ok hrest
  have hset := TableRequest.checkedFamilies_eq_ok hchecked
  exact Option.some.inj (hset.symm.trans (declareAll_eq_ok hdeclared).2)

/-- The program makes a table of the families that its checks let through. -/
theorem actsAs_createTable (schemaName table : String) (families columns : List String) :
    Client.ActsAs (createTable schemaName table families columns)
      (Store.make table (checkedFamilies table families columns)) := by
  refine Client.actsAs_lift_bind (fun e he => by cases he) fun r hnew => ?_
  cases hnew
  refine Client.actsAs_lift_bind (fun e he => ?_) fun r hdeclared => ?_
  · exact congrArg (· >>= TableRequest.checkedFamilies) he
  · have hfamilies : checkedFamilies table families columns = r.checkedFamilies :=
      congrArg (· >>= TableRequest.checkedFamilies) hdeclared
    obtain ⟨hname, -⟩ := declareAll_eq_ok hdeclared
    rw [hfamilies]
    exact (TableRequest.actsAs_execute hname _).bind_quiet fun _ => Client.quiet_pure _

end CommandLine

end WideColumn
