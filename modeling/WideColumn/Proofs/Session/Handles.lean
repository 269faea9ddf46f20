import WideColumn.Proofs.Session.Runs

/-!
# What stays under a name, and how schemas change

A command keeps what it makes under the name that it is given for it, and goes on
with one request or one row draft at most, which it keeps again. All other names
stay as they are. Of the live schemas it makes one more, or adds a table to one of
them or removes one, so none of them is ever lost.
-/

namespace WideColumn

open Operation OrderedMap

namespace Command

/-- The name under which a command keeps what it makes. -/
def keepAs : Command → Option String
  | makeTable name .. | liveSchema name .. | frozenSchema name .. | freeze name _
  | getTable name .. | request name .. | execute name _ | draft name _ | build name _
  | rowOfCells name .. | rowOfValues name .. => name
  | _ => none

/-- The name of the request that a command goes on with. -/
def requestName : Command → Option String
  | setFamilies name _ | withColumn name .. | execute _ name => some name
  | _ => none

/-- The name of the row draft that a command goes on with. -/
def draftName : Command → Option String
  | stageId name _ | stage name .. => some name
  | _ => none

end Command

namespace Session

variable {α : Type} {c : Command} {s : Session} {handle : String}

/-- Keeping an entity under another name does not touch what a name is kept for. -/
theorem leaves_kept_keep {name : Option String} (h : name ≠ some handle) (e : Entity) :
    Leaves (fun s : Session => s.kept.get? handle) (keep name e) := by
  cases name with
  | none => exact .pure ()
  | some name =>
    intro s
    exact (get?_insert s.kept name handle e).trans (if_neg fun hname => h (congrArg some hname))

theorem leaves_kept_keep_answer {name : Option String} (h : name ≠ some handle) (e : Entity)
    (a : Answer) :
    Leaves (fun s : Session => s.kept.get? handle) (keep name e >>= fun _ => pure a) :=
  (leaves_kept_keep h e).bind fun _ => .pure a

/-- The client does not touch what is kept. -/
theorem leaves_kept_onClient (op : Operation Client α) :
    Leaves (fun s : Session => s.kept.get? handle) (onClient op) := fun _ => rfl

/-- Setting a schema does not touch what is kept. -/
theorem leaves_kept_setSchema (place : Nat) (S : LiveSchema) :
    Leaves (fun s : Session => s.kept.get? handle) (setSchema place S) := fun _ => rfl

theorem leaves_kept_newSchema (S : LiveSchema) :
    Leaves (fun s : Session => s.kept.get? handle) (newSchema S) := fun _ => rfl

/-- A row that is kept under another name does not touch what a name is kept for. -/
theorem leaves_kept_answerRow {name : Option String} (h : name ≠ some handle) (r : Row) :
    Leaves (fun s : Session => s.kept.get? handle) (answerRow name r) :=
  (Leaves.lift _).bind fun _ => leaves_kept_keep_answer h _ _

/-- A request that is kept under another name does not touch what a name is kept for. -/
theorem leaves_kept_answerRequest {name : Option String} (h : name ≠ some handle)
    (r : TableRequest) (place : Nat) :
    Leaves (fun s : Session => s.kept.get? handle) (answerRequest name r place) :=
  (leaves_schemaAt place).every.bind fun _ => leaves_kept_keep_answer h _ _

/-- Commands for the client do not touch what is kept. -/
theorem leaves_kept_clientStep (c : ClientCommand) :
    Leaves (fun s : Session => s.kept.get? handle) (clientStep c) := by
  cases c with
  | abilities => exact .pure _
  | _ => exact (leaves_kept_onClient _).bind fun _ => .pure _

/-- Commands for the store do not touch what is kept. -/
theorem leaves_kept_storeStep (c : StoreCommand) :
    Leaves (fun s : Session => s.kept.get? handle) (storeStep c) := by
  cases c with
  | close =>
    refine (leaves_kept_onClient _).bind fun _ => Leaves.state.bind fun s => ?_
    split <;> exact .pure _
  | inspect => exact leaves_inspectStore.every
  | _ => exact (leaves_kept_onClient _).bind fun _ => .pure _

/-- What is kept under a name stays if a command neither keeps under it what it makes nor goes on
with it. -/
theorem leaves_kept_step (hkeep : c.keepAs ≠ some handle) (hrequest : c.requestName ≠ some handle)
    (hdraft : c.draftName ≠ some handle) :
    Leaves (fun s : Session => s.kept.get? handle) (step c) := by
  cases c with
  | makeTable name schemaName t columns families =>
    exact (Leaves.lift _).bind fun _ => (Leaves.lift _).bind fun _ =>
      leaves_kept_keep_answer hkeep _ _
  | getColumn table name => exact (leaves_findTable table).every.bind fun _ => .pure _
  | hasColumn table column =>
    exact (leaves_findTable table).every.bind fun _ => (Leaves.lift _).bind fun _ => .pure _
  | liveSchema name schemaName tables =>
    exact (leaves_findTables tables).every.bind fun _ => (leaves_kept_newSchema _).bind fun _ =>
      leaves_kept_keep_answer hkeep _ _
  | frozenSchema name schemaName tables =>
    exact (leaves_findTables tables).every.bind fun _ => leaves_kept_keep_answer hkeep _ _
  | freeze name schema =>
    exact (leaves_findSchema schema).every.bind fun _ => leaves_kept_keep_answer hkeep _ _
  | showSchema schema => exact (leaves_findSchema schema).every.bind fun _ => .pure _
  | getTable name schema table =>
    refine (leaves_findSchema schema).every.bind fun _ => ?_
    split
    · exact leaves_kept_keep_answer hkeep _ _
    · exact .pure _
  | addTable schema table =>
    exact (leaves_findLive schema _).every.bind fun _ => (leaves_findTable table).every.bind fun _ =>
      (leaves_kept_setSchema _ _).bind fun _ => .pure _
  | removeTable schema table =>
    exact (leaves_findLive schema _).every.bind fun _ =>
      (leaves_kept_setSchema _ _).bind fun _ => .pure _
  | request name schema table families =>
    exact (leaves_findLive schema _).every.bind fun _ => (Leaves.lift _).bind fun _ =>
      leaves_kept_answerRequest hkeep _ _
  | setFamilies name families =>
    exact (leaves_findRequest name).every.bind fun _ => (Leaves.lift _).bind fun _ =>
      leaves_kept_answerRequest hrequest _ _
  | withColumn name column dataType =>
    exact (leaves_findRequest name).every.bind fun _ => (Leaves.lift _).bind fun _ =>
      leaves_kept_answerRequest hrequest _ _
  | showRequest name =>
    exact (leaves_findRequest name).every.bind fun _ => leaves_kept_answerRequest hkeep _ _
  | execute name request =>
    exact (leaves_findRequest request).every.bind fun _ => (leaves_schemaAt _).every.bind fun _ =>
      (leaves_kept_onClient _).bind fun _ => (leaves_kept_setSchema _ _).bind fun _ =>
        (leaves_kept_keep hrequest _).bind fun _ => leaves_kept_keep_answer hkeep _ _
  | draft name table =>
    exact (leaves_findTable table).every.bind fun _ => leaves_kept_keep_answer hkeep _ _
  | stageId name v =>
    exact (leaves_findDraft name).every.bind fun _ => (Leaves.lift _).bind fun _ =>
      leaves_kept_keep_answer hdraft _ _
  | stage name column v =>
    exact (leaves_findDraft name).every.bind fun _ => (Leaves.lift _).bind fun _ =>
      leaves_kept_keep_answer hdraft _ _
  | build name draft =>
    exact (leaves_findDraft draft).every.bind fun _ => leaves_kept_answerRow hkeep _
  | rowOfCells name table id cells =>
    exact (leaves_findTable table).every.bind fun _ => (Leaves.lift _).bind fun _ =>
      leaves_kept_answerRow hkeep _
  | rowOfValues name table values =>
    exact (leaves_findTable table).every.bind fun _ => (Leaves.lift _).bind fun _ =>
      leaves_kept_answerRow hkeep _
  | rowFamilies row => exact (leaves_findRow row).every.bind fun _ => .pure _
  | insertRow row | putRow row =>
    exact (leaves_findRow row).every.bind fun _ => (leaves_kept_onClient _).bind fun _ => .pure _
  | deleteById table id =>
    exact (leaves_findTable table).every.bind fun _ =>
      (leaves_kept_onClient _).bind fun _ => .pure _
  | dropTable schema table =>
    exact (leaves_findLive schema _).every.bind fun _ => (leaves_kept_onClient _).bind fun _ =>
      (leaves_kept_setSchema _ _).bind fun _ => .pure _
  | client c => exact leaves_kept_clientStep c
  | store c => exact leaves_kept_storeStep c

/-- Where something other than a request is kept, there is no request to go on with. -/
theorem findRequest_of_other {e : Entity} (h : s.kept.get? handle = some e)
    (he : ∀ r place, e ≠ .request r place) : findRequest handle s = (.error .noOperation, s) := by
  refine (bind_of_ok (find_of_kept h)).trans ?_
  cases e with
  | request r place => exact absurd rfl (he r place)
  | table | live | frozen | draft | row => rfl

/-- Where something other than a row draft is kept, there is no draft to go on with. -/
theorem findDraft_of_other {e : Entity} (h : s.kept.get? handle = some e)
    (he : ∀ d, e ≠ .draft d) : findDraft handle s = (.error .noOperation, s) := by
  refine (bind_of_ok (find_of_kept h)).trans ?_
  cases e with
  | draft d => exact absurd rfl (he d)
  | table | live | frozen | request | row => rfl

/-- What is kept under a name stays if a command does not keep under it what it makes, and does not
go on with it as the request or the draft that it is. -/
theorem kept_perform {e : Entity} (h : s.kept.get? handle = some e)
    (hkeep : c.keepAs ≠ some handle)
    (hrequest : c.requestName = some handle → ∀ r place, e ≠ .request r place)
    (hdraft : c.draftName = some handle → ∀ d, e ≠ .draft d) :
    (perform c s).2.kept.get? handle = some e := by
  have hquiet : s.quiet.kept.get? handle = some e := h
  change (step c s.quiet).2.kept.get? handle = some e
  by_cases hr : c.requestName = some handle
  · have hnone := findRequest_of_other hquiet (hrequest hr)
    have hstep : (step c s.quiet).2 = s.quiet := by
      cases c with
      | setFamilies | withColumn | execute =>
        cases hr
        exact congrArg Prod.snd (bind_of_error hnone)
      | _ => cases hr
    rw [hstep, hquiet]
  · by_cases hd : c.draftName = some handle
    · have hnone := findDraft_of_other hquiet (hdraft hd)
      have hstep : (step c s.quiet).2 = s.quiet := by
        cases c with
        | stageId | stage =>
          cases hd
          exact congrArg Prod.snd (bind_of_error hnone)
        | _ => cases hd
      rw [hstep, hquiet]
    · exact (leaves_kept_step hkeep hr hd s.quiet).trans hquiet

/-- A schema stays where it is kept, frozen or live, as long as nothing else is kept there. -/
theorem kept_after_of_schema {e : Entity} (he : (∃ place, e = .live place) ∨ ∃ F, e = .frozen F)
    {cs : List Command} (hcs : ∀ c ∈ cs, c.keepAs ≠ some handle)
    (h : s.kept.get? handle = some e) : (s.after cs).kept.get? handle = some e := by
  have hrequest : ∀ r place, e ≠ .request r place := by
    rintro r place rfl
    obtain ⟨_, h⟩ | ⟨_, h⟩ := he <;> cases h
  have hdraft : ∀ d, e ≠ .draft d := by
    rintro d rfl
    obtain ⟨_, h⟩ | ⟨_, h⟩ := he <;> cases h
  induction cs generalizing s with
  | nil => exact h
  | cons c cs ih =>
    exact ih (fun d hd => hcs d (List.mem_cons_of_mem c hd))
      (kept_perform h (hcs c (List.mem_cons_self ..)) (fun _ => hrequest) fun _ => hdraft)

/-- What a command can do to the live schemas. -/
inductive SchemaChange (Ss : List LiveSchema) : List LiveSchema → Prop where
  /-- They stay as they are. -/
  | none : SchemaChange Ss Ss
  /-- One more is made of tables. -/
  | made (name : String) (tables : List Table) :
    SchemaChange Ss (Ss ++ [LiveSchema.ofTables name tables])
  /-- A table is added to one of them. -/
  | added {place : Nat} {S : LiveSchema} (h : Ss[place]? = some S) (t : Table) :
    SchemaChange Ss (Ss.set place (S.addTable t))
  /-- The table of a name is removed from one of them. -/
  | removed {place : Nat} {S : LiveSchema} (h : Ss[place]? = some S) (name : String) :
    SchemaChange Ss (Ss.set place (S.removeTable name))

namespace SchemaChange

variable {Ss Ss' : List LiveSchema}

/-- What holds of a schema and survives adding and removing a table holds of the schema that is in
its place afterwards. -/
theorem exists_at {P : LiveSchema → Prop} (hadd : ∀ S t, P S → P (S.addTable t))
    (hremove : ∀ S n, P S → P (S.removeTable n)) (h : SchemaChange Ss Ss') {place : Nat}
    (hP : ∃ S, Ss[place]? = some S ∧ P S) : ∃ S, Ss'[place]? = some S ∧ P S := by
  obtain ⟨S, hS, hP⟩ := hP
  -- Only the schema at the place that is set is another one afterwards.
  have hset : ∀ {p S₀ S'}, Ss[p]? = some S₀ → (P S₀ → P S') →
      ∃ S, (Ss.set p S')[place]? = some S ∧ P S := by
    intro p S₀ S' hS₀ hP'
    rw [List.getElem?_set]
    split
    · rename_i hp
      subst hp
      cases hS.symm.trans hS₀
      have hlt := (List.getElem?_eq_some_iff.mp hS).1
      exact ⟨S', by rw [if_pos hlt], hP' hP⟩
    · exact ⟨S, hS, hP⟩
  cases h with
  | none => exact ⟨S, hS, hP⟩
  | made name tables =>
    have hlt := (List.getElem?_eq_some_iff.mp hS).1
    exact ⟨S, (List.getElem?_append_left hlt).trans hS, hP⟩
  | added hat t => exact hset hat (hadd _ t)
  | removed hat n => exact hset hat (hremove _ n)

/-- What leaves the schemas alone is no change of them. -/
theorem of_leaves {op : Operation Session α} (h : Leaves Session.schemas op) (s : Session) :
    SchemaChange s.schemas (op s).2.schemas := by
  rw [h s]
  exact .none

/-- What follows an operation that leaves the whole session may rely on what was found. -/
theorem bind_of_leaves {β : Type} {op : Operation Session α} {f : α → Operation Session β}
    (h : Leaves id op)
    (hf : ∀ a, op s = (.ok a, s) → SchemaChange s.schemas (f a s).2.schemas) :
    SchemaChange s.schemas ((op >>= f) s).2.schemas := by
  have hsame : (op s).2 = s := h s
  rw [bind_apply]
  rcases hr : op s with ⟨_ | a, s'⟩ <;> rw [hr] at hsame <;> subst hsame
  · exact .none
  · exact hf a hr

/-- The schema that the client gives back is put in the place of the one that it was given. -/
theorem onClient_setSchema {β : Type} {op : Operation Client α} {given : α → LiveSchema}
    {rest : α → Operation Session β} {place : Nat}
    (hrest : ∀ a, Leaves Session.schemas (rest a))
    (h : ∀ a c, op s.client = (.ok a, c) →
      SchemaChange s.schemas (s.schemas.set place (given a))) :
    SchemaChange s.schemas
      ((onClient op >>= fun a => setSchema place (given a) >>= fun _ => rest a) s).2.schemas := by
  rcases hr : op s.client with ⟨e | a, c⟩
  · have hclient : onClient op s = (.error e, { s with client := c }) := within_of hr
    rw [bind_of_error hclient]
    exact .none
  · have hclient : onClient op s = (.ok a, { s with client := c }) := within_of hr
    have hset : setSchema place (given a) { s with client := c } =
        (.ok (), { s with client := c, schemas := s.schemas.set place (given a) }) := rfl
    rw [bind_of_ok hclient, bind_of_ok hset, hrest a]
    exact h a c hr

end SchemaChange

theorem leaves_schemas_keep (name : Option String) (e : Entity) :
    Leaves Session.schemas (keep name e) := by
  cases name with
  | none => exact .pure ()
  | some name => exact fun _ => rfl

theorem leaves_schemas_keep_answer (name : Option String) (e : Entity) (a : Answer) :
    Leaves Session.schemas (keep name e >>= fun _ => pure a) :=
  (leaves_schemas_keep name e).bind fun _ => .pure a

/-- A schema that is found at a place is there. -/
theorem getElem?_of_schemaAt {place : Nat} {S : LiveSchema} {s s' : Session}
    (h : schemaAt place s = (.ok S, s')) : s.schemas[place]? = some S := by
  cases hat : s.schemas[place]? with
  | none => cases (schemaAt_of_none hat).symm.trans h
  | some S₀ =>
    cases (schemaAt_of_some hat).symm.trans h
    rfl

/-- A live schema is found at the place that is kept for it. -/
theorem getElem?_of_findLive {schema : String} {refusal : Schema → Error} {p : LiveSchema × Nat}
    (h : findLive schema refusal s = (.ok p, s)) : s.schemas[p.2]? = some p.1 :=
  getElem?_of_schemaAt (schemaAt_of_findLive h)

/-- The client does not touch the schemas. -/
theorem leaves_schemas_onClient (op : Operation Client α) :
    Leaves Session.schemas (onClient op) := fun _ => rfl

theorem leaves_schemas_clientStep (c : ClientCommand) :
    Leaves Session.schemas (clientStep c) := by
  cases c with
  | abilities => exact .pure _
  | _ => exact (leaves_schemas_onClient _).bind fun _ => .pure _

theorem leaves_schemas_storeStep (c : StoreCommand) : Leaves Session.schemas (storeStep c) := by
  cases c with
  | close =>
    refine (leaves_schemas_onClient _).bind fun _ => Leaves.state.bind fun s => ?_
    split <;> exact .pure _
  | inspect => exact leaves_inspectStore.every
  | _ => exact (leaves_schemas_onClient _).bind fun _ => .pure _

/-- All that a command can do to the live schemas. -/
theorem schemaChange_step (c : Command) (s : Session) :
    SchemaChange s.schemas (step c s).2.schemas := by
  cases hspares : c.sparesTables with
  | true =>
    have hkeeps : ∀ Ss, Keeps (fun s => s.schemas = Ss) (step c) := fun Ss =>
      keeps_step_of_sparesTables (P := fun Ss' _ => Ss' = Ss)
        (fun Ss' => Store.rowStable_holdings fun _ => Ss' = Ss) c hspares
    exact .of_leaves (.of_keeps hkeeps) s
  | false =>
    cases c with
    | liveSchema name schemaName tables =>
      refine .bind_of_leaves (leaves_findTables tables) fun ts _ => ?_
      have hnew : newSchema (LiveSchema.ofTables schemaName ts) s =
          (.ok s.schemas.length, { s with schemas := s.schemas ++ [.ofTables schemaName ts] }) := rfl
      have hrest := leaves_schemas_keep_answer name (.live s.schemas.length)
        (.schema (.live (.ofTables schemaName ts)))
      rw [bind_of_ok hnew, hrest]
      exact .made schemaName ts
    | addTable schema table =>
      refine .bind_of_leaves (leaves_findLive schema _) fun p hlive => ?_
      exact .bind_of_leaves (leaves_findTable table) fun t _ =>
        .added (getElem?_of_findLive hlive) t
    | removeTable schema table =>
      exact .bind_of_leaves (leaves_findLive schema _) fun p hlive =>
        .removed (getElem?_of_findLive hlive) table
    | execute name request =>
      refine .bind_of_leaves (leaves_findRequest request) fun p _ => ?_
      refine .bind_of_leaves (leaves_schemaAt p.2) fun S hat => ?_
      refine .onClient_setSchema (fun a => ?_) fun a c hr => ?_
      · exact (leaves_schemas_keep _ _).bind fun _ => leaves_schemas_keep_answer _ _ _
      · obtain ⟨_, _, -, -, -, -, hS, -, -⟩ := TableRequest.execute_eq_ok hr
        rw [hS]
        exact .added (getElem?_of_schemaAt hat) _
    | dropTable schema table =>
      refine .bind_of_leaves (leaves_findLive schema notLive) fun p hlive => ?_
      refine .onClient_setSchema (fun _ => .pure _) fun S c hr => ?_
      rw [(Client.dropFrom_eq_ok hr).1]
      exact .removed (getElem?_of_findLive hlive) table
    | client c => exact .of_leaves (leaves_schemas_clientStep c) s
    | store c => exact .of_leaves (leaves_schemas_storeStep c) s
    | _ => cases hspares

/-- Every command changes the schemas in one of the ways of `SchemaChange`. -/
theorem schemaChange_perform (c : Command) (s : Session) :
    SchemaChange s.schemas (perform c s).2.schemas := schemaChange_step c s.quiet

/-- What holds of a live schema and survives adding and removing a table holds of it after any
commands; by induction on the commands. -/
theorem exists_at_after {P : LiveSchema → Prop} (hadd : ∀ S t, P S → P (S.addTable t))
    (hremove : ∀ S n, P S → P (S.removeTable n)) {place : Nat} (cs : List Command)
    (h : ∃ S, s.schemas[place]? = some S ∧ P S) :
    ∃ S, (s.after cs).schemas[place]? = some S ∧ P S := by
  induction cs generalizing s with
  | nil => exact h
  | cons c cs ih => exact ih ((schemaChange_perform c s).exists_at hadd hremove h)

/-- A live schema is never lost. -/
theorem exists_schema_after {place : Nat} (cs : List Command)
    (h : ∃ S, s.schemas[place]? = some S) : ∃ S, (s.after cs).schemas[place]? = some S := by
  obtain ⟨S, hS⟩ := h
  obtain ⟨S', hS', -⟩ := exists_at_after (P := fun _ => True) (fun _ _ _ => trivial)
    (fun _ _ _ => trivial) cs ⟨S, hS, trivial⟩
  exact ⟨S', hS'⟩

end Session

end WideColumn
