import Mathlib.Data.List.Induction
import WideColumn.Proofs.Session.Handles
import WideColumn.Proofs.Store.Making

/-!
# The history of a request

A request is kept under a name from the command that makes it, and every command
that goes on with it keeps it there again. So what it has come to be can be read
off the commands: it has the families that were set last, the columns that were
declared and not declared again, and it has been carried out if a command to carry
it out has succeeded. Commands that fail, and all commands for other things, do
not matter to it.
-/

namespace WideColumn

open Operation OrderedMap

namespace TableRequest

/-- The columns of which no later one has the name, in their order. -/
def lastDeclared : List Column → List Column
  | [] => []
  | c :: rest =>
    if rest.any fun d => d.name = c.name then lastDeclared rest else c :: lastDeclared rest

/-- One more column comes last, in place of any column of its name. -/
theorem lastDeclared_concat (l : List Column) (c : Column) :
    lastDeclared (l ++ [c]) = (lastDeclared l).filter (fun d => d.name ≠ c.name) ++ [c] := by
  induction l with
  | nil => rfl
  | cons d l ih =>
    simp only [List.cons_append, lastDeclared, List.any_append, List.any_cons, List.any_nil,
      Bool.or_false, ih]
    by_cases hagain : l.any (fun e => e.name = d.name) = true
    · simp only [hagain, Bool.true_or, if_true]
    · by_cases hsame : c.name = d.name
      · simp [hagain, hsame]
      · have hother : d.name ≠ c.name := fun h => hsame h.symm
        simp [hagain, hsame, hother]

theorem mem_of_mem_lastDeclared {l : List Column} {c : Column} (h : c ∈ lastDeclared l) : c ∈ l := by
  induction l with
  | nil => cases h
  | cons d l ih =>
    rw [lastDeclared] at h
    split at h
    · exact List.mem_cons_of_mem d (ih h)
    · rcases List.mem_cons.mp h with rfl | h
      · exact List.mem_cons_self ..
      · exact List.mem_cons_of_mem d (ih h)

/-- No name is left twice. -/
theorem nodup_lastDeclared (l : List Column) : ((lastDeclared l).map Column.name).Nodup := by
  induction l with
  | nil => exact List.nodup_nil
  | cons d l ih =>
    rw [lastDeclared]
    split
    · exact ih
    · rename_i hlast
      rw [List.map_cons, List.nodup_cons]
      refine ⟨fun hmem => hlast ?_, ih⟩
      obtain ⟨e, he, hname⟩ := List.mem_map.mp hmem
      exact List.any_eq_true.mpr ⟨e, mem_of_mem_lastDeclared he, decide_eq_true hname⟩

end TableRequest

namespace Command

/-- The families that the command sets for the request of a name, if they are a collection or
nothing. -/
def staged? (handle : String) : Command → Option (Option NameSet)
  | setFamilies name families =>
    if name = handle then (TableRequest.familySet families).toOption else none
  | _ => none

/-- The column that the command declares for the request of a name, if there is such a column. -/
def declared? (handle : String) : Command → Option Column
  | withColumn name column dataType =>
    if name = handle then (Column.parse column dataType).toOption else none
  | _ => none

/-- The command is to carry out the request of a name. -/
def carriesOut (handle : String) : Command → Bool
  | execute _ name => name = handle
  | _ => false

/-- What a command makes of the request of a name, with what it has answered. -/
def advance (handle : String) (c : Command) (result : Except Error Answer) (r : TableRequest) :
    TableRequest where
  tableName := r.tableName
  families := (c.staged? handle).getD r.families
  columns := (c.declared? handle).elim r.columns fun d => (r.declare d).columns
  executed := r.executed || (c.carriesOut handle && result.toBool)

/-- A command that does not go on with the request of a name says nothing of it. -/
theorem advance_of_requestName_ne {c : Command} {handle : String}
    (h : c.requestName ≠ some handle) (result : Except Error Answer) (r : TableRequest) :
    c.advance handle result r = r := by
  have hsilent : c.staged? handle = none ∧ c.declared? handle = none ∧
      c.carriesOut handle = false := by
    cases c with
    | setFamilies name | withColumn name | execute _ name =>
      have hname : name ≠ handle := fun hname => h (congrArg some hname)
      simp [staged?, declared?, carriesOut, hname]
    | _ => exact ⟨rfl, rfl, rfl⟩
  obtain ⟨hstaged, hdeclared, hcarries⟩ := hsilent
  simp [advance, hstaged, hdeclared, hcarries]

end Command

namespace Session

/-- The commands of a run with what they answered. -/
def transcript : Session → List Command → List (Command × Except Error Answer)
  | _, [] => []
  | s, c :: cs => (c, (perform c s).1.result) :: transcript (perform c s).2 cs

/-- The request of a name as the history tells it that begins with the making of the request for a
table and with given families. -/
def requestOf (handle : String) (table : Option String) (given : Option NameSet) (s : Session)
    (cs : List Command) : TableRequest where
  tableName := table
  families := (cs.reverse.findSome? (Command.staged? handle)).getD given
  columns := TableRequest.lastDeclared (cs.filterMap (Command.declared? handle))
  executed := (transcript s cs).any fun (c, result) => c.carriesOut handle && result.toBool

variable {s : Session} {handle : String} {cs : List Command} {c : Command}

@[simp] theorem after_concat (s : Session) (cs : List Command) (c : Command) :
    s.after (cs ++ [c]) = (perform c (s.after cs)).2 := by
  simp only [after, List.foldl_append, List.foldl_cons, List.foldl_nil]

/-- A further command is written down behind the others, with its result. -/
theorem transcript_concat (s : Session) (cs : List Command) (c : Command) :
    transcript s (cs ++ [c]) = transcript s cs ++ [(c, (perform c (s.after cs)).1.result)] := by
  induction cs generalizing s with
  | nil => rfl
  | cons d cs ih =>
    rw [List.cons_append, transcript, ih]
    rfl

/-- What one more command says comes on top of the history. -/
theorem requestOf_concat (handle : String) (table : Option String) (given : Option NameSet)
    (s : Session) (cs : List Command) (c : Command) :
    requestOf handle table given s (cs ++ [c]) =
      c.advance handle (perform c (s.after cs)).1.result (requestOf handle table given s cs) := by
  simp only [requestOf, Command.advance, TableRequest.declare, List.reverse_append, List.reverse_cons,
    List.reverse_nil, List.nil_append, List.singleton_append, List.findSome?_cons,
    List.filterMap_append, List.filterMap_cons, List.filterMap_nil, transcript_concat,
    List.any_append, List.any_cons, List.any_nil, Bool.or_false, TableRequest.mk.injEq, true_and,
    and_true]
  refine ⟨?_, ?_⟩
  · cases c.staged? handle <;> rfl
  · cases c.declared? handle with
    | none => exact congrArg _ (List.append_nil _)
    | some d => exact TableRequest.lastDeclared_concat _ d

variable {r : TableRequest} {place : Nat} {S : LiveSchema}

/-- A request that is answered with is kept. -/
theorem kept_answerRequest (hS : s.schemas[place]? = some S) (handle : String) (r : TableRequest) :
    (answerRequest (some handle) r place s).2.kept.get? handle = some (.request r place) := by
  have hanswer : answerRequest (some handle) r place s =
      (keep (some handle) (.request r place) >>= fun _ => pure (.request r S.name)) s :=
    bind_of_ok (schemaAt_of_some hS)
  rw [hanswer]
  exact get?_insert_self ..

/-- A request that is found takes the families that are set. -/
theorem kept_setFamilies (hkept : s.kept.get? handle = some (.request r place))
    (hS : s.schemas[place]? = some S) (families : FamilyArgument) :
    (step (.setFamilies handle families) s).2.kept.get? handle =
      some (.request { r with
        families := ((TableRequest.familySet families).toOption).getD r.families } place) := by
  have hstep : step (.setFamilies handle families) s =
      (Operation.lift (r.setFamilies families) >>= fun r =>
        answerRequest (some handle) r place) s := bind_of_ok (findRequest_of_kept hkept)
  rw [hstep]
  cases hset : TableRequest.familySet families with
  | error e =>
    have hrefused : r.setFamilies families = .error e := by rw [TableRequest.setFamilies, hset]; rfl
    rw [hrefused]
    exact hkept
  | ok fs =>
    have hstaged : r.setFamilies families = .ok { r with families := fs } := by
      rw [TableRequest.setFamilies, hset]; rfl
    rw [hstaged]
    exact kept_answerRequest hS handle _

/-- A request that is found declares the column, if its name can be read. -/
theorem kept_withColumn (hkept : s.kept.get? handle = some (.request r place))
    (hS : s.schemas[place]? = some S) (name : String) (dataType : Option DataType) :
    (step (.withColumn handle name dataType) s).2.kept.get? handle =
      some (.request ((Column.parse name dataType).toOption.elim r r.declare) place) := by
  have hstep : step (.withColumn handle name dataType) s =
      (Operation.lift (r.withColumn name dataType) >>= fun r =>
        answerRequest (some handle) r place) s := bind_of_ok (findRequest_of_kept hkept)
  rw [hstep]
  cases hparse : Column.parse name dataType with
  | error e =>
    have hrefused : r.withColumn name dataType = .error e := by
      rw [TableRequest.withColumn, hparse]; rfl
    rw [hrefused]
    exact hkept
  | ok c =>
    have hdeclared : r.withColumn name dataType = .ok (r.declare c) := by
      rw [TableRequest.withColumn, hparse]; rfl
    rw [hdeclared]
    exact kept_answerRequest hS handle _

/-- What carrying out a request does to a session is what it does to the client, and then to the
schema and to what is kept. -/
theorem step_execute (hkept : s.kept.get? handle = some (.request r place))
    (hS : s.schemas[place]? = some S) (keepAs : Option String) :
    step (.execute keepAs handle) s =
      (onClient (r.execute S) >>= fun a => setSchema place a.2.1 >>= fun _ =>
        keep (some handle) (.request a.2.2 place) >>= fun _ =>
          keep keepAs (.table a.1) >>= fun _ => pure (.table (some a.1))) s :=
  (bind_of_ok (findRequest_of_kept hkept)).trans (bind_of_ok (schemaAt_of_some hS))

/-- A request that is carried out answers with its table, puts the schema in its place and is kept
again, unless its table is kept under its name. -/
theorem step_execute_of_ok (hkept : s.kept.get? handle = some (.request r place))
    (hS : s.schemas[place]? = some S) (keepAs : Option String)
    {a : Table × LiveSchema × TableRequest} {c' : Client}
    (h : r.execute S s.client = (.ok a, c')) :
    (step (.execute keepAs handle) s).1 = .ok (.table (some a.1)) ∧
      (step (.execute keepAs handle) s).2.client = c' ∧
      (step (.execute keepAs handle) s).2.schemas = s.schemas.set place a.2.1 ∧
      (keepAs ≠ some handle →
        (step (.execute keepAs handle) s).2.kept.get? handle = some (.request a.2.2 place)) := by
  have hclient : onClient (r.execute S) s = (.ok a, { s with client := c' }) :=
    within_of h
  rw [step_execute hkept hS, bind_of_ok hclient]
  cases keepAs with
  | none => exact ⟨rfl, rfl, rfl, fun _ => get?_insert_self ..⟩
  | some name =>
    refine ⟨rfl, rfl, rfl, fun hkeep => ?_⟩
    have hname : name ≠ handle := fun hname => hkeep (congrArg some hname)
    refine (get?_insert _ name handle _).trans ((if_neg hname).trans ?_)
    exact get?_insert_self ..

/-- A request that cannot be carried out leaves all but the client. -/
theorem step_execute_of_error (hkept : s.kept.get? handle = some (.request r place))
    (hS : s.schemas[place]? = some S) (keepAs : Option String) {e : Error}
    (h : (r.execute S s.client).1 = .error e) :
    step (.execute keepAs handle) s =
      (.error e, { s with client := (r.execute S s.client).2 }) := by
  have hclient : onClient (r.execute S) s =
      (.error e, { s with client := (r.execute S s.client).2 }) :=
    within_of (Prod.ext h rfl)
  rw [step_execute hkept hS, bind_of_error hclient]

/-- A request that is kept is changed by a command as the command says, and by no other. -/
theorem kept_request_perform (hkept : s.kept.get? handle = some (.request r place))
    (hS : s.schemas[place]? = some S) (hkeep : c.keepAs ≠ some handle) :
    (perform c s).2.kept.get? handle =
      some (.request (c.advance handle (perform c s).1.result r) place) := by
  have hquiet : s.quiet.kept.get? handle = some (.request r place) := hkept
  have hplace : s.quiet.schemas[place]? = some S := hS
  by_cases hname : c.requestName = some handle
  · cases c with
    | setFamilies name families =>
      cases hname
      refine (kept_setFamilies hquiet hplace families).trans ?_
      simp [Command.advance, Command.staged?, Command.declared?, Command.carriesOut]
    | withColumn name column dataType =>
      cases hname
      refine (kept_withColumn hquiet hplace column dataType).trans ?_
      simp only [Command.advance, Command.staged?, Command.declared?, Command.carriesOut, if_true]
      cases (Column.parse column dataType).toOption <;> simp [TableRequest.declare]
    | execute keepAs name =>
      cases hname
      change (step (.execute keepAs handle) s.quiet).2.kept.get? handle = _
      simp only [perform]
      rcases hr : r.execute S s.quiet.client with ⟨e | a, c'⟩
      · rw [step_execute_of_error hquiet hplace keepAs (congrArg Prod.fst hr)]
        simpa [Command.advance, Command.staged?, Command.declared?, Command.carriesOut,
          Except.toBool] using hquiet
      · obtain ⟨hok, -, -, hkept'⟩ := step_execute_of_ok hquiet hplace keepAs hr
        obtain ⟨_, _, -, -, -, -, -, hr', -⟩ := TableRequest.execute_eq_ok hr
        rw [hkept' hkeep, hok, hr']
        simp [Command.advance, Command.staged?, Command.declared?, Command.carriesOut,
          Except.toBool]
    | _ => cases hname
  · have hdraft : ∀ d, Entity.request r place ≠ .draft d := by
      rintro d ⟨⟩
    rw [Command.advance_of_requestName_ne hname]
    exact kept_perform hkept hkeep (fun h => absurd h hname) fun _ => hdraft

/-- A request that is kept is at any time what its history tells, and its schema is in its place; by
induction on the commands from the last one. -/
theorem kept_request_after {table : Option String} {given : Option NameSet}
    (hkept : s.kept.get? handle = some (.request ⟨table, given, [], false⟩ place))
    (hS : s.schemas[place]? = some S) (hcs : ∀ c ∈ cs, c.keepAs ≠ some handle) :
    (s.after cs).kept.get? handle = some (.request (requestOf handle table given s cs) place) ∧
      ∃ S, (s.after cs).schemas[place]? = some S := by
  refine ⟨?_, exists_schema_after cs ⟨S, hS⟩⟩
  induction cs using List.reverseRecOn with
  | nil => exact hkept
  | append_singleton cs c ih =>
    have hbefore := ih fun d hd => hcs d (List.mem_append_left _ hd)
    obtain ⟨S', hS'⟩ := exists_schema_after cs ⟨S, hS⟩
    have hlast : c.keepAs ≠ some handle :=
      hcs c (List.mem_append_right _ (List.mem_singleton_self c))
    rw [after_concat, requestOf_concat]
    exact kept_request_perform hbefore hS' hlast

/-- A live schema that is found is kept under the name. -/
theorem kept_of_findLive {schema : String} {refusal : Schema → Error} {p : LiveSchema × Nat}
    (h : findLive schema refusal s = (.ok p, s)) : s.kept.get? schema = some (.live p.2) := by
  obtain ⟨⟨found, at?⟩, s₁, hfind, hgive⟩ := bind_eq_ok h
  obtain ⟨e, s₂, hlook, hentity⟩ := bind_eq_ok hfind
  unfold find at hlook
  split at hlook
  · rename_i hkept
    cases hlook
    cases e with
    | live place =>
      obtain ⟨S, s₃, -, hpair⟩ := bind_eq_ok hentity
      cases hpair
      cases hgive
      exact hkept
    | frozen F =>
      cases hentity
      cases hgive
    | table | request | draft | row => cases hentity
  · cases hlook

/-- A request that is made is kept open and without columns, for the schema of the given name. -/
theorem kept_of_request {schema : String} {table : Option String} {families : FamilyArgument}
    {given : Option NameSet} {answer : Answer}
    (hgiven : TableRequest.familySet families = .ok given)
    (h : (perform (.request (some handle) schema table families) s).1.result = .ok answer) :
    let s' := (perform (.request (some handle) schema table families) s).2
    ∃ place S, s.kept.get? schema = some (.live place) ∧ s'.schemas[place]? = some S ∧
      s'.kept.get? handle = some (.request ⟨table, given, [], false⟩ place) := by
  intro s'
  have hstep : step (.request (some handle) schema table families) s.quiet = (.ok answer, s') :=
    Prod.ext h rfl
  obtain ⟨⟨S, place⟩, s₁, hlive, hmake⟩ := bind_eq_ok hstep
  have hs₁ : s₁ = s.quiet := (congrArg Prod.snd hlive).symm.trans (leaves_findLive schema _ s.quiet)
  subst hs₁
  have hnew : TableRequest.new table families = .ok ⟨table, given, [], false⟩ := by
    rw [TableRequest.new, hgiven]
    rfl
  have hanswer : answerRequest (some handle) ⟨table, given, [], false⟩ place s.quiet =
      (.ok answer, s') := by
    rw [hnew] at hmake
    exact hmake
  have hplace : s.quiet.schemas[place]? = some S := getElem?_of_findLive hlive
  have hkept := kept_answerRequest hplace handle ⟨table, given, [], false⟩
  rw [hanswer] at hkept
  obtain ⟨S', hS'⟩ : ∃ S', s'.schemas[place]? = some S' :=
    exists_schema_after [.request (some handle) schema table families] ⟨S, hplace⟩
  exact ⟨place, S', kept_of_findLive hlive, hS', hkept⟩

end Session

end WideColumn
