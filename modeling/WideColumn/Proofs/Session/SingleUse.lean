import WideColumn.Proofs.Session.Execution

/-!
# A request is carried out once

Among the commands of a run at most one succeeds in carrying out the request of a
name. From then on the request counts as carried out, and every further command
to carry it out is refused before the client or the store is asked. Its families
and columns are not guarded in this way: commands that set and declare them go on
to change the request as if it were open. It stays the one that its table was
made from as long as no such command succeeds.
-/

namespace WideColumn

open Operation OrderedMap

namespace TableRequest

/-- What is left of a list once columns that are declared again are taken out is left of it again. -/
theorem lastDeclared_lastDeclared (l : List Column) :
    lastDeclared (lastDeclared l) = lastDeclared l := by
  induction l with
  | nil => rfl
  | cons c l ih =>
    rw [lastDeclared]
    split
    · exact ih
    · rename_i hlast
      have hstill : ¬ (lastDeclared l).any (fun d => d.name = c.name) = true := fun hany => by
        obtain ⟨d, hd, hname⟩ := List.any_eq_true.mp hany
        exact hlast (List.any_eq_true.mpr ⟨d, mem_of_mem_lastDeclared hd, hname⟩)
      rw [lastDeclared, if_neg hstill, ih]

/-- Columns that are declared later come on top of what is left of the earlier ones. -/
theorem lastDeclared_append (l m : List Column) :
    lastDeclared (l ++ m) = lastDeclared (lastDeclared l ++ m) := by
  induction m using List.reverseRecOn with
  | nil => rw [List.append_nil, List.append_nil, lastDeclared_lastDeclared]
  | append_singleton m c ih =>
    rw [← List.append_assoc, ← List.append_assoc, lastDeclared_concat, lastDeclared_concat, ih]

/-- The table has the name and the families of the request, and the columns that the request gives
it. -/
structure Makes (r : TableRequest) (t : Table) : Prop where
  /-- The name is the requested one. -/
  name : r.tableName = some t.name
  /-- So are the families. -/
  families : r.families = some t.families
  /-- The columns are the declared ones, completed. -/
  columns : t.columns = finishedColumns r.columns t.families

end TableRequest

namespace Session

variable {s : Session} {handle schema : String} {cs : List Command}
variable {table : Option String} {families : FamilyArgument} {given : Option NameSet}
variable {answer : Answer} {r : TableRequest} {place : Nat} {S : LiveSchema}

/-- A command and what it answered: it was to carry out the request of a name, and it did. -/
def carriedOut (handle : String) (step : Command × Except Error Answer) : Bool :=
  step.1.carriesOut handle && step.2.toBool

/-- A command to carry out a request that has been carried out is refused. It calls nothing, logs
nothing, and leaves the session as it was. -/
theorem perform_execute_of_executed (hkept : s.kept.get? handle = some (.request r place))
    (hS : s.schemas[place]? = some S) (h : r.executed = true) (keepAs : Option String) :
    perform (.execute keepAs handle) s =
      (⟨.error (.alreadyExecuted r.tableName), [], []⟩, s.quiet) := by
  have hexecute := TableRequest.execute_of_executed (c := s.quiet.client) S h
  have hstep : step (.execute keepAs handle) s.quiet =
      (.error (.alreadyExecuted r.tableName), s.quiet) := by
    rw [step_execute_of_error (s := s.quiet) hkept hS keepAs (congrArg Prod.fst hexecute), hexecute]
  have hcalls : s.quiet.client.store.calls = [] := Store.calls_forgetCalls _
  simp only [perform, hstep, hcalls]
  rfl

/-- A command that carries out the request of a name succeeds only if the request is open. -/
theorem executed_eq_false_of_carriedOut (hkept : s.kept.get? handle = some (.request r place))
    (hS : s.schemas[place]? = some S) {c : Command}
    (h : carriedOut handle (c, (perform c s).1.result) = true) : r.executed = false := by
  rw [carriedOut, Bool.and_eq_true] at h
  obtain ⟨hcarries, hok⟩ := h
  cases c with
  | execute keepAs name =>
    cases of_decide_eq_true hcarries
    rw [← Bool.not_eq_true]
    intro hexecuted
    rw [perform_execute_of_executed hkept hS hexecuted] at hok
    cases hok
  | _ => cases hcarries

/-- A request that is carried out with a table as the answer was open and makes this table. -/
theorem makes_of_answer (hkept : s.kept.get? handle = some (.request r place))
    (hS : s.schemas[place]? = some S) {keepAs : Option String} {T : Table}
    (h : (perform (.execute keepAs handle) s).1.result = .ok (.table (some T))) : r.Makes T := by
  have hanswer : (step (.execute keepAs handle) s.quiet).1 = .ok (.table (some T)) := h
  rcases hr : r.execute S s.quiet.client with ⟨e | a, c'⟩
  · rw [step_execute_of_error (s := s.quiet) hkept hS keepAs (congrArg Prod.fst hr)] at hanswer
    cases hanswer
  · obtain ⟨hok, -⟩ := step_execute_of_ok (s := s.quiet) hkept hS keepAs hr
    cases hok.symm.trans hanswer
    obtain ⟨n, fs, -, hname, hvalid, ht, -⟩ := TableRequest.execute_eq_ok hr
    rw [ht]
    exact ⟨hname, (TableRequest.validFamilies_eq_ok hvalid).1, rfl⟩

/-- What is done later is written down behind, from where the earlier commands led. -/
theorem transcript_append (s : Session) (cs later : List Command) :
    transcript s (cs ++ later) = transcript s cs ++ transcript (s.after cs) later := by
  induction cs generalizing s with
  | nil => rfl
  | cons c cs ih => exact congrArg _ (ih _)

/-- What further commands say of a request comes on top of its history. -/
theorem requestOf_append (handle : String) (table : Option String) (given : Option NameSet)
    (s : Session) (cs later : List Command) :
    requestOf handle table given s (cs ++ later) =
      { tableName := table
        families := (later.reverse.findSome? (Command.staged? handle)).getD
          (requestOf handle table given s cs).families
        columns := TableRequest.lastDeclared ((requestOf handle table given s cs).columns ++
          later.filterMap (Command.declared? handle))
        executed := (requestOf handle table given s cs).executed ||
          (transcript (s.after cs) later).any (carriedOut handle) } := by
  simp only [requestOf, TableRequest.mk.injEq, true_and]
  refine ⟨?_, ?_, ?_⟩
  · rw [List.reverse_append, List.findSome?_append]
    cases later.reverse.findSome? (Command.staged? handle) <;> rfl
  · rw [List.filterMap_append, TableRequest.lastDeclared_append]
  · rw [transcript_append, List.any_append]
    rfl

/-- At most one command carries out a request; by induction on the commands from the last one. -/
theorem countP_carriedOut_le_one
    (hkept : s.kept.get? handle = some (.request ⟨table, given, [], false⟩ place))
    (hS : s.schemas[place]? = some S) (hcs : ∀ c ∈ cs, c.keepAs ≠ some handle) :
    (transcript s cs).countP (carriedOut handle) ≤ 1 := by
  induction cs using List.reverseRecOn with
  | nil => exact Nat.zero_le 1
  | append_singleton cs c ih =>
    have hbefore : ∀ c ∈ cs, c.keepAs ≠ some handle := fun d hd =>
      hcs d (List.mem_append_left _ hd)
    rw [transcript_concat, List.countP_append, List.countP_singleton]
    split
    · -- The request is still open, so none of the commands before has carried it out.
      rename_i hlast
      obtain ⟨hnow, S', hS'⟩ := kept_request_after hkept hS hbefore
      have hopen : (transcript s cs).any (carriedOut handle) = false :=
        executed_eq_false_of_carriedOut hnow hS' hlast
      have hnone : (transcript s cs).countP (carriedOut handle) = 0 :=
        List.countP_eq_zero.mpr fun step hstep => List.any_eq_false.mp hopen step hstep
      rw [hnone]
    · exact ih hbefore

/-- At most one command succeeds in carrying out a request; it then stays carried out, and every
further try is refused without a call or any other effect. -/
theorem carried_out_once (hgiven : TableRequest.familySet families = .ok given)
    (hmade : (perform (.request (some handle) schema table families) s).1.result = .ok answer)
    (hcs : ∀ c ∈ cs, c.keepAs ≠ some handle) :
    let start := (perform (.request (some handle) schema table families) s).2
    let now := start.after cs
    (transcript start cs).countP (carriedOut handle) ≤ 1 ∧
      ∀ before keepAs later T, cs = before ++ .execute keepAs handle :: later →
        (perform (.execute keepAs handle) (start.after before)).1.result = .ok (.table (some T)) →
        let r := requestOf handle table given start before
        r.Makes T ∧
          ∃ r' place, now.kept.get? handle = some (.request r' place) ∧ r'.executed = true ∧
            (∀ again, perform (.execute again handle) now =
              (⟨.error (.alreadyExecuted table), [], []⟩, now.quiet)) ∧
            r'.tableName = r.tableName ∧
            r'.families = (later.reverse.findSome? (Command.staged? handle)).getD r.families ∧
            r'.columns = TableRequest.lastDeclared
              (r.columns ++ later.filterMap (Command.declared? handle)) ∧
            ((∀ c ∈ later, c.staged? handle = none ∧ c.declared? handle = none) →
              r' = { r with executed := true }) := by
  intro start now
  obtain ⟨place, S₀, -, hS₀, hstart⟩ := kept_of_request hgiven hmade
  refine ⟨countP_carriedOut_le_one hstart hS₀ hcs, ?_⟩
  rintro before keepAs later T hsplit hT r
  have hbefore : ∀ c ∈ before, c.keepAs ≠ some handle := fun c hc =>
    hcs c (hsplit ▸ List.mem_append_left _ hc)
  obtain ⟨hthen, S, hS⟩ := kept_request_after hstart hS₀ hbefore
  obtain ⟨hnow, S', hS'⟩ := kept_request_after hstart hS₀ hcs
  have hr' : requestOf handle table given start cs =
      { tableName := table
        families := (later.reverse.findSome? (Command.staged? handle)).getD r.families
        columns := TableRequest.lastDeclared
          (r.columns ++ later.filterMap (Command.declared? handle))
        executed := true } := by
    have hdone : carriedOut handle (.execute keepAs handle,
        (perform (.execute keepAs handle) (start.after before)).1.result) = true := by
      rw [carriedOut, hT]
      simp only [Command.carriesOut, Except.toBool, decide_true, Bool.and_self]
    rw [hsplit, requestOf_append]
    simp only [TableRequest.mk.injEq, true_and]
    refine ⟨?_, rfl, ?_⟩
    · rw [List.reverse_cons, List.findSome?_append]
      cases later.reverse.findSome? (Command.staged? handle) <;> rfl
    · rw [transcript, List.any_cons, hdone, Bool.true_or, Bool.or_true]
  have hexecuted : (requestOf handle table given start cs).executed = true := by rw [hr']
  refine ⟨makes_of_answer hthen hS hT, _, place, hnow, hexecuted,
    perform_execute_of_executed hnow hS' hexecuted, rfl, by rw [hr'], by rw [hr'], fun hlater => ?_⟩
  have hstaged : later.reverse.findSome? (Command.staged? handle) = none :=
    List.findSome?_eq_none_iff.mpr fun c hc => (hlater c (List.mem_reverse.mp hc)).1
  have hdeclared : later.filterMap (Command.declared? handle) = [] :=
    List.filterMap_eq_nil_iff.mpr fun c hc => (hlater c hc).2
  rw [hr', hstaged, hdeclared, List.append_nil, Option.getD_none]
  exact congrArg (fun columns => TableRequest.mk table r.families columns true)
    (TableRequest.lastDeclared_lastDeclared _)

/-- On a server, a request that is refused, corrected, carried out and tried again after its table
was dropped, and calls on it that are refused, as what they give will not do. -/
theorem carried_out_once_despite_drop :
    let before : List Command :=
      [.execute none "b", .setFamilies "b" (.names ["g", "f"]), .withColumn "b" "f:q" none]
    let later : List Command :=
      [.execute (some "U") "b", .dropTable "S" "t", .execute none "b",
        .setFamilies "b" (.single (.text "f")), .withColumn "b" "f:" none]
    let s := withSchema (.gateway (.withTables .text ":" false [])) "S" "s"
    let start := (perform (.request (some "b") "S" (some "t") .missing) s).2
    let now := start.after (before ++ .execute (some "T") "b" :: later)
    let r : TableRequest :=
      ⟨some "t", some (NameSet.ofList ["f", "g"]), [.cell "f" "q" .binary], false⟩
    (transcript start (before ++ .execute (some "T") "b" :: later)).countP (carriedOut "b") ≤ 1 ∧
      (∃ T, (perform (.execute (some "T") "b") (start.after before)).1.result =
        .ok (.table (some T)) ∧ r.Makes T) ∧
      (∃ place, now.kept.get? "b" = some (.request { r with executed := true } place)) ∧
      ∀ again, perform (.execute again "b") now =
        (⟨.error (.alreadyExecuted (some "t")), [], []⟩, now.quiet) := by
  have hmade : (perform (.request (some "b") "S" (some "t") .missing)
      (withSchema (.gateway (.withTables .text ":" false [])) "S" "s")).1.result =
        .ok (.request ⟨some "t", none, [], false⟩ "s") := rfl
  have hcs : ∀ c ∈ ([.execute none "b", .setFamilies "b" (.names ["g", "f"]),
      .withColumn "b" "f:q" none] ++ .execute (some "T") "b" ::
      [.execute (some "U") "b", .dropTable "S" "t", .execute none "b",
        .setFamilies "b" (.single (.text "f")), .withColumn "b" "f:" none] : List Command),
      c.keepAs ≠ some "b" := by decide
  obtain ⟨hcount, hdone⟩ := carried_out_once rfl hmade hcs
  obtain ⟨hmakes, r', place, hkept, -, hrefused, -, -, -, hsame⟩ := hdone _ _ _ _ rfl rfl
  rw [hsame (by decide)] at hkept
  exact ⟨hcount, ⟨_, rfl, hmakes⟩, ⟨place, hkept⟩, hrefused⟩

/-- A request that has made its table takes other families and a further column, and is not the one
that its table was made from any more. -/
theorem changed_after_carried_out :
    let s := withSchema (.memory .empty) "S" "s"
    let start := (perform (.request (some "b") "S" (some "t") (.names ["f"])) s).2
    let done := perform (.execute (some "T") "b") start
    let now := done.2.after [.setFamilies "b" (.names ["g"]), .withColumn "b" "h:q" none]
    let T : Table := ⟨"s", "t", [.identifier .binary, .wholeFamily "f" .map], NameSet.ofList ["f"]⟩
    let r : TableRequest :=
      ⟨some "t", some (NameSet.ofList ["g"]), [.cell "h" "q" .binary], true⟩
    done.1.result = .ok (.table (some T)) ∧ now.kept.get? "b" = some (.request r 0) ∧
      ¬ r.Makes T :=
  ⟨rfl, rfl, fun h => absurd h.families (by decide)⟩

end Session

end WideColumn
