import WideColumn.Proofs.Session.ClientWork
import WideColumn.Proofs.Session.Requests
import WideColumn.Proofs.Store.Refusals

/-!
# Carrying out a request

Whether a request can be carried out, and for what cause it cannot, is decided by
its history and by the names in the store. A failure leaves nothing behind, so a
request can be corrected and tried again as if it had not been tried. Where a
request is carried out, its table has the shape that the history gives it.
-/

namespace WideColumn

open Operation OrderedMap

/-- Carrying out a request hands out no key. -/
theorem TableRequest.leaves_keysUsed_execute (r : TableRequest) (S : LiveSchema) :
    Leaves Client.keysUsed (r.execute S) := by
  have hnote : ∀ level message, Leaves Client.keysUsed (Client.note level message) :=
    fun _ _ _ => rfl
  have hstore : ∀ op : Operation Store Unit, Leaves Client.keysUsed (Client.onStore op) :=
    fun _ _ => rfl
  have hmake : ∀ table families, Leaves Client.keysUsed (Client.createTable table families) :=
    fun _ _ => (Leaves.lift _).bind fun _ => (hnote _ _).bind fun _ =>
      (hstore _).bind fun _ => hnote _ _
  have hcreate : Leaves Client.keysUsed (r.create S.name) := by
    cases hopen : r.executed with
    | true =>
      unfold create
      simp only [hopen]
      exact .fail _
    | false =>
      rw [create_of_open hopen]
      exact (Leaves.lift _).bind fun _ => (hmake _ _).bind fun _ => .pure _
  exact hcreate.bind fun _ => (hnote _ _).bind fun _ => .pure _

namespace Session

variable {s s' : Session} {handle schema : String} {c : Command} {cs : List Command}
variable {table : Option String} {families : FamilyArgument} {given : Option NameSet}
variable {answer : Answer}

/-- A command has its own log and its own record of calls, and does not see what was on record. -/
theorem perform_congr (h : s.quiet = s'.quiet) (c : Command) : perform c s = perform c s' := by
  simp only [perform, h]

/-- So it is with a command after any others. -/
theorem perform_after_congr (h : s.quiet = s'.quiet) (later : List Command) (c : Command) :
    perform c (s.after later) = perform c (s'.after later) := by
  cases later with
  | nil => exact perform_congr h c
  | cons d later =>
    have hfirst : (perform d s).2 = (perform d s').2 := congrArg Prod.snd (perform_congr h d)
    change perform c ((perform d s).2.after later) = perform c ((perform d s').2.after later)
    rw [hfirst]

/-- A request that cannot be carried out leaves everything but what is on record. -/
theorem quiet_execute_of_error {keepAs : Option String} {e : Error}
    (h : (perform (.execute keepAs handle) s).1.result = .error e) :
    (perform (.execute keepAs handle) s).2.quiet = s.quiet := by
  have hlasting := lasting_perform_of_error (c := .execute keepAs handle) rfl h
  simp only [lasting, Prod.mk.injEq] at hlasting
  obtain ⟨hschemas, hkept, hstore⟩ := hlasting
  have hkeep : ∀ name e, Leaves (fun s : Session => s.client.keysUsed) (keep name e) :=
    fun name e => (leaves_client_keep name e).through Client.keysUsed
  have hclient : ∀ (r : TableRequest) S,
      Leaves (fun s : Session => s.client.keysUsed) (onClient (r.execute S)) :=
    fun r S => (r.leaves_keysUsed_execute S).within fun _ _ h => h
  have hkeys : (perform (.execute keepAs handle) s).2.client.keysUsed = s.client.keysUsed :=
    ((leaves_findRequest handle).every.bind fun _ => (leaves_schemaAt _).every.bind fun _ =>
      (hclient _ _).bind fun _ => Leaves.bind (fun _ => rfl) fun _ =>
        (hkeep _ _).bind fun _ => (hkeep _ _).bind fun _ => .pure _) s.quiet
  have hforget : (perform (.execute keepAs handle) s).2.client.store.forgetCalls =
      s.client.store.forgetCalls := hstore
  simp only [quiet, hschemas, hkept, hforget, hkeys]

/-- From one session to the other the request was accepted by a memory store, which has made the
table with the families of the request, and the table was added to the schema at the place. -/
structure Fulfils (r : TableRequest) (m : Memory) (place : Nat) (T : Table) (s s' : Session) :
    Prop where
  /-- There was nothing against the request. -/
  accepted : r.Accepted m T.name T.families
  /-- The store has the table, without rows, besides what it had. -/
  store : s'.client.store = .memory { m with
    families := m.families.insert T.name T.families, rows := m.rows.insert T.name ∅ }
  /-- The schema finds the table under its name, and all other schemas are as they were. -/
  schemas : ∃ S, s.schemas[place]? = some S ∧ s'.schemas = s.schemas.set place (S.addTable T) ∧
    (S.addTable T).getTable T.name = some T

/-- A request that is accepted is carried out. -/
theorem execute_of_accepted {r : TableRequest} {m : Memory} {place : Nat} {S : LiveSchema}
    {n : String} {fs : NameSet} (hkept : s.kept.get? handle = some (.request r place))
    (hS : s.schemas[place]? = some S) (hm : s.client.store = .memory m) (h : r.Accepted m n fs)
    (keepAs : Option String) :
    let done := perform (.execute keepAs handle) s
    ∃ T, done.1.result = .ok (.table (some T)) ∧ Fulfils r m place T s done.2 ∧
      (keepAs ≠ some handle →
        done.2.kept.get? handle = some (.request { r with executed := true } place)) := by
  intro done
  have hmemory : s.quiet.client.store = .memory m := congrArg Store.forgetCalls hm
  obtain ⟨c', hexecute, hstore⟩ := TableRequest.execute_of_accepted S hmemory h
  obtain ⟨hok, hclient, hschemas, hkept'⟩ :=
    step_execute_of_ok (s := s.quiet) hkept hS keepAs hexecute
  have hadded : (S.addTable (r.table S.name n fs)).getTable n = some (r.table S.name n fs) :=
    (LiveSchema.getTable_addTable ..).trans (if_pos rfl)
  exact ⟨r.table S.name n fs, hok,
    ⟨h, (congrArg Client.store hclient).trans hstore, S, hS, hschemas, hadded⟩, hkept'⟩

/-- A request that is tried on a memory store is refused for the first cause that its history and
the store give, which changes nothing; without a cause its table is made. -/
theorem execute_of_history (hgiven : TableRequest.familySet families = .ok given)
    (hmade : (perform (.request (some handle) schema table families) s).1.result = .ok answer)
    (hcs : ∀ c ∈ cs, c.keepAs ≠ some handle) {m : Memory}
    (hm : ((perform (.request (some handle) schema table families) s).2.after cs).client.store =
      .memory m)
    (keepAs : Option String) :
    let start := (perform (.request (some handle) schema table families) s).2
    let now := start.after cs
    let r := requestOf handle table given start cs
    let done := perform (.execute keepAs handle) now
    (∀ e, done.1.result = .error e ↔ r.Refused m e) ∧
      (∀ e, done.1.result = .error e → done.2.kept = now.kept ∧
        ∀ later c, perform c (done.2.after later) = perform c (now.after later)) ∧
      ((∀ e, ¬ r.Refused m e) → ∃ place T, s.kept.get? schema = some (.live place) ∧
        done.1.result = .ok (.table (some T)) ∧ Fulfils r m place T now done.2 ∧
        (keepAs ≠ some handle →
          done.2.kept.get? handle = some (.request { r with executed := true } place))) := by
  intro start now r done
  obtain ⟨place, S₀, hschema, hS₀, hstart⟩ := kept_of_request hgiven hmade
  obtain ⟨hkept, S, hS⟩ := kept_request_after hstart hS₀ hcs
  have hmemory : now.quiet.client.store = .memory m := congrArg Store.forgetCalls hm
  have hrefused : ∀ e, r.Refused m e → done.1.result = .error e := fun e he =>
    congrArg Prod.fst (step_execute_of_error (s := now.quiet) hkept hS keepAs
      (TableRequest.execute_of_refused S hmemory he))
  refine ⟨fun e => ⟨fun he => ?_, hrefused e⟩, fun e he => ?_, fun hnone => ?_⟩
  · obtain ⟨e', he'⟩ | ⟨n, fs, h⟩ := r.refused_or_accepted m
    · cases (hrefused e' he').symm.trans he
      exact he'
    · obtain ⟨T, hok, -⟩ := execute_of_accepted hkept hS hm h keepAs
      cases hok.symm.trans he
  · exact ⟨congrArg (fun l => l.2.1) (lasting_perform_of_error rfl he),
      perform_after_congr (quiet_execute_of_error he)⟩
  · obtain ⟨e, he⟩ | ⟨n, fs, h⟩ := r.refused_or_accepted m
    · exact absurd he (hnone e)
    · obtain ⟨T, hdone⟩ := execute_of_accepted hkept hS hm h keepAs
      exact ⟨place, T, hschema, hdone⟩

/-- A request that is tried without families, and again when a column lies outside of those that it
has been given, is refused for this column, and is carried out once this is corrected. -/
theorem execute_of_history_stray :
    let tried : List Command :=
      [.execute none "b", .withColumn "b" "g:q" none, .withColumn "b" "f:q" none,
        .withColumn "b" "h" none, .withColumn "b" "g:q" (some .int),
        .setFamilies "b" (.names ["f", "k"])]
    let corrected := tried ++ [.execute none "b", .setFamilies "b" (.names ["h", "g", "f"])]
    let s := withSchema (.memory .empty) "S" "s"
    let start := (perform (.request (some "b") "S" (some "t") .missing) s).2
    let refused := perform (.execute none "b") (start.after tried)
    let done := perform (.execute none "b") (start.after corrected)
    (requestOf "b" (some "t") none start tried).Refused .empty (.unknownFamily "h" (some "t")) ∧
      (∀ later c, perform c (refused.2.after later) =
        perform c ((start.after tried).after later)) ∧
      ∃ place T, s.kept.get? "S" = some (.live place) ∧ done.1.result = .ok (.table (some T)) ∧
        Fulfils (requestOf "b" (some "t") none start corrected) .empty place T
          (start.after corrected) done.2 := by
  have hmade : (perform (.request (some "b") "S" (some "t") .missing)
      (withSchema (.memory .empty) "S" "s")).1.result =
        .ok (.request ⟨some "t", none, [], false⟩ "s") := rfl
  have htried : ∀ c ∈ ([.execute none "b", .withColumn "b" "g:q" none,
      .withColumn "b" "f:q" none, .withColumn "b" "h" none, .withColumn "b" "g:q" (some .int),
      .setFamilies "b" (.names ["f", "k"])] : List Command), c.keepAs ≠ some "b" := by decide
  have hcorrected : ∀ c ∈ ([.execute none "b", .withColumn "b" "g:q" none,
      .withColumn "b" "f:q" none, .withColumn "b" "h" none, .withColumn "b" "g:q" (some .int),
      .setFamilies "b" (.names ["f", "k"])] : List Command) ++
      [.execute none "b", .setFamilies "b" (.names ["h", "g", "f"])], c.keepAs ≠ some "b" := by
    decide
  obtain ⟨hrefused, hunchanged, -⟩ := execute_of_history rfl hmade htried rfl none
  obtain ⟨hrefused', -, haccepted⟩ := execute_of_history rfl hmade hcorrected rfl none
  obtain ⟨place, T, hschema, hok, hfulfils, -⟩ := haccepted fun e he => by
    cases (hrefused' e).mpr he
  exact ⟨(hrefused _).mp rfl, (hunchanged _ rfl).2, place, T, hschema, hok, hfulfils⟩

/-- On any store, the table that a request makes has the families that were set last and the shape
that these and the declared columns give it. -/
theorem shape_of_executed (hgiven : TableRequest.familySet families = .ok given)
    (hmade : (perform (.request (some handle) schema table families) s).1.result = .ok answer)
    (hcs : ∀ c ∈ cs, c.keepAs ≠ some handle) (keepAs : Option String) {T : Table}
    (hT : (perform (.execute keepAs handle)
      ((perform (.request (some handle) schema table families) s).2.after cs)).1.result =
        .ok (.table (some T))) :
    let r := requestOf handle table given
      (perform (.request (some handle) schema table families) s).2 cs
    r.families = some T.families ∧ T.ShapedBy r.columns := by
  intro r
  obtain ⟨place, S₀, -, hS₀, hstart⟩ := kept_of_request hgiven hmade
  obtain ⟨hkept, S, hS⟩ := kept_request_after hstart hS₀ hcs
  let now := ((perform (.request (some handle) schema table families) s).2.after cs).quiet
  have hnow : now.kept.get? handle = some (.request r place) := hkept
  have hplace : now.schemas[place]? = some S := hS
  have hstep : (step (.execute keepAs handle) now).1 = .ok (.table (some T)) := hT
  rcases hr : r.execute S now.client with ⟨e | ⟨t, S', r'⟩, c'⟩
  · rw [step_execute_of_error hnow hplace keepAs (congrArg Prod.fst hr)] at hstep
    cases hstep
  · obtain ⟨hok, -⟩ := step_execute_of_ok hnow hplace keepAs hr
    cases hok.symm.trans hstep
    obtain ⟨n, fs, -, -, hvalid, rfl, -⟩ := TableRequest.execute_eq_ok hr
    exact ⟨(TableRequest.validFamilies_eq_ok hvalid).1,
      TableRequest.shapedBy_table hvalid (TableRequest.nodup_lastDeclared _) S.name n⟩

/-- A request whose identifier and one of whose cells are declared twice, on a server. -/
theorem shape_of_executed_redeclared :
    let cs : List Command :=
      [.withColumn "b" "_id" none, .withColumn "b" "f:q" none, .withColumn "b" "_id" (some .int),
        .execute none "b", .setFamilies "b" (.names ["k", "g", "f"]), .withColumn "b" "g" none,
        .withColumn "b" "f:q" (some .text)]
    let s := withSchema (.gateway (.withTables .text ":" false [])) "S" "s"
    let start := (perform (.request (some "b") "S" (some "t") .missing) s).2
    let declared : List Column := [.identifier .int, .wholeFamily "g" .map, .cell "f" "q" .text]
    let T : Table :=
      ⟨"s", "t", declared ++ [.wholeFamily "k" .map], NameSet.ofList ["f", "g", "k"]⟩
    (perform (.execute none "b") (start.after cs)).1.result = .ok (.table (some T)) ∧
      T.ShapedBy declared := by
  have hmade : (perform (.request (some "b") "S" (some "t") .missing)
      (withSchema (.gateway (.withTables .text ":" false [])) "S" "s")).1.result =
        .ok (.request ⟨some "t", none, [], false⟩ "s") := rfl
  have hcs : ∀ c ∈ ([.withColumn "b" "_id" none, .withColumn "b" "f:q" none,
      .withColumn "b" "_id" (some .int), .execute none "b",
      .setFamilies "b" (.names ["k", "g", "f"]), .withColumn "b" "g" none,
      .withColumn "b" "f:q" (some .text)] : List Command), c.keepAs ≠ some "b" := by decide
  exact ⟨rfl, (shape_of_executed rfl hmade hcs none rfl).2⟩

end Session

end WideColumn
