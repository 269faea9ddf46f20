import WideColumn.Proofs.Deployment.Attempts
import WideColumn.Proofs.Store.FamilyNames

/-!
# The families of a table that was made

A table is made through the client, by a request or by a run of the program.
Until it is made again or dropped, its families can be read through the client,
and by a run on its server, whatever else is done. They are read as they were
ordered from a store in memory. A store behind a server takes the colons off the
end of their names, which may be the names' own.
-/

namespace WideColumn

open Operation OrderedMap CommandLine

/-- A store as deployments start on it: one in memory, or one behind a server with tables of its
own, which puts nothing or a colon after a family. -/
inductive Store.Started : Store → Prop where
  /-- A store in memory. -/
  | memory : Started (memory .empty)
  /-- A store behind a server. -/
  | gateway {suffix : String} (hsuffix : suffix = "" ∨ suffix = ":") (spelling : NameSpelling)
    (refuses : Bool) (tables : List (String × List String)) :
    Started (gateway (.withTables spelling suffix refuses tables))

/-- A store that was just started can be read. -/
theorem Store.Started.legible {st : Store} (h : st.Started) : st.Legible where
  paired := by
    cases h with
    | memory => exact Memory.paired_empty
    | gateway => trivial
  suffix x hx := by
    cases h with
    | memory => cases hx
    | gateway hsuffix =>
      cases hx
      exact hsuffix

namespace Deployment

variable {d : Deployment} {name : String} {fs : NameSet} {deed : Deed}

/-- Something was done, or nothing yet, since the start. -/
def Reachable (d : Deployment) : Prop :=
  ∃ st tree cache other deeds, st.Started ∧ d = (start st tree cache other).after deeds

/-- Families can be read whatever is done. -/
theorem legible_after (h : d.store.Legible) (deeds : List Deed) :
    (d.after deeds).store.Legible where
  paired := paired_after h.paired deeds
  suffix := by
    rw [setup_after]
    exact h.suffix

/-- The store of a reachable deployment can be read. -/
theorem Reachable.legible (h : d.Reachable) : d.store.Legible := by
  obtain ⟨st, tree, cache, other, deeds, hst, rfl⟩ := h
  exact legible_after (d := start st tree cache other) hst.legible deeds

/-- The deed orders a table of that name with these families, each named at least once. -/
inductive Orders (d : Deployment) (name : String) (fs : NameSet) : Deed → Prop where
  /-- Through the client. -/
  | client {families : List String} (hfs : NameSet.ofList families = fs) :
    Orders d name fs (.command (.client (.createTable (some name) (.names families))))
  /-- By carrying out a request. -/
  | request {keepAs : Option String} {handle : String} {r : TableRequest} {place : Nat}
    (hkept : d.session.kept.get? handle = some (.request r place))
    (hname : r.tableName = some name) (hfs : r.families = some fs) :
    Orders d name fs (.command (.execute keepAs handle))
  /-- By a run on the server behind the store. -/
  | run {argv : List String} {k : Work} {s : Server} {store : String}
    {families columns : List String} (hstore : d.store = .gateway s)
    (hwork : workOf argv d.world = some k)
    (hrequest : k.request = .createTable store name families columns)
    (hfs : NameSet.ofList families = fs) : Orders d name fs (.run argv)

/-- A request is carried out only while its schema is there. -/
theorem schema_of_execute {keepAs : Option String} {handle : String} {r : TableRequest}
    {place : Nat} (hkept : d.session.kept.get? handle = some (.request r place))
    (hdone : (perform (.command (.execute keepAs handle)) d).1 = none) :
    ∃ S, d.session.schemas[place]? = some S := by
  cases hschema : d.session.schemas[place]? with
  | some S => exact ⟨S, rfl⟩
  | none =>
    have hfind : Session.findRequest handle d.session.quiet = (.ok (r, place), d.session.quiet) :=
      Session.findRequest_of_kept hkept
    have hat : Session.schemaAt place d.session.quiet = (.error .missingKey, d.session.quiet) :=
      Session.schemaAt_of_none hschema
    have hstep : Session.step (.execute keepAs handle) d.session.quiet =
        (.error .missingKey, d.session.quiet) := by
      simp only [Session.step]
      rw [bind_of_ok hfind, bind_of_error hat]
    have hrefused : (perform (.command (.execute keepAs handle)) d).1 = some .missingKey :=
      congrArg (fun p : Except Error Answer × Session => failure? p.1) hstep
    cases hrefused.symm.trans hdone

/-- An attempt that is not refused passed the checks. -/
theorem Attempts.verdict_of_done {verdict : Except Error NameSet}
    (h : Attempts d name deed verdict) (hdone : (perform deed d).1 = none) :
    ∃ fs, verdict = .ok fs := by
  have heffect := h.effect.1
  cases verdict with
  | ok fs => exact ⟨fs, rfl⟩
  | error e => cases heffect.symm.trans hdone

/-- An order that is carried out is an attempt on which the checks settled on the families that are
ordered. -/
theorem Orders.attempts (h : Orders d name fs deed) (hdone : (perform deed d).1 = none) :
    Attempts d name deed (.ok fs) := by
  cases h with
  | @client families hfs =>
    have hattempt : Attempts d name _ _ := .client (.names families)
    obtain ⟨gs, hverdict⟩ := hattempt.verdict_of_done hdone
    obtain ⟨⟨table, gs⟩, hcheck, rfl⟩ := exists_of_map_eq_ok hverdict
    obtain ⟨l, -, hl, -, -, -, hgs⟩ := Client.checkedTable_eq_ok hcheck
    cases hl
    have hsame : gs = fs := hgs.trans hfs
    rw [hverdict] at hattempt
    exact hsame ▸ hattempt
  | @request keepAs handle r place hkept hname hfs =>
    obtain ⟨S, hschema⟩ := schema_of_execute hkept hdone
    have hattempt : Attempts d name (.command (.execute keepAs handle)) r.checkedFamilies :=
      .request hkept hschema hname
    obtain ⟨gs, hverdict⟩ := hattempt.verdict_of_done hdone
    have hgs := TableRequest.checkedFamilies_eq_ok hverdict
    rw [hverdict] at hattempt
    exact Option.some.inj (hfs.symm.trans hgs) ▸ hattempt
  | @run argv k s store families columns hstore hwork hrequest hfs =>
    have hattempt : Attempts d name _ _ := .run hstore hwork hrequest
    obtain ⟨gs, hverdict⟩ := hattempt.verdict_of_done hdone
    have hgs : gs = fs := by
      split at hverdict
      · cases hverdict
      · exact (checkedFamilies_eq_ok hverdict).trans hfs
    rw [hverdict] at hattempt
    exact hgs ▸ hattempt

/-- A table that was ordered is held with the families that were ordered. -/
theorem Orders.held (h : Orders d name fs deed) (hdone : (perform deed d).1 = none) :
    (perform deed d).2.store.holdings.get? name = some fs := by
  obtain ⟨hfailure, hcontents⟩ := (h.attempts hdone).effect
  rw [Store.make_ok] at hfailure hcontents
  rcases hr : Store.createTable name fs d.store with ⟨e | ⟨⟩, st⟩
  · rw [hr] at hfailure
    cases hfailure.symm.trans hdone
  · rw [hr] at hcontents
    rw [← Store.holdings_forgetCalls, hcontents, Store.holdings_forgetCalls,
      Store.holdings_createTable hr, get?_insert_self]

/-- A run lists the families that a client would read from the server. -/
theorem run_listFamilies (hd : d.store.Legible) (hheld : d.store.holdings.get? name = some fs)
    {s : Server} (hstore : d.store = .gateway s) (hrefuses : s.refuses = false)
    {argv : List String} {k : Work} {store : String} (hwork : workOf argv d.world = some k)
    (hrequest : k.request = .listFamilies store name) :
    (CommandLine.run argv d.world).1.exitCode = 0 ∧
      (CommandLine.run argv d.world).1.lines = (d.store.givenBack fs).names := by
  have hserver : d.world.server = s := server_of_gateway hstore
  have hw : d.world.server.refuses = false := by rw [hserver, hrefuses]
  obtain ⟨c, log, hc, hout, -⟩ := run_of_connected hwork hw
  have hsame : c.store.forgetCalls = d.store.forgetCalls := by rw [hc, hserver, hstore]
  have hheld' : c.store.holdings.get? name = some fs := by
    rw [← Store.holdings_forgetCalls, hsame, Store.holdings_forgetCalls]
    exact hheld
  have hread := Client.tableFamilies_of_held (hd.of_contents hsame) hheld'
  rw [Store.givenBack_congr hsame] at hread
  have hbody : (k.request.body k.schemaName c).1 = .ok (d.store.givenBack fs).names := by
    rw [hrequest]
    change (listFamilies name c).1 = _
    rcases hr : Client.tableFamilies name c with ⟨r, c'⟩
    rw [hr] at hread
    obtain rfl : r = .ok (d.store.givenBack fs) := hread
    unfold listFamilies
    rw [bind_of_ok hr]
    rfl
  rw [hout, hbody]
  exact ⟨rfl, rfl⟩

/-- The families that are read of a table left alone are those that were ordered: all of them from a
store in memory, and without the colons at their ends from a server. -/
theorem families_of_ordered (hd : d.Reachable) (horders : d.Orders name fs deed)
    (hdone : (perform deed d).1 = none) {later : List Deed}
    (hspares : (perform deed d).2.Spares name later) :
    let d' := (perform deed d).2.after later
    (Client.tableFamilies name d'.session.client).1 = .ok (d'.store.givenBack fs) ∧
      (d'.store.givenBack fs = fs ↔
        d'.store.isMemory = true ∨ ∀ f ∈ fs, ¬ Gateway.EndsInColon f) ∧
      ∀ s argv k store, d'.store = .gateway s → s.refuses = false →
        workOf argv d'.world = some k → k.request = .listFamilies store name →
        (CommandLine.run argv d'.world).1.exitCode = 0 ∧
          (CommandLine.run argv d'.world).1.lines = (d'.store.givenBack fs).names := by
  intro d'
  have hlegible : d'.store.Legible := legible_after hd.legible (deed :: later)
  have hheld : d'.store.holdings.get? name = some fs :=
    families_after hspares (horders.held hdone)
  refine ⟨Client.tableFamilies_of_held hlegible hheld, Store.givenBack_eq_self_iff, ?_⟩
  intro s argv k store hstore hrefuses hwork hrequest
  exact run_listFamilies hlegible hheld hstore hrefuses hwork hrequest

/-- A run makes the table, one family twice, while the session works on the same server, which has
other tables and puts a colon after every family. A row is put, and the other tables go. -/
theorem families_of_ordered_by_run :
    let cells : Cells := OrderedMap.ofList [("a", OrderedMap.ofList [("q", .int 1)])]
    let d := (start (.gateway (.withTables .text ":" false [("u", ["x"])])) (.empty [])
      serverRemembered default).after [.command (.client (.createTable (some "v") (.names ["w"])))]
    let deed := Deed.run ["create-table", "--store", "hbase", "--table", "t", "--family", "b",
      "--family", "a", "--family", "b"]
    let later := [Deed.command (.store (.put "t" "k" cells)), .command (.client (.dropTable "v")),
      .run ["drop-table", "--store", "hbase", "--table", "u"]]
    let d' := (perform deed d).2.after later
    (Client.tableFamilies "t" d'.session.client).1 = .ok (NameSet.ofList ["a", "b"]) ∧
      (CommandLine.run ["families", "--store", "hbase", "--table", "t"] d'.world).1.lines =
        ["a", "b"] := by
  intro cells d deed later d'
  have hd : d.Reachable := ⟨_, _, _, _, _, .gateway (.inr rfl) .text false [("u", ["x"])], rfl⟩
  have horders : d.Orders "t" (NameSet.ofList ["a", "b"]) deed := .run rfl rfl rfl (by decide)
  have hspares : (perform deed d).2.Spares "t" later := by
    refine ⟨?_, ?_, ?_, trivial⟩
    · rintro n ⟨⟩
    · rintro n ⟨⟩
      decide
    · rintro n ⟨⟩
      decide
  obtain ⟨hread, hsame, hlist⟩ := families_of_ordered hd horders rfl hspares
  have hsetup : d.store.setup = some (.text, ":", false) := setup_after _ _
  have hsetup' : d'.store.setup = some (.text, ":", false) :=
    (setup_after later _).trans ((setup_perform deed d).trans hsetup)
  obtain ⟨s, hstore, hs⟩ := Store.exists_gateway_of_setup hsetup'
  have hrefuses : s.refuses = false := congrArg (fun x => x.2.2) hs
  obtain ⟨k, hwork, hrequest⟩ : ∃ k,
      workOf ["families", "--store", "hbase", "--table", "t"] d'.world = some k ∧
        k.request = .listFamilies "hbase" "t" := ⟨_, rfl, rfl⟩
  obtain ⟨-, hlines⟩ := hlist s _ k _ hstore hrefuses hwork hrequest
  have hgiven := hsame.mpr (.inr (by decide))
  rw [hgiven] at hread hlines
  exact ⟨hread, hlines⟩

/-- A colon at the end of a family is lost. From two families of which one is the other with a
colon, only one is read; the family that a run makes a table of is not the one that a run lists. -/
theorem families_lose_colons :
    let d := start (.gateway (.withTables .bytes "" false [])) (.empty []) serverRemembered default
    let deed := Deed.command (.client (.createTable (some "t") (.names ["a", "a:"])))
    let deed' := Deed.run ["create-table", "--store", "hbase", "--table", "t", "--family", "a:"]
    d.Reachable ∧
    (d.Orders "t" (NameSet.ofList ["a", "a:"]) deed ∧ (perform deed d).1 = none ∧
      (Client.tableFamilies "t" (perform deed d).2.session.client).1 =
        .ok (NameSet.ofList ["a"]) ∧ NameSet.ofList ["a"] ≠ NameSet.ofList ["a", "a:"]) ∧
    (d.Orders "t" (NameSet.ofList ["a:"]) deed' ∧ (perform deed' d).1 = none ∧
      (CommandLine.run ["families", "--store", "hbase", "--table", "t"]
        (perform deed' d).2.world).1.lines = ["a"]) := by
  intro d deed deed'
  have hd : d.Reachable := ⟨_, _, _, _, [], .gateway (.inl rfl) .bytes false [], rfl⟩
  have horders : d.Orders "t" (NameSet.ofList ["a", "a:"]) deed := .client rfl
  have horders' : d.Orders "t" (NameSet.ofList ["a:"]) deed' := .run rfl rfl rfl rfl
  obtain ⟨s, hstore, hs⟩ := Store.exists_gateway_of_setup (setup_perform deed' d)
  have hrefuses : s.refuses = false := congrArg (fun x => x.2.2) hs
  obtain ⟨k, hwork, hrequest⟩ : ∃ k, workOf ["families", "--store", "hbase", "--table", "t"]
      (perform deed' d).2.world = some k ∧ k.request = .listFamilies "hbase" "t" := ⟨_, rfl, rfl⟩
  obtain ⟨-, hlines⟩ := run_listFamilies (legible_after hd.legible [deed']) (horders'.held rfl)
    hstore hrefuses hwork hrequest
  exact ⟨hd, ⟨horders, rfl, rfl, by decide⟩, horders', rfl, hlines⟩

end Deployment

end WideColumn
