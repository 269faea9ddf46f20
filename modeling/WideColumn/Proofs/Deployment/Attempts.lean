import WideColumn.Proofs.CommandLine.Connections
import WideColumn.Proofs.Deployment.Basic
import WideColumn.Proofs.Session.ClientWork

/-!
# Attempts to make a table

A table may be made through the client, by carrying out a request for it, or by
a run of the program. Whichever way it is tried, the checks of that way come to a
verdict on the families first, and then the attempt fails and changes the store
as the store itself does when it is asked for the table.
-/

namespace WideColumn

open Operation OrderedMap CommandLine

variable {α β : Type}

@[simp] theorem failure?_map (r : Except Error α) (f : α → β) :
    failure? (r.map f) = failure? r := by
  cases r <;> rfl

@[simp] theorem cause_ofResult (log : List LogRecord) (r : Except Error (List String)) :
    (Outcome.ofResult log r).cause = failure? r := by
  cases r <;> rfl

/-- A request is refused for causes of the library's own only. -/
theorem TableRequest.ownFailures_checkedFamilies (r : TableRequest) :
    OwnFailures r.checkedFamilies := by
  unfold checkedFamilies
  split
  · exact .error rfl
  · exact r.ownFailures_validFamilies.bind fun _ => (Client.ownFailures_checkedTable _ _).map _

/-- So is what the command line asks for. -/
theorem CommandLine.ownFailures_checkedFamilies (table : String) (families columns : List String) :
    OwnFailures (checkedFamilies table families columns) := by
  have hnew : OwnFailures (TableRequest.new (some table) (.names families)) := .ok _
  exact hnew.bind fun r => (ownFailures_declareAll r columns).bind fun r =>
    r.ownFailures_checkedFamilies

namespace Deployment

/-- The deed is an attempt to make a table of that name, on which the checks come to a verdict: the
families of which the table is to be made, or the cause for which they refuse. -/
inductive Attempts (d : Deployment) (name : String) : Deed → Except Error NameSet → Prop where
  /-- Through the client. -/
  | client (families : FamilyArgument) :
    Attempts d name (.command (.client (.createTable (some name) families)))
      ((Client.checkedTable (some name) families).map Prod.snd)
  /-- By carrying out a request, whichever schema it is for. -/
  | request {keepAs : Option String} {handle : String} {r : TableRequest} {place : Nat}
    {S : LiveSchema} (hkept : d.session.kept.get? handle = some (.request r place))
    (hschema : d.session.schemas[place]? = some S) (hname : r.tableName = some name) :
    Attempts d name (.command (.execute keepAs handle)) r.checkedFamilies
  /-- By a run on the server behind the store, which may refuse the connection. -/
  | run {argv : List String} {k : Work} {s : Server} {store : String}
    {families columns : List String} (hstore : d.store = .gateway s)
    (hwork : workOf argv d.world = some k)
    (hrequest : k.request = .createTable store name families columns) :
    Attempts d name (.run argv)
      (if s.refuses then .error .systemRefused else checkedFamilies name families columns)

variable {d : Deployment} {name : String} {deed : Deed} {verdict : Except Error NameSet}

/-- The checks refuse for causes of the library's own, and else it is the server that refuses. -/
theorem Attempts.category (h : Attempts d name deed verdict) {e : Error}
    (he : verdict = .error e) : e.category.isSome = true ∨ e = .systemRefused := by
  cases h with
  | client families =>
    exact .inl ((Client.ownFailures_checkedTable (some name) families).map Prod.snd e he)
  | request => exact .inl (TableRequest.ownFailures_checkedFamilies _ e he)
  | @run argv k s store families columns =>
    cases hrefuses : s.refuses with
    | true =>
      simp only [hrefuses, if_true] at he
      cases he
      exact .inr rfl
    | false =>
      simp only [hrefuses, Bool.false_eq_true, if_false] at he
      exact .inl (ownFailures_checkedFamilies name families columns e he)

/-- An operation of the client that acts as one on the store decides a command that only keeps and
answers something after it. -/
theorem failure_onClient_bind {op : Operation Client α} {op' : Operation Store Unit}
    (hop : Client.ActsAs op op') {f : α → Operation Session Answer} (htotal : ∀ a, Total (f a))
    (hleaves : ∀ a, Leaves (fun s : Session => s.client.store) (f a)) (s : Session) :
    failure? ((Session.onClient op >>= f) s).1 = failure? (op' s.client.store).1 ∧
      ((Session.onClient op >>= f) s).2.client.store = (op' s.client.store).2 := by
  obtain ⟨hresult, hstore⟩ := hop s.client
  rcases hr : op s.client with ⟨e | a, c⟩ <;> rw [hr] at hresult hstore
  · have hclient : Session.onClient op s = (.error e, { s with client := c }) := within_of hr
    rw [bind_of_error hclient, ← hresult]
    exact ⟨rfl, hstore⟩
  · have hclient : Session.onClient op s = (.ok a, { s with client := c }) := within_of hr
    obtain ⟨answer, s', hs'⟩ := htotal a { s with client := c }
    have hleft := hleaves a { s with client := c }
    rw [bind_of_ok hclient, hs', ← hresult]
    rw [hs'] at hleft
    exact ⟨rfl, hleft.trans hstore⟩

/-- What comes of a command that decides as the making of a table on the store. -/
theorem perform_command {c : Command} {verdict : Except Error NameSet}
    (h : failure? (Session.step c d.session.quiet).1 =
        failure? (Store.make name verdict d.session.quiet.client.store).1 ∧
      (Session.step c d.session.quiet).2.client.store =
        (Store.make name verdict d.session.quiet.client.store).2) :
    (perform (.command c) d).1 = failure? (Store.make name verdict d.store).1 ∧
      (perform (.command c) d).2.store.forgetCalls =
        (Store.make name verdict d.store).2.forgetCalls := by
  have hquiet : d.session.quiet.client.store.forgetCalls = d.store.forgetCalls := by
    change d.store.forgetCalls.forgetCalls = _
    cases d.store <;> rfl
  obtain ⟨hresult, hstore⟩ := Store.make_congr hquiet name verdict
  obtain ⟨hfailure, hafter⟩ := h
  constructor
  · exact hfailure.trans (congrArg failure? hresult)
  · exact (congrArg Store.forgetCalls hafter).trans hstore

/-- Whichever way it is tried: an attempt fails for the cause of which the store fails when it is
asked after the checks, and leaves what the store then holds. -/
theorem Attempts.effect (h : Attempts d name deed verdict) :
    (perform deed d).1 = failure? (Store.make name verdict d.store).1 ∧
      (perform deed d).2.store.forgetCalls = (Store.make name verdict d.store).2.forgetCalls := by
  cases h with
  | client families =>
    exact perform_command (failure_onClient_bind (Client.actsAs_createTable name families)
      (fun _ => .pure _) (fun _ => .pure _) d.session.quiet)
  | @request keepAs handle r place S hkept hschema hname =>
    have hfind : Session.findRequest handle d.session.quiet = (.ok (r, place), d.session.quiet) :=
      Session.findRequest_of_kept hkept
    have hat : Session.schemaAt place d.session.quiet = (.ok S, d.session.quiet) :=
      Session.schemaAt_of_some hschema
    apply perform_command
    simp only [Session.step]
    rw [bind_of_ok hfind, bind_of_ok hat]
    exact failure_onClient_bind (TableRequest.actsAs_execute hname S)
      (fun a => (Session.total_setSchema _ _).bind fun _ => (Session.total_keep _ _).bind fun _ =>
        Session.total_keep_answer _ _ _)
      (fun a => ((Session.leaves_client_setSchema _ _).bind fun _ =>
        (Session.leaves_client_keep _ _).bind fun _ =>
          Session.leaves_client_keep_answer _ _ _).through Client.store)
      d.session.quiet
  | @run argv k s store families columns hstore hwork hrequest =>
    have hserver : d.world.server = s := server_of_gateway hstore
    have hcause : (perform (.run argv) d).1 = (CommandLine.run argv d.world).1.cause := rfl
    rw [hcause, store_perform_run_of_gateway hstore, hstore]
    cases hrefuses : s.refuses with
    | true =>
      have hw : d.world.server.refuses = true := by rw [hserver, hrefuses]
      obtain ⟨hfailed, hsame⟩ := run_of_refused hwork hw
      rw [hserver] at hsame
      exact ⟨hfailed, congrArg Store.gateway hsame⟩
    | false =>
      have hw : d.world.server.refuses = false := by rw [hserver, hrefuses]
      obtain ⟨c, log, hc, hout, hafter⟩ := run_of_connected hwork hw
      obtain ⟨hresult, hstore'⟩ := actsAs_createTable k.schemaName name families columns c
      rw [hserver] at hc
      obtain ⟨hmade, hleft⟩ :=
        Store.make_congr hc name (checkedFamilies name families columns)
      have hbody : k.request.body k.schemaName =
          CommandLine.createTable k.schemaName name families columns := by
        rw [hrequest]
        rfl
      rw [hbody] at hout hafter
      constructor
      · rw [hout, cause_ofResult, ← failure?_map _ fun _ => (), hresult, hmade]
        rfl
      · rw [hafter, hstore', hleft]
        rfl

end Deployment

end WideColumn
