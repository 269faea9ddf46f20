import WideColumn.Proofs.Session.Atomicity
import WideColumn.Proofs.Store.Tasks

/-!
# The one task of a command

A command looks up what it works on, gives the client one task at most, and then
only keeps what came of it and answers. So all that a command can do to the
client and the store is what one task does, and a command that has given a task
fails exactly if the task does, and for its cause. Only the commands to the store
itself go past the client.
-/

namespace WideColumn

open Operation

/-- The command works on the store itself. -/
def Command.pastClient : Command → Bool
  | .store _ => true
  | _ => false

namespace Session

variable {α β : Type}

/-- The operation leaves the client alone, or gives it one task, which decides whether and why the
operation fails. -/
def Tasked (op : Operation Session α) : Prop :=
  ∀ s, (op s).2.client = s.client ∨
    ∃ t : ClientTask, (op s).2.client = (t.run s.client).2 ∧
      ∀ e, (op s).1 = .error e ↔ (t.run s.client).1 = .error e

namespace Tasked

/-- What leaves the client alone gives it no task. -/
theorem of_leaves {op : Operation Session α} (h : Leaves Session.client op) : Tasked op :=
  fun s => .inl (h s)

/-- What is looked up before does not matter to the client. -/
theorem bind_of_leaves {op : Operation Session α} {f : α → Operation Session β}
    (h : Leaves id op) (hf : ∀ a, Tasked (f a)) : Tasked (op >>= f) := by
  intro s
  have hsame : (op s).2 = s := h s
  rcases hr : op s with ⟨e | a, s'⟩ <;> rw [hr] at hsame <;> subst hsame
  · rw [bind_of_error hr]
    exact .inl rfl
  · rw [bind_of_ok hr]
    exact hf a _

/-- A task is given, and what follows only keeps what came of it. -/
theorem onClient_bind {op : Operation Client α} {f : α → Operation Session β} (t : ClientTask)
    {answer : α → Answer} (ht : t.run = op >>= fun a => pure (answer a))
    (htotal : ∀ a, Total (f a)) (hf : ∀ a, Leaves Session.client (f a)) :
    Tasked (onClient op >>= f) := by
  refine fun s => .inr ⟨t, ?_⟩
  rcases hr : op s.client with ⟨e | a, c⟩
  · have hclient : onClient op s = (.error e, { s with client := c }) := within_of hr
    rw [bind_of_error hclient, ht, bind_of_error hr]
    exact ⟨rfl, fun e' => by simp only [Except.error.injEq]⟩
  · have hclient : onClient op s = (.ok a, { s with client := c }) := within_of hr
    have hkept := hf a { s with client := c }
    obtain ⟨b, s', hs'⟩ := htotal a { s with client := c }
    rw [hs'] at hkept
    rw [bind_of_ok hclient, hs', ht, bind_of_ok hr]
    exact ⟨hkept, fun e' => by simp only [pure_apply, reduceCtorEq]⟩

/-- A task is given, and its outcome is the answer. -/
theorem onClient_answer {op : Operation Client α} (t : ClientTask) {answer answer' : α → Answer}
    (ht : t.run = op >>= fun a => pure (answer a)) :
    Tasked (onClient op >>= fun a => pure (answer' a)) :=
  .onClient_bind t ht (fun _ => .pure _) fun _ => .pure _

end Tasked

theorem leaves_client_keep (name : Option String) (e : Entity) :
    Leaves Session.client (keep name e) := by
  cases name with
  | none => exact .pure ()
  | some name => exact fun _ => rfl

theorem leaves_client_setSchema (place : Nat) (schema : LiveSchema) :
    Leaves Session.client (setSchema place schema) := fun _ => rfl

theorem leaves_client_newSchema (schema : LiveSchema) :
    Leaves Session.client (newSchema schema) := fun _ => rfl

theorem leaves_client_keep_answer (name : Option String) (e : Entity) (a : Answer) :
    Leaves Session.client (keep name e >>= fun _ => pure a) :=
  (leaves_client_keep name e).bind fun _ => .pure a

/-- Keeping a row does not touch the client. -/
theorem leaves_client_answerRow (keepAs : Option String) (r : Row) :
    Leaves Session.client (answerRow keepAs r) :=
  (Leaves.lift _).bind fun _ => leaves_client_keep_answer _ _ _

/-- Keeping a request does not touch the client. -/
theorem leaves_client_answerRequest (keepAs : Option String) (r : TableRequest) (place : Nat) :
    Leaves Session.client (answerRequest keepAs r place) :=
  (leaves_schemaAt place).every.bind fun _ => leaves_client_keep_answer _ _ _

/-- Each command for the client is a task of the client. -/
theorem tasked_clientStep (c : ClientCommand) : Tasked (clientStep c) := by
  cases c with
  | createTable table families => exact .onClient_answer (.call (.createTable table families)) rfl
  | dropTable table => exact .onClient_answer (.call (.dropTable table)) rfl
  | tableExists table => exact .onClient_answer (.call (.tableExists table)) rfl
  | tableFamilies table => exact .onClient_answer (.call (.tableFamilies table)) rfl
  | getRow table key => exact .onClient_answer (.call (.getRow table key)) rfl
  | deleteRow table key => exact .onClient_answer (.call (.deleteRow table key)) rfl
  | abilities => exact .of_leaves (.pure _)

/-- All that a command can do to the client, unless it goes past it. -/
theorem tasked_step {c : Command} (hc : c.pastClient = false) : Tasked (step c) := by
  cases c with
  | store c => cases hc
  | makeTable keepAs schemaName name columns families =>
    exact .of_leaves ((Leaves.lift _).bind fun _ => (Leaves.lift _).bind fun _ =>
      leaves_client_keep_answer _ _ _)
  | getColumn table name =>
    exact .of_leaves ((leaves_findTable table).every.bind fun _ => .pure _)
  | hasColumn table column =>
    exact .of_leaves ((leaves_findTable table).every.bind fun _ =>
      (Leaves.lift _).bind fun _ => .pure _)
  | liveSchema keepAs name tables =>
    exact .of_leaves ((leaves_findTables tables).every.bind fun _ =>
      (leaves_client_newSchema _).bind fun _ => leaves_client_keep_answer _ _ _)
  | frozenSchema keepAs name tables =>
    exact .of_leaves ((leaves_findTables tables).every.bind fun _ =>
      leaves_client_keep_answer _ _ _)
  | freeze keepAs schema =>
    exact .of_leaves ((leaves_findSchema schema).every.bind fun _ =>
      leaves_client_keep_answer _ _ _)
  | showSchema schema => exact .of_leaves ((leaves_findSchema schema).every.bind fun _ => .pure _)
  | getTable keepAs schema table =>
    refine .of_leaves ((leaves_findSchema schema).every.bind fun _ => ?_)
    split
    · exact leaves_client_keep_answer _ _ _
    · exact .pure _
  | addTable schema table =>
    exact .of_leaves ((leaves_findLive schema _).every.bind fun _ =>
      (leaves_findTable table).every.bind fun _ =>
        (leaves_client_setSchema _ _).bind fun _ => .pure _)
  | removeTable schema table =>
    exact .of_leaves ((leaves_findLive schema _).every.bind fun _ =>
      (leaves_client_setSchema _ _).bind fun _ => .pure _)
  | request keepAs schema table families =>
    exact .of_leaves ((leaves_findLive schema _).every.bind fun _ =>
      (Leaves.lift _).bind fun _ => leaves_client_answerRequest _ _ _)
  | setFamilies request families =>
    exact .of_leaves ((leaves_findRequest request).every.bind fun _ =>
      (Leaves.lift _).bind fun _ => leaves_client_answerRequest _ _ _)
  | withColumn request name dataType =>
    exact .of_leaves ((leaves_findRequest request).every.bind fun _ =>
      (Leaves.lift _).bind fun _ => leaves_client_answerRequest _ _ _)
  | showRequest request =>
    exact .of_leaves ((leaves_findRequest request).every.bind fun _ =>
      leaves_client_answerRequest _ _ _)
  | execute keepAs request =>
    exact .bind_of_leaves (leaves_findRequest request) fun p =>
      .bind_of_leaves (leaves_schemaAt p.2) fun S =>
        .onClient_bind (.execute p.1 S) rfl
          (fun _ => (total_setSchema _ _).bind fun _ => (total_keep _ _).bind fun _ =>
            total_keep_answer _ _ _)
          fun _ => (leaves_client_setSchema _ _).bind fun _ => (leaves_client_keep _ _).bind fun _ =>
            leaves_client_keep_answer _ _ _
  | draft keepAs table =>
    exact .of_leaves ((leaves_findTable table).every.bind fun _ => leaves_client_keep_answer _ _ _)
  | stageId draft v =>
    exact .of_leaves ((leaves_findDraft draft).every.bind fun _ =>
      (Leaves.lift _).bind fun _ => leaves_client_keep_answer _ _ _)
  | stage draft column v =>
    exact .of_leaves ((leaves_findDraft draft).every.bind fun _ =>
      (Leaves.lift _).bind fun _ => leaves_client_keep_answer _ _ _)
  | build keepAs draft =>
    exact .of_leaves ((leaves_findDraft draft).every.bind fun _ => leaves_client_answerRow _ _)
  | rowOfCells keepAs table id cells =>
    exact .of_leaves ((leaves_findTable table).every.bind fun _ =>
      (Leaves.lift _).bind fun _ => leaves_client_answerRow _ _)
  | rowOfValues keepAs table values =>
    exact .of_leaves ((leaves_findTable table).every.bind fun _ =>
      (Leaves.lift _).bind fun _ => leaves_client_answerRow _ _)
  | rowFamilies row => exact .of_leaves ((leaves_findRow row).every.bind fun _ => .pure _)
  | insertRow row =>
    exact .bind_of_leaves (leaves_findRow row) fun r => .onClient_answer (.insertRow r) rfl
  | putRow row =>
    exact .bind_of_leaves (leaves_findRow row) fun r => .onClient_answer (.call (.putRow r)) rfl
  | deleteById table id =>
    exact .bind_of_leaves (leaves_findTable table) fun t => .onClient_answer (.deleteById t id) rfl
  | dropTable schema table =>
    exact .bind_of_leaves (leaves_findLive schema _) fun p =>
      .onClient_bind (.dropFrom p.1 table) rfl
        (fun _ => (total_setSchema _ _).bind fun _ => .pure _)
        fun _ => (leaves_client_setSchema _ _).bind fun _ => .pure _
  | client c => exact tasked_clientStep c

/-- The calls that a command makes through the client are proper ones, the server is left as they
leave it, and a refusal comes before all of them. -/
theorem exists_calls_perform {c : Command} (hc : c.pastClient = false) {s : Session} {g : Server}
    (hs : s.client.store = .gateway g) :
    (perform c s).2.client.store = .gateway (g.forgetCalls.replay (perform c s).1.calls) ∧
      g.forgetCalls.ProperFrom (perform c s).1.calls ∧
      ∀ e, (perform c s).1.result = .error e → e.isRefusal = true → (perform c s).1.calls = [] := by
  have hquiet : s.quiet.client.store = .gateway g.forgetCalls := congrArg Store.forgetCalls hs
  obtain ⟨calls, hstore, hproper, hcause⟩ : ∃ calls,
      (step c s.quiet).2.client.store = .gateway (g.forgetCalls.replay calls) ∧
      g.forgetCalls.ProperFrom calls ∧
      ∀ e, (step c s.quiet).1 = .error e → e.isRefusal = true → calls = [] := by
    obtain hsame | ⟨t, hclient, hcause⟩ := tasked_step hc s.quiet
    · refine ⟨[], ?_, trivial, fun _ _ _ => rfl⟩
      rw [hsame]
      exact hquiet
    · obtain ⟨calls, hstore, hproper, htimely⟩ := t.orderly_run _ _ hquiet trivial
      refine ⟨calls, ?_, hproper, fun e he => (htimely e ((hcause e).mp he)).refused⟩
      rw [hclient]
      exact hstore
  have hcalls : (perform c s).1.calls = calls := by
    change (step c s.quiet).2.client.store.calls = calls
    rw [hstore]
    exact g.forgetCalls.calls_replay calls
  rw [hcalls]
  exact ⟨hstore, hproper, hcause⟩

end Session

end WideColumn
