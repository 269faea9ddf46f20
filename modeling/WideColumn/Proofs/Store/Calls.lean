import WideColumn.Store.Server
import WideColumn.Text.Blank

/-!
# The calls that a server receives

A server changes only by the calls that it receives, so the calls on record say
what has become of it: they can be replayed. A call is proper if it neither opens
nor closes the connection, if a table that it makes has a name and families that
are not blank, and if every other table that it names is there when it comes.
-/

namespace WideColumn

namespace Call

/-- The call opens or closes the connection. -/
def framing : Call → Bool
  | connect _ | close => true
  | _ => false

/-- The table that has to be there for a call. -/
def needs : Call → Option String
  | deleteTable table _ | families table | put table _ _ | row table _ | delete table _ =>
    some table
  | connect _ | createTable _ _ | tables | close => none

/-- Families of which a table can be made: there are some, in increasing order and so each once, and
none is blank. -/
structure Families (families : List String) : Prop where
  /-- There are some. -/
  some : families ≠ []
  /-- They are in increasing order, each once. -/
  sorted : families.Pairwise (· < ·)
  /-- None of them is blank. -/
  named : ∀ f ∈ families, Text.isBlank f = false

end Call

namespace Server

/-- The server after a call has come in, whatever it answers. -/
def receive (s : Server) : Call → Server
  | .createTable table families => (createTable table families s).2
  | .deleteTable table disable => (deleteTable table disable s).2
  | .put table row cells =>
    match s.tables.get? table with
    | some t => (put table t row cells s).2
    | none => s.record (.put table row cells)
  | .delete table row =>
    match s.tables.get? table with
    | some t => (delete table t row s).2
    | none => s.record (.delete table row)
  | c => s.record c

/-- The server after calls have come in, one after the other. -/
def replay (s : Server) (calls : List Call) : Server := calls.foldl receive s

@[simp] theorem calls_receive (s : Server) (c : Call) : (s.receive c).calls = s.calls ++ [c] := by
  cases c with
  | deleteTable table disable =>
    simp only [receive, deleteTable]
    split <;> rfl
  | put table row cells =>
    simp only [receive]
    split <;> rfl
  | delete table row =>
    simp only [receive]
    split <;> rfl
  | _ => rfl

/-- Calls that come later are replayed on what the earlier have left. -/
theorem replay_append (s : Server) (l l' : List Call) :
    s.replay (l ++ l') = (s.replay l).replay l' := List.foldl_append

/-- The calls that have come in are on record, after those from before. -/
theorem calls_replay (s : Server) (calls : List Call) :
    (s.replay calls).calls = s.calls ++ calls := by
  induction calls generalizing s with
  | nil => exact (List.append_nil s.calls).symm
  | cons c rest ih =>
    change ((s.receive c).replay rest).calls = _
    rw [ih, calls_receive, List.append_assoc]
    rfl

/-- A call that a client may make of the server as it is. -/
structure Proper (s : Server) (c : Call) : Prop where
  /-- It neither opens nor closes the connection. -/
  unframed : c.framing = false
  /-- A table that is to be made has a name and families. -/
  made : ∀ table families, c = .createTable table families → table ≠ "" ∧ Call.Families families
  /-- A table that has to be there is there. -/
  held : ∀ table, c.needs = some table → s.tables.contains table = true

/-- Calls of which each is proper when it comes. -/
def ProperFrom : Server → List Call → Prop
  | _, [] => True
  | s, c :: rest => s.Proper c ∧ ProperFrom (s.receive c) rest

namespace ProperFrom

variable {s : Server} {l l' : List Call}

/-- Proper calls may follow proper calls. -/
theorem append (h : s.ProperFrom l) (h' : (s.replay l).ProperFrom l') :
    s.ProperFrom (l ++ l') := by
  induction l generalizing s with
  | nil => exact h'
  | cons c rest ih => exact ⟨h.1, ih h.2 h'⟩

/-- Each call is proper for the server that the calls before it have left. -/
theorem proper_at {before later : List Call} {c : Call} (h : s.ProperFrom (before ++ c :: later)) :
    (s.replay before).Proper c := by
  induction before generalizing s with
  | nil => exact h.1
  | cons b rest ih => exact ih h.2

/-- Each of a list of proper calls is proper on some server. -/
theorem exists_proper (h : s.ProperFrom l) {c : Call} (hc : c ∈ l) : ∃ s' : Server, s'.Proper c := by
  obtain ⟨before, later, rfl⟩ := List.append_of_mem hc
  exact ⟨_, h.proper_at⟩

/-- No call opens or closes the connection. -/
theorem unframed (h : s.ProperFrom l) : ∀ c ∈ l, c.framing = false := by
  intro c hc
  obtain ⟨s', hproper⟩ := h.exists_proper hc
  exact hproper.unframed

/-- Every table that is to be made has a name and families. -/
theorem made (h : s.ProperFrom l) {table : String} {families : List String}
    (hc : .createTable table families ∈ l) : table ≠ "" ∧ Call.Families families := by
  obtain ⟨s', hproper⟩ := h.exists_proper hc
  exact hproper.made table families rfl

end ProperFrom

/-- A call that only asks for something that is there. -/
theorem proper_of_held {s : Server} {c : Call} {table : String} (hframing : c.framing = false)
    (hneeds : c.needs = some table) (h : s.tables.contains table = true) : s.Proper c where
  unframed := hframing
  made table families hc := by
    subst hc
    cases hneeds
  held table' htable' := by
    cases hneeds.symm.trans htable'
    exact h

theorem proper_tables (s : Server) : s.Proper .tables where
  unframed := rfl
  made _ _ h := nomatch h
  held _ h := nomatch h

end Server

end WideColumn
