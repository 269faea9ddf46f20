import Mathlib.Data.List.Forall2
import WideColumn.Proofs.Store.MemoryClient
import WideColumn.Proofs.Store.Mirror
import WideColumn.Session

/-!
# Clients of both kinds of store answer alike

A client of a memory store and a client of a server that mirrors it carry out
the same calls. Each call agrees on the two and keeps the mirror, so by induction
every run of allowed calls gives the same answers, but that rows come back from
the server as bytes. A server takes the text of any value; a memory store needs
values that can be copied. Names and keys are texts of characters, which all have
bytes: there is none with half of a surrogate pair.
-/

namespace WideColumn

open Operation OrderedMap

/-- A call of an operation of a client. -/
inductive ClientCall where
  /-- Make a table. -/
  | createTable (table : Option String) (families : FamilyArgument)
  /-- Drop a table. -/
  | dropTable (table : String)
  /-- Store a row. -/
  | putRow (r : Row)
  /-- Ask for a row. -/
  | getRow (table key : String)
  /-- Drop a row. -/
  | deleteRow (table key : String)
  /-- Ask whether a table exists. -/
  | tableExists (table : String)
  /-- Ask for the families of a table. -/
  | tableFamilies (table : String)

namespace ClientCall

/-- Carry out a call. -/
def run : ClientCall → Operation Client Answer
  | createTable table families => do
    Client.createTable table families
    return .nothing
  | dropTable table => do
    Client.dropTable table
    return .nothing
  | putRow r => return .text (← Client.putRow r)
  | getRow table key => return .cells (← Client.getRow table key)
  | deleteRow table key => do
    Client.deleteRow table key
    return .nothing
  | tableExists table => return .flag (← Client.tableExists table)
  | tableFamilies table => return .names (← Client.tableFamilies table)

/-- The answers to calls in turn, whether they fail or not. -/
def answers : List ClientCall → Client → List (Except Error Answer)
  | [], _ => []
  | call :: rest, c => (call.run c).1 :: answers rest (call.run c).2

/-- The call is allowed where a store holds the given tables: a table that is made is new and its
families have no colon, and the cells of a row for a table lie in the table's families. -/
def Allowed (held : OrderedMap String NameSet) : ClientCall → Prop
  | createTable table families => ∀ name fs, Client.checkedTable table families = .ok (name, fs) →
      held.get? name = none ∧ ∀ f ∈ fs, ColonFree f
  | putRow r => ∀ fs cells, held.get? r.table.name = some fs → r.cells = .ok cells →
      ∀ f ∈ cells.families, f ∈ fs
  | _ => True

/-- The cells of a row that is stored can be copied. -/
def isCopyable : ClientCall → Bool
  | putRow r => match r.cells with
    | .ok cells => cells.isCopyable
    | .error _ => true
  | _ => true

/-- Every call is allowed at its turn. -/
def AllowedFrom : Client → List ClientCall → Prop
  | _, [] => True
  | c, call :: rest => call.Allowed c.store.holdings ∧ AllowedFrom (call.run c).2 rest

/-- The second answer is the first, but that a row is given back as a server gives it back. -/
inductive SameAnswer : Answer → Answer → Prop where
  /-- Nothing to tell. -/
  | nothing : SameAnswer .nothing .nothing
  /-- The same truth value. -/
  | flag (b : Bool) : SameAnswer (.flag b) (.flag b)
  /-- The same key. -/
  | text (s : String) : SameAnswer (.text s) (.text s)
  /-- The same families. -/
  | names (s : NameSet) : SameAnswer (.names s) (.names s)
  /-- The same cells as bytes, without empty families, and no row if there are none. -/
  | cells {a b : Option Cells} (h : Option.Rel Cells.Same (Cells.wireRow a) b) :
    SameAnswer (.cells a) (.cells b)

/-- Both calls gave the same answer, or both failed of the same cause. -/
inductive SameResult : Except Error Answer → Except Error Answer → Prop where
  /-- Both gave an answer. -/
  | ok {a b : Answer} (h : SameAnswer a b) : SameResult (.ok a) (.ok b)
  /-- Both failed. -/
  | error (e : Error) : SameResult (.error e) (.error e)

end ClientCall

namespace Client

/-- The one client works on a memory store and the other on a server, which are related; both have
handed out as many keys and logged the same. -/
structure Beside (R : Memory → Server → Prop) (c d : Client) : Prop where
  /-- The stores are of the two kinds, and related. -/
  stores : ∃ m s, c.store = .memory m ∧ d.store = .gateway s ∧ R m s
  /-- Both have handed out the same keys. -/
  keysUsed : c.keysUsed = d.keysUsed
  /-- Both have logged the same. -/
  log : c.log = d.log

variable {α : Type} {R Q F : Memory → Server → Prop} {failed : Client → Client → Prop}
variable {m : Memory} {table : String}

/-- Clients beside a given store are clients beside a store. -/
theorem Beside.mirroring {c d : Client} (h : Beside m.Mirrored c d) :
    Beside Memory.Mirroring c d := by
  obtain ⟨m', s, hc, hd, hmirror⟩ := h.stores
  exact ⟨⟨m', s, hc, hd, hmirror.mirroring⟩, h.keysUsed, h.log⟩

/-- What agrees on two stores agrees on their clients. -/
theorem agree_onStore {same : α → α → Prop} {a : Operation Memory α} {b : Operation Server α}
    (h : Agree R same Q F a b) :
    Agree (Beside R) same (Beside Q) (Beside F) (onStore (Store.onEither a b))
      (onStore (Store.onEither a b)) := by
  intro c d hcd
  obtain ⟨m, s, hc, hd, hR⟩ := hcd.stores
  have hrun := h m s hR
  simp only [onStore, within, hc, hd, Store.onEither]
  revert hrun
  rcases a m with ⟨ra, m'⟩
  rcases b s with ⟨rb, s'⟩
  intro hrun
  cases hrun with
  | value hab hQ => exact .value hab ⟨⟨m', s', rfl, rfl, hQ⟩, hcd.keysUsed, hcd.log⟩
  | failure e hF => exact .failure e ⟨⟨m', s', rfl, rfl, hF⟩, hcd.keysUsed, hcd.log⟩

/-- The two clients log the same. -/
theorem agree_note (level : Level) (message : String) :
    Agree (Beside R) Eq (Beside R) failed (note level message) (note level message) :=
  .change fun _ _ h => ⟨h.stores, h.keysUsed, congrArg (· ++ [⟨level, message⟩]) h.log⟩

/-- The two clients know the same tables. -/
theorem agree_tableExists (table : String) :
    Agree (Beside m.Mirrored) (fun a b => a = m.families.contains table ∧ b = a)
      (Beside m.Mirrored) (Beside m.Mirrored) (tableExists table) (tableExists table) :=
  agree_onStore (Memory.agree_tableExists table)

/-- Both clients find a table, and so it has families, or both fail. -/
theorem agree_requireTable (table : String) :
    Agree (Beside m.Mirrored) (fun _ _ => ∃ fs, m.families.get? table = some fs)
      (Beside m.Mirrored) (Beside m.Mirrored) (requireTable table) (requireTable table) := by
  refine (agree_tableExists table).bind ?_
  rintro a b ⟨ha, rfl⟩
  cases b with
  | false => exact .fail _
  | true => exact .pure (Option.isSome_iff_exists.mp ha.symm)

/-- Both clients give a row the same key. -/
theorem agree_keyOfRow (r : Row) :
    Agree (Beside R) Eq (Beside R) (Beside R) (keyOfRow r) (keyOfRow r) := by
  by_cases hnull : r.idValue = .null
  · intro c d hcd
    rw [keyOfRow_of_null hnull, keyOfRow_of_null hnull, hcd.keysUsed]
    exact .value rfl ⟨hcd.stores, rfl, hcd.log⟩
  · rw [keyOfRow_of_identifier hnull]
    exact .lift _

/-- A table that is new, with families without a colon, is made by both clients. -/
theorem agree_createTable {table : Option String} {families : FamilyArgument}
    (h : (ClientCall.createTable table families).Allowed m.families) :
    Agree (Beside m.Mirrored) Eq (Beside Memory.Mirroring) (Beside m.Mirrored)
      (createTable table families) (createTable table families) := by
  unfold createTable
  cases hcheck : checkedTable table families with
  | error e => exact .fail e
  | ok checked =>
    obtain ⟨name, fs⟩ := checked
    obtain ⟨hnew, hfree⟩ := h name fs hcheck
    exact (agree_note _ _).bind_eq fun _ =>
      (agree_onStore (Memory.agree_createTable hnew hfree)).bind_eq fun _ => agree_note _ _

/-- A table is dropped by both clients, or by none. -/
theorem agree_dropTable (table : String) :
    Agree (Beside m.Mirrored) Eq (Beside Memory.Mirroring) (Beside m.Mirrored)
      (dropTable table) (dropTable table) :=
  (agree_requireTable table).bind fun _ _ ⟨_, hfs⟩ =>
    (agree_onStore (Memory.agree_deleteTable hfs)).bind_eq fun _ => agree_note _ _

/-- A row whose cells lie in the families of its table is stored under one key by both clients. -/
theorem agree_putRow {r : Row} (h : (ClientCall.putRow r).Allowed m.families)
    (hcopy : (ClientCall.putRow r).isCopyable = true) :
    Agree (Beside m.Mirrored) Eq (Beside Memory.Mirroring) (Beside m.Mirrored)
      (putRow r) (putRow r) := by
  refine (agree_requireTable r.table.name).bind fun _ _ ⟨fs, hfs⟩ => ?_
  refine (agree_keyOfRow r).bind_eq fun key => ?_
  refine (agree_note _ _).bind_eq fun _ => ?_
  cases hcells : r.cells with
  | error e => exact .fail e
  | ok cells =>
    have hknown := h fs cells hfs hcells
    rw [ClientCall.isCopyable, hcells] at hcopy
    exact (agree_onStore (Memory.agree_put hfs key hknown hcopy)).bind_eq fun _ => .pure rfl

/-- A row is dropped by both clients, or by none. -/
theorem agree_deleteRow (table key : String) :
    Agree (Beside m.Mirrored) Eq (Beside Memory.Mirroring) (Beside m.Mirrored)
      (deleteRow table key) (deleteRow table key) :=
  (agree_requireTable table).bind fun _ _ ⟨_, hfs⟩ =>
    agree_onStore (Memory.agree_delete hfs key)

/-- Both clients tell the same families. -/
theorem agree_tableFamilies (table : String) :
    Agree (Beside m.Mirrored) Eq (Beside Memory.Mirroring) (Beside m.Mirrored)
      (tableFamilies table) (tableFamilies table) :=
  (agree_requireTable table).bind fun _ _ ⟨_, hfs⟩ =>
    agree_onStore (Memory.agree_tableFamilies hfs)

/-- The second client gives a row as a server gives it back. -/
theorem agree_getRow (table key : String) :
    Agree (Beside m.Mirrored) (fun a b => Option.Rel Cells.Same (Cells.wireRow a) b)
      (Beside Memory.Mirroring) (Beside m.Mirrored) (getRow table key) (getRow table key) :=
  (agree_requireTable table).bind fun _ _ ⟨_, hfs⟩ => agree_onStore (Memory.agree_get hfs key)

end Client

namespace ClientCall

variable {m : Memory}

/-- Every allowed call agrees on the two clients and keeps the mirror. -/
theorem agree_run {call : ClientCall} (h : call.Allowed m.families)
    (hcopy : call.isCopyable = true) :
    Agree (Client.Beside m.Mirrored) SameAnswer (Client.Beside Memory.Mirroring)
      (Client.Beside m.Mirrored) call.run call.run := by
  cases call with
  | createTable table families =>
    exact (Client.agree_createTable h).bind_eq fun _ => .pure .nothing
  | dropTable table => exact (Client.agree_dropTable table).bind_eq fun _ => .pure .nothing
  | putRow r => exact (Client.agree_putRow h hcopy).bind_eq fun key => .pure (.text key)
  | getRow table key => exact (Client.agree_getRow table key).bind fun _ _ h => .pure (.cells h)
  | deleteRow table key =>
    exact (Client.agree_deleteRow table key).bind_eq fun _ => .pure .nothing
  | tableExists table =>
    refine ((Client.agree_tableExists table).weaken fun _ _ h => h.mirroring).bind ?_
    rintro a b ⟨-, rfl⟩
    exact .pure (.flag b)
  | tableFamilies table =>
    exact (Client.agree_tableFamilies table).bind_eq fun fs => .pure (.names fs)

/-- From clients that are beside each other an allowed call gives the same result, and leaves them
beside each other. -/
theorem sameResult_run {c d : Client} (hcd : Client.Beside Memory.Mirroring c d)
    {call : ClientCall} (h : call.Allowed c.store.holdings) (hcopy : call.isCopyable = true) :
    SameResult (call.run c).1 (call.run d).1 ∧
      Client.Beside Memory.Mirroring (call.run c).2 (call.run d).2 := by
  obtain ⟨⟨m, s, hc, hd, hmirror⟩, hkeys, hlog⟩ := hcd
  rw [hc] at h
  have hrun := agree_run h hcopy c d ⟨⟨m, s, hc, hd, rfl, hmirror⟩, hkeys, hlog⟩
  revert hrun
  rcases call.run c with ⟨ra, c'⟩
  rcases call.run d with ⟨rb, d'⟩
  intro hrun
  cases hrun with
  | value hab hpost => exact ⟨.ok hab, hpost⟩
  | failure e hfailed => exact ⟨.error e, hfailed.mirroring⟩

/-- A run of allowed calls gives the same results, by induction on the calls. -/
theorem sameResult_answers {calls : List ClientCall} {c d : Client}
    (hcd : Client.Beside Memory.Mirroring c d) (h : AllowedFrom c calls)
    (hcopy : ∀ call ∈ calls, call.isCopyable = true) :
    List.Forall₂ SameResult (answers calls c) (answers calls d) := by
  induction calls generalizing c d with
  | nil => exact .nil
  | cons call rest ih =>
    obtain ⟨hcall, hrest⟩ := h
    obtain ⟨hcopied, hcopies⟩ := List.forall_mem_cons.mp hcopy
    obtain ⟨hsame, hafter⟩ := sameResult_run hcd hcall hcopied
    exact .cons hsame (ih hafter hrest hcopies)

/-- From fresh stores the two kinds answer alike, in runs that make no table twice, use no colon in
a family, and put values that can be copied into known families. -/
theorem sameResult_of_fresh (spelling : NameSpelling) {suffix : String}
    (hsuffix : suffix = "" ∨ suffix = ":") (refuses : Bool) (keysUsed : Nat)
    (log : List LogRecord) {calls : List ClientCall}
    (h : AllowedFrom ⟨.memory .empty, keysUsed, log⟩ calls)
    (hcopy : ∀ call ∈ calls, call.isCopyable = true) :
    List.Forall₂ SameResult (answers calls ⟨.memory .empty, keysUsed, log⟩)
      (answers calls ⟨.gateway (.withTables spelling suffix refuses []), keysUsed, log⟩) :=
  sameResult_answers
    ⟨⟨_, _, rfl, rfl, Server.Mirrors.fresh spelling hsuffix refuses⟩, rfl, rfl⟩ h hcopy

/-- A row with an empty family is laid on another, read, dropped, and asked for once more when its
table is gone. -/
theorem sameResult_of_fresh_run :
    let T : Table := ⟨"s", "t", [.identifier .binary, .cell "f" "q" .binary, .wholeFamily "g" .map],
      NameSet.ofList ["f", "g"]⟩
    let row (v w : Value) : Row := ⟨T, OrderedMap.ofList [(.identifier .binary, .text "k"),
      (.cell "f" "q" .binary, v), (.wholeFamily "g" .map, w)]⟩
    let calls : List ClientCall :=
      [.createTable (some "t") (.names ["g", "f"]), .putRow (row (.int 1) (.mapping [])),
        .getRow "t" "k", .putRow (row (.text "x") (.mapping [(.text "p:o", .null)])),
        .getRow "t" "k", .tableFamilies "t", .deleteRow "t" "k", .getRow "t" "k", .dropTable "t",
        .getRow "t" "k", .tableExists "t"]
    AllowedFrom ⟨.memory .empty, 0, []⟩ calls ∧ (∀ call ∈ calls, call.isCopyable = true) ∧
      List.Forall₂ SameResult (answers calls ⟨.memory .empty, 0, []⟩)
        (answers calls ⟨.gateway (.withTables .bytes ":" false []), 0, []⟩) := by
  intro T row calls
  have hrow : ∀ v w, (w = .mapping [] ∨ w = .mapping [(.text "p:o", .null)]) →
      (putRow (row v w)).Allowed (OrderedMap.ofList [("t", NameSet.ofList ["f", "g"])]) := by
    have hfamilies : ∀ f ∈ ["f", "g"], f ∈ NameSet.ofList ["f", "g"] := by decide
    rintro v w (rfl | rfl) fs cells hfs hcells
    · cases hfs
      cases hcells
      exact hfamilies
    · cases hfs
      cases hcells
      exact hfamilies
  have hallowed : AllowedFrom ⟨.memory .empty, 0, []⟩ calls := by
    refine ⟨fun name fs h => ?_, hrow _ _ (.inl rfl), trivial, hrow _ _ (.inr rfl), trivial,
      trivial, trivial, trivial, trivial, trivial, trivial, trivial⟩
    cases h
    have hfree : ∀ f ∈ ["f", "g"], ColonFree f := by decide
    exact ⟨rfl, hfree⟩
  have hcopy : ∀ call ∈ calls, call.isCopyable = true := List.all_eq_true.mp rfl
  exact ⟨hallowed, hcopy, sameResult_of_fresh .bytes (.inr rfl) false 0 [] hallowed hcopy⟩

/-- A row with a value that cannot be copied is stored by a server under its text, and fails in
memory. -/
theorem differ_on_handle :
    let T : Table := ⟨"s", "t", [.identifier .binary, .wholeFamily "f" .map], NameSet.ofList ["f"]⟩
    let r : Row := ⟨T, OrderedMap.ofList [(.identifier .binary, .text "k"),
      (.cell "f" "a" .binary, .handle "memoryview" "<memory>")]⟩
    let calls : List ClientCall := [.createTable (some "t") (.names ["f"]), .putRow r]
    AllowedFrom ⟨.memory .empty, 0, []⟩ calls ∧
      answers calls ⟨.memory .empty, 0, []⟩ = [.ok .nothing, .error .wrongKind] ∧
      answers calls ⟨.gateway (.withTables .bytes "" false []), 0, []⟩ =
        [.ok .nothing, .ok (.text "k")] := by
  intro T r calls
  refine ⟨⟨fun name fs h => ?_, fun fs cells hfs hcells => ?_, trivial⟩, rfl, rfl⟩
  · cases h
    have hfree : ∀ f ∈ ["f"], ColonFree f := by decide
    exact ⟨rfl, hfree⟩
  · cases hfs
    cases hcells
    have hknown : ∀ f ∈ ["f"], f ∈ NameSet.ofList ["f"] := by decide
    exact hknown

end ClientCall

end WideColumn
