import WideColumn.Proofs.Row.Staging
import WideColumn.Proofs.Session.Services
import WideColumn.Proofs.Store.MemoryClient

/-!
# Rows that are written through a schema

A row that was drafted for a table of the schema is never refused by a memory
store for its table or its families, whatever commands led to it: the schema has
no table that the store lacks, and no column that a draft accepts lies outside
the families of the table. The row that is stored is the former one with the new
cells on top, as far as they can be copied.
-/

namespace WideColumn.Session

open Operation

/-- After service commands on an empty memory store, a drafted row is inserted exactly if its values
can be copied; else only its cells before the first that cannot be are. -/
theorem insertRow_of_drafted (handle name : String) {cs : List Command}
    (hcs : ∀ c ∈ cs, c.isService = true) {S : LiveSchema} {t : String} {T : Table}
    (hS : S ∈ ((withSchema (.memory .empty) handle name).after cs).schemas)
    (hT : S.getTable t = some T) (l : List RowDraft.Staging) {C : Cells}
    (hC : (RowDraft.reached T l).build.cells = .ok C)
    (hid : (RowDraft.reached T l).build.idValue = .null ∨
      ∃ k, (RowDraft.reached T l).build.idValue.rowKey = .ok k) :
    let s := (withSchema (.memory .empty) handle name).after cs
    let r := (RowDraft.reached T l).build
    ∃ key s',
      onClient (Client.insertRow r) s = (if C.isCopyable then .ok key else .error .wrongKind, s') ∧
      (r.idValue = .null → key = Client.keyOfCount (s.client.keysUsed + 1)) ∧
      (r.idValue ≠ .null → r.idValue.rowKey = .ok key) ∧
      Client.WritesRow s.client s'.client t key C.written ∧ (C.isCopyable = true → C.written = C) ∧
      s'.schemas = s.schemas ∧ s'.kept = s.kept := by
  intro s r
  obtain ⟨⟨S₀, hschemas, -, hmatch⟩, hpaired, hkind⟩ :=
    inStep_of_fresh .memory handle name hcs
  rw [hschemas, List.mem_singleton] at hS
  subst hS
  obtain ⟨m, hm⟩ : ∃ m, s.client.store = .memory m := by
    cases hstore : s.client.store with
    | memory m => exact ⟨m, rfl⟩
    | gateway g =>
      have hgateway : s.client.store.isMemory = false := by rw [hstore]; rfl
      exact nomatch hgateway.symm.trans hkind
  have hfiled := hmatch.filed t T hT
  have hname : r.table.name = t := by
    rw [← hfiled.name, ← RowDraft.table_reached T l]
    rfl
  have hfs : m.families.get? t = some T.families := by
    have hheld := hmatch.families hT
    rwa [hm] at hheld
  rw [hm] at hpaired
  obtain ⟨rows, hrows⟩ := hpaired.exists_rows hfs
  have hknown : ∀ f ∈ C.families, f ∈ T.families := by
    intro f hf
    obtain ⟨c, hc, hcf⟩ := (Row.mem_families_cells hC f).mp hf
    exact RowDraft.family_mem_of_build hfiled.closed l hc hcf
  obtain ⟨key, n, hkey, hnew, hown⟩ := Client.keyOfRow_of_accepted (c := s.client) hid
  obtain ⟨c', hinsert, hstore⟩ := Client.insertRow_of_known (r := r) hm (hname ▸ hfs)
    (hname ▸ hrows) hkey hC hknown
  rw [hname] at hstore
  exact ⟨key, { s with client := c' }, within_of hinsert, hnew, hown,
    Client.writesRow_of_lay hpaired hm hrows hstore, Cells.written_of_isCopyable, rfl, rfl⟩

/-- A row with a cell and a whole family goes on top of an earlier row with the same identifier, in
a table that was dropped and made again. -/
theorem insertRow_of_drafted_again :
    let cs : List Command :=
      [.request (some "a") "S" (some "t") (.names ["x"]), .execute none "a", .dropTable "S" "t",
        .request (some "b") "S" (some "t") (.names ["f", "g"]), .withColumn "b" "f:q" none,
        .execute (some "T") "b", .draft (some "d") "T", .stageId "d" (.text "k"),
        .stage "d" (.named "f:q") (.int 0), .stage "d" (.named "x:q") (.int 0),
        .build (some "r") "d", .insertRow "r"]
    let s := (withSchema (.memory .empty) "S" "s").after cs
    let T : Table := ⟨"s", "t", [.identifier .binary, .cell "f" "q" .binary, .wholeFamily "g" .map],
      NameSet.ofList ["f", "g"]⟩
    let r := (RowDraft.reached T [.identifier (.text "k"), .value (.named "f:q") (.int 1),
      .value (.named "g") (.mapping [(.text "a", .int 2)])]).build
    let C : Cells := OrderedMap.ofList
      [("f", OrderedMap.ofList [("q", .int 1)]), ("g", OrderedMap.ofList [("a", .int 2)])]
    s.schemas = [⟨"s", OrderedMap.ofList [("t", T)]⟩] ∧ r.cells = .ok C ∧
      ∃ key s', onClient (Client.insertRow r) s = (.ok key, s') ∧
        (r.idValue = .null → key = Client.keyOfCount (s.client.keysUsed + 1)) ∧
        (r.idValue ≠ .null → r.idValue.rowKey = .ok key) ∧
        Client.WritesRow s.client s'.client "t" key C ∧ s'.schemas = s.schemas ∧
        s'.kept = s.kept := by
  intro cs s T r C
  have hservice : ∀ c ∈ cs, c.isService = true := by decide
  obtain ⟨key, s', hinsert, hnew, hown, hwrites, hall, hlasting⟩ := insertRow_of_drafted "S" "s"
    hservice (List.mem_singleton.mpr rfl) (t := "t") (T := T) rfl
    [.identifier (.text "k"), .value (.named "f:q") (.int 1),
      .value (.named "g") (.mapping [(.text "a", .int 2)])] (C := C) rfl (.inr ⟨"k", rfl⟩)
  rw [hall rfl] at hwrites
  exact ⟨rfl, rfl, key, s', hinsert, hnew, hown, hwrites, hlasting⟩

/-- A value that cannot be copied is taken by the draft, and its cells and key can be made; but the
insertion fails, and leaves a row behind. -/
theorem insertRow_of_drafted_handle :
    let cs : List Command :=
      [.request (some "b") "S" (some "t") (.names ["f"]), .execute none "b"]
    let s := (withSchema (.memory .empty) "S" "s").after cs
    let T : Table := ⟨"s", "t", [.identifier .binary, .wholeFamily "f" .map], NameSet.ofList ["f"]⟩
    let r := (RowDraft.reached T [.identifier (.text "k"),
      .value (.named "f:a") (.handle "memoryview" "<memory>")]).build
    s.schemas = [⟨"s", OrderedMap.ofList [("t", T)]⟩] ∧
      r.cells = .ok (OrderedMap.ofList
        [("f", OrderedMap.ofList [("a", .handle "memoryview" "<memory>")])]) ∧
      r.idValue.rowKey = .ok "k" ∧ (onClient (Client.insertRow r) s).1 = .error .wrongKind ∧
      (Client.getRow "t" "k" (onClient (Client.insertRow r) s).2.client).1 =
        .ok (some (OrderedMap.ofList [("f", ∅)])) :=
  ⟨rfl, rfl, rfl, rfl, rfl⟩

end WideColumn.Session
