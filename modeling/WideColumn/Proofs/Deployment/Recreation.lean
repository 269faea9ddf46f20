import WideColumn.Proofs.Deployment.Attempts
import WideColumn.Proofs.Store.Memory

/-!
# Making a table that is there already

A store in memory refuses to make a table that it holds. A server puts the new
table in place of the old one, and no layer above it looks first, so an attempt
whose arguments pass the checks loses the rows of the table, whichever way it is
made.
-/

namespace WideColumn

open Operation OrderedMap CommandLine

namespace Store

variable {st : Store} {name : String} {held : NameSet}

/-- All that a store can do when it is asked for a table that it holds. -/
theorem make_of_held (h : st.holdings.get? name = some held) (verdict : Except Error NameSet) :
    (∃ e, verdict = .error e ∧ make name verdict st = (.error e, st)) ∨
    (∃ fs, verdict = .ok fs ∧ st.isMemory = true ∧
      make name verdict st = (.error (.tableExists name), st)) ∨
    (∃ s fs, verdict = .ok fs ∧ st = .gateway s ∧
      make name verdict st = (.ok (), .gateway { s.record (.createTable name fs.names) with
        tables := s.tables.insert name ⟨fs.names, ∅⟩ })) := by
  cases verdict with
  | error e => exact .inl ⟨e, rfl, rfl⟩
  | ok fs =>
    cases st with
    | memory m =>
      have hfs : m.families.get? name = some held := h
      have hknown : m.families.contains name = true := by
        rw [contains, hfs]
        rfl
      obtain ⟨-, hmake⟩ | ⟨hunknown, -⟩ := Memory.createTable_cases m name fs
      · refine .inr (.inl ⟨fs, rfl, rfl, ?_⟩)
        simp only [make_ok, createTable, onEither, hmake]
      · rw [hknown] at hunknown
        cases hunknown
    | gateway s => exact .inr (.inr ⟨s, fs, rfl, rfl, rfl⟩)

end Store

/-- The exit code tells whether a run failed. -/
theorem exitCode_ofResult (log : List LogRecord) (r : Except Error (List String)) :
    (Outcome.ofResult log r).exitCode = if (Outcome.ofResult log r).cause = none then 0 else 1 := by
  cases r <;> rfl

namespace Deployment

variable {d : Deployment} {name : String} {deed : Deed} {verdict : Except Error NameSet}
  {held : NameSet}

/-- A run that is an attempt tells by its exit code whether it failed. -/
theorem Attempts.exitCode {argv : List String} (h : Attempts d name (.run argv) verdict) :
    (CommandLine.run argv d.world).1.exitCode =
      if (perform (.run argv) d).1 = none then 0 else 1 := by
  cases h with
  | run hstore hwork hrequest =>
    obtain ⟨hnone, -⟩ | ⟨k, log, -, -, hout, -⟩ := run_cases argv d.world
    · cases hnone.symm.trans hwork
    · have hcause : (perform (.run argv) d).1 = (CommandLine.run argv d.world).1.cause := rfl
      rw [hcause, hout]
      exact exitCode_ofResult log _

/-- All that an attempt on a table that is held can do: it is refused and the store holds the same as
before, or a server puts the new table in place of the one that it has. -/
theorem Attempts.cases_of_held (h : Attempts d name deed verdict)
    (hheld : d.store.holdings.get? name = some held) :
    (∃ e, (perform deed d).1 = some e ∧
      (verdict = .error e ∨
        d.store.isMemory = true ∧ (∃ fs, verdict = .ok fs) ∧ e = .tableExists name) ∧
      (perform deed d).2.store.forgetCalls = d.store.forgetCalls) ∨
    (∃ s fs s', d.store = .gateway s ∧ verdict = .ok fs ∧ (perform deed d).1 = none ∧
      (perform deed d).2.store = .gateway s' ∧
      s'.tables = s.tables.insert name ⟨fs.names, ∅⟩) := by
  obtain ⟨hcause, hcontents⟩ := h.effect
  obtain ⟨e, hverdict, hmake⟩ | ⟨fs, hverdict, hmemory, hmake⟩ | ⟨s, fs, hverdict, hstore, hmake⟩ :=
    Store.make_of_held hheld verdict
  · rw [hmake] at hcause hcontents
    exact .inl ⟨e, hcause, .inl hverdict, hcontents⟩
  · rw [hmake] at hcause hcontents
    exact .inl ⟨_, hcause, .inr ⟨hmemory, ⟨fs, hverdict⟩, rfl⟩, hcontents⟩
  · rw [hmake] at hcause hcontents
    cases hafter : (perform deed d).2.store with
    | memory m =>
      rw [hafter] at hcontents
      cases hcontents
    | gateway s' =>
      rw [hafter] at hcontents
      have htables := congrArg Server.tables (Store.gateway.inj hcontents)
      exact .inr ⟨s, fs, s', hstore, hverdict, hcause, rfl, htables⟩

/-- A table that is held is made again exactly if the store is behind a server and the arguments
pass the checks; else all is left as it was. Made again, it has no rows. -/
theorem attempts_on_held (h : Attempts d name deed verdict)
    (hheld : d.store.holdings.get? name = some held) :
    ((perform deed d).1 = none ↔ d.store.isMemory = false ∧ ∃ fs, verdict = .ok fs) ∧
      (∀ e, (perform deed d).1 = some e →
        (verdict = .error e ∨ d.store.isMemory = true ∧ e = .tableExists name) ∧
        (e.category.isSome = true ∨ e = .systemRefused) ∧
        (perform deed d).2.store.forgetCalls = d.store.forgetCalls) ∧
      (∀ s fs, d.store = .gateway s → verdict = .ok fs →
        ∃ s', (perform deed d).2.store = .gateway s' ∧
          s'.tables.get? name = some ⟨fs.names, ∅⟩ ∧
          ∀ t, t ≠ name → s'.tables.get? t = s.tables.get? t) ∧
      ∀ argv, deed = .run argv →
        (CommandLine.run argv d.world).1.exitCode =
          if (perform deed d).1 = none then 0 else 1 := by
  have hexit : ∀ argv, deed = .run argv → (CommandLine.run argv d.world).1.exitCode =
      if (perform deed d).1 = none then 0 else 1 := by
    rintro argv rfl
    exact h.exitCode
  obtain ⟨e, hfailed, hwhy, hsame⟩ | ⟨s, fs, s', hstore, hverdict, hdone, hafter, htables⟩ :=
    h.cases_of_held hheld
  · have hnever : ¬ (d.store.isMemory = false ∧ ∃ fs, verdict = .ok fs) := by
      rintro ⟨hserver, fs, hfs⟩
      obtain hverdict | ⟨hmemory, -⟩ := hwhy
      · cases hverdict.symm.trans hfs
      · cases hmemory.symm.trans hserver
    refine ⟨⟨fun hdone => ?_, fun hcan => absurd hcan hnever⟩, fun e' he' => ?_, ?_, hexit⟩
    · cases hfailed.symm.trans hdone
    · cases hfailed.symm.trans he'
      obtain hverdict | ⟨hmemory, -, rfl⟩ := hwhy
      · exact ⟨.inl hverdict, h.category hverdict, hsame⟩
      · exact ⟨.inr ⟨hmemory, rfl⟩, .inl rfl, hsame⟩
    · intro s fs hstore hfs
      exact absurd ⟨by rw [hstore]; rfl, fs, hfs⟩ hnever
  · have hcan : d.store.isMemory = false ∧ ∃ fs, verdict = .ok fs :=
      ⟨by rw [hstore]; rfl, fs, hverdict⟩
    refine ⟨⟨fun _ => hcan, fun _ => hdone⟩, fun e' he' => ?_, fun s₀ gs hstore₀ hgs => ?_, hexit⟩
    · cases hdone.symm.trans he'
    · cases hstore.symm.trans hstore₀
      cases hverdict.symm.trans hgs
      refine ⟨s', hafter, ?_, fun t ht => ?_⟩
      · rw [htables, get?_insert_self]
      · rw [htables, get?_insert]
        simp only [ht.symm, if_false]

/-- In memory a request for a table that is there is refused. On a server a run is refused if a
column that it declares belongs to no family. -/
theorem attempts_on_held_refused :
    let cells : Cells := OrderedMap.ofList [("f", OrderedMap.ofList [("q", .int 1)])]
    let deeds := [Deed.command (.client (.createTable (some "t") (.names ["f"]))),
      .command (.store (.put "t" "k" cells)), .command (.liveSchema (some "s") "n" []),
      .command (.request (some "b") "s" (some "t") (.names ["g"]))]
    let d := (start (.memory .empty) (.empty []) serverRemembered default).after deeds
    let deed := Deed.command (.execute (some "T") "b")
    let d' := (start (.gateway (.withTables .bytes "" false [])) (.empty [])
      serverRemembered default).after deeds
    let argv := ["create-table", "--store", "hbase", "--table", "t", "--family", "g",
      "--column", "f:q"]
    ((perform deed d).1 = some (.tableExists "t") ∧
      (perform deed d).2.store.forgetCalls = d.store.forgetCalls) ∧
    ((CommandLine.run argv d'.world).1.exitCode = 1 ∧
      (perform (.run argv) d').2.store.forgetCalls = d'.store.forgetCalls) := by
  intro cells deeds d deed d' argv
  have hattempt : Attempts d "t" deed _ := .request rfl rfl rfl
  have hattempt' : Attempts d' "t" (.run argv) _ := .run rfl rfl rfl
  have hfailed : (perform deed d).1 = some (.tableExists "t") := rfl
  have hfailed' : (perform (.run argv) d').1 = some (.unknownFamily "f:q" (some "t")) := rfl
  obtain ⟨-, hrefused, -⟩ := attempts_on_held hattempt rfl
  obtain ⟨-, hrefused', -, hexit⟩ := attempts_on_held hattempt' rfl
  refine ⟨⟨hfailed, (hrefused _ hfailed).2.2⟩, ?_, (hrefused' _ hfailed').2.2⟩
  rw [hexit argv rfl, hfailed']
  rfl

/-- On a server every way to make a table again loses its families and rows, and none is refused. -/
theorem attempts_on_held_replace :
    let cells : Cells := OrderedMap.ofList [("f", OrderedMap.ofList [("q", .int 1)])]
    let d := (start (.gateway (.withTables .bytes "" false [])) (.empty [])
      serverRemembered default).after [.command (.client (.createTable (some "t") (.names ["f"]))),
        .command (.store (.put "t" "k" cells)), .command (.liveSchema (some "s") "n" []),
        .command (.request (some "b") "s" (some "t") (.names ["g"]))]
    let stored : Cells :=
      OrderedMap.ofList [("f", OrderedMap.ofList [("q", .bytes (.ofText "1"))])]
    let argv := ["create-table", "--store", "hbase", "--table", "t", "--family", "g"]
    d.store.holdings.get? "t" = some (NameSet.ofList ["f"]) ∧
      (Client.getRow "t" "k" d.session.client).1 = .ok (some stored) ∧
      (∀ deed ∈ [Deed.command (.client (.createTable (some "t") (.names ["g"]))),
          .command (.execute (some "T") "b"), .run argv],
        (∃ verdict, Attempts d "t" deed verdict) ∧ (perform deed d).1 = none ∧
          (perform deed d).2.store.holdings.get? "t" = some (NameSet.ofList ["g"]) ∧
          (Client.getRow "t" "k" (perform deed d).2.session.client).1 = .ok none) ∧
      (CommandLine.run argv d.world).1.exitCode = 0 := by
  refine ⟨rfl, rfl, ?_, rfl⟩
  simp only [List.forall_mem_cons, List.not_mem_nil, false_implies, implies_true, and_true]
  exact ⟨⟨⟨_, .client (.names ["g"])⟩, rfl, rfl, rfl⟩,
    ⟨⟨_, .request rfl rfl rfl⟩, rfl, rfl, rfl⟩, ⟨⟨_, .run rfl rfl rfl⟩, rfl, rfl, rfl⟩⟩

end Deployment

end WideColumn
