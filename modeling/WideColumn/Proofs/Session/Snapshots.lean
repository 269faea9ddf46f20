import WideColumn.Proofs.Schema
import WideColumn.Proofs.Session.Handles

/-!
# Live schemas and their snapshots

Whatever is done in a session, a live schema stays under the name under which it
was made, and files its tables under their own names. A snapshot gives the answers
that the schema gave when it was frozen, for good, and nothing can be made or
dropped through it.
-/

namespace WideColumn.Session

open Operation OrderedMap

variable {s : Session} {handle : String} {c : Command}

/-- A schema that is kept gives these answers, and all commands that ask it tell them. -/
structure Shows (s : Session) (handle : String) (S : Schema) : Prop where
  /-- The schema as a whole. -/
  shown : (perform (.showSchema handle) s).1.result = .ok (.schema S)
  /-- The table of a name, if there is one. -/
  found : ∀ n, (perform (.getTable none handle n) s).1.result = .ok (.table (S.getTable n))
  /-- What is frozen of the schema. -/
  frozen : ∀ keepAs,
    (perform (.freeze keepAs handle) s).1.result = .ok (.schema (.frozen S.freeze))

/-- A live schema that is kept gives its answers, and those of the changed schema once a table has
been added or removed. -/
structure ShowsLive (s : Session) (handle : String) (S : LiveSchema) : Prop where
  /-- It gives its answers. -/
  shows : s.Shows handle (.live S)
  /-- A table is added. -/
  added : ∀ table t, s.kept.get? table = some (.table t) →
    (perform (.addTable handle table) s).2.Shows handle (.live (S.addTable t))
  /-- A table is removed. -/
  removed : ∀ name,
    (perform (.removeTable handle name) s).2.Shows handle (.live (S.removeTable name))

/-- A frozen schema that is kept gives its answers, and refuses that anything is requested or dropped
through it: this leaves the session, with an empty log, and calls no server. -/
structure ShowsFrozen (s : Session) (handle : String) (F : FrozenSchema) : Prop where
  /-- It gives its answers. -/
  shows : s.Shows handle (.frozen F)
  /-- What is frozen of it is itself. -/
  itself : ∀ keepAs, (perform (.freeze keepAs handle) s).1.result = .ok (.schema (.frozen F))
  /-- No table can be requested of it. -/
  request_refused : ∀ keepAs table families, perform (.request keepAs handle table families) s =
    (⟨.error (.frozenSchema F.display), [], []⟩, s.quiet)
  /-- No table can be dropped from it. -/
  drop_refused : ∀ table, perform (.dropTable handle table) s =
    (⟨.error (.frozenSchema F.display), [], []⟩, s.quiet)

/-- A live schema that is kept under a name is found under it, with its place. -/
theorem findSchema_of_live {place : Nat} {S : LiveSchema}
    (h : s.kept.get? handle = some (.live place)) (hS : s.schemas[place]? = some S) :
    findSchema handle s = (.ok (.live S, some place), s) :=
  (bind_of_ok (find_of_kept h)).trans (bind_of_ok (schemaAt_of_some hS))

/-- A live schema is found where one is needed that can change. -/
theorem findLive_of_live {place : Nat} {S : LiveSchema}
    (h : s.kept.get? handle = some (.live place)) (hS : s.schemas[place]? = some S)
    (refusal : Schema → Error) :
    findLive handle refusal s = (.ok (S, place), s) :=
  bind_of_ok (findSchema_of_live h hS)

/-- A frozen schema that is kept under a name is found under it. -/
theorem findSchema_of_frozen {F : FrozenSchema} (h : s.kept.get? handle = some (.frozen F)) :
    findSchema handle s = (.ok (.frozen F, none), s) :=
  bind_of_ok (find_of_kept h)

theorem findTable_of_kept {t : Table} (h : s.kept.get? handle = some (.table t)) :
    findTable handle s = (.ok t, s) :=
  bind_of_ok (find_of_kept h)

/-- A schema that is found gives its answers. -/
theorem shows_of_findSchema {p : Schema × Option Nat}
    (h : findSchema handle s.quiet = (.ok p, s.quiet)) : s.Shows handle p.1 where
  shown := congrArg Prod.fst (bind_of_ok h)
  found n := by
    refine (congrArg Prod.fst (bind_of_ok h)).trans ?_
    cases p.1.getTable n <;> rfl
  frozen keepAs := by
    have hstep : step (.freeze keepAs handle) s.quiet =
        (keep keepAs (.frozen p.1.freeze) >>= fun _ => pure (.schema (.frozen p.1.freeze)))
          s.quiet := bind_of_ok h
    change (step (.freeze keepAs handle) s.quiet).1 = _
    rw [hstep]
    cases keepAs <;> rfl

/-- A command that fails before it does anything leaves the session, with an empty log and without
calls. -/
theorem perform_of_refused {e : Error} (h : step c s.quiet = (.error e, s.quiet)) :
    perform c s = (⟨.error e, [], []⟩, s.quiet) := by
  have hcalls : s.quiet.client.store.calls = [] := Store.calls_forgetCalls s.client.store
  simp only [perform, h, hcalls]
  rfl

/-- A live schema that is kept under a name answers under it. -/
theorem shows_of_kept {place : Nat} {S : LiveSchema}
    (h : s.kept.get? handle = some (.live place)) (hS : s.schemas[place]? = some S) :
    s.Shows handle (.live S) :=
  shows_of_findSchema (p := (.live S, some place)) (findSchema_of_live (s := s.quiet) h hS)

/-- A live schema that is kept under a name does all that a live one does. -/
theorem showsLive_of_kept {place : Nat} {S : LiveSchema}
    (h : s.kept.get? handle = some (.live place)) (hS : s.schemas[place]? = some S) :
    s.ShowsLive handle S where
  shows := shows_of_kept h hS
  added table t ht := by
    have hlive := findLive_of_live (s := s.quiet) h hS fun _ => .noOperation
    have ht' : findTable table s.quiet = (.ok t, s.quiet) := findTable_of_kept ht
    have hstep : step (.addTable handle table) s.quiet = (.ok (.schema (.live (S.addTable t))),
        { s.quiet with schemas := s.schemas.set place (S.addTable t) }) :=
      (bind_of_ok hlive).trans (bind_of_ok ht')
    change (step (.addTable handle table) s.quiet).2.Shows handle _
    rw [hstep]
    exact shows_of_kept h (List.getElem?_set_self (List.getElem?_eq_some_iff.mp hS).1)
  removed name := by
    have hlive := findLive_of_live (s := s.quiet) h hS fun _ => .noOperation
    have hstep : step (.removeTable handle name) s.quiet = (.ok (.table (S.getTable name)),
        { s.quiet with schemas := s.schemas.set place (S.removeTable name) }) :=
      bind_of_ok hlive
    change (step (.removeTable handle name) s.quiet).2.Shows handle _
    rw [hstep]
    exact shows_of_kept h (List.getElem?_set_self (List.getElem?_eq_some_iff.mp hS).1)

/-- A frozen schema that is kept under a name does all that a frozen one does. -/
theorem showsFrozen_of_kept {F : FrozenSchema} (h : s.kept.get? handle = some (.frozen F)) :
    s.ShowsFrozen handle F := by
  have hquiet : s.quiet.kept.get? handle = some (.frozen F) := h
  have hlive : findLive handle notLive s.quiet = (.error (.frozenSchema F.display), s.quiet) :=
    bind_of_ok (findSchema_of_frozen hquiet)
  have hshows : s.Shows handle (.frozen F) := shows_of_findSchema (findSchema_of_frozen hquiet)
  exact ⟨hshows, hshows.frozen,
    fun _ _ _ => perform_of_refused (bind_of_error hlive),
    fun _ => perform_of_refused (bind_of_error hlive)⟩

/-- A live schema that is made is kept in a new place. -/
theorem kept_of_liveSchema {name : String} {tables : List String} {answer : Answer}
    (h : (perform (.liveSchema (some handle) name tables) s).1.result = .ok answer) :
    let s' := (perform (.liveSchema (some handle) name tables) s).2
    ∃ place ts, s'.kept.get? handle = some (.live place) ∧
      s'.schemas[place]? = some (.ofTables name ts) := by
  intro s'
  have hstep : step (.liveSchema (some handle) name tables) s.quiet = (.ok answer, s') :=
    Prod.ext h rfl
  obtain ⟨ts, s₁, -, hmake⟩ := bind_eq_ok hstep
  obtain ⟨place, s₂, hnew, hkeep⟩ := bind_eq_ok hmake
  cases hnew
  have hkept := congrArg Prod.snd hkeep
  have hlast : s' = _ := hkept.symm
  rw [hlast]
  exact ⟨_, ts, get?_insert_self .., List.getElem?_concat_length⟩

/-- A live schema stays under its name whatever is done; what is frozen of it gives the same answers
after any further commands, and refuses to request or drop. -/
theorem snapshot_of_live {name : String} {tables : List String} {answer : Answer}
    (hmade : (perform (.liveSchema (some handle) name tables) s).1.result = .ok answer)
    {cs : List Command} (hcs : ∀ c ∈ cs, c.keepAs ≠ some handle) :
    let now := (perform (.liveSchema (some handle) name tables) s).2.after cs
    ∃ S : LiveSchema, now.ShowsLive handle S ∧ S.name = name ∧ S.InOrder ∧
      (Schema.live S).Agree (.frozen S.freeze) ∧
      ∀ (snap : String) (later : List Command), (∀ c ∈ later, c.keepAs ≠ some snap) →
        ((perform (.freeze (some snap) handle) now).2.after later).ShowsFrozen snap S.freeze := by
  intro now
  obtain ⟨place, ts, hkept, hplace⟩ := kept_of_liveSchema hmade
  have hnow : now.kept.get? handle = some (.live place) :=
    kept_after_of_schema (.inl ⟨place, rfl⟩) hcs hkept
  obtain ⟨S, hS, hname, hkeyed⟩ : ∃ S, now.schemas[place]? = some S ∧ S.name = name ∧ S.Keyed :=
    exists_at_after (P := fun S => S.name = name ∧ S.Keyed)
      (fun _ t h => ⟨h.1, LiveSchema.keyed_addTable h.2 t⟩)
      (fun _ n h => ⟨h.1, LiveSchema.keyed_removeTable h.2 n⟩) cs
      ⟨_, hplace, LiveSchema.name_ofTables name ts, LiveSchema.keyed_ofTables name ts⟩
  have hfound : findSchema handle now.quiet = (.ok (.live S, some place), now.quiet) :=
    findSchema_of_live hnow hS
  refine ⟨S, showsLive_of_kept hnow hS, hname, hkeyed.inOrder, hkeyed.agree_freeze,
    fun snap later hlater => ?_⟩
  -- The snapshot is kept by value, so what is done to the schema afterwards does not reach it.
  have hfrozen : (perform (.freeze (some snap) handle) now).2.kept.get? snap =
      some (.frozen S.freeze) := by
    have hstep : step (.freeze (some snap) handle) now.quiet =
        (.ok (.schema (.frozen S.freeze)),
          { now.quiet with kept := now.quiet.kept.insert snap (.frozen S.freeze) }) :=
      bind_of_ok hfound
    change (step (.freeze (some snap) handle) now.quiet).2.kept.get? snap = _
    rw [hstep]
    exact get?_insert_self ..
  exact showsFrozen_of_kept (kept_after_of_schema (.inr ⟨S.freeze, rfl⟩) hlater hfrozen)

/-- A schema that is made of two tables of one name and goes through additions, removals, requests
and drops. -/
theorem snapshot_of_live_changed :
    let made : List Command :=
      [.makeTable (some "t") (.text "s") (.text "t") [.named "f:q"] ["f"],
        .makeTable (some "t2") (.text "s") (.text "t") [.named "g:q"] ["g"],
        .makeTable (some "u") (.text "s") (.text "u") [.named "h:q"] ["h"]]
    let make := Command.liveSchema (some "S") "s" ["t", "u", "t2"]
    let cs : List Command :=
      [.addTable "S" "t", .request (some "b") "S" (some "v") (.names ["k"]), .execute none "b",
        .removeTable "S" "t", .addTable "S" "t2", .dropTable "S" "v", .dropTable "S" "v"]
    let start := (on (.memory .empty)).after made
    let now := (perform make start).2.after cs
    let u : Table := ⟨"s", "u", [.cell "h" "q" .binary], NameSet.ofList ["h"]⟩
    let t : Table := ⟨"s", "t", [.cell "g" "q" .binary], NameSet.ofList ["g"]⟩
    let S : LiveSchema := ⟨"s", ofList [("u", u), ("t", t)]⟩
    now.ShowsLive "S" S ∧ S.tableNames = ["u", "t"] ∧ S.freeze = ⟨"s", [u, t]⟩ ∧
      S.InOrder ∧ (Schema.live S).Agree (.frozen S.freeze) ∧
      ∀ (snap : String) (later : List Command), (∀ c ∈ later, c.keepAs ≠ some snap) →
        ((perform (.freeze (some snap) "S") now).2.after later).ShowsFrozen snap
          ⟨"s", [u, t]⟩ := by
  intro made make cs start now u t S
  obtain ⟨answer, hmade⟩ : ∃ answer, (perform make start).1.result = .ok answer := ⟨_, rfl⟩
  have hcs : ∀ c ∈ cs, c.keepAs ≠ some "S" := by decide
  obtain ⟨S', hlive, -, hsound⟩ := snapshot_of_live hmade hcs
  have hkept : now.kept.get? "S" = some (.live 0) := by
    unfold now start make made cs
    rfl
  have hplace : now.schemas[0]? = some S := by decide +kernel
  have hlive' : now.ShowsLive "S" S' := hlive
  have hsame : S = S' := by
    have hshown := (shows_of_kept hkept hplace).shown
    rw [hlive'.shows.shown] at hshown
    exact (Schema.live.inj (Answer.schema.inj (Except.ok.inj hshown))).symm
  rw [← hsame] at hlive hsound
  exact ⟨hlive, rfl, rfl, hsound⟩

end WideColumn.Session
