import WideColumn.Proofs.CommandLine.Connections
import WideColumn.Proofs.Store.Logging

/-!
# Exit codes tell the truth

A run that fails has changed nothing and says so with one error; a run that does
not fail has done what was asked. Whatever can refuse does so before the store is
changed, and what is told of the work is only told when nothing can refuse any
more.
-/

namespace WideColumn.CommandLine

open Operation OrderedMap

/-- What a run has done to a server, and the lines that it prints, when it did what was asked. -/
inductive Effect (before after : Server) : Request → List String → Prop where
  /-- The table is there, empty and with the families that were asked for, each of them once; all
  other tables are as they were. -/
  | createTable {store table : String} {families columns fs : List String}
    (hsorted : fs.Pairwise (· < ·)) (hfamilies : ∀ f, f ∈ fs ↔ f ∈ families)
    (hmade : after.tables.get? table = some ⟨fs, ∅⟩)
    (hothers : ∀ other, other ≠ table → after.tables.get? other = before.tables.get? other) :
    Effect before after (.createTable store table families columns) ["Created " ++ table ++ "."]
  /-- The table was there and is gone; all other tables are as they were. -/
  | dropTable {store table : String} (hheld : before.tables.contains table = true)
    (hgone : after.tables.get? table = none)
    (hothers : ∀ other, other ≠ table → after.tables.get? other = before.tables.get? other) :
    Effect before after (.dropTable store table) ["Dropped " ++ table ++ "."]
  /-- Nothing has changed, and the lines are the families of the table, in order and each once, as
  they are read when the server gives them back. -/
  | listFamilies {store table : String} {t : ServerTable} {lines : List String}
    (hheld : before.tables.get? table = some t) (hsame : after.forgetCalls = before.forgetCalls)
    (hsorted : lines.Pairwise (· < ·))
    (hlines : ∀ f, f ∈ lines ↔ ∃ g ∈ t.families, Gateway.trimColons (g ++ before.suffix) = f) :
    Effect before after (.listFamilies store table) lines

variable {argv : List String} {w : World} {k : Work} {i : Invocation} {r : Request}
variable {schemaName table : String} {c c' : Client} {s s' : Server} {lines : List String}

/-- How the use of a store ends: it fails with nothing to tell, and the server holds what it held, or
it is done without an error, and what was asked of a server is done. -/
inductive Work.Ending (k : Work) (before after : Server) : Outcome → Prop where
  /-- It failed. -/
  | failed {e : Error} {log : List LogRecord} (htold : log.filter Outcome.isTold = [])
    (hsame : after.forgetCalls = before.forgetCalls) : k.Ending before after (.failed e log)
  /-- It is done. -/
  | done {lines : List String} {log : List LogRecord} (hnone : ∀ rec ∈ log, rec.level ≠ .error)
    (heffect : k.settings.interface = .server → Effect before after k.request lines) :
    k.Ending before after (.done lines log)

namespace Work.Ending

variable {before after : Server} {o : Outcome}

/-- However a run ends, its exit code is 0 or 1. -/
theorem exitCode (h : k.Ending before after o) : o.exitCode = 0 ∨ o.exitCode = 1 := by
  cases h with
  | failed => exact .inr rfl
  | done => exact .inl rfl

end Work.Ending

end WideColumn.CommandLine
