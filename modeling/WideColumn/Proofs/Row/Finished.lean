import WideColumn.Proofs.Collections.OrderedMap
import WideColumn.Proofs.Column
import WideColumn.Row.Draft

/-!
# What a finished row is made of

A finished row has the identifier, if it was given, and then the kept values in
the order in which their columns were first given. A value that is kept under
the identifier would take its place, so the exact order and the identifier are
known only where there is no such value.
-/

namespace WideColumn.RowDraft

open OrderedMap

/-- The entries that a finished row has for the identifier: one, if it was given. -/
def idEntries (d : RowDraft) : List (Column × Value) :=
  match d.table.idColumn, d.id with
  | some c, some v => [(c, v)]
  | _, _ => []

/-- The entry for the identifier has the column of the table and the value of the draft. -/
theorem mem_idEntries {d : RowDraft} {e : Column × Value} (h : e ∈ d.idEntries) :
    d.table.idColumn = some e.1 ∧ d.id = some e.2 := by
  unfold idEntries at h
  split at h
  · rename_i c v hc hv
    rw [List.mem_singleton] at h
    subst h
    exact ⟨hc, hv⟩
  · cases h

theorem isIdentifier_of_mem_idEntries {d : RowDraft} :
    ∀ e ∈ d.idEntries, e.1.isIdentifier = true :=
  fun _ he => Table.isIdentifier_of_idColumn (mem_idEntries he).1

/-- A finished row has one identifier at most. -/
theorem nodup_idEntries (d : RowDraft) : (d.idEntries.map Prod.fst).Nodup := by
  unfold idEntries
  split
  · simp
  · simp

/-- A finished row has the identifier first and the values of the draft after it. -/
theorem finishedValues_eq (d : RowDraft) :
    d.finishedValues = (OrderedMap.ofList d.idEntries).union d.values := by
  unfold finishedValues idEntries
  cases d.table.idColumn with
  | none => rfl
  | some c =>
    cases d.id with
    | none => rfl
    | some v => rfl

/-- A value of a finished row is the identifier or is kept. -/
theorem mem_entries_build {d : RowDraft} {k : Column} {v : Value}
    (h : (k, v) ∈ d.build.values.entries) :
    (d.table.idColumn = some k ∧ d.id = some v) ∨ (k, v) ∈ d.values.entries := by
  have hget : d.finishedValues.get? k = some v := mem_entries_iff.mp h
  rw [finishedValues_eq, get?_union, get?_ofList d.nodup_idEntries, Option.or_eq_some_iff] at hget
  rcases hget with hkept | ⟨-, hid⟩
  · exact .inr (mem_entries_iff.mpr hkept)
  · exact .inl (mem_idEntries (mem_of_lookupEntry hid))

/-- Where no value is kept under an identifier, a finished row has the identifier first and then the
kept values. -/
theorem entries_build {d : RowDraft} (h : ∀ e ∈ d.values.entries, e.1.isIdentifier = false) :
    d.build.values.entries = d.idEntries ++ d.values.entries := by
  have hstart : (OrderedMap.ofList d.idEntries).entries = d.idEntries :=
    entries_insertAll_of_not_mem d.nodup_idEntries fun _ _ => List.not_mem_nil
  have hnew : ∀ k ∈ d.values.entries.map Prod.fst, k ∉ (OrderedMap.ofList d.idEntries).keys := by
    intro k hk hid
    obtain ⟨e, he, rfl⟩ := List.mem_map.mp hk
    rw [keys, hstart] at hid
    obtain ⟨e', he', heq⟩ := List.mem_map.mp hid
    have hident := isIdentifier_of_mem_idEntries e' he'
    rw [heq, h e he] at hident
    cases hident
  have happend := entries_insertAll_of_not_mem d.values.nodup hnew
  rw [hstart] at happend
  exact (congrArg OrderedMap.entries d.finishedValues_eq).trans happend

/-- Where no value is kept under an identifier, the identifier of a finished row is the one that was
given. -/
theorem idValue_build {d : RowDraft} (h : ∀ e ∈ d.values.entries, e.1.isIdentifier = false)
    (hid : ∀ v, d.id = some v → ∃ c, d.table.idColumn = some c) :
    d.build.idValue = d.id.getD .null := by
  have hkept : d.values.entries.find? (fun e => e.1.isIdentifier) = none :=
    List.find?_eq_none.mpr fun e he => by rw [h e he]; exact Bool.false_ne_true
  have hfirst : (d.idEntries.find? fun e => e.1.isIdentifier).map Prod.snd = d.id := by
    cases hv : d.id with
    | none =>
      simp only [idEntries, hv]
      cases d.table.idColumn with
      | none => rfl
      | some c => rfl
    | some v =>
      obtain ⟨c, hc⟩ := hid v hv
      simp only [idEntries, hc, hv, List.find?_cons, Table.isIdentifier_of_idColumn hc]
      rfl
  rw [Row.idValue, Row.idValue?, entries_build h, List.find?_append, hkept, Option.or_none, hfirst]

end WideColumn.RowDraft
