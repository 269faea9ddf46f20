import WideColumn.Proofs.Store.Stability
import WideColumn.Proofs.Store.Wire

/-!
# Families that are read back

A server may put a colon after the name of a family, so a store behind a server
takes all colons from the end of the names that come back. A store in memory
gives the families of a table as they were set. The two agree exactly on names
that do not end in a colon of their own.
-/

namespace WideColumn

open Operation OrderedMap

namespace Gateway

/-- The families of a set as they are read back from a server. -/
def trimmed (fs : NameSet) : NameSet := NameSet.ofList (fs.names.map trimColons)

/-- A set is read back as it is exactly if none of its names ends in a colon. -/
theorem trimmed_eq_self_iff {fs : NameSet} : trimmed fs = fs ↔ ∀ f ∈ fs, ¬ EndsInColon f := by
  constructor
  · intro h f hf
    rw [← h] at hf
    obtain ⟨g, -, rfl⟩ := List.mem_map.mp (NameSet.mem_ofList.mp hf)
    exact not_endsInColon_trimColons g
  · intro h
    have hsame : ∀ f ∈ fs.names, trimColons f = id f :=
      fun f hf => trimColons_eq_self_iff.mpr (h f hf)
    rw [trimmed, List.map_congr_left hsame, List.map_id, NameSet.ofList_names]

/-- Only the set of the names that a server keeps matters for what is read back. -/
theorem ofList_trimColons {suffix : String} (h : suffix = "" ∨ suffix = ":")
    (families : List String) :
    NameSet.ofList ((families.map (· ++ suffix)).map trimColons) =
      trimmed (NameSet.ofList families) := by
  apply NameSet.ext_mem
  intro n
  have hmem : ∀ f, f ∈ (NameSet.ofList families).names ↔ f ∈ families :=
    fun f => NameSet.mem_ofList
  simp only [trimmed, NameSet.mem_ofList, List.map_map, List.mem_map, Function.comp_apply,
    trimColons_append h, hmem]

end Gateway

namespace Store

/-- The families of a table can be read from the store: the catalogues of a memory store know the
same tables, and a server puts nothing or a colon after a family. -/
structure Legible (st : Store) : Prop where
  /-- A memory store knows the families of every table that has rows. -/
  paired : st.Paired
  /-- What a server puts after a family. -/
  suffix : ∀ x, st.setup = some x → x.2.1 = "" ∨ x.2.1 = ":"

/-- The calls on record do not matter. -/
theorem Legible.of_contents {st st' : Store} (h : st.Legible)
    (heq : st'.forgetCalls = st.forgetCalls) : st'.Legible where
  paired := by
    rw [← paired_forgetCalls, heq, paired_forgetCalls]
    exact h.paired
  suffix := by
    rw [← setup_forgetCalls, heq, setup_forgetCalls]
    exact h.suffix

/-- The families that a store gives back for a table that was made of some. -/
def givenBack : Store → NameSet → NameSet
  | memory _, fs => fs
  | gateway _, fs => Gateway.trimmed fs

/-- The calls on record do not matter to the families that are given back. -/
theorem givenBack_congr {st st' : Store} (h : st'.forgetCalls = st.forgetCalls) (fs : NameSet) :
    st'.givenBack fs = st.givenBack fs := by
  cases st <;> cases st' <;> first | rfl | cases h

/-- They are those that the table was made of, unless the store is behind a server and one of them
ends in a colon. -/
theorem givenBack_eq_self_iff {st : Store} {fs : NameSet} :
    st.givenBack fs = fs ↔ st.isMemory = true ∨ ∀ f ∈ fs, ¬ Gateway.EndsInColon f := by
  cases st with
  | memory m => exact ⟨fun _ => .inl rfl, fun _ => rfl⟩
  | gateway s =>
    rw [givenBack, Gateway.trimmed_eq_self_iff]
    constructor
    · exact .inr
    · rintro (h | h)
      · cases h
      · exact h

variable {st : Store} {name : String} {fs : NameSet}

/-- A store knows a table that it holds. -/
theorem tableExists_of_held (h : st.holdings.get? name = some fs) :
    (tableExists name st).1 = .ok true := by
  cases st with
  | memory m =>
    have hfs : m.families.get? name = some fs := h
    have hknown : m.families.contains name = true := by
      rw [contains, hfs]
      rfl
    exact congrArg Except.ok hknown
  | gateway s =>
    obtain ⟨t, ht, -⟩ := Server.exists_table_of_held h
    have hknown : s.tables.contains name = true := by
      rw [contains, ht]
      rfl
    have hexists := congrArg Prod.fst (Gateway.tableExists_apply name s)
    rw [hknown] at hexists
    exact hexists

/-- The families of a table that the store holds can be read. -/
theorem tableFamilies_of_held (hst : st.Legible) (h : st.holdings.get? name = some fs) :
    (tableFamilies name st).1 = .ok (st.givenBack fs) := by
  cases st with
  | memory m =>
    have hfs : m.families.get? name = some fs := h
    obtain ⟨rows, hrows⟩ := Memory.Paired.exists_rows hst.paired hfs
    exact congrArg Prod.fst (Memory.tableFamilies_of_present hrows hfs)
  | gateway s =>
    obtain ⟨t, ht, rfl⟩ := Server.exists_table_of_held h
    have hsuffix : s.suffix = "" ∨ s.suffix = ":" := hst.suffix s.setup rfl
    have hread := congrArg Prod.fst (Gateway.tableFamilies_of_found ht)
    rw [Gateway.ofList_trimColons hsuffix] at hread
    exact hread

end Store

/-- A client reads the families of every table that its store holds. -/
theorem Client.tableFamilies_of_held {c : Client} {name : String} {fs : NameSet}
    (hc : c.store.Legible) (h : c.store.holdings.get? name = some fs) :
    (tableFamilies name c).1 = .ok (c.store.givenBack fs) := by
  have hexists := Store.tableExists_of_held h
  have hsame : (Store.tableExists name c.store).2.forgetCalls = c.store.forgetCalls :=
    Store.leaves_tableExists name c.store
  rcases hr : Store.tableExists name c.store with ⟨r, st⟩
  rw [hr] at hexists hsame
  obtain rfl : r = .ok true := hexists
  have hrequire : requireTable name c = (.ok (), { c with store := st }) := by
    unfold requireTable tableExists onStore
    rw [bind_of_ok (within_of hr)]
    rfl
  have hheld : st.holdings.get? name = some fs := by
    rw [← Store.holdings_forgetCalls, hsame, Store.holdings_forgetCalls]
    exact h
  unfold tableFamilies
  rw [bind_of_ok hrequire]
  have hread := Store.tableFamilies_of_held (hc.of_contents hsame) hheld
  rw [Store.givenBack_congr hsame] at hread
  exact hread

end WideColumn
