import WideColumn.Proofs.Collections.OrderedMap
import WideColumn.Row.Basic

/-!
# Cells through their two views

Cells are known by the families they have and by the value of each cell. Every
way of putting cells together is described here through these two views, so
that the order in which families and qualifiers first came plays no part. For
the cells of a row the order of the families is told as well: it is the one in
which they first come among the columns.
-/

namespace WideColumn

namespace Cells

open OrderedMap

/-- A family that is there keeps its place, and a new one comes last. -/
theorem families_addFamily (cells : Cells) (f : String) (l : List (String × Value)) :
    (cells.addFamily f l).families =
      if f ∈ cells.families then cells.families else cells.families ++ [f] :=
  keys_insert ..

theorem mem_families_addFamily {cells : Cells} {f g : String} {l : List (String × Value)} :
    g ∈ (cells.addFamily f l).families ↔ g = f ∨ g ∈ cells.families :=
  mem_keys_insert.trans or_comm

/-- Writing into a family leaves the other families as they are. -/
theorem family_addFamily (cells : Cells) (f g : String) (l : List (String × Value)) :
    (cells.addFamily f l).family g =
      if f = g then (cells.family f).insertAll l else cells.family g := by
  rw [family, addFamily, get?_insert]
  split <;> rfl

/-- A single cell that is added is found, and no other cell changes. -/
theorem cell?_addFamily_one (cells : Cells) (f g q p : String) (v : Value) :
    (cells.addFamily f [(q, v)]).cell? g p =
      if f = g ∧ q = p then some v else cells.cell? g p := by
  rw [cell?, family_addFamily]
  by_cases hf : f = g
  · subst hf
    simp only [if_true, true_and]
    exact get?_insert ..
  · rw [if_neg hf, if_neg fun h => hf h.1]
    rfl

/-- A family without cells has no cell of any qualifier. -/
theorem cell?_of_not_mem {cells : Cells} {f : String} (h : f ∉ cells.families) (q : String) :
    cells.cell? f q = none := by
  rw [cell?, family, (get?_eq_none_iff cells f).mpr h]
  rfl

/-- A cell lies in a family that is there. -/
theorem mem_families_of_cell? {cells : Cells} {f q : String} {v : Value}
    (h : cells.cell? f q = some v) : f ∈ cells.families := by
  refine Classical.byContradiction fun hf => ?_
  rw [cell?_of_not_mem hf] at h
  cases h

theorem mem_families_iff {cells : Cells} {f : String} :
    f ∈ cells.families ↔ ∃ F, get? cells f = some F :=
  ⟨get?_of_mem_keys, fun ⟨_, h⟩ => mem_keys_of_get? h⟩

/-- A cell is one of the bindings of its family. -/
theorem cell?_eq_some_iff {cells : Cells} {f q : String} {v : Value} :
    cells.cell? f q = some v ↔ ∃ F, get? cells f = some F ∧ F.get? q = some v := by
  rw [cell?, family]
  cases get? cells f with
  | none => simp
  | some F => simp

/-- The cells one by one, each with its family and its qualifier. -/
def flat (cells : Cells) : List ((String × String) × Value) :=
  cells.entries.flatMap fun e => e.2.entries.map fun b => ((e.1, b.1), b.2)

/-- The flat list has exactly the cells, each with its family and qualifier. -/
theorem mem_flat {cells : Cells} {f q : String} {v : Value} :
    ((f, q), v) ∈ cells.flat ↔ cells.cell? f q = some v := by
  rw [flat, List.mem_flatMap, cell?_eq_some_iff]
  constructor
  · rintro ⟨⟨g, F⟩, he, hb⟩
    obtain ⟨⟨p, w⟩, hq, heq⟩ := List.mem_map.mp hb
    cases heq
    exact ⟨F, mem_entries_iff.mp he, mem_entries_iff.mp hq⟩
  · rintro ⟨F, hF, hq⟩
    exact ⟨(f, F), mem_entries_iff.mpr hF, List.mem_map.mpr ⟨(q, v), mem_entries_iff.mpr hq, rfl⟩⟩

/-- No cell comes twice. -/
theorem nodup_flat (cells : Cells) : (cells.flat.map Prod.fst).Nodup := by
  have hkeys : cells.entries.Pairwise fun e e' => e.1 ≠ e'.1 := List.pairwise_map.mp cells.nodup
  rw [flat, List.map_flatMap, List.Nodup, List.pairwise_flatMap]
  constructor
  · rintro ⟨f, F⟩ -
    have hquals : F.entries.Pairwise fun q p => q.1 ≠ p.1 := List.pairwise_map.mp F.nodup
    rw [List.map_map, List.pairwise_map]
    exact hquals.imp fun hne heq => hne (Prod.mk.inj heq).2
  · refine hkeys.imp ?_
    rintro ⟨f, F⟩ ⟨g, G⟩ hne b hb b' hb' heq
    simp only [List.map_map, List.mem_map] at hb hb'
    obtain ⟨q, -, rfl⟩ := hb
    obtain ⟨p, -, rfl⟩ := hb'
    exact hne (Prod.mk.inj heq).1

/-- A cell is found in the list of all cells. -/
theorem lookupEntry_flat (cells : Cells) (f q : String) :
    lookupEntry (f, q) cells.flat = cells.cell? f q := by
  apply Option.ext
  intro v
  rw [← mem_flat]
  exact ⟨mem_of_lookupEntry, lookupEntry_of_mem cells.nodup_flat⟩

/-- `after` is `before` with `added` on top: it has the families of both, and the cells of `added`
where there are some, else those of `before`. -/
structure IsOverlay (before added after : Cells) : Prop where
  /-- A family is there if one of the two has it. -/
  families : ∀ f, f ∈ after.families ↔ f ∈ before.families ∨ f ∈ added.families
  /-- A cell is the upper one, or else the lower one. -/
  cells : ∀ f q, after.cell? f q = (added.cell? f q).or (before.cell? f q)

/-- What is written family by family is, in each family, the union with what was there. -/
theorem family_foldl {l : List (String × OrderedMap String Value)}
    (hl : (l.map Prod.fst).Nodup) (cells : Cells) (g : String) :
    (l.foldl (fun acc e => acc.addFamily e.1 e.2.entries) cells).family g =
      (cells.family g).union ((lookupEntry g l).getD ∅) := by
  induction l generalizing cells with
  | nil => rfl
  | cons e rest ih =>
    obtain ⟨hnew, hrest⟩ := List.nodup_cons.mp hl
    rw [List.foldl_cons, ih hrest, family_addFamily, lookupEntry]
    by_cases he : e.1 = g
    · subst he
      have hnone : lookupEntry e.1 rest = none := (lookupEntry_eq_none_iff e.1 rest).mpr hnew
      rw [if_pos rfl, if_pos rfl, hnone]
      rfl
    · rw [if_neg he, if_neg he]

/-- A family of an overlay is the overlay of the families. -/
theorem family_overlay (cells added : Cells) (g : String) :
    (cells.overlay added).family g = (cells.family g).union (added.family g) :=
  family_foldl added.nodup cells g

/-- Writing family by family adds these families and no others. -/
theorem mem_families_foldl {l : List (String × OrderedMap String Value)} {cells : Cells}
    {g : String} :
    g ∈ (l.foldl (fun acc e => acc.addFamily e.1 e.2.entries) cells).families ↔
      g ∈ cells.families ∨ g ∈ l.map Prod.fst := by
  induction l generalizing cells with
  | nil => simp
  | cons e rest ih =>
    rw [List.foldl_cons, ih, mem_families_addFamily, List.map_cons, List.mem_cons, or_assoc,
      or_left_comm]

/-- Laying cells on top of others gives their overlay. -/
theorem isOverlay_overlay (cells added : Cells) : IsOverlay cells added (cells.overlay added) where
  families _ := mem_families_foldl
  cells f q := by
    rw [cell?, family_overlay]
    exact get?_union ..

/-- Cells laid on top of each other in turn, the first at the bottom. -/
def merge (layers : List Cells) : Cells := layers.foldl overlay ∅

@[simp] theorem merge_concat (layers : List Cells) (cells : Cells) :
    merge (layers ++ [cells]) = (merge layers).overlay cells := by
  rw [merge, List.foldl_append]
  rfl

/-- `cells` is a merge of layers: it has the families of all of them, and each cell is that of the
last layer that has it. -/
structure IsMerge (layers : List Cells) (cells : Cells) : Prop where
  /-- A family is there if one of the layers has it. -/
  families : ∀ f, f ∈ cells.families ↔ ∃ layer ∈ layers, f ∈ layer.families
  /-- A cell is the one that came last. -/
  cells : ∀ f q, cells.cell? f q = layers.reverse.findSome? fun layer => layer.cell? f q

/-- Nothing merged is the empty row. -/
theorem isMerge_nil : IsMerge [] ∅ where
  families f := by simp [Cells.families]
  cells _ _ := rfl

/-- One more layer on top of a merge gives the merge with it. -/
theorem IsMerge.concat {layers : List Cells} {before : Cells} (h : IsMerge layers before)
    (added : Cells) : IsMerge (layers ++ [added]) (before.overlay added) where
  families f := by
    rw [(isOverlay_overlay before added).families, h.families]
    simp [or_and_right, exists_or]
  cells f q := by
    rw [(isOverlay_overlay before added).cells, h.cells, List.reverse_append,
      List.reverse_singleton, List.singleton_append, List.findSome?_cons]
    cases added.cell? f q with
    | none => rfl
    | some v => rfl

/-- Layers that come on top of a merge make a merge of all of them. -/
theorem IsMerge.append {layers : List Cells} {before : Cells} (h : IsMerge layers before)
    (rest : List Cells) : IsMerge (layers ++ rest) (rest.foldl overlay before) := by
  induction rest generalizing layers before with
  | nil => rwa [List.append_nil]
  | cons added rest ih =>
    rw [List.foldl_cons, ← List.singleton_append, ← List.append_assoc]
    exact ih (h.concat added)

/-- Laying cells on top of each other in turn gives their merge. -/
theorem isMerge_merge (layers : List Cells) : IsMerge layers (merge layers) :=
  isMerge_nil.append layers

end Cells

namespace Row

open Cells

/-- A contribution adds the family of its column, if it is new, and no other. -/
theorem families_contribute {cells cells' : Cells} {c : Column} {v : Value}
    (h : contribute cells c v = .ok cells') :
    cells'.families = cells.families ++ c.family.toList.filter (· ∉ cells.families) := by
  have hadd : ∀ f l, (cells.addFamily f l).families =
      cells.families ++ [f].filter (· ∉ cells.families) := by
    intro f l
    rw [families_addFamily]
    by_cases hf : f ∈ cells.families <;> simp [hf]
  unfold contribute at h
  split at h
  · rename_i hf
    cases h
    simp [hf]
  · rename_i f q hf hq
    cases h
    rw [hf]
    exact hadd f _
  · rename_i f hf hq
    split at h
    · cases h
      rw [hf]
      exact hadd f _
    · cases h

/-- New families come last, each in the place where it first came; by induction on the entries. -/
theorem families_contributeAll {l : List (Column × Value)} {cells cells' : Cells}
    (h : contributeAll cells l = .ok cells') :
    cells'.families = cells.families ++
      (((l.map Prod.fst).filterMap Column.family).filter (· ∉ cells.families)).eraseDups := by
  induction l generalizing cells with
  | nil =>
    cases h
    simp
  | cons e rest ih =>
    rw [contributeAll] at h
    split at h
    · rename_i mid hmid
      have hfirst := families_contribute hmid
      rw [ih h, List.map_cons, List.filterMap_cons]
      cases hf : e.1.family with
      | none =>
        rw [hf, Option.toList_none, List.filter_nil, List.append_nil] at hfirst
        rw [hfirst]
      | some f =>
        rw [hf, Option.toList_some] at hfirst
        by_cases hold : f ∈ cells.families
        · have hmid : mid.families = cells.families := by simpa [hold] using hfirst
          rw [hmid, List.filter_cons_of_neg (by simpa using hold)]
        · -- The family is new: it stands once, in front of the families that are new after it.
          have hmid : mid.families = cells.families ++ [f] := by simpa [hold] using hfirst
          have hnew : (fun g => decide (g ∉ cells.families ++ [f])) =
              fun g => (!g == f) && decide (g ∉ cells.families) := by
            funext g
            rw [Bool.eq_iff_iff]
            simp [and_comm]
          rw [hmid, hnew, List.filter_cons_of_pos (by simpa using hold), List.eraseDups_cons,
            List.filter_filter, List.append_assoc, List.singleton_append]
    · cases h

/-- The families of the cells are those of the columns, in the order in which they first come. -/
theorem families_cells {r : Row} {C : Cells} (h : r.cells = .ok C) :
    C.families = (r.columns.filterMap Column.family).eraseDups := by
  have hnew : (r.columns.filterMap Column.family).filter (· ∉ Cells.families ∅) =
      r.columns.filterMap Column.family :=
    List.filter_eq_self.mpr fun _ _ => decide_eq_true List.not_mem_nil
  exact (families_contributeAll h).trans (congrArg List.eraseDups hnew)

/-- The cells of a row have exactly the families of its columns. -/
theorem mem_families_cells {r : Row} {cells : Cells} (h : r.cells = .ok cells) (g : String) :
    g ∈ cells.families ↔ ∃ c ∈ r.columns, c.family = some g := by
  rw [families_cells h, List.mem_eraseDups, List.mem_filterMap]

end Row

end WideColumn
