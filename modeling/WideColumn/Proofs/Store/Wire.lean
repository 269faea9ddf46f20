import Mathlib.Data.List.DropRight
import WideColumn.Proofs.Column
import WideColumn.Proofs.Row.Cells
import WideColumn.Store.Gateway

/-!
# Cells as rows of bytes

A server keeps the cells of a row flat, under names joined from family and
qualifier. Joined names of families without a colon determine both parts, so a
flat row determines the value of every cell, though neither a family without
cells nor the order of the families. Laying cells on top of others and reading
a row back are compared through this one relation.
-/

namespace WideColumn

open OrderedMap

/-- No colon stands in the name. -/
def ColonFree (s : String) : Prop := ':' ∉ s.toList

instance (s : String) : Decidable (ColonFree s) := inferInstanceAs (Decidable (':' ∉ s.toList))

/-- The bindings whose values are accepted, in the same order. -/
def OrderedMap.filterValues {κ ν : Type} (p : ν → Bool) (m : OrderedMap κ ν) :
    OrderedMap κ ν where
  entries := m.entries.filter fun e => p e.2
  nodup := List.Sublist.nodup (List.Sublist.map _ List.filter_sublist) m.nodup

/-- A key is bound to an accepted value exactly when it was bound to that value before. -/
theorem OrderedMap.get?_filterValues_eq_some {κ ν : Type} [DecidableEq κ] {p : ν → Bool}
    {m : OrderedMap κ ν} {k : κ} {v : ν} :
    (m.filterValues p).get? k = some v ↔ m.get? k = some v ∧ p v = true := by
  rw [← mem_entries_iff, ← mem_entries_iff, filterValues, List.mem_filter]

namespace Cells

/-- The cells as a server gives them back: every value as its bytes, and no family without cells. -/
def wire (cells : Cells) : Cells :=
  (filterValues (fun F => !F.isEmpty) cells).mapValues fun F =>
    F.mapValues fun v => .bytes v.encode

/-- A row as a server gives it back: one without cells is no row. -/
def wireRow (row : Option Cells) : Option Cells :=
  (row.map wire).filter fun cells => !cells.isEmpty

/-- The same families and the same cells, in whatever order. -/
structure Same (c d : Cells) : Prop where
  /-- Both have the same families. -/
  families : ∀ f, f ∈ c.families ↔ f ∈ d.families
  /-- Both have the same cells. -/
  cells : ∀ f q, c.cell? f q = d.cell? f q

/-- A family comes back exactly if it has cells, with the bytes of each. -/
theorem get?_wire_eq_some {cells : Cells} {f : String} {G : OrderedMap String Value} :
    get? cells.wire f = some G ↔
      ∃ F, get? cells f = some F ∧ F.isEmpty = false ∧
        F.mapValues (fun v => .bytes v.encode) = G := by
  rw [wire, get?_mapValues, Option.map_eq_some_iff]
  simp only [get?_filterValues_eq_some, Bool.not_eq_true', and_assoc]

/-- A family comes back if it has a cell. -/
theorem mem_families_wire {cells : Cells} {f : String} :
    f ∈ cells.wire.families ↔ ∃ q v, cells.cell? f q = some v := by
  rw [mem_families_iff]
  constructor
  · rintro ⟨G, hG⟩
    obtain ⟨F, hF, hne, -⟩ := get?_wire_eq_some.mp hG
    have hbound : ¬ ∀ q, F.get? q = none := fun h => by
      rw [OrderedMap.isEmpty_iff.mpr h] at hne
      cases hne
    obtain ⟨q, hq⟩ := Classical.not_forall.mp hbound
    obtain ⟨v, hv⟩ := Option.ne_none_iff_exists'.mp hq
    exact ⟨q, v, cell?_eq_some_iff.mpr ⟨F, hF, hv⟩⟩
  · rintro ⟨q, v, hv⟩
    obtain ⟨F, hF, hq⟩ := cell?_eq_some_iff.mp hv
    have hne : F.isEmpty = false := by
      rw [← Bool.not_eq_true, OrderedMap.isEmpty_iff]
      intro h
      rw [h q] at hq
      cases hq
    exact ⟨_, get?_wire_eq_some.mpr ⟨F, hF, hne, rfl⟩⟩

/-- A cell comes back as its bytes. -/
theorem cell?_wire (cells : Cells) (f q : String) :
    cells.wire.cell? f q = (cells.cell? f q).map fun v => .bytes v.encode := by
  apply Option.ext
  intro x
  rw [cell?_eq_some_iff, Option.map_eq_some_iff]
  constructor
  · rintro ⟨G, hG, hq⟩
    obtain ⟨F, hF, -, rfl⟩ := get?_wire_eq_some.mp hG
    rw [get?_mapValues, Option.map_eq_some_iff] at hq
    obtain ⟨v, hv, hx⟩ := hq
    exact ⟨v, cell?_eq_some_iff.mpr ⟨F, hF, hv⟩, hx⟩
  · rintro ⟨v, hv, rfl⟩
    obtain ⟨G, hG⟩ := mem_families_iff.mp (mem_families_wire.mpr ⟨q, v, hv⟩)
    obtain ⟨F, hF, -, rfl⟩ := get?_wire_eq_some.mp hG
    obtain ⟨F', hF', hq⟩ := cell?_eq_some_iff.mp hv
    cases hF.symm.trans hF'
    exact ⟨_, hG, by rw [get?_mapValues, hq]; rfl⟩

/-- Nothing comes back of cells that are none. -/
theorem isEmpty_wire_iff {cells : Cells} :
    isEmpty cells.wire = true ↔ ∀ f q, cells.cell? f q = none := by
  rw [OrderedMap.isEmpty_iff]
  constructor
  · intro h f q
    rw [Option.eq_none_iff_forall_ne_some]
    intro v hv
    obtain ⟨G, hG⟩ := mem_families_iff.mp (mem_families_wire.mpr ⟨q, v, hv⟩)
    rw [h f] at hG
    cases hG
  · intro h f
    rw [Option.eq_none_iff_forall_ne_some]
    intro G hG
    obtain ⟨q, v, hv⟩ := mem_families_wire.mp (mem_families_iff.mpr ⟨G, hG⟩)
    rw [h f q] at hv
    cases hv

end Cells

namespace Gateway

/-- The parts of a joined name can be told apart when the families have no colon. -/
theorem cellKey_inj {f g q p : String} (hf : ColonFree f) (hg : ColonFree g)
    (h : cellKey f q = cellKey g p) : f = g ∧ q = p :=
  Column.joinName_inj hf hg (Bytes.ofText_injective h)

/-- A stored value is read back under the family and the qualifier of its name. -/
theorem decodeEntry_cellKey {f : String} (hf : ColonFree f) (q : String) (cells : Cells)
    (value : Bytes) :
    decodeEntry cells (cellKey f q) value = .ok (cells.addFamily f [(q, .bytes value)]) := by
  simp only [decodeEntry, cellKey, Bytes.text?_ofText, Column.splitName_joinName hf,
    Option.getD_some]

/-- The name has a colon of its own at its end. -/
def EndsInColon (s : String) : Prop := s.toList.getLast? = some ':'

instance (s : String) : Decidable (EndsInColon s) :=
  inferInstanceAs (Decidable (s.toList.getLast? = some ':'))

/-- Trimming drops the colons at the end. -/
theorem toList_trimColons (s : String) :
    (trimColons s).toList = s.toList.rdropWhile (· = ':') :=
  String.toList_ofList

/-- A name keeps all its characters exactly if it does not end in a colon. -/
theorem trimColons_eq_self_iff {s : String} : trimColons s = s ↔ ¬ EndsInColon s := by
  rw [← String.toList_inj, toList_trimColons, List.rdropWhile_eq_self_iff]
  constructor
  · intro h hend
    obtain ⟨rest, hrest⟩ := List.getLast?_eq_some_iff.mp hend
    have hne : s.toList ≠ [] := by simp [hrest]
    exact h hne (by simp [hrest])
  · intro h hne hcolon
    have hlast : s.toList.getLast hne = ':' := by simpa using hcolon
    have hend := List.getLast?_eq_some_getLast hne
    rw [hlast] at hend
    exact h hend

/-- What is left of a name does not end in a colon. -/
theorem not_endsInColon_trimColons (s : String) : ¬ EndsInColon (trimColons s) := by
  rw [← trimColons_eq_self_iff, ← String.toList_inj, toList_trimColons, toList_trimColons]
  exact List.rdropWhile_idempotent _ _

/-- A suffix that is nothing or a colon does not matter. -/
theorem trimColons_append {suffix : String} (h : suffix = "" ∨ suffix = ":") (s : String) :
    trimColons (s ++ suffix) = trimColons s := by
  rw [← String.toList_inj, toList_trimColons, toList_trimColons, String.toList_append]
  rcases h with rfl | rfl
  · have hnone : "".toList = [] := rfl
    rw [hnone, List.append_nil]
  · have hcolon : ":".toList = [':'] := rfl
    rw [hcolon]
    exact List.rdropWhile_concat_pos _ _ _ (by decide)

/-- A name without a colon is given back as it is. -/
theorem trimColons_append_of_colonFree {f suffix : String} (hf : ColonFree f)
    (h : suffix = "" ∨ suffix = ":") : trimColons (f ++ suffix) = f := by
  have hend : ¬ EndsInColon f := fun hlast => hf (List.mem_of_getLast? hlast)
  rw [trimColons_append h, trimColons_eq_self_iff.mpr hend]

end Gateway

/-- A row of a server holds cells: it has their values under their joined names, and nothing else.
The families of the cells have no colon. -/
structure ServerRow.Holds (row : ServerRow) (cells : Cells) : Prop where
  /-- No family has a colon. -/
  colonFree : ∀ f ∈ cells.families, ColonFree f
  /-- Every name of the row is joined from a family without a colon and a qualifier. -/
  names : ∀ b ∈ OrderedMap.keys row, ∃ f q, ColonFree f ∧ b = Gateway.cellKey f q
  /-- Every cell is there as its bytes. -/
  values : ∀ f q, ColonFree f →
    OrderedMap.get? row (Gateway.cellKey f q) = (cells.cell? f q).map Value.encode

namespace ServerRow.Holds

open Gateway

variable {row : ServerRow} {cells : Cells}

/-- A row without values holds no cells. -/
theorem empty : Holds ∅ ∅ where
  colonFree _ h := nomatch h
  names _ h := nomatch h
  values _ _ _ := rfl

/-- A row that has the values of another on top holds the overlay of the cells. -/
theorem overlay (h : row.Holds cells) {row' : ServerRow} {added : Cells}
    (h' : row'.Holds added) : Holds (OrderedMap.union row row') (cells.overlay added) where
  colonFree f hf := by
    rcases ((Cells.isOverlay_overlay cells added).families f).mp hf with hf | hf
    · exact h.colonFree f hf
    · exact h'.colonFree f hf
  names b hb := by
    rcases mem_keys_insertAll.mp hb with hb | hb
    · exact h.names b hb
    · exact h'.names b hb
  values f q hf := by
    rw [get?_union, h.values f q hf, h'.values f q hf,
      (Cells.isOverlay_overlay cells added).cells f q, Option.map_or]

/-- There is a cell exactly where the row has a value, under a family without a colon. -/
theorem exists_cell_iff (h : row.Holds cells) (f q : String) :
    (∃ v, cells.cell? f q = some v) ↔
      ColonFree f ∧ ∃ x, OrderedMap.get? row (cellKey f q) = some x := by
  constructor
  · rintro ⟨v, hv⟩
    have hf := h.colonFree f (Cells.mem_families_of_cell? hv)
    exact ⟨hf, v.encode, by rw [h.values f q hf, hv]; rfl⟩
  · rintro ⟨hf, x, hx⟩
    rw [h.values f q hf, Option.map_eq_some_iff] at hx
    obtain ⟨v, hv, -⟩ := hx
    exact ⟨v, hv⟩

/-- Cells that are held come back as nothing exactly when the row has no values. -/
theorem isEmpty_wire (h : row.Holds cells) :
    OrderedMap.isEmpty cells.wire = OrderedMap.isEmpty row := by
  rw [Bool.eq_iff_iff, Cells.isEmpty_wire_iff, OrderedMap.isEmpty_iff]
  constructor
  · intro hnone b
    rw [Option.eq_none_iff_forall_ne_some]
    intro x hx
    obtain ⟨f, q, hf, rfl⟩ := h.names b (mem_keys_of_get? hx)
    obtain ⟨v, hv⟩ := (h.exists_cell_iff f q).mpr ⟨hf, x, hx⟩
    rw [hnone f q] at hv
    cases hv
  · intro hnone f q
    rw [Option.eq_none_iff_forall_ne_some]
    intro v hv
    obtain ⟨-, x, hx⟩ := (h.exists_cell_iff f q).mp ⟨v, hv⟩
    rw [hnone] at hx
    cases hx

end ServerRow.Holds

namespace Gateway

variable {cells : Cells} {row : ServerRow}

/-- The names and bytes that are sent for cells, family by family. -/
def sentPairs (cells : Cells) : List (Bytes × Bytes) :=
  cells.entries.flatMap fun e => e.2.entries.map fun q => (cellKey e.1 q.1, q.2.encode)

/-- What is sent is the flat list of cells, each joined and encoded. -/
theorem sentPairs_eq (cells : Cells) :
    sentPairs cells = cells.flat.map fun e => (cellKey e.1.1 e.1.2, e.2.encode) := by
  simp only [sentPairs, Cells.flat, List.map_flatMap, List.map_map]
  rfl

/-- Each cell is sent under its joined name, and nothing else is. -/
theorem mem_sentPairs {b x : Bytes} :
    (b, x) ∈ sentPairs cells ↔
      ∃ f q v, cells.cell? f q = some v ∧ b = cellKey f q ∧ x = v.encode := by
  rw [sentPairs_eq, List.mem_map]
  constructor
  · rintro ⟨⟨⟨f, q⟩, v⟩, he, heq⟩
    cases heq
    exact ⟨f, q, v, Cells.mem_flat.mp he, rfl, rfl⟩
  · rintro ⟨f, q, v, hv, rfl, rfl⟩
    exact ⟨((f, q), v), Cells.mem_flat.mpr hv, rfl⟩

/-- No name is sent twice if the names of the cells do not clash. -/
theorem nodup_sentPairs (h : ∀ f q g p, (∃ v, cells.cell? f q = some v) →
    (∃ w, cells.cell? g p = some w) → cellKey f q = cellKey g p → f = g ∧ q = p) :
    ((sentPairs cells).map Prod.fst).Nodup := by
  have hflat : cells.flat.Pairwise fun e e' => e.1 ≠ e'.1 := List.pairwise_map.mp cells.nodup_flat
  rw [sentPairs_eq, List.map_map, List.Nodup, List.pairwise_map]
  refine hflat.imp_of_mem ?_
  rintro ⟨⟨f, q⟩, v⟩ ⟨⟨g, p⟩, w⟩ he he' hne heq
  obtain ⟨rfl, rfl⟩ := h f q g p ⟨v, Cells.mem_flat.mp he⟩ ⟨w, Cells.mem_flat.mp he'⟩ heq
  exact hne rfl

/-- Names of cells do not clash when their families have no colon. -/
theorem cellKey_inj_of_colonFree (h : ∀ f ∈ cells.wire.families, ColonFree f) (f q g p : String)
    (hf : ∃ v, cells.cell? f q = some v) (hg : ∃ w, cells.cell? g p = some w)
    (heq : cellKey f q = cellKey g p) : f = g ∧ q = p :=
  cellKey_inj (h f (Cells.mem_families_wire.mpr ⟨q, hf⟩)) (h g (Cells.mem_families_wire.mpr ⟨p, hg⟩))
    heq

/-- A cell is sent under its own name if the names of the cells do not clash. -/
theorem get?_encodeCells_of_cell (h : ((sentPairs cells).map Prod.fst).Nodup) {f q : String}
    {v : Value} (hv : cells.cell? f q = some v) :
    (encodeCells cells).get? (cellKey f q) = some v.encode := by
  have hlook : (encodeCells cells).get? (cellKey f q) =
      lookupEntry (cellKey f q) (sentPairs cells) := get?_ofList h _
  rw [hlook]
  exact lookupEntry_of_mem h (mem_sentPairs.mpr ⟨f, q, v, hv, rfl, rfl⟩)

/-- The names that are sent are those of the cells. -/
theorem mem_keys_encodeCells {b : Bytes} :
    b ∈ (encodeCells cells).keys ↔ ∃ f q v, cells.cell? f q = some v ∧ b = cellKey f q := by
  have hkeys : b ∈ (encodeCells cells).keys ↔ b ∈ (sentPairs cells).map Prod.fst := by
    refine mem_keys_insertAll.trans ⟨fun h => ?_, .inr⟩
    rcases h with h | h
    · cases h
    · exact h
  rw [hkeys, List.mem_map]
  constructor
  · rintro ⟨⟨k, x⟩, hmem, rfl⟩
    obtain ⟨f, q, v, hv, hk, -⟩ := mem_sentPairs.mp hmem
    exact ⟨f, q, v, hv, hk⟩
  · rintro ⟨f, q, v, hv, rfl⟩
    exact ⟨(cellKey f q, v.encode), mem_sentPairs.mpr ⟨f, q, v, hv, rfl, rfl⟩, rfl⟩

/-- What is sent under the name of a cell whose family has no colon is that cell, if no family with
a cell has one. -/
theorem get?_encodeCells (h : ∀ f ∈ cells.wire.families, ColonFree f) {f : String}
    (hf : ColonFree f) (q : String) :
    (encodeCells cells).get? (cellKey f q) = (cells.cell? f q).map Value.encode := by
  cases hv : cells.cell? f q with
  | some v => exact get?_encodeCells_of_cell (nodup_sentPairs (cellKey_inj_of_colonFree h)) hv
  | none =>
    rw [Option.map_none, get?_eq_none_iff]
    intro hmem
    obtain ⟨g, p, v, hv', heq⟩ := mem_keys_encodeCells.mp hmem
    obtain ⟨rfl, rfl⟩ := cellKey_inj hf (h g (Cells.mem_families_wire.mpr ⟨p, v, hv'⟩)) heq
    cases hv.symm.trans hv'

/-- What is sent for cells holds them. -/
theorem holds_encodeCells (h : ∀ f ∈ cells.families, ColonFree f) :
    ServerRow.Holds (encodeCells cells) cells where
  colonFree := h
  names b hb := by
    obtain ⟨f, q, v, hv, rfl⟩ := mem_keys_encodeCells.mp hb
    exact ⟨f, q, h f (Cells.mem_families_of_cell? hv), rfl⟩
  values f q hf := by
    refine get?_encodeCells (fun g hg => h g ?_) hf q
    obtain ⟨p, v, hv⟩ := Cells.mem_families_wire.mp hg
    exact Cells.mem_families_of_cell? hv

/-- Reading names joined from families without a colon gives their cells on top of those before. -/
theorem decodeEntries_of_cellKeys {l : List (Bytes × Bytes)}
    (hnames : ∀ b ∈ l.map Prod.fst, ∃ f q, ColonFree f ∧ b = cellKey f q)
    (hl : (l.map Prod.fst).Nodup) (before : Cells) :
    ∃ after, decodeEntries before l = .ok after ∧
      (∀ f, f ∈ after.families ↔
        f ∈ before.families ∨ ColonFree f ∧ ∃ q x, (cellKey f q, x) ∈ l) ∧
      ∀ f q, ColonFree f → after.cell? f q =
        ((lookupEntry (cellKey f q) l).map Value.bytes).or (before.cell? f q) := by
  induction l generalizing before with
  | nil => exact ⟨before, rfl, fun f => by simp, fun f q _ => rfl⟩
  | cons e rest ih =>
    obtain ⟨b, x⟩ := e
    obtain ⟨hnew, hrest⟩ := List.nodup_cons.mp hl
    obtain ⟨g, p, hg, rfl⟩ := hnames b (List.mem_cons_self ..)
    obtain ⟨after, hafter, hfamilies, hcells⟩ :=
      ih (fun b hb => hnames b (List.mem_cons_of_mem _ hb)) hrest
        (before.addFamily g [(p, .bytes x)])
    refine ⟨after, ?_, fun f => ?_, fun f q hf => ?_⟩
    · rw [decodeEntries, decodeEntry_cellKey hg]
      exact hafter
    · rw [hfamilies, Cells.mem_families_addFamily]
      constructor
      · rintro ((rfl | hf) | ⟨hf, q, y, hy⟩)
        · exact .inr ⟨hg, p, x, List.mem_cons_self ..⟩
        · exact .inl hf
        · exact .inr ⟨hf, q, y, List.mem_cons_of_mem _ hy⟩
      · rintro (hf | ⟨hf, q, y, hy⟩)
        · exact .inl (.inr hf)
        · rcases List.mem_cons.mp hy with heq | hy
          · obtain ⟨hkey, -⟩ := Prod.mk.inj heq
            exact .inl (.inl (cellKey_inj hf hg hkey).1)
          · exact .inr ⟨hf, q, y, hy⟩
    · rw [hcells f q hf, Cells.cell?_addFamily_one, lookupEntry]
      by_cases heq : g = f ∧ p = q
      · obtain ⟨rfl, rfl⟩ := heq
        have hnone : lookupEntry (cellKey g p) rest = none :=
          (lookupEntry_eq_none_iff _ _).mpr hnew
        rw [hnone, if_pos ⟨rfl, rfl⟩, if_pos rfl]
        rfl
      · have hne : cellKey g p ≠ cellKey f q := fun h => heq (cellKey_inj hg hf h)
        rw [if_neg heq, if_neg hne]

/-- A row that holds cells and has values is read back as what a server gives back of them. -/
theorem decodeEntries_of_holds (h : row.Holds cells) :
    ∃ after, decodeEntries ∅ row.entries = .ok after ∧ Cells.Same cells.wire after := by
  obtain ⟨after, hafter, hfamilies, hcells⟩ := decodeEntries_of_cellKeys h.names row.nodup ∅
  have hsame : ∀ f, f ∈ cells.wire.families ↔ f ∈ after.families := by
    intro f
    rw [Cells.mem_families_wire, hfamilies]
    simp only [h.exists_cell_iff, mem_entries_iff]
    constructor
    · rintro ⟨q, hf, x, hx⟩
      exact .inr ⟨hf, q, x, hx⟩
    · rintro (hf | ⟨hf, q, x, hx⟩)
      · cases hf
      · exact ⟨q, hf, x, hx⟩
  refine ⟨after, hafter, hsame, fun f q => ?_⟩
  by_cases hf : ColonFree f
  · have hstart : Cells.cell? ∅ f q = none := rfl
    have hlook : lookupEntry (cellKey f q) row.entries = (cells.cell? f q).map Value.encode :=
      h.values f q hf
    rw [Cells.cell?_wire, hcells f q hf, hstart, Option.or_none, hlook, Option.map_map]
    rfl
  · have hnot : f ∉ cells.wire.families := by
      rw [Cells.mem_families_wire]
      rintro ⟨q, v, hv⟩
      exact hf (h.colonFree f (Cells.mem_families_of_cell? hv))
    rw [Cells.cell?_of_not_mem hnot, Cells.cell?_of_not_mem (mt (hsame f).mpr hnot)]

/-- A row that holds cells is read back as what a server gives back of the row with these cells. -/
theorem decodeRow_of_holds (h : row.Holds cells) :
    ∃ answer, decodeRow row = .ok answer ∧
      Option.Rel Cells.Same (Cells.wireRow (some cells)) answer := by
  rw [Cells.wireRow, Option.map_some, Option.filter_some, h.isEmpty_wire]
  cases hrow : isEmpty row with
  | true => exact ⟨none, by rw [decodeRow, if_pos hrow], .none⟩
  | false =>
    obtain ⟨after, hafter, hsame⟩ := decodeEntries_of_holds h
    have hread : decodeRow row = .ok (some after) := by
      rw [decodeRow, if_neg (by simp [hrow]), hafter]
      rfl
    exact ⟨some after, hread, .some hsame⟩

end Gateway

end WideColumn
