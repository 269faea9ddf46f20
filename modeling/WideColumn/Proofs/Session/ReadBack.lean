import WideColumn.Proofs.Session.Runs
import WideColumn.Proofs.Store.Joined

/-!
# Cells that are put and read back

Cells are sent to a server under joined names, and a name that comes back is cut
at its first colon. So cells come back under the families and qualifiers under
which they were put exactly when no family with a cell has a colon. Where none
of these families is called like a cell of another, at least no cell is sent in
place of another.
-/

namespace WideColumn

open Operation OrderedMap

/-- The cells are what a row reads as: each of its names that is joined of a family without a colon
and a qualifier gives a cell there. -/
structure ServerRow.Reads (row : ServerRow) (cells : Cells) : Prop where
  /-- The families are those of the names. -/
  families : ∀ f, f ∈ cells.families ↔
    ColonFree f ∧ ∃ q x, OrderedMap.get? row (Gateway.cellKey f q) = some x
  /-- The values are those under the names. -/
  cells : ∀ f q, ColonFree f →
    cells.cell? f q = (OrderedMap.get? row (Gateway.cellKey f q)).map .bytes

namespace ServerRow.Reads

open Gateway

variable {row : ServerRow} {before after cells : Cells}

/-- There is no cell of a family with a colon. -/
theorem cell?_of_colon (h : row.Reads cells) {f : String} (hf : ¬ ColonFree f) (q : String) :
    cells.cell? f q = none :=
  Cells.cell?_of_not_mem (fun hmem => hf ((h.families f).mp hmem).1) q

/-- A row to which cells were sent reads as the overlay of the cells, as a server gives them back,
exactly when no family with a cell has a colon. -/
theorem isOverlay_union_iff (hbefore : row.Reads before)
    (hafter : Reads (OrderedMap.union row (encodeCells cells)) after) :
    Cells.IsOverlay before cells.wire after ↔ ∀ f ∈ cells.wire.families, ColonFree f := by
  constructor
  · intro h f hf
    have hmem : f ∈ after.families := (h.families f).mpr (.inr hf)
    exact ((hafter.families f).mp hmem).1
  · intro hfree
    have hget : ∀ f q, ColonFree f →
        OrderedMap.get? (OrderedMap.union row (encodeCells cells)) (cellKey f q) =
          ((cells.cell? f q).map Value.encode).or (OrderedMap.get? row (cellKey f q)) := by
      intro f q hf
      rw [get?_union, get?_encodeCells hfree hf]
    refine ⟨fun f => ?_, fun f q => ?_⟩
    · rw [hafter.families, hbefore.families, Cells.mem_families_wire]
      constructor
      · rintro ⟨hf, q, x, hx⟩
        rw [hget f q hf, Option.or_eq_some_iff] at hx
        rcases hx with hnew | ⟨-, hold⟩
        · obtain ⟨v, hv, -⟩ := Option.map_eq_some_iff.mp hnew
          exact .inr ⟨q, v, hv⟩
        · exact .inl ⟨hf, q, x, hold⟩
      · rintro (⟨hf, q, x, hx⟩ | ⟨q, v, hv⟩)
        · have hsome : (OrderedMap.get? (OrderedMap.union row (encodeCells cells))
              (cellKey f q)).isSome = true := by
            rw [hget f q hf, Option.isSome_or, hx]
            simp
          exact ⟨hf, q, Option.isSome_iff_exists.mp hsome⟩
        · have hf := hfree f (Cells.mem_families_wire.mpr ⟨q, v, hv⟩)
          exact ⟨hf, q, v.encode, by rw [hget f q hf, hv]; rfl⟩
    · by_cases hf : ColonFree f
      · rw [hafter.cells f q hf, hbefore.cells f q hf, hget f q hf, Cells.cell?_wire]
        cases cells.cell? f q <;> rfl
      · have hwire : cells.wire.cell? f q = none :=
          Cells.cell?_of_not_mem (fun hmem => hf (hfree f hmem)) q
        rw [hafter.cell?_of_colon hf, hbefore.cell?_of_colon hf, hwire]
        rfl

end ServerRow.Reads

namespace Gateway

variable {row : ServerRow} {s : Server} {t : ServerTable} {table : String} {cells : Cells}

/-- A row of joined names can be read, as no row exactly if it has no values. -/
theorem decodeRow_of_joined (h : row.Joined) :
    ∃ answer, decodeRow row = .ok answer ∧ row.Reads (answer.getD ∅) ∧
      ((∃ b x, OrderedMap.get? row b = some x) → ∃ read, answer = some read) := by
  cases hempty : OrderedMap.isEmpty row with
  | true =>
    have hnone := OrderedMap.isEmpty_iff.mp hempty
    refine ⟨none, by rw [decodeRow, if_pos hempty], ⟨fun f => ?_, fun f q _ => ?_⟩, ?_⟩
    · constructor
      · intro hf
        cases hf
      · rintro ⟨-, q, x, hx⟩
        rw [hnone] at hx
        cases hx
    · rw [hnone]
      rfl
    · rintro ⟨b, x, hx⟩
      rw [hnone] at hx
      cases hx
  | false =>
    obtain ⟨read, hread, hfamilies, hcells⟩ := decodeEntries_of_cellKeys h row.nodup ∅
    have hanswer : decodeRow row = .ok (some read) := by
      rw [decodeRow, if_neg (by simp [hempty]), hread]
      rfl
    refine ⟨some read, hanswer, ⟨fun f => ?_, fun f q hf => ?_⟩, fun _ => ⟨read, rfl⟩⟩
    · simp only [Option.getD_some, hfamilies, mem_entries_iff]
      constructor
      · rintro (hf | hf)
        · cases hf
        · exact hf
      · exact .inr
    · rw [Option.getD_some, hcells f q hf]
      exact Option.or_none

/-- Putting cells and reading again gives the overlay of the cells on what was read before, exactly
when no family with a cell has a colon. -/
theorem get_put_get (hT : s.tables.get? table = some t) (ht : t.Joined) (key : String)
    (hcells : ∃ f q v, cells.cell? f q = some v) :
    ∃ before s₁ s₂ after s₃, get table key s = (.ok before, s₁) ∧
      put table key cells s₁ = (.ok (), s₂) ∧ get table key s₂ = (.ok (some after), s₃) ∧
      (Cells.IsOverlay (before.getD ∅) cells.wire after ↔
        ∀ f ∈ cells.wire.families, ColonFree f) := by
  obtain ⟨before, hbefore, hreads, -⟩ := decodeRow_of_joined (ht.row (.ofText key))
  have hrow : ((Server.mergeInto t (.ofText key) (encodeCells cells).entries).rows.get?
      (.ofText key)).getD ∅ =
        OrderedMap.union ((t.rows.get? (.ofText key)).getD ∅) (encodeCells cells) := by
    rw [Server.mergeInto, get?_insert_self]
    rfl
  have hjoined := ht.mergeInto (.ofText key) (joinedName_encodeCells cells)
  obtain ⟨answer, hanswer, hreads', hsome⟩ := decodeRow_of_joined (hjoined.row (.ofText key))
  rw [hrow] at hreads' hsome
  obtain ⟨f, q, v, hv⟩ := hcells
  obtain ⟨after, rfl⟩ : ∃ after, answer = some after := by
    apply hsome
    obtain ⟨x, hx⟩ := get?_of_mem_keys (mem_keys_encodeCells.mpr ⟨f, q, v, hv, rfl⟩)
    exact ⟨cellKey f q, x, by rw [get?_union, hx]; rfl⟩
  have hget := get_of_found hT key
  rw [hbefore] at hget
  have hput := put_of_found (s := s.record (.row table (.ofText key))) hT key cells
  have hT' := get?_insert_self s.tables table
    (Server.mergeInto t (.ofText key) (encodeCells cells).entries)
  have hget' := get_of_found
    (s := { (s.record (.row table (.ofText key))).record
        (.put table (.ofText key) (encodeCells cells).entries) with
      tables := s.tables.insert table
        (Server.mergeInto t (.ofText key) (encodeCells cells).entries) }) hT' key
  rw [hanswer] at hget'
  exact ⟨before, _, _, after, _, hget, hput, hget', hreads.isOverlay_union_iff hreads'⟩

/-- Where no family with a cell is called like a cell of another, the names of the cells do not
clash. -/
theorem cellKey_inj_of_apart (h : Column.Apart cells.wire.families cells.wire.families)
    (f q g p : String) (hf : ∃ v, cells.cell? f q = some v) (hg : ∃ w, cells.cell? g p = some w)
    (heq : cellKey f q = cellKey g p) : f = g ∧ q = p := by
  have hfmem := Cells.mem_families_wire.mpr ⟨q, hf⟩
  have hgmem := Cells.mem_families_wire.mpr ⟨p, hg⟩
  rcases Column.joinName_eq_joinName (Bytes.ofText_injective heq) with hsame | ⟨n, rfl⟩ | ⟨n, rfl⟩
  · exact hsame
  · exact absurd hgmem (h f hfmem n)
  · exact absurd hfmem (h g hgmem n)

end Gateway

namespace Session

/-- What is read from a server after a put is what was read before with the encoded cells on top,
exactly when no family with a cell has a colon. -/
theorem put_then_get (spelling : NameSpelling) (suffix : String) (refuses : Bool)
    (tables : List (String × List String)) {cs : List Command}
    (hcs : ∀ table row merged, .store (.mergeRow table row merged) ∈ cs →
      ∀ e ∈ merged, JoinedName e.1)
    {table : String} {fs : NameSet}
    (hfs : ((on (.gateway (.withTables spelling suffix refuses tables))).after
      cs).client.store.holdings.get? table = some fs)
    (key : String) {cells : Cells} (hcells : ∃ f q v, cells.cell? f q = some v) :
    let st := ((on (.gateway (.withTables spelling suffix refuses tables))).after cs).client.store
    (∃ before st₁ st₂ after st₃, Store.get table key st = (.ok before, st₁) ∧
      Store.put table key cells st₁ = (.ok (), st₂) ∧
      Store.get table key st₂ = (.ok (some after), st₃) ∧
      (Cells.IsOverlay (before.getD ∅) cells.wire after ↔
        ∀ f ∈ cells.wire.families, ColonFree f)) ∧
    (Column.Apart cells.wire.families cells.wire.families →
      (∀ f q g p, (∃ v, cells.cell? f q = some v) → (∃ w, cells.cell? g p = some w) →
        Gateway.cellKey f q = Gateway.cellKey g p → f = g ∧ q = p) ∧
      ∀ f q v, cells.cell? f q = some v →
        (Gateway.encodeCells cells).get? (Gateway.cellKey f q) = some v.encode) := by
  intro st
  have hstart := Server.joined_withTables spelling suffix refuses tables
  have hjoined : st.Joined := after_of_stable (Store.stable_joined _)
    (fun table row merged hmem => Store.keeps_joined_mergeRow table row (hcs table row merged hmem))
    hstart
  have hsetup : st.setup = some (spelling, suffix, refuses) := after_of_stable
    (Store.stable_setup _ _) (fun table row merged _ => Store.keeps_setup_mergeRow _ table row merged)
    rfl
  obtain ⟨s, hs, -⟩ := Store.exists_gateway_of_setup hsetup
  have hheld : st.holdings.get? table = some fs := hfs
  rw [hs] at hjoined hheld
  obtain ⟨t, hT, -⟩ := Server.exists_table_of_held hheld
  obtain ⟨before, s₁, s₂, after, s₃, hget, hput, hget', hiff⟩ :=
    Gateway.get_put_get hT (hjoined table t hT) key hcells
  refine ⟨⟨before, .gateway s₁, .gateway s₂, after, .gateway s₃, ?_, ?_, ?_, hiff⟩, ?_⟩
  · simp only [hs, Store.get, Store.onEither, hget]
  · simp only [Store.put, Store.onEither, hput]
  · simp only [Store.get, Store.onEither, hget']
  · intro hapart
    have hinj := Gateway.cellKey_inj_of_apart hapart
    exact ⟨hinj, fun f q v hv =>
      Gateway.get?_encodeCells_of_cell (Gateway.nodup_sentPairs hinj) hv⟩

/-- A row that holds a qualifier with a colon, an empty qualifier and bytes that came in past the
gateway; the cells replace the value of the empty qualifier and add one of another family. -/
theorem put_then_get_on_top :
    let earlier : Cells := OrderedMap.ofList
      [("a", OrderedMap.ofList [("x:y", .int 1), ("", .int 2)])]
    let cs : List Command := [.client (.createTable (some "t") (.names ["a", "b", "a"])),
      .store (.put "t" "k" earlier),
      .store (.mergeRow "t" (.ofText "k") [(.ofText "b:", .ofText "m")])]
    let cells : Cells := OrderedMap.ofList
      [("a", OrderedMap.ofList [("", .null)]), ("b", OrderedMap.ofList [("p", .bool true)])]
    let st := ((on (.gateway (.withTables .bytes ":" false []))).after cs).client.store
    st.holdings.get? "t" = some (NameSet.ofList ["a", "b"]) ∧
      (∃ before st₁ st₂ after st₃, Store.get "t" "k" st = (.ok before, st₁) ∧
        Store.put "t" "k" cells st₁ = (.ok (), st₂) ∧
        Store.get "t" "k" st₂ = (.ok (some after), st₃) ∧
        Cells.IsOverlay (before.getD ∅) cells.wire after) ∧
      ∀ f q v, cells.cell? f q = some v →
        (Gateway.encodeCells cells).get? (Gateway.cellKey f q) = some v.encode := by
  intro earlier cs cells st
  have hjoined : ∀ table row merged, .store (.mergeRow table row merged) ∈ cs →
      ∀ e ∈ merged, JoinedName e.1 := by
    intro table row merged hmem e he
    have hmerged : table = "t" ∧ row = .ofText "k" ∧
        merged = [(.ofText "b:", .ofText "m")] := by simpa [cs] using hmem
    rw [hmerged.2.2, List.mem_singleton] at he
    exact ⟨"b", "", by decide, by rw [he]; rfl⟩
  have hheld : st.holdings.get? "t" = some (NameSet.ofList ["a", "b"]) := rfl
  have hcell : ∃ f q v, cells.cell? f q = some v := ⟨"a", "", .null, rfl⟩
  obtain ⟨⟨before, st₁, st₂, after, st₃, hget, hput, hget', hiff⟩, hapart⟩ :=
    put_then_get .bytes ":" false [] hjoined hheld "k" hcell
  exact ⟨hheld, ⟨before, st₁, st₂, after, st₃, hget, hput, hget', hiff.mpr (by decide)⟩,
    (hapart (by decide)).2⟩

/-- A cell `c` of a family `a:b` comes back as the cell `b:c` of a family `a`, and is sent in the
place of a cell that is called so. -/
theorem put_then_get_moves_cells :
    let cs : List Command := [.client (.createTable (some "t") (.names ["a:b"]))]
    let cells : Cells := OrderedMap.ofList [("a:b", OrderedMap.ofList [("c", .int 1)])]
    let st := ((on (.gateway (.withTables .bytes "" false []))).after cs).client.store
    let both : Cells := OrderedMap.ofList
      [("a", OrderedMap.ofList [("b:c", .int 1)]), ("a:b", OrderedMap.ofList [("c", .int 2)])]
    (st.holdings.get? "t" = some (NameSet.ofList ["a:b"]) ∧
      ∃ st₁ st₂ after st₃, Store.get "t" "k" st = (.ok none, st₁) ∧
        Store.put "t" "k" cells st₁ = (.ok (), st₂) ∧
        Store.get "t" "k" st₂ = (.ok (some after), st₃) ∧
        after = OrderedMap.ofList [("a", OrderedMap.ofList [("b:c", .bytes (.ofText "1"))])] ∧
        ¬ Cells.IsOverlay ∅ cells.wire after) ∧
    (Client.checkedTable (some "t") (.names ["a", "a:b"]) =
        .ok ("t", NameSet.ofList ["a", "a:b"]) ∧
      Gateway.cellKey "a" "b:c" = Gateway.cellKey "a:b" "c" ∧
      (Gateway.encodeCells both).entries = [(Gateway.cellKey "a:b" "c", .ofText "2")]) := by
  intro cs cells st both
  refine ⟨⟨rfl, _, _, _, _, rfl, rfl, rfl, rfl, fun h => ?_⟩, rfl, rfl, rfl⟩
  have hmem := (h.families "a:b").mpr (.inr (by decide))
  revert hmem
  decide

end Session

end WideColumn
