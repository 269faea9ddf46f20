import WideColumn.Proofs.Row.Resolution

/-!
# What a draft keeps

Every value that a draft keeps was given for a column that the table takes, and
the identifier is what the first successful staging of it gave. Both are
invariants of single attempts, and hold whatever was attempted.
-/

namespace WideColumn.RowDraft

open OrderedMap

variable {t : Table} {k : Column} {v : Value}

/-- A value that a draft for a table may keep under a column: it was given for a column that the
table takes, as a mapping if that is a whole family, and is kept under the table's own column. -/
def Keepable (t : Table) (k : Column) (v : Value) : Prop :=
  ∃ c, c.isIdentifier = false ∧ t.hasColumn c = true ∧
    (c.qualifier = none → v.isMapping = true) ∧ k = resolve t c

/-- Whatever was attempted, a draft keeps only what it may. -/
theorem keepable_of_reached (l : List Staging) (h : (k, v) ∈ (reached t l).values.entries) :
    Keepable t k v := by
  suffices hinv : (reached t l).table = t ∧
      ∀ k v, (reached t l).values.get? k = some v → Keepable t k v from
    hinv.2 k v (mem_entries_iff.mp h)
  refine reached_induction (P := fun d => d.table = t ∧ ∀ k v, d.values.get? k = some v →
    Keepable t k v) ⟨rfl, fun _ _ h => nomatch h⟩ (fun d s d' hd h => ?_) l
  refine ⟨(table_of_take h).trans hd.1, ?_⟩
  rcases take_eq_ok h with ⟨v, -, -, rfl⟩ | ⟨c, v, hc, hcol, hmap, rfl⟩
  · exact hd.2
  · intro j w hw
    rw [hd.1] at hcol
    rw [get?_insert] at hw
    split at hw
    · rename_i hj
      cases hw
      exact ⟨c, hc, hcol, hmap, by rw [← hj, hd.1]⟩
    · exact hd.2 j w hw

namespace Keepable

theorem hasColumn (h : Keepable t k v) (ht : t.Closed) : t.hasColumn k = true := by
  obtain ⟨c, -, hcol, -, rfl⟩ := h
  exact hasColumn_resolve ht hcol

/-- A value that is kept under an identifier is kept under the first one of the table. -/
theorem idColumn (h : Keepable t k v) (hk : k.isIdentifier = true) : t.idColumn = some k := by
  obtain ⟨c, hc, -, -, rfl⟩ := h
  exact idColumn_of_resolve hc hk

/-- No value is kept under an identifier, unless a family is called like it. -/
theorem isIdentifier_eq_false (h : Keepable t k v) (hid : Column.identifierName ∉ t.families) :
    k.isIdentifier = false := by
  obtain ⟨c, hc, hcol, -, rfl⟩ := h
  obtain ⟨f, hf⟩ := Column.isIdentifier_eq_false_iff.mp hc
  rw [← Bool.not_eq_true]
  intro hk
  exact name_ne_of_taken hid hcol hf ((name_resolve t c).symm.trans (Column.name_of_isIdentifier hk))

/-- A value that is kept under a whole family is a mapping, unless a family is called like a cell of
another. -/
theorem readable (h : Keepable t k v) (ht : t.Closed)
    (hapart : Column.Apart t.families.names t.families.names) : Row.Readable k v := by
  obtain ⟨c, hc, hcol, hmap, rfl⟩ := h
  intro hk hq
  obtain ⟨f, hf⟩ := Column.isIdentifier_eq_false_iff.mp hc
  obtain ⟨g, hg⟩ := Column.isIdentifier_eq_false_iff.mp hk
  obtain ⟨-, hqualifier⟩ := hapart.eq_of_name hg hf (family_resolve_mem ht hcol hg)
    (Table.family_mem_of_hasColumn hcol hf) (name_resolve t c)
  obtain ⟨entries, rfl⟩ := (Value.isMapping_iff v).mp (hmap (hqualifier ▸ hq))
  exact ⟨entries, rfl⟩

end Keepable

/-- Nothing is kept under an identifier, unless a family is called like it. -/
theorem isIdentifier_of_reached (hid : Column.identifierName ∉ t.families) (l : List Staging) :
    ∀ e ∈ (reached t l).values.entries, e.1.isIdentifier = false :=
  fun ⟨_, _⟩ he => (keepable_of_reached l he).isIdentifier_eq_false hid

/-- What an attempt would give as the identifier, if it is meant for it. -/
def Staging.identifier? : Staging → Option Value
  | .identifier v => some v
  | .value a v =>
    match a.column with
    | .ok c => if c.isIdentifier then some v else none
    | .error _ => none

/-- The attempts among several that succeed when they are made in turn. -/
def succeeded (d : RowDraft) : List Staging → List Staging
  | [] => []
  | s :: rest =>
    match d.take s with
    | .ok d' => s :: d'.succeeded rest
    | .error _ => d.succeeded rest

/-- A successful attempt gives the identifier if it is meant for it, and then for the first time;
any other leaves it as it is. -/
theorem id_of_take {d d' : RowDraft} {s : Staging} (h : d.take s = .ok d') :
    (∃ v, s.identifier? = some v ∧ d.id = none ∧ d'.id = some v) ∨
      (s.identifier? = none ∧ d'.id = d.id) := by
  cases s with
  | identifier v =>
    obtain ⟨-, hid, rfl⟩ := stageId_eq_ok h
    exact .inl ⟨v, rfl, hid, rfl⟩
  | value a v =>
    obtain ⟨c, ha, hc⟩ := take_value_eq_ok h
    rcases stage_eq_ok hc with ⟨hident, hstage⟩ | ⟨hident, -, -, rfl⟩
    · obtain ⟨-, hid, rfl⟩ := stageId_eq_ok hstage
      exact .inl ⟨v, by simp only [Staging.identifier?, ha, hident, if_true], hid, rfl⟩
    · exact .inr ⟨by simp only [Staging.identifier?, ha, hident, Bool.false_eq_true, if_false], rfl⟩

/-- The identifier is what was there before, or else what the first successful attempt at it gave;
by induction on the attempts. -/
theorem id_foldl_attempt (d : RowDraft) (l : List Staging) :
    (l.foldl attempt d).id = d.id.or ((d.succeeded l).findSome? Staging.identifier?) := by
  induction l generalizing d with
  | nil => exact Option.or_none.symm
  | cons s rest ih =>
    rw [List.foldl_cons, ih, succeeded, attempt]
    cases h : d.take s with
    | error e => rfl
    | ok d' =>
      rcases id_of_take h with ⟨v, hs, hid, hid'⟩ | ⟨hs, hid'⟩
      · simp only [List.findSome?_cons, hs, hid, hid', Option.some_or, Option.none_or]
      · simp only [List.findSome?_cons, hs, hid']

/-- The identifier of a draft is what the first successful attempt at it gave. -/
theorem id_reached (t : Table) (l : List Staging) :
    (reached t l).id = ((new t).succeeded l).findSome? Staging.identifier? := by
  rw [reached, id_foldl_attempt]
  exact Option.none_or

/-- A draft has an identifier only if its table has a column for it. -/
theorem idColumn_of_id {t : Table} {l : List Staging} {v : Value} (h : (reached t l).id = some v) :
    ∃ c, t.idColumn = some c := by
  suffices hinv : (reached t l).table = t ∧ ∀ v, (reached t l).id = some v →
      ∃ c, t.idColumn = some c from hinv.2 v h
  refine reached_induction (P := fun d => d.table = t ∧ ∀ v, d.id = some v →
    ∃ c, t.idColumn = some c) ⟨rfl, fun _ h => nomatch h⟩ (fun d s d' hd h => ?_) l
  refine ⟨(table_of_take h).trans hd.1, ?_⟩
  rcases take_eq_ok h with ⟨v, hcol, -, rfl⟩ | ⟨c, v, -, -, -, rfl⟩
  · exact fun _ _ => Option.isSome_iff_exists.mp (hd.1 ▸ hcol)
  · exact hd.2

end WideColumn.RowDraft
