import WideColumn.Proofs.Row.LastStaging
import WideColumn.Proofs.Row.Overlay
import WideColumn.Proofs.Store.Wire

/-!
# Independent attempts at a draft

Two attempts at a draft are independent if they are not both meant for the
identifier, address different places and give no common cell. What an attempt
answers depends on the table alone, except for the identifier. The values that
attempts in turn keep are the former ones with the new values in place, and
then the new columns. At every cell at most one independent attempt has a say,
so neither the answers nor the cells depend on the order.
-/

namespace WideColumn.RowDraft

open OrderedMap

variable {T : Table}

/-- What an attempt answers: it is taken, or refused with an error. -/
def answer (d : RowDraft) (s : Staging) : Except Error Unit := (d.take s).map fun _ => ()

/-- Attempts in turn, each with its answer. -/
def transcript (d : RowDraft) : List Staging → List (Staging × Except Error Unit)
  | [] => []
  | s :: rest => (s, d.answer s) :: (d.attempt s).transcript rest

/-- What an attempt answers depends on the table alone, unless it is meant for the identifier. -/
theorem answer_congr {d d' : RowDraft} (ht : d.table = d'.table) {s : Staging}
    (h : s.identifier? = none ∨ d.id = d'.id) : d.answer s = d'.answer s := by
  have hstageId : ∀ v, d.id = d'.id →
      (d.stageId v).map (fun _ => ()) = (d'.stageId v).map fun _ => () := by
    intro v hid
    simp only [stageId, ht, hid]
    split <;> rfl
  cases s with
  | identifier v => exact hstageId v (h.resolve_left nofun)
  | value a v =>
    simp only [answer, take_value]
    cases hcolumn : a.column with
    | error e => rfl
    | ok c =>
      simp only [stage, ht]
      cases hf : c.family with
      | none =>
        refine hstageId v (h.resolve_left ?_)
        simp [Staging.identifier?, hcolumn, Column.isIdentifier, hf]
      | some f =>
        simp only
        split
        · rfl
        · split <;> rfl

/-- An attempt does not change the table of a draft. -/
theorem table_attempt (d : RowDraft) (s : Staging) : (d.attempt s).table = d.table := by
  unfold attempt
  split
  · rename_i d' h
    exact table_of_take h
  · rfl

/-- Only an attempt that is meant for the identifier changes it. -/
theorem id_attempt (d : RowDraft) {s : Staging} (hs : s.identifier? = none) :
    (d.attempt s).id = d.id := by
  unfold attempt
  split
  · rename_i d' h
    rcases id_of_take h with ⟨v, hv, -⟩ | ⟨-, hid⟩
    · cases hs.symm.trans hv
    · exact hid
  · rfl

/-- If only one of the attempts is meant for the identifier, each answers what it would answer if it
came first. -/
theorem transcript_eq {l : List Staging}
    (hl : l.Pairwise fun s s' => s.identifier? = none ∨ s'.identifier? = none) (d : RowDraft) :
    d.transcript l = l.map fun s => (s, d.answer s) := by
  induction l generalizing d with
  | nil => rfl
  | cons s rest ih =>
    obtain ⟨hfirst, hrest⟩ := List.pairwise_cons.mp hl
    rw [transcript, ih hrest, List.map_cons]
    congr 1
    refine List.map_congr_left fun s' hs' => ?_
    rw [answer_congr (d.table_attempt s) ((hfirst s' hs').symm.imp_right d.id_attempt)]

/-- The attempts that succeed are those that are answered with success. -/
theorem succeeded_eq (d : RowDraft) (l : List Staging) :
    d.succeeded l = (d.transcript l).filterMap fun e => e.2.toOption.map fun _ => e.1 := by
  induction l generalizing d with
  | nil => rfl
  | cons s rest ih =>
    rw [succeeded, transcript, answer, attempt]
    cases h : d.take s with
    | error e => exact ih d
    | ok d' => exact congrArg (s :: ·) (ih d')

/-- What an attempt binds in a draft for the table if it is meant for no identifier and succeeds:
the table's own column of the name, and the value. -/
def Staging.kept? (t : Table) : Staging → Option (Column × Value)
  | .identifier _ => none
  | .value a v =>
    match a.column with
    | .ok c =>
      if c.isIdentifier = false ∧ t.hasColumn c = true ∧ (c.qualifier = none → v.isMapping = true)
      then some (resolve t c, v) else none
    | .error _ => none

/-- What is kept of an attempt is a value for a column of the table that is no identifier. -/
theorem kept?_eq_some {s : Staging} {e : Column × Value} (h : s.kept? T = some e) :
    ∃ a v c, s = .value a v ∧ a.column = .ok c ∧ c.isIdentifier = false ∧ T.hasColumn c = true ∧
      (c.qualifier = none → v.isMapping = true) ∧ e = (resolve T c, v) := by
  cases s with
  | identifier v => cases h
  | value a v =>
    simp only [Staging.kept?] at h
    split at h
    · rename_i c hc
      split at h
      · rename_i hkept
        cases h
        exact ⟨a, v, c, rfl, hc, hkept.1, hkept.2.1, hkept.2.2, rfl⟩
      · cases h
    · cases h

/-- An attempt whose value is kept succeeds, and binds the column that it leads to. -/
theorem stage_of_kept {d : RowDraft} {c : Column} {v : Value} (hc : c.isIdentifier = false)
    (hcol : d.table.hasColumn c = true) (hmap : c.qualifier = none → v.isMapping = true) :
    d.stage c v = .ok { d with values := d.values.insert (resolve d.table c) v } := by
  obtain ⟨f, hf⟩ := Column.isIdentifier_eq_false_iff.mp hc
  have hfits : ¬ (c.qualifier = none ∧ v.isMapping = false) := by
    rintro ⟨hq, hv⟩
    cases hv.symm.trans (hmap hq)
  simp only [stage, hf, hcol]
  exact if_neg hfits

/-- An attempt binds in the draft what it keeps, and nothing else. -/
theorem values_attempt (d : RowDraft) (s : Staging) :
    (d.attempt s).values = d.values.insertAll (s.kept? d.table).toList := by
  have hstageId : ∀ v d', d.stageId v = .ok d' → d'.values = d.values := by
    intro v d' h
    obtain ⟨-, -, rfl⟩ := stageId_eq_ok h
    rfl
  cases s with
  | identifier v =>
    simp only [attempt, take, Staging.kept?]
    cases h : d.stageId v with
    | error e => rfl
    | ok d' => exact hstageId v d' h
  | value a v =>
    simp only [attempt, take_value, Staging.kept?]
    cases a.column with
    | error e => rfl
    | ok c =>
      by_cases hkept : c.isIdentifier = false ∧ d.table.hasColumn c = true ∧
          (c.qualifier = none → v.isMapping = true)
      · simp only [stage_of_kept hkept.1 hkept.2.1 hkept.2.2, if_pos hkept]
        rfl
      · simp only [if_neg hkept]
        cases h : d.stage c v with
        | error e => rfl
        | ok d' =>
          rcases stage_eq_ok h with ⟨-, hid⟩ | ⟨hc, hcol, hmap, -⟩
          · exact hstageId v d' hid
          · exact absurd ⟨hc, hcol, hmap⟩ hkept

/-- Attempts in turn bind what they keep, one after the other; by induction on the attempts. -/
theorem values_foldl_attempt (l : List Staging) (d : RowDraft) :
    (l.foldl attempt d).values = d.values.insertAll (l.filterMap (Staging.kept? d.table)) := by
  induction l generalizing d with
  | nil => rfl
  | cons s rest ih =>
    rw [List.foldl_cons, ih, table_attempt, values_attempt, List.filterMap_cons]
    cases s.kept? d.table with
    | none => rfl
    | some e => rfl

/-- Further attempts start from what the earlier have reached. -/
theorem reached_append (l₀ l : List Staging) :
    reached T (l₀ ++ l) = l.foldl attempt (reached T l₀) :=
  List.foldl_append

/-- The values that are kept after further attempts. -/
theorem values_reached_append (l₀ l : List Staging) :
    (reached T (l₀ ++ l)).values =
      (reached T l₀).values.insertAll (l.filterMap (Staging.kept? T)) := by
  rw [reached_append, values_foldl_attempt, table_reached]

/-- The family and the qualifier that an attempt addresses, unless it is meant for the identifier or
names no column. -/
def Staging.place? : Staging → Option (String × Option String)
  | .identifier _ => none
  | .value a _ =>
    match a.column with
    | .ok c => c.family.map fun f => (f, c.qualifier)
    | .error _ => none

/-- The cells that an attempt contributes to: one for a qualifier, and for a mapping of a whole
family one for the text of each key. -/
def Staging.cells : Staging → List (String × String)
  | .identifier _ => []
  | .value a v =>
    match a.column with
    | .ok c =>
      match c.family, c.qualifier, v with
      | some f, some q, _ => [(f, q)]
      | some f, none, .mapping entries => entries.map fun e => (f, e.1.plainText)
      | _, _, _ => []
    | .error _ => []

/-- The attempts do not get in each other's way. -/
structure Independent (s s' : Staging) : Prop where
  /-- One of them is not meant for the identifier. -/
  identifier : s.identifier? = none ∨ s'.identifier? = none
  /-- They do not address the same family and qualifier. -/
  place : ∀ p ∈ s.place?, p ∉ s'.place?
  /-- They contribute to different cells. -/
  cells : ∀ p ∈ s.cells, p ∉ s'.cells

instance (s s' : Staging) : Decidable (Independent s s') :=
  decidable_of_iff ((s.identifier? = none ∨ s'.identifier? = none) ∧
      (∀ p ∈ s.place?, p ∉ s'.place?) ∧ ∀ p ∈ s.cells, p ∉ s'.cells)
    ⟨fun h => ⟨h.1, h.2.1, h.2.2⟩, fun h => ⟨h.identifier, h.place, h.cells⟩⟩

section Kept

variable (hT : T.Closed) (hid : Column.identifierName ∉ T.families)
variable (hapart : Column.Apart T.families.names T.families.names)
include hT hid hapart

/-- What an attempt keeps has the family and the qualifier that it addresses. -/
theorem place_of_kept {s : Staging} {e : Column × Value} (h : s.kept? T = some e) :
    ∃ f, e.1.family = some f ∧ s.place? = some (f, e.1.qualifier) := by
  obtain ⟨a, v, c, rfl, ha, hc, hcol, -, rfl⟩ := kept?_eq_some h
  obtain ⟨f, hf⟩ := Column.isIdentifier_eq_false_iff.mp hc
  obtain ⟨hfamily, hqualifier⟩ := place_resolve_of_taken hapart hT hid hcol hf
  refine ⟨f, hfamily.trans hf, ?_⟩
  simp only [Staging.place?, ha, hf, Option.map_some, hqualifier]

/-- What an attempt keeps gives a value only to cells that it contributes to. -/
theorem mem_cells_of_kept {s : Staging} {e : Column × Value} (h : s.kept? T = some e)
    {f q : String} {w : Value} (hw : Row.given? e.1 e.2 f q = some w) : (f, q) ∈ s.cells := by
  obtain ⟨a, v, c, rfl, ha, hc, hcol, hmap, rfl⟩ := kept?_eq_some h
  obtain ⟨g, hg⟩ := Column.isIdentifier_eq_false_iff.mp hc
  obtain ⟨hfamily, hqualifier⟩ := place_resolve_of_taken hapart hT hid hcol hg
  rw [Row.given?_congr hfamily hqualifier] at hw
  have hreach : Row.Reaches f q (c, v) := Row.reaches_iff.mpr ⟨w, hw⟩
  obtain ⟨(hf : c.family = some f), (hq : c.qualifier = some q) |
    ⟨(hq : c.qualifier = none), entries, hread, b, hb, rfl⟩⟩ := hreach
  · simp only [Staging.cells, ha, hf, hq, List.mem_singleton]
  · obtain ⟨_, rfl⟩ := (Value.isMapping_iff v).mp (hmap hq)
    cases hread
    simp only [Staging.cells, ha, hf, hq]
    exact List.mem_map.mpr ⟨b, hb, rfl⟩

/-- Independent attempts bind different columns. -/
theorem nodup_kept {l : List Staging} (hl : l.Pairwise Independent) :
    ((l.filterMap (Staging.kept? T)).map Prod.fst).Nodup := by
  rw [List.Nodup, List.pairwise_map, List.pairwise_filterMap]
  refine hl.imp fun {s s'} hs e he e' he' hsame => ?_
  obtain ⟨f, hf, hplace⟩ := place_of_kept hT hid hapart he
  obtain ⟨f', hf', hplace'⟩ := place_of_kept hT hid hapart he'
  rw [← hsame, hf] at hf'
  cases hf'
  rw [← hsame] at hplace'
  exact hs.place _ hplace hplace'

/-- At every cell at most one of several independent attempts has a say. -/
theorem pairwise_given_kept {l : List Staging} (hl : l.Pairwise Independent) (f q : String) :
    (l.filterMap (Staging.kept? T)).Pairwise fun e e' =>
      Row.given? e.1 e.2 f q = none ∨ Row.given? e'.1 e'.2 f q = none := by
  rw [List.pairwise_filterMap]
  refine hl.imp fun {s s'} hs e he e' he' => ?_
  cases hw : Row.given? e.1 e.2 f q with
  | none => exact .inl rfl
  | some w =>
    cases hw' : Row.given? e'.1 e'.2 f q with
    | none => exact .inr rfl
    | some w' =>
      exact absurd (mem_cells_of_kept hT hid hapart he' hw')
        (hs.cells _ (mem_cells_of_kept hT hid hapart he hw))

end Kept

/-- If at most one item of a list gives something, the order of the items does not matter to what is
found. -/
theorem findSome?_perm {α β : Type} {g : α → Option β} {l l' : List α} (h : l.Perm l')
    (hl : l.Pairwise fun a b => g a = none ∨ g b = none) : l.findSome? g = l'.findSome? g := by
  induction h with
  | nil => rfl
  | cons a _ ih => rw [List.findSome?_cons, List.findSome?_cons, ih (List.pairwise_cons.mp hl).2]
  | swap a b rest =>
    rcases (List.pairwise_cons.mp hl).1 a (List.mem_cons_self ..) with hb | ha
    · simp only [List.findSome?_cons, hb]
    · simp only [List.findSome?_cons, ha]
  | trans h _ ih ih' => exact (ih hl).trans (ih' (h.pairwise hl fun {_ _} hab => hab.symm))

/-- The order does not matter to a cell that two entries never both give. -/
theorem lastGiven?_perm {l l' : List (Column × Value)} (h : l.Perm l') {f q : String}
    (hl : l.Pairwise fun e e' => Row.given? e.1 e.2 f q = none ∨ Row.given? e'.1 e'.2 f q = none) :
    Row.lastGiven? l f q = Row.lastGiven? l' f q := by
  have hreverse : l.reverse.Perm l'.reverse :=
    (List.reverse_perm l).trans (h.trans (List.reverse_perm l').symm)
  exact findSome?_perm hreverse (List.pairwise_reverse.mpr (hl.imp Or.symm))

/-- Values for different columns, at most one of which gives the cell a value, may be bound in any
order. -/
theorem lastGiven?_insertAll_perm {l l' : List (Column × Value)} (h : l.Perm l')
    (hnodup : (l.map Prod.fst).Nodup) {f q : String}
    (hl : l.Pairwise fun e e' => Row.given? e.1 e.2 f q = none ∨ Row.given? e'.1 e'.2 f q = none)
    (m : OrderedMap Column Value) :
    Row.lastGiven? (m.insertAll l).entries f q = Row.lastGiven? (m.insertAll l').entries f q := by
  have hnodup' : (l'.map Prod.fst).Nodup := (h.map Prod.fst).nodup_iff.mp hnodup
  -- Known columns keep their places in both orders; only the new ones at the end change places.
  rw [entries_insertAll hnodup, entries_insertAll hnodup', Row.lastGiven?_append,
    Row.lastGiven?_append, lastGiven?_perm (h.filter _) (hl.sublist List.filter_sublist)]
  simp only [lookupEntry_perm hnodup h]

theorem succeeded_sublist (l : List Staging) (d : RowDraft) : (d.succeeded l).Sublist l := by
  induction l generalizing d with
  | nil => exact .slnil
  | cons s rest ih =>
    rw [succeeded]
    split
    · exact (ih _).cons_cons s
    · exact (ih d).cons s

/-- The families of the cells of a finished row are those of the kept columns. -/
theorem mem_families_build {d : RowDraft} {C : Cells} (hC : d.build.cells = .ok C) (f : String) :
    f ∈ C.families ↔ ∃ c ∈ d.values.keys, c.family = some f := by
  rw [Row.mem_families_cells hC]
  constructor
  · rintro ⟨c, hc, hf⟩
    rcases mem_columns_build hc with hnone | hmem
    · cases hnone.symm.trans hf
    · exact ⟨c, hmem, hf⟩
  · rintro ⟨c, hc, hf⟩
    refine ⟨c, ?_, hf⟩
    change c ∈ d.finishedValues.keys
    rw [finishedValues_eq]
    exact mem_keys_insertAll.mpr (.inr hc)

/-- Attempts of which no two meet in an identifier, a column or a cell give the same answers in any
order, and finished rows with the same identifier and cells. -/
theorem order_of_independent (hT : T.Made) (hcolon : ∀ f ∈ T.families, ColonFree f)
    (hid : Column.identifierName ∉ T.families) (l₀ : List Staging) {l l' : List Staging}
    (hl : l.Pairwise Independent) (h : l.Perm l') :
    ((reached T l₀).transcript l).Perm ((reached T l₀).transcript l') ∧
      (reached T (l₀ ++ l)).build.idValue = (reached T (l₀ ++ l')).build.idValue ∧
      ∃ C C', (reached T (l₀ ++ l)).build.cells = .ok C ∧
        (reached T (l₀ ++ l')).build.cells = .ok C' ∧ Cells.Same C C' := by
  have hclosed := hT.closed
  have hapart : Column.Apart T.families.names T.families.names := Column.apart_of_not_mem hcolon
  have honce : l.Pairwise fun s s' => s.identifier? = none ∨ s'.identifier? = none :=
    hl.imp Independent.identifier
  have honce' := h.pairwise honce fun {_ _} hs => hs.symm
  have hanswers : ((reached T l₀).transcript l).Perm ((reached T l₀).transcript l') := by
    rw [transcript_eq honce, transcript_eq honce']
    exact h.map _
  have hsucceeded : ((reached T l₀).succeeded l).Perm ((reached T l₀).succeeded l') := by
    rw [succeeded_eq, succeeded_eq]
    exact hanswers.filterMap _
  have hidentifier : (reached T (l₀ ++ l)).id = (reached T (l₀ ++ l')).id := by
    rw [reached_append, reached_append, id_foldl_attempt, id_foldl_attempt,
      findSome?_perm hsucceeded (honce.sublist (succeeded_sublist l _))]
  have hkept := h.filterMap (Staging.kept? T)
  obtain ⟨C, hC⟩ := exists_cells_build hclosed hapart (l₀ ++ l)
  obtain ⟨C', hC'⟩ := exists_cells_build hclosed hapart (l₀ ++ l')
  refine ⟨hanswers, ?_, C, C', hC, hC', fun f => ?_, fun f q => ?_⟩
  · rw [idValue_build_of_reached hid, idValue_build_of_reached hid, hidentifier]
  · rw [mem_families_build hC, mem_families_build hC', values_reached_append,
      values_reached_append]
    simp only [mem_keys_insertAll, (hkept.map Prod.fst).mem_iff]
  · rw [cell?_build hid _ hC, cell?_build hid _ hC', values_reached_append, values_reached_append]
    exact lastGiven?_insertAll_perm hkept (nodup_kept hclosed hid hapart hl)
      (pairwise_given_kept hclosed hid hapart hl f q) _

/-- Attempts that overlap with what was staged before, some of them refused, in both directions: the
mapping of a family loses the cell that another column gives, and that column comes last in both. -/
theorem order_of_independent_reversed :
    let T : Table := ⟨"s", "t", [.identifier .binary, .wholeFamily "a" .map,
      .wholeFamily "b" .map], NameSet.ofList ["a", "b"]⟩
    let l₀ : List Staging := [.value (.named "a:x") (.int 1),
      .value (.named "a") (.mapping [(.text "x", .int 2), (.text "y", .int 3)])]
    let l : List Staging := [.value (.named "a") (.mapping [(.int 1, .int 4)]),
      .value (.given ⟨some "a", some "x", .text⟩) (.int 5), .value (.named "b") (.int 6),
      .value (.given ⟨none, some "q", .int⟩) (.text "k"), .value (.named "c:z") (.int 7),
      .value (.named ":") (.int 8), .value (.named "b:y") (.int 9)]
    T.Made ∧ l.Pairwise Independent ∧
      ((reached T l₀).transcript l).Perm ((reached T l₀).transcript l.reverse) ∧
      (reached T (l₀ ++ l.reverse)).build.idValue = .text "k" ∧
      ∃ C C', (reached T (l₀ ++ l)).build.cells = .ok C ∧
        (reached T (l₀ ++ l.reverse)).build.cells = .ok C' ∧ Cells.Same C C' ∧
        C'.cell? "a" "x" = some (.int 5) ∧ C'.cell? "a" "y" = none := by
  intro T l₀ l
  have hmade : T.Made :=
    ⟨⟨some "t", some (NameSet.ofList ["a", "b"]), [], false⟩, _, ⟨"s", ∅⟩, _,
      .of (.memory .empty), _, rfl⟩
  have hl : l.Pairwise Independent := by decide
  have hname : (reached T (l₀ ++ l)).build.idValue = .text "k" := by
    simp only [T, l₀, l]
    rfl
  obtain ⟨C, hC, hx, hy⟩ : ∃ C, (reached T (l₀ ++ l)).build.cells = .ok C ∧
      C.cell? "a" "x" = some (.int 5) ∧ C.cell? "a" "y" = none := by
    simp only [T, l₀, l]
    exact ⟨_, rfl, rfl, rfl⟩
  obtain ⟨hanswers, hid, D, C', hD, hC', hsame⟩ :=
    order_of_independent hmade (by decide) (by decide) l₀ hl (List.reverse_perm l).symm
  cases hC.symm.trans hD
  exact ⟨hmade, hl, hanswers, hid.symm.trans hname, C, C', hC, hC', hsame,
    (hsame.cells "a" "x").symm.trans hx, (hsame.cells "a" "y").symm.trans hy⟩

end WideColumn.RowDraft
