import WideColumn.Column

/-!
# What the name of a column tells

A name does not always tell which column it is meant for: `a:b` names a cell of
the family `a`, and a family may itself be called `a:b`. Where no family is
called like a cell of another, the name of a column determines its family and
its qualifier.
-/

namespace WideColumn.Column

/-- A column is an identifier exactly if it lies in no family. -/
theorem isIdentifier_iff {c : Column} : c.isIdentifier = true ↔ c.family = none := by
  rw [isIdentifier, Option.isNone_iff_eq_none]

theorem isIdentifier_eq_false_iff {c : Column} :
    c.isIdentifier = false ↔ ∃ f, c.family = some f := by
  rw [isIdentifier, ← Option.isSome_iff_exists, Option.isNone_eq_false_iff]

theorem name_of_isIdentifier {c : Column} (h : c.isIdentifier = true) :
    c.name = identifierName := by
  simp only [name, isIdentifier_iff.mp h]

theorem name_of_wholeFamily {c : Column} {f : String} (hf : c.family = some f)
    (hq : c.qualifier = none) : c.name = f := by
  simp only [name, hf, hq]

theorem name_of_qualifier {c : Column} {f q : String} (hf : c.family = some f)
    (hq : c.qualifier = some q) : c.name = joinName f q := by
  simp only [name, hf, hq]

/-- The name of a column depends on its family and qualifier only. -/
theorem name_congr {c d : Column} (hf : c.family = d.family) (hq : c.qualifier = d.qualifier) :
    c.name = d.name := by
  simp only [name, hf, hq]

@[simp] theorem toList_joinName (f q : String) :
    (joinName f q).toList = f.toList ++ ':' :: q.toList := by
  simp [joinName]

theorem colon_mem_joinName (f q : String) : ':' ∈ (joinName f q).toList := by
  rw [toList_joinName]
  exact List.mem_append_right _ (List.mem_cons_self ..)

/-- No cell is called like the identifier, whose name has no colon. -/
theorem joinName_ne_identifierName (f q : String) : joinName f q ≠ identifierName := by
  intro h
  have hmem := colon_mem_joinName f q
  rw [h] at hmem
  revert hmem
  decide

/-- A joined name is longer than its family. -/
theorem length_lt_length_joinName (f q : String) :
    f.toList.length < (joinName f q).toList.length := by
  rw [toList_joinName, List.length_append, List.length_cons]
  omega

/-- Families without a colon can be told from joined names, and so can the qualifiers. -/
theorem joinName_inj {f g q p : String} (hf : ':' ∉ f.toList) (hg : ':' ∉ g.toList)
    (h : joinName f q = joinName g p) : f = g ∧ q = p := by
  have hsplit := congrArg splitName h
  rw [splitName_joinName hf, splitName_joinName hg] at hsplit
  cases hsplit
  exact ⟨rfl, rfl⟩

/-- A column of a family has the name of a cell of that family only if it is that cell. -/
theorem qualifier_of_name {c : Column} {f q : String} (hf : c.family = some f)
    (h : c.name = joinName f q) : c.qualifier = some q := by
  cases hq : c.qualifier with
  | none =>
    rw [name_of_wholeFamily hf hq] at h
    have hlt := length_lt_length_joinName f q
    rw [← h] at hlt
    exact absurd hlt (Nat.lt_irrefl _)
  | some p =>
    rw [name_of_qualifier hf hq] at h
    have hl := congrArg String.toList h
    rw [toList_joinName, toList_joinName, List.append_cancel_left_eq, List.cons.injEq] at hl
    rw [String.toList_injective hl.2]

/-- Where families have no colon, only a column of the family has the name of one of its cells. -/
theorem family_of_name {c : Column} (hc : ∀ g, c.family = some g → ':' ∉ g.toList) {f q : String}
    (hf : ':' ∉ f.toList) (h : c.name = joinName f q) : c.family = some f := by
  cases hg : c.family with
  | none =>
    rw [name_of_isIdentifier (isIdentifier_iff.mpr hg)] at h
    exact absurd h.symm (joinName_ne_identifierName f q)
  | some g =>
    have hcolon := hc g hg
    cases hp : c.qualifier with
    | none =>
      rw [name_of_wholeFamily hg hp] at h
      rw [h] at hcolon
      exact absurd (colon_mem_joinName f q) hcolon
    | some p =>
      rw [name_of_qualifier hg hp] at h
      rw [(joinName_inj hcolon hf h).1]

/-- What stands before the first colon has none, and what is cut there makes the text again. -/
theorem splitName_eq (s : String) :
    ':' ∉ (splitName s).1.toList ∧
      ((splitName s).2 = none ∧ s = (splitName s).1 ∨
        ∃ q, (splitName s).2 = some q ∧ s = joinName (splitName s).1 q) := by
  have hcut := cutColon_join s.toList
  have hcolon := colon_not_mem_cutColon s.toList
  refine ⟨by rwa [splitName, String.toList_ofList], ?_⟩
  cases hafter : (cutColon s.toList).2 with
  | none =>
    rw [hafter, List.append_nil] at hcut
    refine .inl ⟨congrArg (Option.map String.ofList) hafter, String.toList_injective ?_⟩
    rw [splitName, String.toList_ofList, hcut]
  | some rest =>
    rw [hafter] at hcut
    refine .inr ⟨String.ofList rest, congrArg (Option.map String.ofList) hafter,
      String.toList_injective ?_⟩
    rw [toList_joinName, splitName, String.toList_ofList, String.toList_ofList]
    exact hcut.symm

/-- The cell that a joined name is read as: the name is cut at its first colon. -/
def ofJoined (f q : String) : Column :=
  ⟨some (splitName (joinName f q)).1, (splitName (joinName f q)).2, .binary⟩

/-- A joined name is cut into two parts without a colon in the first, and they make the same
name. -/
theorem exists_ofJoined (f q : String) :
    ∃ g p, ofJoined f q = cell g p .binary ∧ joinName g p = joinName f q ∧ ':' ∉ g.toList := by
  obtain ⟨hcolon, ⟨-, hs⟩ | ⟨p, hp, hs⟩⟩ := splitName_eq (joinName f q)
  · rw [← hs] at hcolon
    exact absurd (colon_mem_joinName f q) hcolon
  · refine ⟨_, p, ?_, hs.symm, hcolon⟩
    rw [ofJoined, hp]
    rfl

@[simp] theorem name_ofJoined (f q : String) : (ofJoined f q).name = joinName f q := by
  obtain ⟨g, p, hcell, hname, -⟩ := exists_ofJoined f q
  rw [hcell]
  exact hname

/-- Among columns of different names each one is found under its name. -/
theorem find?_name_of_nodup {l : List Column} (h : (l.map name).Nodup) {c : Column} (hc : c ∈ l) :
    l.find? (fun d => d.name = c.name) = some c := by
  induction l with
  | nil => cases hc
  | cons d l ih =>
    obtain ⟨hd, hl⟩ := List.nodup_cons.mp h
    obtain rfl | hc := List.mem_cons.mp hc
    · exact List.find?_cons_of_pos (decide_eq_true rfl)
    · have hother : d.name ≠ c.name := fun hname => hd (hname ▸ List.mem_map_of_mem hc)
      rw [List.find?_cons_of_neg (by simpa using hother)]
      exact ih hl hc

/-- The name of the identifier is read as the identifier. -/
theorem parse_identifierName (t : Option DataType) :
    parse identifierName t = .ok (identifier (t.getD .binary)) := if_pos rfl

/-- A name without a colon is read as a whole family. -/
theorem parse_of_not_mem {f : String} (hid : f ≠ identifierName) (hf : f ≠ "")
    (hcolon : ':' ∉ f.toList) (t : Option DataType) :
    parse f t = .ok (wholeFamily f (t.getD .map)) := by
  rw [parse, if_neg hid, splitName_of_not_mem hcolon]
  exact if_neg hf

/-- A joined name is cut where it was joined, if the family has no colon. -/
theorem parse_joinName {f q : String} (hcolon : ':' ∉ f.toList) (hf : f ≠ "") (hq : q ≠ "")
    (t : Option DataType) : parse (joinName f q) t = .ok (cell f q (t.getD .binary)) := by
  rw [parse, if_neg (joinName_ne_identifierName f q), splitName_joinName hcolon]
  exact if_neg (not_or.mpr ⟨hf, hq⟩)

/-- All that reading a name can do. The name is that of the identifier, or it has no colon and
stands for a whole family, or it is cut at its first colon; if a part is empty, it is refused. -/
theorem parse_cases (s : String) (t : Option DataType) :
    (s = identifierName ∧ parse s t = .ok (identifier (t.getD .binary))) ∨
      (s ≠ identifierName ∧ ':' ∉ s.toList ∧ parse s t =
        if s = "" then .error (.invalidColumnName s) else .ok (wholeFamily s (t.getD .map))) ∨
      ∃ f q, ':' ∉ f.toList ∧ s = joinName f q ∧ parse s t =
        if f = "" ∨ q = "" then .error (.invalidColumnName s)
        else .ok (cell f q (t.getD .binary)) := by
  by_cases hid : s = identifierName
  · exact .inl ⟨hid, if_pos hid⟩
  · obtain ⟨hcolon, ⟨-, hs⟩ | ⟨q, hq, hs⟩⟩ := splitName_eq s
    · rw [← hs] at hcolon
      refine .inr (.inl ⟨hid, hcolon, ?_⟩)
      rw [parse, if_neg hid, splitName_of_not_mem hcolon]
    · refine .inr (.inr ⟨_, q, hcolon, hs, ?_⟩)
      have hsplit : splitName s = ((splitName s).1, some q) := Prod.ext rfl hq
      rw [parse, if_neg hid, hsplit]

/-- All that a name can be read as: the identifier, a whole family, or a cell of a family without a
colon. -/
theorem parse_eq_ok {s : String} {t : Option DataType} {c : Column} (h : parse s t = .ok c) :
    (s = identifierName ∧ c = identifier (t.getD .binary)) ∨
      (s ≠ identifierName ∧ s ≠ "" ∧ ':' ∉ s.toList ∧ c = wholeFamily s (t.getD .map)) ∨
      ∃ f q, ':' ∉ f.toList ∧ f ≠ "" ∧ q ≠ "" ∧ s = joinName f q ∧
        c = cell f q (t.getD .binary) := by
  obtain ⟨hid, hparse⟩ | ⟨hid, hcolon, hparse⟩ | ⟨f, q, hcolon, hs, hparse⟩ := parse_cases s t
  · cases hparse.symm.trans h
    exact .inl ⟨hid, rfl⟩
  · rw [hparse] at h
    split at h
    · cases h
    · rename_i hne
      cases h
      exact .inr (.inl ⟨hid, hne, hcolon, rfl⟩)
  · rw [hparse] at h
    split at h
    · cases h
    · rename_i hparts
      obtain ⟨hf, hq⟩ := not_or.mp hparts
      cases h
      exact .inr (.inr ⟨f, q, hcolon, hf, hq, hs, rfl⟩)

/-- A joined name that is accepted is read as a cell. -/
theorem eq_ofJoined_of_parse {f q : String} {c : Column}
    (h : parse (joinName f q) none = .ok c) : c = ofJoined f q := by
  obtain ⟨hid, -⟩ | ⟨-, -, hcolon, -⟩ | ⟨g, p, hcolon, -, -, hname, rfl⟩ := parse_eq_ok h
  · exact absurd hid (joinName_ne_identifierName f q)
  · exact absurd (colon_mem_joinName f q) hcolon
  · rw [ofJoined, hname, splitName_joinName hcolon]
    rfl

/-- A column has the name that it was read from. -/
theorem name_of_parse {s : String} {t : Option DataType} {c : Column} (h : parse s t = .ok c) :
    c.name = s := by
  obtain ⟨rfl, rfl⟩ | ⟨-, -, -, rfl⟩ | ⟨f, q, -, -, -, rfl, rfl⟩ := parse_eq_ok h <;> rfl

/-- The column is what its name is read as. -/
def ReadBack (c : Column) : Prop := parse c.name (some c.dataType) = .ok c

/-- A column that was read from a name is read from it again. -/
theorem readBack_of_parse {s : String} {t : Option DataType} {c : Column}
    (h : parse s t = .ok c) : c.ReadBack := by
  obtain ⟨rfl, rfl⟩ | ⟨hid, hs, hcolon, rfl⟩ | ⟨f, q, hcolon, hf, hq, rfl, rfl⟩ := parse_eq_ok h
  · exact parse_identifierName _
  · exact parse_of_not_mem hid hs hcolon _
  · exact parse_joinName hcolon hf hq _

/-- A whole family is what its name is read as if it is not called like something else. -/
theorem readBack_wholeFamily_iff {f : String} {t : DataType} :
    (wholeFamily f t).ReadBack ↔ f ≠ "" ∧ f ≠ identifierName ∧ ':' ∉ f.toList := by
  constructor
  · intro h
    obtain ⟨-, hc⟩ | ⟨hid, hf, hcolon, -⟩ | ⟨g, q, -, -, -, -, hc⟩ := parse_eq_ok h
    · cases hc
    · exact ⟨hf, hid, hcolon⟩
    · cases hc
  · rintro ⟨hf, hid, hcolon⟩
    exact parse_of_not_mem hid hf hcolon _

/-- Whatever type a column is read with, its name gives its family and its qualifier. -/
theorem ReadBack.exists_parse {c : Column} (h : c.ReadBack) (t : Option DataType) :
    ∃ d, parse c.name t = .ok d ∧ d.family = c.family ∧ d.qualifier = c.qualifier := by
  obtain ⟨hname, hc⟩ | ⟨hid, hs, hcolon, hc⟩ | ⟨f, q, hcolon, hf, hq, hname, hc⟩ := parse_eq_ok h
  · exact ⟨_, hname ▸ parse_identifierName t, by rw [hc]; rfl, by rw [hc]; rfl⟩
  · exact ⟨_, parse_of_not_mem hid hs hcolon t, by rw [hc]; rfl, by rw [hc]; rfl⟩
  · exact ⟨_, hname ▸ parse_joinName hcolon hf hq t, by rw [hc]; rfl, by rw [hc]; rfl⟩

/-- No name is called like a cell of a family: none is made of a family, a colon and more. -/
def Apart (families names : List String) : Prop := ∀ f ∈ families, ∀ q, joinName f q ∉ names

/-- A name is made of a family, a colon and more exactly when it starts with the first two. -/
theorem exists_eq_joinName_iff {f n : String} :
    (∃ q, n = joinName f q) ↔ f.toList ++ [':'] <+: n.toList := by
  constructor
  · rintro ⟨q, rfl⟩
    exact ⟨q.toList, by simp⟩
  · rintro ⟨q, hq⟩
    refine ⟨String.ofList q, String.toList_injective ?_⟩
    rw [← hq]
    simp

/-- Names are apart from families if none starts with a family and a colon. -/
theorem apart_iff {families names : List String} :
    Apart families names ↔
      ∀ f ∈ families, ∀ n ∈ names, ¬ f.toList ++ [':'] <+: n.toList := by
  simp only [← exists_eq_joinName_iff]
  constructor
  · rintro h f hf n hn ⟨q, rfl⟩
    exact h f hf q hn
  · exact fun h f hf q hq => h f hf _ hq ⟨q, rfl⟩

/-- Names without a colon are not called like cells. -/
theorem apart_of_not_mem {families names : List String} (h : ∀ n ∈ names, ':' ∉ n.toList) :
    Apart families names := by
  intro f _ q hmem
  exact h _ hmem (colon_mem_joinName f q)

instance (families names : List String) : Decidable (Apart families names) :=
  decidable_of_iff _ apart_iff.symm

/-- Two cuts of one joined name are the same, or the longer family is called like a cell of the
other. -/
theorem eq_or_eq_joinName_of_append {f g q p : String} {l : List Char}
    (hg : g.toList = f.toList ++ l) (h : ':' :: q.toList = l ++ ':' :: p.toList) :
    (f = g ∧ q = p) ∨ ∃ s, g = joinName f s := by
  cases l with
  | nil =>
    have hq : q.toList = p.toList := (List.cons.inj h).2
    rw [List.append_nil] at hg
    exact .inl ⟨String.toList_injective hg.symm, String.toList_injective hq⟩
  | cons c l =>
    have hc : ':' = c := (List.cons.inj h).1
    subst hc
    exact .inr (exists_eq_joinName_iff.mpr ⟨l, by rw [hg, List.append_assoc]; rfl⟩)

/-- A joined name splits in one way only, unless one of the two families is called like a cell of
the other. -/
theorem joinName_eq_joinName {f g q p : String} (h : joinName f q = joinName g p) :
    (f = g ∧ q = p) ∨ (∃ s, g = joinName f s) ∨ ∃ s, f = joinName g s := by
  have hl := congrArg String.toList h
  rw [toList_joinName, toList_joinName] at hl
  rcases List.append_eq_append_iff.mp hl with ⟨l, hg, hq⟩ | ⟨l, hf, hp⟩
  · exact (eq_or_eq_joinName_of_append hg hq).imp_right .inl
  · exact (eq_or_eq_joinName_of_append hf hp).imp (fun ⟨hf, hq⟩ => ⟨hf.symm, hq.symm⟩) .inr

/-- Only an identifier and a whole family called `_id` have the name of the identifier. -/
theorem eq_identifierName_of_name {c : Column} {f : String} (hf : c.family = some f)
    (h : c.name = identifierName) : c.qualifier = none ∧ f = identifierName := by
  cases hq : c.qualifier with
  | none => exact ⟨rfl, (name_of_wholeFamily hf hq).symm.trans h⟩
  | some q =>
    rw [name_of_qualifier hf hq] at h
    exact absurd h (joinName_ne_identifierName f q)

/-- Among families of which none is called like a cell of another, the name of a column tells its
family and its qualifier. -/
theorem Apart.eq_of_name {families : List String} (h : Apart families families) {c d : Column}
    {f g : String} (hc : c.family = some f) (hd : d.family = some g) (hf : f ∈ families)
    (hg : g ∈ families) (hname : c.name = d.name) :
    c.family = d.family ∧ c.qualifier = d.qualifier := by
  cases hq : c.qualifier with
  | none =>
    rw [name_of_wholeFamily hc hq] at hname
    cases hp : d.qualifier with
    | none =>
      rw [name_of_wholeFamily hd hp] at hname
      exact ⟨by rw [hc, hd, hname], rfl⟩
    | some p =>
      rw [name_of_qualifier hd hp] at hname
      exact absurd (hname ▸ hf) (h g hg p)
  | some q =>
    rw [name_of_qualifier hc hq] at hname
    cases hp : d.qualifier with
    | none =>
      rw [name_of_wholeFamily hd hp] at hname
      exact absurd (hname ▸ hg) (h f hf q)
    | some p =>
      rw [name_of_qualifier hd hp] at hname
      rcases joinName_eq_joinName hname with ⟨rfl, rfl⟩ | ⟨s, rfl⟩ | ⟨s, rfl⟩
      · exact ⟨hc.trans hd.symm, rfl⟩
      · exact absurd hg (h f hf s)
      · exact absurd hf (h g hg s)

end WideColumn.Column
