import WideColumn.Proofs.Settings.Entries
import WideColumn.Proofs.Settings.Loading

/-!
# Which texts of a configuration file are not told of as such

Most texts that describe no configuration are refused with an error of the
configuration. Some get past the checks, by their shape alone: the document is no
object, its stores cannot be gone through one by one, or one of them is no object and
stands behind entries that all describe a store. The text of an integer that is too
long to be read is one more. Each of them ends the load with an error of another kind,
and no other text does. The texts are those of characters: escapes of half a surrogate
pair all stand for one and the same character.
-/

namespace WideColumn

/-- The value cannot be gone through item by item. -/
def Value.isSingle : Value → Bool
  | null | bool _ | int _ | float _ | timestamp _ | date _ | handle _ _ => true
  | text _ | bytes _ | list _ | mapping _ => false

namespace StoreSettings

variable {items : List Value} {v : Value} {s : StoreSettings} {e : Error}

/-- A store is read exactly from the objects that describe it. -/
theorem ofDocument_eq_ok_iff :
    ofDocument v = .ok s ↔ ∃ object, v = .mapping object ∧ s.DescribedBy object := by
  cases v with
  | mapping object =>
    simp only [ofDocument, ofEntries_eq_ok_iff, Value.mapping.injEq, exists_eq_left']
  | _ => simp [ofDocument]

/-- A store entry is refused for what the configuration lacks, unless it is no object. -/
theorem cases_of_ofDocument_error (h : ofDocument v = .error e) :
    e.category = some .configuration ∨ v.isMapping = false ∧ e = .noOperation := by
  cases v with
  | mapping object =>
    obtain ⟨d, hd, -, rfl⟩ := ((settles_ofEntries object).error_iff.mp h).exists_not_holds
    exact .inl (category_of_mem_demands hd)
  | _ =>
    cases h
    exact .inr ⟨rfl, rfl⟩

theorem ofDocument_of_not_isMapping (h : v.isMapping = false) :
    ofDocument v = .error .noOperation := by
  cases v with
  | mapping object => cases h
  | _ => rfl

/-- Reading store entries fails as the first of them does that describes no store. -/
theorem allOfDocuments_eq_error_iff :
    allOfDocuments items = .error e ↔
      ∃ before item after, items = before ++ item :: after ∧
        (∀ v ∈ before, ∃ s, ofDocument v = .ok s) ∧ ofDocument item = .error e := by
  induction items with
  | nil =>
    refine ⟨nofun, ?_⟩
    rintro ⟨before, item, after, h, -⟩
    exact absurd h.symm (by simp)
  | cons v items ih =>
    simp only [allOfDocuments]
    constructor
    · intro h
      cases hv : ofDocument v with
      | error e' =>
        rw [hv] at h
        cases h
        exact ⟨[], v, items, rfl, nofun, hv⟩
      | ok s =>
        rw [hv] at h
        cases hrest : allOfDocuments items with
        | error e' =>
          rw [hrest] at h
          cases h
          obtain ⟨before, item, after, rfl, hbefore, hitem⟩ := ih.mp hrest
          exact ⟨v :: before, item, after, rfl, List.forall_mem_cons.mpr ⟨⟨s, hv⟩, hbefore⟩, hitem⟩
        | ok ss =>
          rw [hrest] at h
          cases h
    · rintro ⟨before, item, after, hsplit, hbefore, hitem⟩
      cases before with
      | nil =>
        obtain ⟨rfl, rfl⟩ := List.cons.inj hsplit
        simp only [hitem]
      | cons first before =>
        obtain ⟨rfl, rfl⟩ := List.cons.inj hsplit
        obtain ⟨⟨s, hs⟩, hbefore⟩ := List.forall_mem_cons.mp hbefore
        simp only [hs, ih.mpr ⟨before, item, after, rfl, hbefore, hitem⟩]

/-- Store entries are refused for another matter than the configuration exactly if one of them is no
object and all that come before it describe stores. -/
theorem allOfDocuments_eq_foreign_error_iff :
    allOfDocuments items = .error e ∧ e.category ≠ some .configuration ↔
      e = .noOperation ∧ ∃ before item after, items = before ++ item :: after ∧
        (∀ v ∈ before, ∃ object, v = .mapping object ∧ ∃ s : StoreSettings, s.DescribedBy object) ∧
        item.isMapping = false := by
  have hreadable : ∀ v, (∃ s, ofDocument v = .ok s) ↔
      ∃ object, v = .mapping object ∧ ∃ s : StoreSettings, s.DescribedBy object := fun v => by
    simp only [ofDocument_eq_ok_iff]
    exact ⟨fun ⟨s, object, hv, hs⟩ => ⟨object, hv, s, hs⟩,
      fun ⟨object, hv, s, hs⟩ => ⟨s, object, hv, hs⟩⟩
  simp only [allOfDocuments_eq_error_iff, hreadable]
  constructor
  · rintro ⟨⟨before, item, after, rfl, hbefore, hitem⟩, he⟩
    obtain hown | ⟨hother, rfl⟩ := cases_of_ofDocument_error hitem
    · exact absurd hown he
    · exact ⟨rfl, before, item, after, rfl, hbefore, hother⟩
  · rintro ⟨rfl, before, item, after, rfl, hbefore, hother⟩
    exact ⟨⟨before, item, after, rfl, hbefore, ofDocument_of_not_isMapping hother⟩, nofun⟩

end StoreSettings

namespace Configuration

/-- The text gets past the checks, and reading a configuration from it ends with the error. -/
inductive Escapes (text : String) : Error → Prop where
  /-- An integer has too many digits. -/
  | hugeInteger (h : Document.read text = .error .hugeInteger) : Escapes text .badValue
  /-- The document is no object. -/
  | document {v : Value} (h : Document.read text = .ok v) (hv : v.isMapping = false) :
    Escapes text .noOperation
  /-- The stores cannot be gone through. -/
  | stores {entries : List (Value × Value)} {name stores : Value}
    (h : Document.read text = .ok (.mapping entries))
    (hname : Value.field? "schema-name" entries = some name)
    (hstores : Value.field? "stores" entries = some stores) (hsingle : stores.isSingle = true) :
    Escapes text .wrongKind
  /-- One of the stores is no object, and all that come before it describe stores. -/
  | item {entries : List (Value × Value)} {name stores item : Value} {before after : List Value}
    (h : Document.read text = .ok (.mapping entries))
    (hname : Value.field? "schema-name" entries = some name)
    (hstores : Value.field? "stores" entries = some stores)
    (hitems : itemsOf stores = .ok (before ++ item :: after))
    (hbefore : ∀ v ∈ before, ∃ object, v = .mapping object ∧
      ∃ s : StoreSettings, s.DescribedBy object)
    (hitem : item.isMapping = false) : Escapes text .noOperation

variable {path text : String} {e : Error}

/-- There are no items exactly in a single value. -/
theorem itemsOf_eq_error_iff {v : Value} :
    itemsOf v = .error e ↔ v.isSingle = true ∧ e = .wrongKind := by
  cases v <;> simp [itemsOf, Value.isSingle, eq_comm]

/-- No error that escapes is one of the library's own. -/
theorem Escapes.category (h : Escapes text e) : e.category = none := by
  cases h <;> rfl

/-- A text that escapes ends the reading of a configuration with its error. -/
theorem Escapes.ofText (h : Escapes text e) : ofText path text = .error e := by
  cases h with
  | hugeInteger h => simp only [Configuration.ofText, h]
  | @document v h hv =>
    simp only [Configuration.ofText, h]
    cases v with
    | mapping entries => cases hv
    | _ => rfl
  | stores h hname hstores hsingle =>
    simp only [Configuration.ofText, h, ofDocument, ofEntries, hname, hstores,
      itemsOf_eq_error_iff.mpr ⟨hsingle, rfl⟩]
  | @item entries name stores item before after h hname hstores hitems hbefore hitem =>
    obtain ⟨hread, -⟩ := StoreSettings.allOfDocuments_eq_foreign_error_iff.mpr
      ⟨rfl, before, item, after, rfl, hbefore, hitem⟩
    simp only [Configuration.ofText, h, ofDocument, ofEntries, hname, hstores, hitems, hread]

/-- What is not told of as a matter of the configuration is one of the escapes. -/
theorem escapes_of_ofText (h : ofText path text = .error e) (he : e.category ≠ some .configuration) :
    Escapes text e := by
  unfold Configuration.ofText at h
  split at h
  · rename_i v hread
    cases v with
    | mapping entries =>
      simp only [ofDocument, ofEntries] at h
      split at h
      · cases h
        exact absurd rfl he
      · cases h
        exact absurd rfl he
      · rename_i name stores hname hstores
        cases hitems : itemsOf stores with
        | error e' =>
          rw [hitems] at h
          cases h
          obtain ⟨hsingle, rfl⟩ := itemsOf_eq_error_iff.mp hitems
          exact .stores hread hname hstores hsingle
        | ok items =>
          simp only [hitems] at h
          split at h
          · rename_i hunread
            cases h
            obtain ⟨rfl, before, item, after, rfl, hbefore, hitem⟩ :=
              StoreSettings.allOfDocuments_eq_foreign_error_iff.mp ⟨hunread, he⟩
            exact .item hread hname hstores hitems hbefore hitem
          · unfold ofParts at h
            split at h
            · cases h
            · cases h
              exact absurd rfl he
    | _ =>
      cases h
      exact .document hread rfl
  · cases h
    exact absurd rfl he
  · cases h
    exact .hugeInteger ‹_›

end Configuration

/-- A load that looks at the text of a file gives a configuration or fails for a matter of the
configuration, unless the text is one of those that escape. -/
theorem load_of_text_file {tree : FileTree} {p : Path} {cache : Cache} {contents : Bytes}
    {text : String} (hfile : tree.find p = .file contents) (htext : contents.text? = some text)
    (hnew : ∀ c, cache ≠ some (p, c)) :
    (((∃ c, (load tree p cache).1 = .ok c) ∨
        ∃ e, (load tree p cache).1 = .error e ∧ e.category = some .configuration) ↔
      ∀ e, ¬ Configuration.Escapes text e) ∧
      ∀ e, Configuration.Escapes text e →
        (load tree p cache).1 = .error e ∧ e.category = none := by
  rw [load_of_text hfile htext hnew]
  refine ⟨⟨?_, fun hnone => ?_⟩, fun e he => ⟨he.ofText, he.category⟩⟩
  · rintro (⟨c, hc⟩ | ⟨e', he', hown⟩) e he
    · cases hc.symm.trans he.ofText
    · cases he'.symm.trans he.ofText
      cases hown.symm.trans he.category
  · cases hresult : Configuration.ofText p.text text with
    | ok c => exact .inl ⟨c, rfl⟩
    | error e =>
      refine .inr ⟨e, rfl, Decidable.byContradiction fun hother => ?_⟩
      exact hnone e (Configuration.escapes_of_ofText hresult hother)

/-- A number behind a proper store entry is not told of as a fault of the configuration. -/
theorem load_of_text_file_stray_store :
    let tree := (FileTree.empty []).write ⟨"", ["c"]⟩ (.ofText
      "\x7b\"schema-name\":\"s\",\"stores\":[\x7b\"store-id\":\"a\",\"api\":\"memory\"\x7d,1]\x7d")
    (load tree ⟨"", ["c"]⟩ none).1 = .error .noOperation := by
  intro tree
  let first : List (Value × Value) := [(.text "store-id", .text "a"), (.text "api", .text "memory")]
  have hread : Document.read
      "\x7b\"schema-name\":\"s\",\"stores\":[\x7b\"store-id\":\"a\",\"api\":\"memory\"\x7d,1]\x7d" =
        .ok (.mapping [(.text "schema-name", .text "s"),
          (.text "stores", .list ([.mapping first] ++ [.int 1]))]) := rfl
  have hfirst : (⟨"a", .memory, none, none, none, none⟩ : StoreSettings).DescribedBy first :=
    ⟨rfl, rfl, .inl rfl, .inl rfl, .inl rfl, .inl rfl, nofun⟩
  refine ((load_of_text_file rfl (Bytes.text?_ofText _) (fun _ => (Option.some_ne_none _).symm)).2 _
    (.item hread rfl rfl rfl (fun v hv => ?_) rfl)).1
  obtain rfl := List.mem_singleton.mp hv
  exact ⟨first, rfl, _, hfirst⟩

/-- A document that is a list is no configuration, and not told of as a fault of one. -/
theorem load_escapes_of_list :
    let tree := (FileTree.empty []).write ⟨"", ["c"]⟩ (.ofText "[]")
    ¬ ((∃ c, (load tree ⟨"", ["c"]⟩ none).1 = .ok c) ∨
      ∃ e, (load tree ⟨"", ["c"]⟩ none).1 = .error e ∧ e.category = some .configuration) := by
  intro tree
  have hload : (load tree ⟨"", ["c"]⟩ none).1 = .error .noOperation := rfl
  rw [hload]
  rintro (⟨c, ⟨⟩⟩ | ⟨e, ⟨⟩, ⟨⟩⟩)

end WideColumn
