import Mathlib.Data.List.Forall2
import WideColumn.Proofs.Settings.Entries
import WideColumn.Proofs.Settings.Loading

/-!
# Which configuration documents are accepted

A document that is an object, with a list of objects for its stores, describes a
configuration if it gives the name for schemas as a text and if each of its objects
describes a store. A load that finds such a document in the file gives the
configuration it describes, and where it describes none it is refused for the first
demand that it does not meet: the entries of the document come first, then object
after object, and the kind of the name for schemas comes last. A text of a document
is told of as far as a text can hold it: escapes of half a surrogate pair all stand
for one and the same character.
-/

namespace WideColumn

namespace StoreSettings

variable {objects : List (List (Value × Value))} {ss : List StoreSettings} {id : String}

/-- Settings are read from objects exactly if the objects describe them, one by one. -/
theorem allOfDocuments_eq_ok_iff :
    allOfDocuments (objects.map .mapping) = .ok ss ↔
      List.Forall₂ (fun object s => s.DescribedBy object) objects ss := by
  induction objects generalizing ss with
  | nil =>
    cases ss with
    | nil => exact ⟨fun _ => .nil, fun _ => rfl⟩
    | cons s ss => exact ⟨nofun, nofun⟩
  | cons object objects ih =>
    simp only [List.map_cons, allOfDocuments, ofDocument]
    cases hread : ofEntries object with
    | error e =>
      refine ⟨nofun, fun h => ?_⟩
      cases h with
      | cons hs _ => cases hread.symm.trans (ofEntries_eq_ok_iff.mpr hs)
    | ok s =>
      cases hrest : allOfDocuments (objects.map .mapping) with
      | error e =>
        refine ⟨nofun, fun h => ?_⟩
        cases h with
        | cons _ hss => cases hrest.symm.trans (ih.mpr hss)
      | ok rest =>
        constructor
        · rintro ⟨⟩
          exact .cons (ofEntries_eq_ok_iff.mp hread) (ih.mp hrest)
        · intro h
          cases h with
          | cons hs hss =>
            cases hread.symm.trans (ofEntries_eq_ok_iff.mpr hs)
            cases hrest.symm.trans (ih.mpr hss)
            rfl

/-- Reading objects tells of the first demand that one of them does not meet, and by induction on
them no object is asked for anything before those in front of it hold all that they have to. -/
theorem settles_allOfDocuments (objects : List (List (Value × Value))) :
    Demand.Settles (objects.flatMap demands) (allOfDocuments (objects.map .mapping)) := by
  induction objects with
  | nil => exact nofun
  | cons object objects ih =>
    have hobject := settles_ofEntries object
    simp only [List.map_cons, List.flatMap_cons, allOfDocuments, ofDocument]
    cases hread : ofEntries object with
    | error e =>
      rw [hread] at hobject
      exact Demand.FirstUnmet.append hobject
    | ok s =>
      rw [hread] at hobject
      refine .append hobject ?_
      cases hrest : allOfDocuments (objects.map .mapping) with
      | error e =>
        rw [hrest] at ih
        exact ih
      | ok ss =>
        rw [hrest] at ih
        exact ih

/-- The settings are described by the first of the objects that has the name. -/
inductive FirstNamed (id : String) : List (List (Value × Value)) → StoreSettings → Prop where
  /-- The first object has the name. -/
  | here {object : List (Value × Value)} {objects : List (List (Value × Value))} {s : StoreSettings}
    (hs : s.DescribedBy object) (hid : s.id = id) : FirstNamed id (object :: objects) s
  /-- The first object has another name. -/
  | later {object : List (Value × Value)} {objects : List (List (Value × Value))} {s : StoreSettings}
    (hother : Value.field? "store-id" object ≠ some (.text id)) (h : FirstNamed id objects s) :
    FirstNamed id (object :: objects) s

/-- A store and the object that describes it have one name. -/
theorem DescribedBy.named_iff {object : List (Value × Value)} {s : StoreSettings}
    (h : s.DescribedBy object) :
    Value.field? "store-id" object = some (.text id) ↔ s.id = id := by
  rw [h.id, Option.some.injEq, Value.text.injEq]

/-- Among described settings the first of a name is found through the first object that has it. -/
theorem find?_eq_some_iff_firstNamed
    (h : List.Forall₂ (fun object s => s.DescribedBy object) objects ss) {s : StoreSettings} :
    ss.find? (fun s => s.id = id) = some s ↔ FirstNamed id objects s := by
  induction h with
  | nil => exact ⟨nofun, nofun⟩
  | @cons object s₀ objects ss hs₀ _ ih =>
    by_cases hid : s₀.id = id
    · simp only [List.find?_cons, hid, decide_true, Option.some.injEq]
      constructor
      · rintro rfl
        exact .here hs₀ hid
      · intro h
        cases h with
        | here hs _ =>
          exact Except.ok.inj
            ((ofEntries_eq_ok_iff.mpr hs₀).symm.trans (ofEntries_eq_ok_iff.mpr hs))
        | later hother _ => exact absurd (hs₀.named_iff.mpr hid) hother
    · simp only [List.find?_cons, hid, decide_false, ih]
      constructor
      · exact .later (mt hs₀.named_iff.mp hid)
      · intro h
        cases h with
        | here hs hid' =>
          cases (ofEntries_eq_ok_iff.mpr hs₀).symm.trans (ofEntries_eq_ok_iff.mpr hs)
          exact absurd hid' hid
        | later _ h => exact h

/-- No store is found exactly under names that no object has. -/
theorem find?_eq_none_iff_unnamed
    (h : List.Forall₂ (fun object s => s.DescribedBy object) objects ss) :
    ss.find? (fun s => s.id = id) = none ↔
      ∀ object ∈ objects, Value.field? "store-id" object ≠ some (.text id) := by
  simp only [List.find?_eq_none, decide_eq_true_eq]
  induction h with
  | nil => exact ⟨nofun, nofun⟩
  | cons hs _ ih => simp only [List.forall_mem_cons, ih, ne_eq, hs.named_iff]

end StoreSettings

namespace Configuration

/-- What an object document has to hold, in the order in which it is asked for, where its stores are
objects. -/
def demands (entries : List (Value × Value)) (objects : List (List (Value × Value))) : List Demand :=
  ⟨(Value.field? "schema-name" entries).isSome = true, .entryMissing "schema-name"⟩ ::
    ⟨(Value.field? "stores" entries).isSome = true, .entryMissing "stores"⟩ ::
      (objects.flatMap StoreSettings.demands ++
        [⟨∃ name, Value.field? "schema-name" entries = some (.text name),
          .invalidConfiguration [⟨"schema_name", none, .text⟩]⟩])

/-- The configuration is the one that an object document holds, its stores in the order of their
objects. -/
structure DescribedBy (entries : List (Value × Value)) (objects : List (List (Value × Value)))
    (c : Configuration) : Prop where
  /-- The name for schemas. -/
  schemaName : Value.field? "schema-name" entries = some (.text c.schemaName)
  /-- The stores are there. -/
  listed : (Value.field? "stores" entries).isSome = true
  /-- Every object describes the store at its place. -/
  stores : List.Forall₂ (fun object s => s.DescribedBy object) objects c.stores

variable {entries : List (Value × Value)} {objects : List (List (Value × Value))}
  {c : Configuration} {e : Error}

/-- A name that is a text, and stores, make up the configuration that has them. -/
theorem ofParts_eq_ok_iff {name : Value} {ss : List StoreSettings} :
    ofParts name ss = .ok c ↔ name = .text c.schemaName ∧ ss = c.stores := by
  obtain ⟨schemaName, stores⟩ := c
  cases name <;> simp [ofParts, FieldCheck.text]

/-- All that is asked of a name is that it is a text. -/
theorem settles_ofParts (name : Value) (ss : List StoreSettings) :
    Demand.Settles [⟨∃ s, name = .text s, .invalidConfiguration [⟨"schema_name", none, .text⟩]⟩]
      (ofParts name ss) := by
  cases name with
  | text s => exact List.forall_mem_singleton.mpr ⟨s, rfl⟩
  | _ => exact .here (by simp)

/-- A configuration is read from an object document exactly if the document describes it. -/
theorem ofEntries_eq_ok_iff
    (hstores : ∀ v, Value.field? "stores" entries = some v → v = .list (objects.map .mapping)) :
    ofEntries entries = .ok c ↔ c.DescribedBy entries objects := by
  unfold ofEntries
  cases hname : Value.field? "schema-name" entries with
  | none =>
    refine ⟨nofun, fun h => ?_⟩
    cases hname.symm.trans h.schemaName
  | some name =>
    cases hlist : Value.field? "stores" entries with
    | none =>
      refine ⟨nofun, fun h => ?_⟩
      have hlisted := h.listed
      rw [hlist] at hlisted
      cases hlisted
    | some v =>
      obtain rfl := hstores v hlist
      simp only [itemsOf]
      cases hread : StoreSettings.allOfDocuments (objects.map .mapping) with
      | error e =>
        refine ⟨nofun, fun h => ?_⟩
        cases hread.symm.trans (StoreSettings.allOfDocuments_eq_ok_iff.mpr h.stores)
      | ok ss =>
        simp only [ofParts_eq_ok_iff]
        constructor
        · rintro ⟨rfl, rfl⟩
          exact ⟨hname, by rw [hlist]; rfl, StoreSettings.allOfDocuments_eq_ok_iff.mp hread⟩
        · intro h
          cases hread.symm.trans (StoreSettings.allOfDocuments_eq_ok_iff.mpr h.stores)
          exact ⟨Option.some.inj (hname.symm.trans h.schemaName), rfl⟩

/-- Reading an object document succeeds if it meets all demands, and else tells of the first that it
does not meet. -/
theorem settles_ofEntries
    (hstores : ∀ v, Value.field? "stores" entries = some v → v = .list (objects.map .mapping)) :
    Demand.Settles (demands entries objects) (ofEntries entries) := by
  unfold ofEntries demands
  cases hname : Value.field? "schema-name" entries with
  | none => exact .here (by simp)
  | some name =>
    refine .cons rfl ?_
    cases hlist : Value.field? "stores" entries with
    | none => exact .here (by simp)
    | some v =>
      refine .cons rfl ?_
      obtain rfl := hstores v hlist
      have hobjects := StoreSettings.settles_allOfDocuments objects
      simp only [itemsOf, Option.some.injEq]
      cases hread : StoreSettings.allOfDocuments (objects.map .mapping) with
      | error e =>
        rw [hread] at hobjects
        exact Demand.FirstUnmet.append hobjects
      | ok ss =>
        rw [hread] at hobjects
        exact .append hobjects (settles_ofParts name ss)

/-- Whatever a document is refused for is a matter of the configuration. -/
theorem category_of_firstUnmet (h : Demand.FirstUnmet (demands entries objects) e) :
    e.category = some .configuration := by
  obtain ⟨d, hd, -, rfl⟩ := h.exists_not_holds
  simp only [demands, List.mem_cons, List.mem_append, List.mem_flatMap, List.not_mem_nil,
    or_false] at hd
  obtain rfl | rfl | ⟨object, -, hobject⟩ | rfl := hd
  · rfl
  · rfl
  · exact StoreSettings.category_of_mem_demands hobject
  · rfl

end Configuration

/-- An object document whose stores are objects is accepted exactly if it holds all that it has to,
and else refused for the first that it does not. -/
theorem load_of_objects {tree : FileTree} {p : Path} {cache : Cache} {contents : Bytes}
    {text : String} {entries : List (Value × Value)} {objects : List (List (Value × Value))}
    (hfile : tree.find p = .file contents) (htext : contents.text? = some text)
    (hread : Document.read text = .ok (.mapping entries))
    (hstores : ∀ v, Value.field? "stores" entries = some v → v = .list (objects.map .mapping))
    (hnew : ∀ c, cache ≠ some (p, c)) :
    ((∃ c, (load tree p cache).1 = .ok c) ↔
        ∀ d ∈ Configuration.demands entries objects, d.holds) ∧
      (∀ c, (load tree p cache).1 = .ok c ↔ c.DescribedBy entries objects) ∧
      (∀ c id, (load tree p cache).1 = .ok c →
        (∀ s, c.store? id = some s ↔ StoreSettings.FirstNamed id objects s) ∧
          (c.store? id = none ↔
            ∀ object ∈ objects, Value.field? "store-id" object ≠ some (.text id))) ∧
      ∀ e, ((load tree p cache).1 = .error e ↔
          Demand.FirstUnmet (Configuration.demands entries objects) e) ∧
        ((load tree p cache).1 = .error e → e.category = some .configuration) := by
  have hload : (load tree p cache).1 = Configuration.ofEntries entries := by
    rw [load_of_text hfile htext hnew, Configuration.ofText, hread]
    rfl
  have hsettles := Configuration.settles_ofEntries hstores
  have hdescribed : ∀ c, Configuration.ofEntries entries = .ok c ↔ c.DescribedBy entries objects :=
    fun c => Configuration.ofEntries_eq_ok_iff hstores
  simp only [hload]
  refine ⟨hsettles.exists_ok_iff, hdescribed, fun c id hc => ?_,
    fun e => ⟨hsettles.error_iff, fun he => ?_⟩⟩
  · have hc := (hdescribed c).mp hc
    exact ⟨fun s => StoreSettings.find?_eq_some_iff_firstNamed hc.stores,
      StoreSettings.find?_eq_none_iff_unnamed hc.stores⟩
  · exact Configuration.category_of_firstUnmet (hsettles.error_iff.mp he)

/-- The fields of a store are told of before the kind of the name for schemas. -/
theorem load_of_objects_in_order :
    let tree := (FileTree.empty []).write ⟨"", ["c"]⟩ (.ofText
      "\x7b\"schema-name\":5,\"stores\":[\x7b\"store-id\":\"a\",\"api\":\"memory\",\"port\":0\x7d]\x7d")
    (load tree ⟨"", ["c"]⟩ none).1 =
      .error (.invalidStore (.text "a") [⟨"port", none, .positive⟩]) := by
  intro tree
  let first : List (Value × Value) :=
    [(.text "store-id", .text "a"), (.text "api", .text "memory"), (.text "port", .int 0)]
  let entries : List (Value × Value) :=
    [(.text "schema-name", .int 5), (.text "stores", .list ([first].map .mapping))]
  have hread : Document.read
      "\x7b\"schema-name\":5,\"stores\":[\x7b\"store-id\":\"a\",\"api\":\"memory\",\"port\":0\x7d]\x7d" =
        .ok (.mapping entries) := rfl
  have hstores : ∀ v, Value.field? "stores" entries = some v →
      v = .list ([first].map .mapping) := fun v hv => (Option.some.inj hv).symm
  have hport : ¬ (GivenField.mk "port" .optionalPositive (.int 0)).Proper := by
    rw [← GivenField.fault?_eq_none_iff]
    exact nofun
  have hunmet : Demand.FirstUnmet (Configuration.demands entries [first])
      (.invalidStore (.text "a") [⟨"port", none, .positive⟩]) := by
    refine .later rfl (.later rfl ?_)
    refine .later rfl (.later rfl (.later ⟨.memory, rfl⟩ (.later ?_ (.here ?_))))
    · intro hserver
      have hword : Interface.memory.word = Interface.server.word :=
        Value.text.inj (Option.some.inj hserver)
      exact absurd hword (by decide)
    · exact fun hproper => hport (hproper _ (.tail _ (.tail _ (.head _))))
  exact ((load_of_objects rfl (Bytes.text?_ofText _) hread hstores
    (fun _ => (Option.some_ne_none _).symm)).2.2.2 _).1.mpr hunmet

end WideColumn
