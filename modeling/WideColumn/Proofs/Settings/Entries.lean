import WideColumn.Settings.Reading

/-!
# What a store entry of a document has to hold

A store entry has to meet demands, in a fixed order: it names its store, it names
a way to reach it, the way is a known one, a store behind a server has a host, and
every field has its kind. An entry that meets them all describes settings, field by
field, and these are what is read from it. Any other one is refused for the first
demand that it does not meet.
-/

namespace WideColumn

/-- Something that is asked of a document, and the error of a document that does not hold it. -/
structure Demand where
  /-- The demand is met. -/
  holds : Prop
  /-- What a document is refused for that does not meet it. -/
  refusal : Error

namespace Demand

/-- The error is the refusal of the first demand that is not met. -/
inductive FirstUnmet : List Demand → Error → Prop where
  /-- The first demand is not met. -/
  | here {d : Demand} {ds : List Demand} (h : ¬ d.holds) : FirstUnmet (d :: ds) d.refusal
  /-- The first demand is met, and the error stands for one of the rest. -/
  | later {d : Demand} {ds : List Demand} {e : Error} (hd : d.holds) (h : FirstUnmet ds e) :
    FirstUnmet (d :: ds) e

/-- The result is a success if all demands are met, and else the refusal of the first that is not. -/
def Settles {α : Type} (ds : List Demand) : Except Error α → Prop
  | .ok _ => ∀ d ∈ ds, d.holds
  | .error e => FirstUnmet ds e

section

variable {α β : Type} {d : Demand} {ds ds' : List Demand} {e e' : Error} {r : Except Error α}

/-- What is refused for a demand does not meet that demand. -/
theorem FirstUnmet.exists_not_holds (h : FirstUnmet ds e) : ∃ d ∈ ds, ¬ d.holds ∧ d.refusal = e := by
  induction h with
  | @here d ds h => exact ⟨d, List.mem_cons_self, h, rfl⟩
  | later _ _ ih =>
    obtain ⟨d, hd, hunmet⟩ := ih
    exact ⟨d, List.mem_cons_of_mem _ hd, hunmet⟩

/-- Only one demand is the first that is not met. -/
theorem FirstUnmet.unique (h : FirstUnmet ds e) (h' : FirstUnmet ds e') : e = e' := by
  induction h with
  | here hd =>
    cases h' with
    | here => rfl
    | later hd' => exact absurd hd' hd
  | later hd _ ih =>
    cases h' with
    | here hd' => exact absurd hd hd'
    | later _ h' => exact ih h'

/-- Demands that come later do not change which is the first that is not met. -/
theorem FirstUnmet.append (h : FirstUnmet ds e) : FirstUnmet (ds ++ ds') e := by
  induction h with
  | here h => exact .here h
  | later hd _ ih => exact .later hd ih

/-- Nor do demands that come before and are met. -/
theorem FirstUnmet.after (hds : ∀ d ∈ ds, d.holds) (h : FirstUnmet ds' e) :
    FirstUnmet (ds ++ ds') e := by
  induction ds with
  | nil => exact h
  | cons d ds ih =>
    obtain ⟨hd, hds⟩ := List.forall_mem_cons.mp hds
    exact .later hd (ih hds)

/-- A demand that is met may come first. -/
theorem Settles.cons (hd : d.holds) (h : Settles ds r) : Settles (d :: ds) r := by
  cases r with
  | ok a => exact List.forall_mem_cons.mpr ⟨hd, h⟩
  | error e => exact .later hd h

/-- Demands that are met may come first. -/
theorem Settles.append (hds : ∀ d ∈ ds, d.holds) (h : Settles ds' r) : Settles (ds ++ ds') r := by
  cases r with
  | ok a => exact List.forall_mem_append.mpr ⟨hds, h⟩
  | error e => exact h.after hds

/-- A result that demands settle is a success exactly if they are all met. -/
theorem Settles.exists_ok_iff (h : Settles ds r) : (∃ a, r = .ok a) ↔ ∀ d ∈ ds, d.holds := by
  cases r with
  | ok a => exact ⟨fun _ => h, fun _ => ⟨a, rfl⟩⟩
  | error e =>
    obtain ⟨d, hd, hunmet, -⟩ := FirstUnmet.exists_not_holds h
    exact ⟨nofun, fun hall => absurd (hall d hd) hunmet⟩

/-- A result that demands settle is an error exactly if it is the refusal of the first that is not
met. -/
theorem Settles.error_iff (h : Settles ds r) : r = .error e ↔ FirstUnmet ds e := by
  cases r with
  | ok a =>
    refine ⟨nofun, fun hunmet => ?_⟩
    obtain ⟨d, hd, hunmet, -⟩ := hunmet.exists_not_holds
    exact absurd (h d hd) hunmet
  | error e' =>
    constructor
    · rintro ⟨⟩
      exact h
    · exact fun h' => congrArg _ (FirstUnmet.unique h h')

end

end Demand

/-- What the value of a field has to be. -/
inductive FieldKind where
  /-- A text. -/
  | text
  /-- A text, or missing. -/
  | optionalText
  /-- An integer greater than zero, or missing. -/
  | optionalPositive

/-- A field as it is given: its name, what it has to be, and the value. -/
structure GivenField where
  /-- The name of the field. -/
  name : String
  /-- What the value has to be. -/
  kind : FieldKind
  /-- The value. -/
  value : Value

namespace GivenField

/-- The value is what the field has to be. -/
def Proper (g : GivenField) : Prop :=
  match g.kind with
  | .text => ∃ s, g.value = .text s
  | .optionalText => g.value = .null ∨ ∃ s, g.value = .text s
  | .optionalPositive => g.value = .null ∨ ∃ n : Int, 0 < n ∧ g.value = .int n

/-- The fault of a field whose value is not what it has to be. -/
def fault? (g : GivenField) : Option FieldFault :=
  match g.kind, g.value with
  | .text, .text _ | .optionalText, .null | .optionalText, .text _ | .optionalPositive, .null => none
  | .text, _ | .optionalText, _ => some ⟨g.name, none, .text⟩
  | .optionalPositive, .int n => if 0 < n then none else some ⟨g.name, none, .positive⟩
  | .optionalPositive, _ => some ⟨g.name, none, .integer⟩

/-- A field has no fault exactly if it was given properly. -/
theorem fault?_eq_none_iff {g : GivenField} : g.fault? = none ↔ g.Proper := by
  obtain ⟨name, kind, value⟩ := g
  cases kind <;> cases value <;> simp [fault?, Proper]

/-- The faults of fields, in their order. -/
def faults (fields : List GivenField) : List FieldFault := fields.flatMap fun g => g.fault?.toList

/-- There are no faults exactly if every field was given properly. -/
theorem faults_eq_nil_iff {fields : List GivenField} :
    faults fields = [] ↔ ∀ g ∈ fields, g.Proper := by
  simp only [faults, List.flatMap_eq_nil_iff, Option.toList_eq_nil_iff, fault?_eq_none_iff]

end GivenField

namespace FieldCheck

/-- A check finds no faults exactly if it passes. -/
theorem faults_eq_nil_iff {α : Type} {r : Except FieldFault α} : faults r = [] ↔ ∃ a, r = .ok a := by
  cases r <;> simp

/-- The check of a text finds the fault of a field that takes a text. -/
theorem faults_text (name : String) (v : Value) :
    faults (text name v) = (GivenField.fault? ⟨name, .text, v⟩).toList := by
  cases v <;> rfl

/-- The check of a text that may be missing finds the fault of such a field. -/
theorem faults_optionalText (name : String) (v : Value) :
    faults (optionalText name v) = (GivenField.fault? ⟨name, .optionalText, v⟩).toList := by
  cases v <;> rfl

/-- The check of a number that may be missing finds the fault of such a field. -/
theorem faults_optionalPositive (name : String) (v : Value) :
    faults (optionalPositive name v) = (GivenField.fault? ⟨name, .optionalPositive, v⟩).toList := by
  cases v with
  | int n =>
    by_cases hn : 0 < n
    · simp [optionalPositive, GivenField.fault?, hn]
    · simp [optionalPositive, GivenField.fault?, hn]
  | _ => rfl

/-- A field that takes a text passes exactly the texts. -/
theorem text_eq_ok_iff {name s : String} {v : Value} : text name v = .ok s ↔ v = .text s := by
  cases v <;> simp [text]

/-- The value of an optional field: the missing value stands for none. -/
def valueOf {α : Type} (as : α → Value) (o : Option α) : Value := o.elim .null as

/-- A field whose text may be missing passes exactly the texts and the missing value. -/
theorem optionalText_eq_ok_iff {name : String} {v : Value} {o : Option String} :
    optionalText name v = .ok o ↔ v = valueOf .text o := by
  cases v <;> cases o <;> simp [optionalText, valueOf]

/-- A field whose number may be missing passes the positive integers and the missing value. -/
theorem optionalPositive_eq_ok_iff {name : String} {v : Value} {o : Option Positive} :
    optionalPositive name v = .ok o ↔ v = valueOf (fun n => .int n.val) o := by
  cases v with
  | int n =>
    cases o with
    | none =>
      simp only [optionalPositive, valueOf]
      split <;> simp
    | some m =>
      obtain ⟨m, hm⟩ := m
      simp only [optionalPositive, valueOf, Option.elim_some, Value.int.injEq]
      constructor
      · intro h
        split at h
        · cases h
          omega
        · cases h
      · rintro rfl
        simp only [Int.toNat_natCast, hm, dif_pos]
  | _ => cases o <;> simp [optionalPositive, valueOf]

end FieldCheck

/-- An interface is read exactly from its own word. -/
theorem Interface.ofValue?_eq_some_iff {v : Value} {i : Interface} :
    ofValue? v = some i ↔ v = .text i.word := by
  constructor
  · intro h
    cases v with
    | text s =>
      simp only [ofValue?] at h
      split at h
      · cases h
        exact congrArg _ ‹_›
      · split at h
        · cases h
          exact congrArg _ ‹_›
        · cases h
    | _ => cases h
  · rintro rfl
    exact ofValue?_word i

theorem Interface.word_injective : Function.Injective word := by
  intro i j h
  cases i <;> cases j <;> first | rfl | exact absurd h (by decide)

/-- The fields of a store's settings, each with what it has to be, in the order of their checks. -/
def StoreFields.given (f : StoreFields) : List GivenField :=
  [⟨"store_id", .text, f.id⟩, ⟨"host", .optionalText, f.host⟩, ⟨"port", .optionalPositive, f.port⟩,
    ⟨"table_prefix", .optionalText, f.tablePrefix⟩, ⟨"timeout_millis", .optionalPositive, f.timeout⟩]

/-- The checks of a store find the faults of its fields, in their order. -/
theorem StoreFields.faults_given (f : StoreFields) :
    GivenField.faults f.given =
      FieldCheck.faults (FieldCheck.text "store_id" f.id) ++
        FieldCheck.faults (FieldCheck.optionalText "host" f.host) ++
        FieldCheck.faults (FieldCheck.optionalPositive "port" f.port) ++
        FieldCheck.faults (FieldCheck.optionalText "table_prefix" f.tablePrefix) ++
        FieldCheck.faults (FieldCheck.optionalPositive "timeout_millis" f.timeout) := by
  simp only [FieldCheck.faults_text, FieldCheck.faults_optionalText,
    FieldCheck.faults_optionalPositive, given, GivenField.faults, List.flatMap_cons,
    List.flatMap_nil, List.append_nil, List.append_assoc]

namespace StoreSettings

/-- Fields make the settings whose fields they are; an optional field that is missing makes none. -/
theorem ofFields_eq_ok_iff {i : Interface} {f : StoreFields} {s : StoreSettings} :
    ofFields i f = .ok s ↔
      s.interface = i ∧ f.id = .text s.id ∧ f.host = FieldCheck.valueOf .text s.host ∧
        f.port = FieldCheck.valueOf (fun n => .int n.val) s.port ∧
        f.tablePrefix = FieldCheck.valueOf .text s.tablePrefix ∧
        f.timeout = FieldCheck.valueOf (fun n => .int n.val) s.timeout := by
  simp only [ofFields]
  constructor
  · intro h
    split at h
    · rename_i hid hhost hport hprefix htimeout
      cases h
      exact ⟨rfl, FieldCheck.text_eq_ok_iff.mp hid, FieldCheck.optionalText_eq_ok_iff.mp hhost,
        FieldCheck.optionalPositive_eq_ok_iff.mp hport, FieldCheck.optionalText_eq_ok_iff.mp hprefix,
        FieldCheck.optionalPositive_eq_ok_iff.mp htimeout⟩
    · cases h
  · rintro ⟨rfl, hid, hhost, hport, hprefix, htimeout⟩
    rw [FieldCheck.text_eq_ok_iff.mpr hid, FieldCheck.optionalText_eq_ok_iff.mpr hhost,
      FieldCheck.optionalPositive_eq_ok_iff.mpr hport, FieldCheck.optionalText_eq_ok_iff.mpr hprefix,
      FieldCheck.optionalPositive_eq_ok_iff.mpr htimeout]

/-- Fields make settings if each is what it has to be, and else they are refused with all their
faults. -/
theorem ofFields_cases (i : Interface) (f : StoreFields) :
    ((∀ g ∈ f.given, g.Proper) ∧ ∃ s, ofFields i f = .ok s) ∨
      (¬ ∀ g ∈ f.given, g.Proper) ∧ ofFields i f = .error (GivenField.faults f.given) := by
  rw [← GivenField.faults_eq_nil_iff, StoreFields.faults_given]
  simp only [ofFields]
  split
  · rename_i hid hhost hport hprefix htimeout
    refine .inl ⟨?_, _, rfl⟩
    rw [hid, hhost, hport, hprefix, htimeout]
    rfl
  · -- Without a fault every field would have passed its check, which is the case before.
    rename_i hsome
    refine .inr ⟨fun hnone => ?_, rfl⟩
    simp only [List.append_eq_nil_iff, FieldCheck.faults_eq_nil_iff] at hnone
    obtain ⟨⟨⟨⟨⟨_, hid⟩, _, hhost⟩, _, hport⟩, _, hprefix⟩, _, htimeout⟩ := hnone
    exact hsome _ _ _ _ _ hid hhost hport hprefix htimeout

/-- What a store entry has to hold, in the order in which it is asked for. -/
def demands (object : List (Value × Value)) : List Demand :=
  let id := entry object "store-id"
  let fields := StoreFields.given ⟨id, entry object "host", entry object "port",
    entry object "table-prefix", entry object "timeout-millis"⟩
  [⟨(Value.field? "store-id" object).isSome = true, .storeEntryMissing "store-id"⟩,
    ⟨(Value.field? "api" object).isSome = true, .storeEntryMissing "api"⟩,
    ⟨∃ i : Interface, Value.field? "api" object = some (.text i.word),
      .unknownInterface (entry object "api")⟩,
    ⟨Value.field? "api" object = some (.text Interface.server.word) →
      (entry object "host").isVoid = false, .hostMissing id⟩,
    ⟨∀ g ∈ fields, g.Proper, .invalidStore id (GivenField.faults fields)⟩]

/-- The entry of an object under a key, where none may be there or a missing value. -/
def Gives {α : Type} (object : List (Value × Value)) (key : String) (as : α → Value) :
    Option α → Prop
  | none => Value.field? key object = none ∨ Value.field? key object = some .null
  | some a => Value.field? key object = some (as a)

/-- The settings are those that a store entry holds, each under its key. -/
structure DescribedBy (object : List (Value × Value)) (s : StoreSettings) : Prop where
  /-- The name of the store. -/
  id : Value.field? "store-id" object = some (.text s.id)
  /-- How it is reached. -/
  interface : Value.field? "api" object = some (.text s.interface.word)
  /-- The host of its server. -/
  host : Gives object "host" .text s.host
  /-- The port of its server. -/
  port : Gives object "port" (fun n => .int n.val) s.port
  /-- What its server puts before all table names. -/
  tablePrefix : Gives object "table-prefix" .text s.tablePrefix
  /-- How many milliseconds to wait for an answer. -/
  timeout : Gives object "timeout-millis" (fun n => .int n.val) s.timeout
  /-- A store behind a server has a host. -/
  reached : s.interface = .server → ∃ host, s.host = some host ∧ host ≠ ""

variable {object : List (Value × Value)} {s : StoreSettings} {e : Error}

/-- An object gives a field exactly if the entry under the key is what the field reads as. -/
theorem gives_iff {α : Type} {key : String} {as : α → Value} {o : Option α}
    (has : ∀ a, as a ≠ .null) :
    Gives object key as o ↔ entry object key = FieldCheck.valueOf as o := by
  cases hfield : Value.field? key object with
  | none =>
    cases o with
    | none => simp [Gives, entry, hfield, FieldCheck.valueOf]
    | some a => simp [Gives, entry, hfield, FieldCheck.valueOf, (has a).symm]
  | some v => cases o <;> simp [Gives, entry, hfield, FieldCheck.valueOf]

theorem entry_of_field? {key : String} {v : Value} (h : Value.field? key object = some v) :
    entry object key = v := by
  simp only [entry, h, Option.getD_some]

/-- A text that may be missing counts as nothing if it is missing or empty. -/
theorem isVoid_valueOf_text {o : Option String} :
    (FieldCheck.valueOf .text o).isVoid = false ↔ ∃ t, o = some t ∧ t ≠ "" := by
  cases o <;> simp [FieldCheck.valueOf, Value.isVoid]

/-- Settings are read from a store entry exactly if the entry describes them. -/
theorem ofEntries_eq_ok_iff : ofEntries object = .ok s ↔ s.DescribedBy object := by
  constructor
  · intro h
    unfold ofEntries at h
    split at h
    · cases h
    · cases h
    · rename_i id way hid hway
      split at h
      · cases h
      · rename_i i hi
        split at h
        · cases h
        · rename_i hvoid
          split at h
          · rename_i hfields
            cases h
            obtain ⟨rfl, hs, hhost, hport, hprefix, htimeout⟩ := ofFields_eq_ok_iff.mp hfields
            refine ⟨?_, ?_, (gives_iff nofun).mpr hhost, (gives_iff nofun).mpr hport,
              (gives_iff nofun).mpr hprefix, (gives_iff nofun).mpr htimeout, fun hserver => ?_⟩
            · rw [hid]
              exact congrArg some hs
            · rw [hway, Interface.ofValue?_eq_some_iff.mp hi]
            · rw [← isVoid_valueOf_text, ← hhost]
              exact Bool.eq_false_iff.mpr fun hv => hvoid ⟨hserver, hv⟩
          · cases h
  · intro h
    have hfields : ofFields s.interface (fieldsOf (.text s.id) object) = .ok s :=
      ofFields_eq_ok_iff.mpr ⟨rfl, rfl, (gives_iff nofun).mp h.host, (gives_iff nofun).mp h.port,
        (gives_iff nofun).mp h.tablePrefix, (gives_iff nofun).mp h.timeout⟩
    have hhost : ¬ (s.interface = .server ∧ (entry object "host").isVoid = true) := by
      rintro ⟨hserver, hvoid⟩
      rw [(gives_iff nofun).mp h.host, isVoid_valueOf_text.mpr (h.reached hserver)] at hvoid
      cases hvoid
    simp only [ofEntries, h.id, h.interface, Interface.ofValue?_word, if_neg hhost, hfields]

/-- Reading a store entry succeeds if it meets all demands, and else tells of the first that it does
not meet. -/
theorem settles_ofEntries (object : List (Value × Value)) :
    Demand.Settles (demands object) (ofEntries object) := by
  unfold ofEntries demands
  cases hid : Value.field? "store-id" object with
  | none => exact .here (by simp)
  | some id =>
    refine .cons rfl ?_
    cases hway : Value.field? "api" object with
    | none => exact .here (by simp)
    | some way =>
      refine .cons rfl ?_
      simp only [entry_of_field? hid, entry_of_field? hway, Option.some.injEq]
      cases hinterface : Interface.ofValue? way with
      | none =>
        refine .here ?_
        rintro ⟨i, rfl⟩
        simp at hinterface
      | some i =>
        obtain rfl := Interface.ofValue?_eq_some_iff.mp hinterface
        refine .cons ⟨i, rfl⟩ ?_
        dsimp only
        by_cases hhost : i = .server ∧ (entry object "host").isVoid = true
        · rw [if_pos hhost]
          refine .here fun h => ?_
          have hvoid := h (by rw [hhost.1])
          rw [hhost.2] at hvoid
          cases hvoid
        · rw [if_neg hhost]
          refine .cons (fun hserver => ?_) ?_
          · obtain rfl := Interface.word_injective (Value.text.inj hserver)
            exact Bool.eq_false_iff.mpr fun hvoid => hhost ⟨rfl, hvoid⟩
          · obtain ⟨hproper, s, hs⟩ | ⟨hunproper, hs⟩ := ofFields_cases i (fieldsOf id object)
            · rw [hs]
              exact List.forall_mem_singleton.mpr hproper
            · rw [hs]
              exact .here hunproper

/-- Whatever a store entry is refused for is a matter of the configuration. -/
theorem category_of_mem_demands {d : Demand} (h : d ∈ demands object) :
    d.refusal.category = some .configuration := by
  simp only [demands, List.mem_cons, List.not_mem_nil, or_false] at h
  obtain rfl | rfl | rfl | rfl | rfl := h
  all_goals rfl

end StoreSettings

end WideColumn
