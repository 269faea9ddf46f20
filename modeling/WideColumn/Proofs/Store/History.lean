import Mathlib.Data.List.Permutation
import WideColumn.Proofs.Row.Cells
import WideColumn.Proofs.Store.Memory

/-!
# What a memory store remembers

A store is used by calls that make and drop tables and lay and drop rows. A
table is there if the last call that made or dropped it made it, and a row is the
merge of the cells that were put under its key since the last call that cleared
the key. Calls that fail leave no trace, but for a put that comes to a value that
cannot be copied: the cells that it has written by then stay.
-/

namespace WideColumn.Memory

open Operation OrderedMap

/-- A call that may change a store. -/
inductive Call where
  /-- Make a table with families. -/
  | createTable (table : String) (fs : NameSet)
  /-- Drop a table. -/
  | deleteTable (table : String)
  /-- Lay cells on top of a row. -/
  | put (table key : String) (cells : Cells)
  /-- Drop a row. -/
  | delete (table key : String)

namespace Call

/-- What the call does to a store. -/
def operation : Call → Operation Memory Unit
  | createTable table fs => Memory.createTable table fs
  | deleteTable table => Memory.deleteTable table
  | put table key cells => Memory.put table key cells
  | delete table key => Memory.delete table key

/-- The table that the call is made for. -/
def table : Call → String
  | createTable table _ | deleteTable table | put table _ _ | delete table _ => table

/-- The call makes the table. -/
def makes (t : String) : Call → Bool
  | createTable table _ => table = t
  | _ => false

/-- The call drops the table. -/
def drops (t : String) : Call → Bool
  | deleteTable table => table = t
  | _ => false

/-- After the call no row is stored under the key: it makes the table or drops the row. -/
def clears (t k : String) : Call → Bool
  | createTable table _ => table = t
  | delete table key => table = t ∧ key = k
  | _ => false

/-- The cells that the call puts under the key. -/
def puts? (t k : String) : Call → Option Cells
  | put table key cells => if table = t ∧ key = k then some cells else none
  | _ => none

/-- The call is made for the row under the key or for its whole table. -/
def concerns (t k : String) : Call → Bool
  | createTable table _ | deleteTable table => table = t
  | put table key _ | delete table key => table = t ∧ key = k

/-- All values that the call puts can be copied. -/
def isCopyable : Call → Bool
  | put _ _ cells => cells.isCopyable
  | _ => true

/-- What is left of a call that has failed: of a put that came to a value that cannot be copied, the
cells that it has written. -/
def leaves? : Call → Error → Option Call
  | put table key cells, .wrongKind => some (put table key cells.written)
  | _, _ => none

/-- What a call with the given result has done: itself, or what is left of it. -/
def effect? (c : Call) : Except Error Unit → Option Call
  | .ok () => some c
  | .error e => c.leaves? e

/-- A call that fails for another cause than the kind of a value leaves nothing. -/
theorem leaves?_of_ne {c : Call} {e : Error} (h : e ≠ .wrongKind) : c.leaves? e = none := by
  unfold leaves?
  split
  · exact absurd rfl h
  · rfl

/-- The effect of a call is one on the same row. -/
theorem concerns_of_effect? {c c' : Call} {r : Except Error Unit} (h : c.effect? r = some c') :
    c'.table = c.table ∧ c'.concerns = c.concerns := by
  match r with
  | .ok () =>
    cases h
    exact ⟨rfl, rfl⟩
  | .error e =>
    change c.leaves? e = some c' at h
    unfold leaves? at h
    split at h <;> cases h
    exact ⟨rfl, rfl⟩

/-- A call for one table concerns no row of another. -/
theorem concerns_of_ne {c : Call} {t : String} (h : c.table ≠ t) (k : String) :
    c.concerns t k = false := by
  cases c <;> simp_all [table, concerns]

/-- A call that does not concern a row tells nothing of it. -/
theorem unconcerned {c : Call} {t k : String} (h : c.concerns t k = false) :
    c.makes t = false ∧ c.drops t = false ∧ c.clears t k = false ∧ c.puts? t k = none := by
  cases c <;> simp_all [concerns, makes, drops, clears, puts?]

end Call

/-- The last call that made or dropped the table made it; the latest call comes first. -/
def Stands (t : String) (calls : List Call) : Prop :=
  (calls.find? fun c => c.makes t || c.drops t).any (Call.makes t) = true

instance (t : String) (calls : List Call) : Decidable (Stands t calls) :=
  inferInstanceAs (Decidable (_ = true))

/-- The cells that were put under the key since it was last cleared, in the order in which they were
put; the latest call comes first. -/
def layers (t k : String) (calls : List Call) : List Cells :=
  ((calls.takeWhile fun c => !c.clears t k).filterMap (Call.puts? t k)).reverse

/-- The row that layers make; none if there are no layers. -/
def rowOf (layers : List Cells) : Option Cells :=
  if layers = [] then none else some (Cells.merge layers)

@[simp] theorem rowOf_nil : rowOf [] = none := rfl

/-- There is no row exactly if nothing was put under its key. -/
theorem rowOf_eq_none_iff {layers : List Cells} : rowOf layers = none ↔ layers = [] := by
  simp [rowOf]

/-- A further layer comes on top of the row that there is, or makes one. -/
theorem rowOf_concat (layers : List Cells) (cells : Cells) :
    rowOf (layers ++ [cells]) = some (((rowOf layers).getD ∅).overlay cells) := by
  have hrow : (rowOf layers).getD ∅ = Cells.merge layers := by
    unfold rowOf
    split
    · rename_i h
      rw [h]
      rfl
    · rfl
  rw [hrow, rowOf, if_neg (by simp), Cells.merge_concat]

section

variable {t k : String} {c : Call} {calls : List Call}

/-- A call that neither makes nor drops a table does not change whether it stands. -/
theorem stands_cons (h : c.makes t = false) (h' : c.drops t = false) :
    Stands t (c :: calls) ↔ Stands t calls := by
  simp [Stands, h, h']

/-- A call that clears a key leaves nothing under it. -/
theorem layers_cons_of_clears (h : c.clears t k = true) : layers t k (c :: calls) = [] := by
  simp [layers, h]

/-- Any other call adds what it puts under the key, if anything. -/
theorem layers_cons (h : c.clears t k = false) :
    layers t k (c :: calls) = layers t k calls ++ (c.puts? t k).toList := by
  simp only [layers, List.takeWhile_cons, h, Bool.not_false, if_true, List.filterMap_cons]
  cases c.puts? t k with
  | none => simp
  | some cells => simp

/-- A call that does not concern a row changes neither its table nor its layers. -/
theorem stands_cons_of_unconcerned (h : c.concerns t k = false) :
    Stands t (c :: calls) ↔ Stands t calls := by
  obtain ⟨hmakes, hdrops, -⟩ := Call.unconcerned h
  exact stands_cons hmakes hdrops

/-- A call that does not concern a key changes nothing under it. -/
theorem layers_cons_of_unconcerned (h : c.concerns t k = false) :
    layers t k (c :: calls) = layers t k calls := by
  obtain ⟨-, -, hclears, hputs⟩ := Call.unconcerned h
  rw [layers_cons hclears, hputs]
  exact List.append_nil _

/-- What the second catalogue has for a table is what the calls tell: nothing if the table does not
stand, else the rows that the layers of each key make. -/
def Told (t : String) (calls : List Call) : Option Rows → Prop
  | none => ¬ Stands t calls
  | some rows => Stands t calls ∧ ∀ k, rows.get? k = rowOf (layers t k calls)

/-- A call for another table tells nothing new. -/
theorem told_cons_of_ne (h : c.table ≠ t) (rows : Option Rows) :
    Told t (c :: calls) rows ↔ Told t calls rows := by
  have hstands : Stands t (c :: calls) ↔ Stands t calls :=
    stands_cons_of_unconcerned (Call.concerns_of_ne h "")
  cases rows with
  | none => exact not_congr hstands
  | some rows =>
    simp only [Told, hstands, layers_cons_of_unconcerned (Call.concerns_of_ne h _)]

/-- A table that was just made has no rows. -/
theorem told_createTable (t : String) (fs : NameSet) (calls : List Call) :
    Told t (.createTable t fs :: calls) (some ∅) := by
  refine ⟨by simp [Stands, Call.makes], fun k => ?_⟩
  have hclears : (Call.createTable t fs).clears t k = true := decide_eq_true rfl
  rw [layers_cons_of_clears hclears]
  rfl

/-- A table that was just dropped has no rows to tell of. -/
theorem told_deleteTable (t : String) (calls : List Call) :
    Told t (.deleteTable t :: calls) none := by
  simp [Told, Stands, Call.makes, Call.drops]

/-- Cells that are put come on top of the row under their key. -/
theorem told_put {rows : Rows} (h : Told t calls (some rows)) (k : String) (cells : Cells) :
    Told t (.put t k cells :: calls) (some (rows.lay k cells)) := by
  refine ⟨(stands_cons rfl rfl).mpr h.1, fun j => ?_⟩
  rw [layers_cons rfl, Rows.lay, get?_insert, h.2 k, h.2 j]
  by_cases hj : k = j
  · subst hj
    simp [Call.puts?, rowOf_concat]
  · simp [Call.puts?, hj]

/-- A row that is deleted is told of no more. -/
theorem told_delete {rows : Rows} (h : Told t calls (some rows)) (k : String) :
    Told t (.delete t k :: calls) (some (rows.erase k)) := by
  refine ⟨(stands_cons rfl rfl).mpr h.1, fun j => ?_⟩
  rw [get?_erase, h.2 j]
  by_cases hj : k = j
  · subst hj
    rw [layers_cons_of_clears (by simp [Call.clears]), if_pos rfl, rowOf_nil]
  · rw [layers_cons (by simp [Call.clears, hj]), if_neg hj]
    exact congrArg rowOf (List.append_nil _).symm

end

/-- All that a call can do: be refused and leave the store as it is, or change the rows of its own
table, and of no other, as its effect tells. -/
theorem operation_cases (c : Call) (m : Memory) :
    (∃ e, c.operation m = (.error e, m) ∧ c.effect? (.error e) = none) ∨
    ∃ r m' c', c.operation m = (r, m') ∧ c.effect? r = some c' ∧
      (∀ t, c.table ≠ t → m'.rows.get? t = m.rows.get? t) ∧
      ∀ calls, Told c.table calls (m.rows.get? c.table) →
        Told c.table (c' :: calls) (m'.rows.get? c.table) := by
  cases c with
  | createTable table fs =>
    rcases createTable_cases m table fs with ⟨-, h⟩ | ⟨-, h⟩
    · exact .inl ⟨_, h, rfl⟩
    · refine .inr ⟨_, _, _, h, rfl, fun t ht => (get?_insert ..).trans (if_neg ht),
        fun calls _ => ?_⟩
      change Told table _ ((m.rows.insert table ∅).get? table)
      rw [get?_insert_self]
      exact told_createTable table fs calls
  | deleteTable table =>
    rcases deleteTable_cases m table with ⟨e, h⟩ | ⟨rows, fs, -, -, h⟩
    · exact .inl ⟨e, h, rfl⟩
    · refine .inr ⟨_, _, _, h, rfl, fun t ht => (get?_erase ..).trans (if_neg ht),
        fun calls _ => ?_⟩
      change Told table _ ((m.rows.erase table).get? table)
      rw [get?_erase, if_pos rfl]
      exact told_deleteTable table calls
  | put table key cells =>
    rcases put_cases m table key cells with ⟨e, h, hne⟩ | ⟨rows, fs, hrows, -, -, h⟩
    · exact .inl ⟨e, h, Call.leaves?_of_ne hne⟩
    · refine .inr ⟨_, _, .put table key cells.written, h, ?_,
        fun t ht => (get?_insert ..).trans (if_neg ht), fun calls htold => ?_⟩
      · rw [Cells.outcome]
        split
        · rename_i hcopy
          rw [Cells.written_of_isCopyable hcopy]
          rfl
        · rfl
      · change Told table calls (m.rows.get? table) at htold
        change Told table _ ((m.rows.insert table (rows.lay key cells.written)).get? table)
        rw [hrows] at htold
        rw [get?_insert_self]
        exact told_put htold key cells.written
  | delete table key =>
    rcases delete_cases m table key with ⟨e, h⟩ | ⟨rows, hrows, h⟩
    · exact .inl ⟨e, h, rfl⟩
    · refine .inr ⟨_, _, _, h, rfl, fun t ht => (get?_insert ..).trans (if_neg ht),
        fun calls htold => ?_⟩
      change Told table calls (m.rows.get? table) at htold
      change Told table _ ((m.rows.insert table (rows.erase key)).get? table)
      rw [hrows] at htold
      rw [get?_insert_self]
      exact told_delete htold key

/-- A call whose values can be copied has no effect if it fails. -/
theorem effect?_of_isCopyable {c : Call} (h : c.isCopyable = true) {m m' : Memory} {e : Error}
    (hfail : c.operation m = (.error e, m')) : c.effect? (.error e) = none := by
  cases c with
  | put table key cells =>
    rcases put_cases m table key cells with ⟨e', hput, hne⟩ | ⟨rows, fs, -, -, -, hput⟩
    · cases hput.symm.trans hfail
      exact Call.leaves?_of_ne hne
    · have hok : cells.outcome = .ok () := if_pos h
      rw [hok] at hput
      cases hput.symm.trans hfail
  | createTable _ _ | deleteTable _ | delete _ _ => rfl

/-- A store with what has happened to it since it was new, the latest first. -/
structure Chronicle where
  /-- The store. -/
  store : Memory
  /-- The calls that have succeeded. -/
  calls : List Call
  /-- The effects that calls have had. -/
  effects : List Call

namespace Chronicle

/-- A new store, to which nothing has happened. -/
def new : Chronicle := ⟨empty, [], []⟩

/-- Make a call, which may fail; it is written down if it succeeds, and so is its effect. -/
def call (s : Chronicle) (c : Call) : Chronicle :=
  let (result, m) := c.operation s.store
  ⟨m, match result with
    | .ok () => c :: s.calls
    | .error _ => s.calls, (c.effect? result).toList ++ s.effects⟩

/-- What several calls make of a new store. -/
def after (l : List Call) : Chronicle := l.foldl call new

/-- A call that is refused and leaves nothing changes neither the store nor the effects. -/
theorem call_of_refused {s : Chronicle} {c : Call} {e : Error}
    (h : c.operation s.store = (.error e, s.store)) (heffect : c.effect? (.error e) = none) :
    s.call c = s := by
  rw [call, h]
  simp only [heffect]
  rfl

/-- A call with an effect leaves its store, and its effect before the others. -/
theorem store_call_of_effect {s : Chronicle} {c c' : Call} {r : Except Error Unit} {m : Memory}
    (h : c.operation s.store = (r, m)) (heffect : c.effect? r = some c') :
    (s.call c).store = m ∧ (s.call c).effects = c' :: s.effects := by
  rw [call, h]
  exact ⟨rfl, congrArg (·.toList ++ s.effects) heffect⟩

/-- The effects tell what the second catalogue of the store holds, and the calls that succeeded tell
which tables stand. -/
structure Faithful (s : Chronicle) : Prop where
  /-- The effects tell what is held for each table. -/
  told : ∀ t, Told t s.effects (s.store.rows.get? t)
  /-- A table stands by the effects if it stands by the calls. -/
  stands : ∀ t, Stands t s.effects ↔ Stands t s.calls

theorem faithful_new : new.Faithful := ⟨fun _ => nofun, fun _ => .rfl⟩

/-- A call that succeeds is its own effect, and no other effect makes or drops a table. -/
theorem stands_call {s : Chronicle} (h : ∀ t, Stands t s.effects ↔ Stands t s.calls) (c : Call)
    (t : String) : Stands t (s.call c).effects ↔ Stands t (s.call c).calls := by
  rw [call]
  rcases c.operation s.store with ⟨_ | ⟨⟩, m⟩
  · change Stands t ((c.leaves? _).toList ++ s.effects) ↔ Stands t s.calls
    unfold Call.leaves?
    split
    · exact (stands_cons rfl rfl).trans (h t)
    · exact h t
  · change Stands t (c :: s.effects) ↔ Stands t (c :: s.calls)
    cases hc : c.makes t || c.drops t with
    | false =>
      obtain ⟨hmakes, hdrops⟩ := Bool.or_eq_false_iff.mp hc
      rw [stands_cons hmakes hdrops, stands_cons hmakes hdrops]
      exact h t
    | true => simp only [Stands, List.find?_cons, hc]

/-- Whatever is called, the effects go on telling what the store holds. -/
theorem Faithful.call {s : Chronicle} (hs : s.Faithful) (c : Call) : (s.call c).Faithful := by
  refine ⟨fun t => ?_, stands_call hs.stands c⟩
  rcases operation_cases c s.store with ⟨e, h, heffect⟩ | ⟨r, m, c', h, heffect, hothers, hown⟩
  · rw [call_of_refused h heffect]
    exact hs.told t
  · obtain ⟨hstore, heffects⟩ := store_call_of_effect h heffect
    rw [hstore, heffects]
    by_cases ht : c.table = t
    · subst ht
      exact hown s.effects (hs.told c.table)
    · rw [hothers t ht, told_cons_of_ne ((Call.concerns_of_effect? heffect).1.trans_ne ht)]
      exact hs.told t

/-- The effects tell what the store holds after whatever run of calls, by induction on the run. -/
theorem faithful_after (l : List Call) : (after l).Faithful :=
  List.foldlRecOn l Chronicle.call faithful_new fun _ hs c _ => hs.call c

/-- As long as all values can be copied, the effects are those calls that succeed. -/
theorem effects_after {l : List Call} (h : ∀ c ∈ l, c.isCopyable = true) :
    (after l).effects = (after l).calls := by
  refine List.foldlRecOn (motive := fun s : Chronicle => s.effects = s.calls) l Chronicle.call
    (b := new) rfl fun s hs c hc => ?_
  rw [call]
  rcases hr : c.operation s.store with ⟨e | ⟨⟩, m⟩
  · simp only [effect?_of_isCopyable (h c hc) hr]
    exact hs
  · exact congrArg (c :: ·) hs

/-- The answer for a row is decided by what the effects tell of its table and of its key. -/
theorem get_of_faithful {s : Chronicle} (hs : s.Faithful) (t k : String) :
    (get t k s.store).1 =
      if Stands t s.effects then .ok (rowOf (layers t k s.effects))
      else .error (.noSuchTable t) := by
  have htold := hs.told t
  cases hrows : s.store.rows.get? t with
  | none =>
    rw [hrows] at htold
    rw [get_of_none hrows, if_neg htold]
  | some rows =>
    rw [hrows] at htold
    rw [get_of_rows hrows, if_pos htold.1, htold.2 k]

/-- A call that does not concern a row, successful or not, leaves the answer for it as it is. -/
theorem get_call_of_unconcerned {s : Chronicle} (hs : s.Faithful) {t k : String} {c : Call}
    (h : c.concerns t k = false) : (get t k (s.call c).store).1 = (get t k s.store).1 := by
  rcases operation_cases c s.store with ⟨e, hcall, heffect⟩ | ⟨r, m, c', hcall, heffect, -⟩
  · rw [call_of_refused hcall heffect]
  · have h' : c'.concerns t k = false :=
      (congrFun₂ (Call.concerns_of_effect? heffect).2 t k).trans h
    rw [get_of_faithful (hs.call c), get_of_faithful hs, (store_call_of_effect hcall heffect).2]
    simp only [stands_cons_of_unconcerned h', layers_cons_of_unconcerned h']

/-- A table that has just been made has no rows, whatever it had under that name before. -/
theorem get_of_createTable {s : Chronicle} (hs : s.Faithful) {t : String} {fs : NameSet}
    {m : Memory} (h : createTable t fs s.store = (.ok (), m)) (k : String) :
    (get t k m).1 = .ok none := by
  obtain ⟨hstore, heffects⟩ := store_call_of_effect (c := .createTable t fs) h rfl
  obtain ⟨hstands, hrow⟩ := told_createTable t fs s.effects
  rw [← hstore, get_of_faithful (hs.call (.createTable t fs)), heffects, if_pos hstands, ← hrow k]
  rfl

/-- A row is the merge of what was put under its key since it was last cleared: all that puts which
succeeded were given, and what the others wrote before they failed. -/
theorem get_after (l : List Call) (t k : String) :
    let s := after l
    let answer := (get t k s.store).1
    let puts := layers t k s.effects
    (answer = .error (.noSuchTable t) ↔ ¬ Stands t s.calls) ∧
      (Stands t s.calls → (answer = .ok none ↔ puts = []) ∧
        (puts ≠ [] → answer = .ok (some (Cells.merge puts)) ∧
          Cells.IsMerge puts (Cells.merge puts))) ∧
      (∀ c : Call, c.concerns t k = false → (get t k (s.call c).store).1 = answer) ∧
      (∀ fs m, createTable t fs s.store = (.ok (), m) → (get t k m).1 = .ok none) ∧
      ((∀ c ∈ l, c.isCopyable = true) → s.effects = s.calls) := by
  intro s answer puts
  have hs : s.Faithful := faithful_after l
  have hanswer : answer = if Stands t s.calls then .ok (rowOf puts) else .error (.noSuchTable t) :=
    (get_of_faithful hs t k).trans (if_congr (hs.stands t) rfl rfl)
  refine ⟨?_, fun hstands => ⟨?_, fun hputs => ⟨?_, Cells.isMerge_merge puts⟩⟩,
    fun c hc => get_call_of_unconcerned hs hc, fun fs m hm => get_of_createTable hs hm k,
    effects_after⟩
  · rw [hanswer]
    split <;> simp_all
  · rw [hanswer, if_pos hstands, Except.ok.injEq, rowOf_eq_none_iff]
  · rw [hanswer, if_pos hstands, rowOf, if_neg hputs]

/-- A table is filled, dropped, made anew and filled again. Among the calls are some that fail: for
a missing table, for a table that exists, for an unknown family, and for a value with no copy. -/
theorem get_after_drop_and_refusals :
    let one : Cells := ofList [("a", ofList [("q", .int 1), ("p", .int 2)])]
    let two : Cells := ofList [("b", ∅), ("a", ofList [("q", .int 3)])]
    let bad : Cells := ofList [("b", ofList [("q", .int 4)]), ("a", ofList [("q", .handle "h" "h")])]
    let fs := NameSet.ofList ["a", "b"]
    let l : List Call := [.put "t" "k" one, .createTable "t" fs, .put "t" "i" one,
      .put "t" "k" two, .deleteTable "t", .createTable "t" fs, .createTable "t" ∅,
      .put "t" "k" one, .put "t" "k" (ofList [("c", ∅)]), .put "t" "j" two, .put "t" "k" bad,
      .put "t" "k" two]
    let m := (after l).store
    (get "u" "k" m).1 = .error (.noSuchTable "u") ∧ (get "t" "i" m).1 = .ok none ∧
      (get "t" "k" m).1 = .ok (some (Cells.merge [one, bad.written, two])) := by
  intro one two bad fs l m
  have hmissing : ¬ Stands "u" (after l).calls := by decide
  have hstands : Stands "t" (after l).calls := by decide
  have hnone : layers "t" "i" (after l).effects = [] := by cbv
  have hputs : layers "t" "k" (after l).effects = [one, bad.written, two] := by cbv
  obtain ⟨hu, -⟩ := get_after l "u" "k"
  obtain ⟨-, hi, -⟩ := get_after l "t" "i"
  obtain ⟨-, hk, -⟩ := get_after l "t" "k"
  refine ⟨hu.mpr hmissing, (hi hstands).1.mpr hnone, ?_⟩
  rw [← hputs]
  exact ((hk hstands).2 (hputs ▸ List.cons_ne_nil _ _)).1

/-- A put that fails makes a row if it comes to a value that cannot be copied. -/
theorem get_after_half_put :
    let cells : Cells := ofList [("f", ofList [("a", .int 1)]),
      ("g", ofList [("b", .handle "memoryview" "<memory>")])]
    let made : Call := .createTable "t" (NameSet.ofList ["f", "g"])
    let s := after [made, .put "t" "k" cells]
    s.calls = [made] ∧
      (get "t" "k" s.store).1 = .ok (some (ofList [("f", ofList [("a", .int 1)]), ("g", ∅)])) :=
  ⟨rfl, rfl⟩

end Chronicle

end WideColumn.Memory
