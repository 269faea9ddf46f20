/-!
# Insertion-ordered maps

A finite map that remembers the order in which its keys first came. Binding a
key that is already present changes its value and keeps its place; a new key
goes to the end; erasing closes the gap. Two views pin every operation down:
the lookup `get?` and the key list `keys`.
-/

namespace WideColumn

/-- Bindings with distinct keys, in the order in which the keys first came. -/
structure OrderedMap (κ ν : Type) where
  /-- The bindings, oldest key first. -/
  entries : List (κ × ν)
  /-- No key is bound twice. -/
  nodup : (entries.map Prod.fst).Nodup
  deriving DecidableEq

namespace OrderedMap

variable {κ ν μ : Type}

/-- Equal bindings in equal order make equal maps. -/
@[ext] theorem ext {m n : OrderedMap κ ν} (h : m.entries = n.entries) : m = n := by
  cases m
  cases n
  simp only [mk.injEq]
  exact h

/-- The map without bindings. -/
def empty : OrderedMap κ ν := ⟨[], List.nodup_nil⟩

instance : EmptyCollection (OrderedMap κ ν) := ⟨empty⟩

instance : Inhabited (OrderedMap κ ν) := ⟨empty⟩

/-- The keys, oldest first. -/
def keys (m : OrderedMap κ ν) : List κ := m.entries.map Prod.fst

/-- The values, in key order. -/
def values (m : OrderedMap κ ν) : List ν := m.entries.map Prod.snd

/-- No binding at all. -/
def isEmpty (m : OrderedMap κ ν) : Bool := m.entries.isEmpty

@[simp] theorem keys_empty : (∅ : OrderedMap κ ν).keys = [] := rfl

@[simp] theorem entries_empty : (∅ : OrderedMap κ ν).entries = [] := rfl

theorem nodup_keys (m : OrderedMap κ ν) : m.keys.Nodup := m.nodup

/-- The same keys in the same order with every value passed through `f`. -/
def mapValues (f : ν → μ) (m : OrderedMap κ ν) : OrderedMap κ μ where
  entries := m.entries.map fun e => (e.1, f e.2)
  nodup := by simpa [Function.comp_def] using m.nodup

@[simp] theorem keys_mapValues (f : ν → μ) (m : OrderedMap κ ν) :
    (m.mapValues f).keys = m.keys := by
  simp [mapValues, keys, Function.comp_def]

section Lookup

variable [DecidableEq κ]

/-- The first binding of `k` in a list of bindings. -/
def lookupEntry (k : κ) : List (κ × ν) → Option ν
  | [] => none
  | e :: rest => if e.1 = k then some e.2 else lookupEntry k rest

/-- Rebind `k` in place, or bind it at the end. -/
def insertEntry (k : κ) (v : ν) : List (κ × ν) → List (κ × ν)
  | [] => [(k, v)]
  | e :: rest => if e.1 = k then (e.1, v) :: rest else e :: insertEntry k v rest

/-- A key that is bound anew keeps its place, and a new key comes last. -/
theorem keys_insertEntry (k : κ) (v : ν) (l : List (κ × ν)) :
    (insertEntry k v l).map Prod.fst =
      if k ∈ l.map Prod.fst then l.map Prod.fst else l.map Prod.fst ++ [k] := by
  induction l with
  | nil => simp [insertEntry]
  | cons e rest ih =>
    by_cases h : e.1 = k
    · simp [insertEntry, h]
    · have h' : ¬ k = e.1 := fun he => h he.symm
      simp only [insertEntry, h, if_false, List.map_cons, ih, List.mem_cons, h', false_or]
      split <;> simp

/-- Binding a key binds none twice. -/
theorem nodup_insertEntry (k : κ) (v : ν) {l : List (κ × ν)} (h : (l.map Prod.fst).Nodup) :
    ((insertEntry k v l).map Prod.fst).Nodup := by
  rw [keys_insertEntry]
  split
  · exact h
  · rename_i hk
    rw [List.nodup_append]
    exact ⟨h, by simp, by intro a ha b hb; rw [List.mem_singleton] at hb; rintro rfl; exact hk (hb ▸ ha)⟩

/-- The value bound to `k`. -/
def get? (m : OrderedMap κ ν) (k : κ) : Option ν := lookupEntry k m.entries

/-- Some value is bound to `k`. -/
def contains (m : OrderedMap κ ν) (k : κ) : Bool := (m.get? k).isSome

/-- Bind `k` to `v`: in place if `k` is present, at the end if it is new. -/
def insert (m : OrderedMap κ ν) (k : κ) (v : ν) : OrderedMap κ ν :=
  ⟨insertEntry k v m.entries, nodup_insertEntry k v m.nodup⟩

/-- Remove the binding of `k`, if there is one. -/
def erase (m : OrderedMap κ ν) (k : κ) : OrderedMap κ ν where
  entries := m.entries.filter fun e => e.1 ≠ k
  nodup := List.Sublist.nodup (List.Sublist.map _ List.filter_sublist) m.nodup

/-- Bind every pair of the list in turn. -/
def insertAll (m : OrderedMap κ ν) (l : List (κ × ν)) : OrderedMap κ ν :=
  l.foldl (fun acc e => acc.insert e.1 e.2) m

/-- Bind the pairs of the list from nothing: the first place and the last value of a key win. -/
def ofList (l : List (κ × ν)) : OrderedMap κ ν := insertAll ∅ l

/-- Overlay `n` on `m`: its values win and its new keys follow. -/
def union (m n : OrderedMap κ ν) : OrderedMap κ ν := m.insertAll n.entries

/-- Exactly the keys that are not bound are not found. -/
theorem lookupEntry_eq_none_iff (k : κ) (l : List (κ × ν)) :
    lookupEntry k l = none ↔ k ∉ l.map Prod.fst := by
  induction l with
  | nil => simp [lookupEntry]
  | cons e rest ih =>
    by_cases h : e.1 = k
    · simp [lookupEntry, h]
    · have h' : ¬ k = e.1 := fun he => h he.symm
      simp only [lookupEntry, h, if_false, ih, List.map_cons, List.mem_cons, h', false_or]

/-- Binding a key changes what is found under that key only. -/
theorem lookupEntry_insertEntry (k j : κ) (v : ν) (l : List (κ × ν)) :
    lookupEntry j (insertEntry k v l) = if k = j then some v else lookupEntry j l := by
  induction l with
  | nil => simp [insertEntry, lookupEntry]
  | cons e rest ih =>
    by_cases h : e.1 = k
    · by_cases hj : k = j <;> simp [insertEntry, lookupEntry, h, hj]
    · by_cases hj : e.1 = j
      · subst hj
        have : ¬ k = e.1 := fun he => h he.symm
        simp [insertEntry, lookupEntry, h, this]
      · simp [insertEntry, lookupEntry, h, hj, ih]

@[simp] theorem get?_empty (k : κ) : (∅ : OrderedMap κ ν).get? k = none := rfl

/-- Binding a key changes what is found under that key only. -/
theorem get?_insert (m : OrderedMap κ ν) (k j : κ) (v : ν) :
    (m.insert k v).get? j = if k = j then some v else m.get? j :=
  lookupEntry_insertEntry k j v m.entries

@[simp] theorem get?_insert_self (m : OrderedMap κ ν) (k : κ) (v : ν) :
    (m.insert k v).get? k = some v := by
  simp [get?_insert]

/-- Dropping a key changes what is found under that key only. -/
theorem get?_erase (m : OrderedMap κ ν) (k j : κ) :
    (m.erase k).get? j = if k = j then none else m.get? j := by
  simp only [get?, erase]
  induction m.entries with
  | nil => simp [lookupEntry]
  | cons e rest ih =>
    by_cases h : e.1 = k
    · by_cases hj : k = j
      · simpa [lookupEntry, h, hj] using ih
      · simpa [lookupEntry, h, hj] using ih
    · by_cases hj : e.1 = j
      · have : ¬ k = j := fun he => h (hj.trans he.symm)
        have hjk : ¬ j = k := fun he => this he.symm
        simp [lookupEntry, hj, this, hjk]
      · simpa [lookupEntry, h, hj] using ih

/-- Under every key stands the image of what stood there. -/
theorem get?_mapValues (f : ν → μ) (m : OrderedMap κ ν) (k : κ) :
    (m.mapValues f).get? k = (m.get? k).map f := by
  simp only [get?, mapValues]
  induction m.entries with
  | nil => rfl
  | cons e rest ih => by_cases h : e.1 = k <;> simp [lookupEntry, h, ih]

/-- Nothing is found exactly under the keys that are not bound. -/
theorem get?_eq_none_iff (m : OrderedMap κ ν) (k : κ) : m.get? k = none ↔ k ∉ m.keys :=
  lookupEntry_eq_none_iff k m.entries

theorem contains_iff_mem_keys (m : OrderedMap κ ν) (k : κ) : m.contains k = true ↔ k ∈ m.keys := by
  rw [contains, Option.isSome_iff_ne_none, Ne, get?_eq_none_iff, Classical.not_not]

/-- Binding keeps the key list, or appends the one new key. -/
theorem keys_insert (m : OrderedMap κ ν) (k : κ) (v : ν) :
    (m.insert k v).keys = if k ∈ m.keys then m.keys else m.keys ++ [k] :=
  keys_insertEntry k v m.entries

/-- Erasing drops the key from the key list and keeps the order of the rest. -/
theorem keys_erase (m : OrderedMap κ ν) (k : κ) :
    (m.erase k).keys = m.keys.filter (fun j => j ≠ k) := by
  simp [erase, keys, List.filter_map, Function.comp_def]

end Lookup

end OrderedMap

end WideColumn
