import WideColumn.Collections.OrderedMap

/-!
# Bindings, lookups and overlays

The entries of a map are its lookups: a pair is an entry exactly when its key is
bound to its value. Binding many pairs with distinct keys can so be read off the
list of pairs, and an overlay gives the upper value where there is one.
-/

namespace WideColumn.OrderedMap

variable {κ ν μ : Type} [DecidableEq κ]

/-- A value bound to a key stands among the entries. -/
theorem mem_of_lookupEntry {k : κ} {v : ν} {l : List (κ × ν)} (h : lookupEntry k l = some v) :
    (k, v) ∈ l := by
  induction l with
  | nil => cases h
  | cons e rest ih =>
    rw [lookupEntry] at h
    split at h
    · rename_i he
      cases h
      exact List.mem_cons.mpr (.inl (Prod.ext he.symm rfl))
    · exact List.mem_cons_of_mem _ (ih h)

/-- Where no key comes twice, every entry is found under its key. -/
theorem lookupEntry_of_mem {k : κ} {v : ν} {l : List (κ × ν)} (hl : (l.map Prod.fst).Nodup)
    (h : (k, v) ∈ l) : lookupEntry k l = some v := by
  induction l with
  | nil => cases h
  | cons e rest ih =>
    obtain ⟨hnew, hrest⟩ := List.nodup_cons.mp hl
    rcases List.mem_cons.mp h with rfl | h
    · simp [lookupEntry]
    · have hne : e.1 ≠ k := by
        intro he
        exact hnew (he ▸ List.mem_map_of_mem h)
      rw [lookupEntry, if_neg hne]
      exact ih hrest h

/-- A pair is an entry exactly when its key is bound to its value. -/
theorem mem_entries_iff {m : OrderedMap κ ν} {k : κ} {v : ν} :
    (k, v) ∈ m.entries ↔ m.get? k = some v :=
  ⟨lookupEntry_of_mem m.nodup, mem_of_lookupEntry⟩

/-- Of two lists the first is asked first. -/
theorem lookupEntry_append (k : κ) (l l' : List (κ × ν)) :
    lookupEntry k (l ++ l') = (lookupEntry k l).or (lookupEntry k l') := by
  induction l with
  | nil => rfl
  | cons e rest ih =>
    rw [List.cons_append, lookupEntry, lookupEntry, ih]
    split <;> rfl

/-- Where no key comes twice, the order of the pairs does not matter to a lookup. -/
theorem lookupEntry_perm {l l' : List (κ × ν)} (hl : (l.map Prod.fst).Nodup) (h : l.Perm l')
    (k : κ) : lookupEntry k l = lookupEntry k l' := by
  have hl' : (l'.map Prod.fst).Nodup := (h.map Prod.fst).nodup_iff.mp hl
  apply Option.ext
  intro v
  constructor
  · intro hv
    exact lookupEntry_of_mem hl' (h.mem_iff.mp (mem_of_lookupEntry hv))
  · intro hv
    exact lookupEntry_of_mem hl (h.mem_iff.mpr (mem_of_lookupEntry hv))

/-- Where no key is bound twice, the order does not matter to a look-up. -/
theorem lookupEntry_reverse {l : List (κ × ν)} (hl : (l.map Prod.fst).Nodup) (k : κ) :
    lookupEntry k l.reverse = lookupEntry k l :=
  (lookupEntry_perm hl (List.reverse_perm l).symm k).symm

/-- The entries of a key: one if it is bound, else none. -/
theorem filter_key (m : OrderedMap κ ν) (k : κ) :
    m.entries.filter (fun e => e.1 = k) = (m.get? k).toList.map fun v => (k, v) := by
  obtain ⟨entries, hnodup⟩ := m
  simp only [get?]
  induction entries with
  | nil => rfl
  | cons e rest ih =>
    obtain ⟨hnew, hrest⟩ := List.nodup_cons.mp hnodup
    by_cases he : e.1 = k
    · have hnone : lookupEntry k rest = none := (lookupEntry_eq_none_iff k rest).mpr (he ▸ hnew)
      rw [List.filter_cons_of_pos (by simpa using he), ih hrest, hnone, lookupEntry, if_pos he]
      simp [← he]
    · rw [List.filter_cons_of_neg (by simpa using he), ih hrest, lookupEntry, if_neg he]

theorem mem_keys_of_get? {m : OrderedMap κ ν} {k : κ} {v : ν} (h : m.get? k = some v) :
    k ∈ m.keys := by
  rw [← contains_iff_mem_keys, contains, h]
  rfl

theorem get?_of_mem_keys {m : OrderedMap κ ν} {k : κ} (h : k ∈ m.keys) :
    ∃ v, m.get? k = some v := by
  rw [← contains_iff_mem_keys, contains, Option.isSome_iff_exists] at h
  exact h

/-- Binding a key adds that key and no other. -/
theorem mem_keys_insert {m : OrderedMap κ ν} {k j : κ} {v : ν} :
    j ∈ (m.insert k v).keys ↔ j ∈ m.keys ∨ j = k := by
  rw [keys_insert]
  split
  · rename_i hk
    exact ⟨.inl, fun h => h.elim id (· ▸ hk)⟩
  · rw [List.mem_append, List.mem_singleton]

/-- A map without entries binds no key. -/
theorem isEmpty_iff {m : OrderedMap κ ν} : m.isEmpty = true ↔ ∀ k, m.get? k = none := by
  rw [isEmpty, List.isEmpty_iff]
  constructor
  · intro h k
    rw [get?_eq_none_iff, keys, h]
    exact List.not_mem_nil
  · intro h
    rw [List.eq_nil_iff_forall_not_mem]
    intro e he
    have := mem_entries_iff.mp he
    rw [h] at this
    cases this

/-- Passing the values through a function commutes with binding. -/
theorem mapValues_insert (f : ν → μ) (m : OrderedMap κ ν) (k : κ) (v : ν) :
    (m.insert k v).mapValues f = (m.mapValues f).insert k (f v) := by
  apply ext
  simp only [mapValues, insert]
  induction m.entries with
  | nil => rfl
  | cons e rest ih =>
    by_cases h : e.1 = k
    · simp [insertEntry, h]
    · simpa [insertEntry, h] using ih

/-- Passing the values through a function commutes with erasing. -/
theorem mapValues_erase (f : ν → μ) (m : OrderedMap κ ν) (k : κ) :
    (m.erase k).mapValues f = (m.mapValues f).erase k := by
  apply ext
  simp [mapValues, erase, List.filter_map, Function.comp_def]

/-- Binding a key to what it is bound to changes nothing. -/
theorem insertEntry_of_lookupEntry {k : κ} {v : ν} {l : List (κ × ν)}
    (h : lookupEntry k l = some v) : insertEntry k v l = l := by
  induction l with
  | nil => cases h
  | cons e rest ih =>
    rw [lookupEntry] at h
    rw [insertEntry]
    split at h
    · rename_i he
      cases h
      rw [if_pos he]
    · rename_i he
      rw [if_neg he, ih h]

/-- Of two bindings of one key the later is kept. -/
theorem insertEntry_insertEntry (k : κ) (v w : ν) (l : List (κ × ν)) :
    insertEntry k v (insertEntry k w l) = insertEntry k v l := by
  induction l with
  | nil => simp [insertEntry]
  | cons e rest ih => by_cases h : e.1 = k <;> simp [insertEntry, h, ih]

/-- The last binding of a key is the one that counts. -/
theorem insert_insert (m : OrderedMap κ ν) (k : κ) (v w : ν) :
    (m.insert k w).insert k v = m.insert k v :=
  ext (insertEntry_insertEntry k v w m.entries)

/-- Binding a key to the value it has changes nothing. -/
theorem insert_of_get? {m : OrderedMap κ ν} {k : κ} {v : ν} (h : m.get? k = some v) :
    m.insert k v = m :=
  ext (insertEntry_of_lookupEntry h)

/-- Among pairs that are bound in turn the last one of a key wins. -/
theorem get?_insertAll_last (m : OrderedMap κ ν) (l : List (κ × ν)) (k : κ) :
    (m.insertAll l).get? k = (lookupEntry k l.reverse).or (m.get? k) := by
  induction l generalizing m with
  | nil => rfl
  | cons e rest ih =>
    have hlast : lookupEntry k (rest.reverse ++ [e]) =
        (lookupEntry k rest.reverse).or (if e.1 = k then some e.2 else none) :=
      lookupEntry_append k rest.reverse [e]
    rw [List.reverse_cons, hlast, Option.or_assoc]
    refine (ih (m.insert e.1 e.2)).trans (congrArg _ ?_)
    rw [get?_insert]
    split <;> rfl

/-- Pairs with distinct keys win over what was bound before. -/
theorem get?_insertAll {l : List (κ × ν)} (hl : (l.map Prod.fst).Nodup) (m : OrderedMap κ ν)
    (k : κ) : (m.insertAll l).get? k = (lookupEntry k l).or (m.get? k) := by
  rw [get?_insertAll_last, lookupEntry_reverse hl]

/-- An overlay gives the upper value of a key, or else the lower one. -/
theorem get?_union (m n : OrderedMap κ ν) (k : κ) :
    (m.union n).get? k = (n.get? k).or (m.get? k) :=
  get?_insertAll n.nodup m k

/-- Pairs with distinct keys are found in the map that is made of them. -/
theorem get?_ofList {l : List (κ × ν)} (hl : (l.map Prod.fst).Nodup) (k : κ) :
    (ofList l).get? k = lookupEntry k l := by
  rw [ofList, get?_insertAll hl, get?_empty, Option.or_none]

/-- Binding entries adds their keys and no others. -/
theorem mem_keys_insertAll {l : List (κ × ν)} {m : OrderedMap κ ν} {k : κ} :
    k ∈ (m.insertAll l).keys ↔ k ∈ m.keys ∨ k ∈ l.map Prod.fst := by
  induction l generalizing m with
  | nil => simp [insertAll]
  | cons e rest ih =>
    rw [List.map_cons, List.mem_cons, ← or_assoc, ← mem_keys_insert (v := e.2)]
    exact ih

/-- The entries whose keys came before a key; all of them if it is absent. -/
def entriesBefore (m : OrderedMap κ ν) (k : κ) : List (κ × ν) :=
  m.entries.takeWhile fun e => e.1 ≠ k

/-- The entries whose keys came after a key; none if it is absent. -/
def entriesAfter (m : OrderedMap κ ν) (k : κ) : List (κ × ν) :=
  (m.entries.dropWhile fun e => e.1 ≠ k).tail

/-- A key that is bound again keeps its place between the others; a new key comes last. -/
theorem entries_insert (m : OrderedMap κ ν) (k : κ) (v : ν) :
    (m.insert k v).entries = m.entriesBefore k ++ (k, v) :: m.entriesAfter k := by
  simp only [insert, entriesBefore, entriesAfter]
  induction m.entries with
  | nil => rfl
  | cons e rest ih =>
    by_cases h : e.1 = k
    · simp [insertEntry, h]
    · simpa [insertEntry, h] using ih

/-- No entry comes after an absent key. -/
theorem entriesAfter_of_not_mem {m : OrderedMap κ ν} {k : κ} (h : k ∉ m.keys) :
    m.entriesAfter k = [] := by
  have hne : ∀ e ∈ m.entries, e.1 ≠ k := by
    rintro e he rfl
    exact h (List.mem_map_of_mem he)
  unfold entriesAfter
  revert hne
  induction m.entries with
  | nil => exact fun _ => rfl
  | cons e rest ih =>
    intro hne
    have he : e.1 ≠ k := hne e (List.mem_cons_self ..)
    simp only [List.dropWhile_cons, ne_eq, he, not_false_eq_true, decide_true, if_true]
    exact ih fun e he => hne e (List.mem_cons_of_mem _ he)

/-- A key that is not bound yet is bound behind the others. -/
theorem insertEntry_of_not_mem {k : κ} {l : List (κ × ν)} (h : k ∉ l.map Prod.fst) (v : ν) :
    insertEntry k v l = l ++ [(k, v)] := by
  induction l with
  | nil => rfl
  | cons e rest ih =>
    obtain ⟨hne, hrest⟩ := List.ne_and_not_mem_of_not_mem_cons h
    rw [insertEntry, if_neg hne.symm, ih hrest]
    rfl

/-- A value that is bound to a known key takes the place of the one before. -/
theorem entries_insert_of_mem {m : OrderedMap κ ν} {k : κ} (h : k ∈ m.keys) (v : ν) :
    (m.insert k v).entries = m.entries.map fun e => if e.1 = k then (k, v) else e := by
  obtain ⟨entries, hnodup⟩ := m
  simp only [insert]
  simp only [keys] at h
  induction entries with
  | nil => cases h
  | cons e rest ih =>
    obtain ⟨hnew, hrest⟩ := List.nodup_cons.mp hnodup
    rw [insertEntry, List.map_cons]
    by_cases he : e.1 = k
    · have hsame : ∀ e' ∈ rest, (if e'.1 = k then (k, v) else e') = e' := by
        intro e' he'
        have hne : e'.1 ≠ k := by
          intro hk
          have hmem : e'.1 ∈ rest.map Prod.fst := List.mem_map_of_mem he'
          rw [hk, ← he] at hmem
          exact hnew hmem
        exact if_neg hne
      rw [if_pos he, if_pos he, List.map_congr_left hsame, List.map_id', he]
    · rw [if_neg he, if_neg he]
      exact congrArg (e :: ·) (ih hrest ((List.mem_cons.mp h).resolve_left (Ne.symm he)))

/-- Pairs with distinct keys give the known ones among them their new values in place, and the new
ones come last, in their order. -/
theorem entries_insertAll {l : List (κ × ν)} (hl : (l.map Prod.fst).Nodup) (m : OrderedMap κ ν) :
    (m.insertAll l).entries =
      (m.entries.map fun e => (e.1, (lookupEntry e.1 l).getD e.2)) ++
        l.filter fun e => e.1 ∉ m.keys := by
  induction l generalizing m with
  | nil => simp [insertAll, lookupEntry]
  | cons b rest ih =>
    obtain ⟨hnew, hrest⟩ := List.nodup_cons.mp hl
    have hnone : lookupEntry b.1 rest = none := (lookupEntry_eq_none_iff b.1 rest).mpr hnew
    refine (ih hrest (m.insert b.1 b.2)).trans ?_
    by_cases hb : b.1 ∈ m.keys
    · have hkeys : (m.insert b.1 b.2).keys = m.keys := by rw [keys_insert, if_pos hb]
      rw [hkeys, entries_insert_of_mem hb, List.map_map, List.filter_cons_of_neg (by simpa using hb)]
      congr 1
      refine List.map_congr_left fun e _ => ?_
      by_cases he : e.1 = b.1
      · simp [lookupEntry, he, hnone]
      · have he' : ¬ b.1 = e.1 := fun h => he h.symm
        simp [lookupEntry, he, he']
    · have hentries : (m.insert b.1 b.2).entries = m.entries ++ [b] := insertEntry_of_not_mem hb b.2
      have hother : ∀ e ∈ rest, decide (e.1 ∉ (m.insert b.1 b.2).keys) = decide (e.1 ∉ m.keys) := by
        intro e he
        have hne : e.1 ≠ b.1 := fun h => hnew (h ▸ List.mem_map_of_mem he)
        simp [mem_keys_insert, hne]
      rw [hentries, List.filter_congr hother, List.filter_cons_of_pos (by simpa using hb),
        List.map_append, List.append_assoc]
      congr 1
      · refine List.map_congr_left fun e he => ?_
        have hne : ¬ b.1 = e.1 := fun h => hb (h ▸ List.mem_map_of_mem he)
        simp [lookupEntry, hne]
      · simp [hnone]

/-- Pairs with new and distinct keys come last, in their order. -/
theorem entries_insertAll_of_not_mem {l : List (κ × ν)} (hl : (l.map Prod.fst).Nodup)
    {m : OrderedMap κ ν} (h : ∀ k ∈ l.map Prod.fst, k ∉ m.keys) :
    (m.insertAll l).entries = m.entries ++ l := by
  have hknown : ∀ e ∈ m.entries, (e.1, (lookupEntry e.1 l).getD e.2) = e := by
    intro e he
    have hnone : lookupEntry e.1 l = none :=
      (lookupEntry_eq_none_iff e.1 l).mpr fun hmem => h e.1 hmem (List.mem_map_of_mem he)
    rw [hnone, Option.getD_none]
  have hnew : ∀ e ∈ l, decide (e.1 ∉ m.keys) = true :=
    fun e he => decide_eq_true (h e.1 (List.mem_map_of_mem he))
  rw [entries_insertAll hl, List.map_congr_left hknown, List.map_id', List.filter_eq_self.mpr hnew]

end WideColumn.OrderedMap
