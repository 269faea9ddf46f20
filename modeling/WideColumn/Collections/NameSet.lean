/-!
# Finite sets of names

A set of names in its one canonical form: the list of its members in strictly
increasing order of code points. Equal sets are equal values, and reading the
list is the sorted order in which such a set is shown.
-/

namespace WideColumn

/-- A finite set of names, held in strictly increasing order. -/
structure NameSet where
  /-- The members, each once, in increasing order of code points. -/
  names : List String
  /-- Every member is below all later ones. -/
  sorted : names.Pairwise (· < ·)
  deriving DecidableEq

namespace NameSet

/-- The set without members. -/
def empty : NameSet := ⟨[], List.Pairwise.nil⟩

instance : EmptyCollection NameSet := ⟨empty⟩

instance : Inhabited NameSet := ⟨empty⟩

instance : Membership String NameSet := ⟨fun s n => n ∈ s.names⟩

theorem mem_def {s : NameSet} {n : String} : n ∈ s ↔ n ∈ s.names := Iff.rfl

instance (n : String) (s : NameSet) : Decidable (n ∈ s) :=
  inferInstanceAs (Decidable (n ∈ s.names))

/-- No member at all. -/
def isEmpty (s : NameSet) : Bool := s.names.isEmpty

/-- Put a name at its place in an increasing list, unless it is there. -/
def place (n : String) : List String → List String
  | [] => [n]
  | m :: rest => if n < m then n :: m :: rest else if n = m then m :: rest else m :: place n rest

@[simp] theorem mem_place {n k : String} {l : List String} : k ∈ place n l ↔ k = n ∨ k ∈ l := by
  induction l with
  | nil => simp [place]
  | cons m rest ih =>
    simp only [place]
    split
    · simp
    · split
      · rename_i h
        subst h
        simp
      · simp only [List.mem_cons, ih]
        exact or_left_comm

/-- Placing a name keeps the names in increasing order. -/
theorem pairwise_place {n : String} {l : List String} (h : l.Pairwise (· < ·)) :
    (place n l).Pairwise (· < ·) := by
  induction l with
  | nil => simp [place]
  | cons m rest ih =>
    obtain ⟨hm, hr⟩ := List.pairwise_cons.mp h
    simp only [place]
    split
    · rename_i hlt
      refine List.pairwise_cons.mpr ⟨fun k hk => ?_, h⟩
      rcases List.mem_cons.mp hk with rfl | hk
      · exact hlt
      · exact String.lt_trans hlt (hm k hk)
    · split
      · exact h
      · rename_i hlt hne
        refine List.pairwise_cons.mpr ⟨fun k hk => ?_, ih hr⟩
        rcases mem_place.mp hk with rfl | hk
        · refine String.not_le.mp fun hle => hne ?_
          exact String.le_antisymm hle (String.not_lt.mp hlt)
        · exact hm k hk

/-- Add a name. -/
def insert (s : NameSet) (n : String) : NameSet := ⟨place n s.names, pairwise_place s.sorted⟩

/-- The set of the names of a list; order and repetition do not matter. -/
def ofList (l : List String) : NameSet := l.foldl insert ∅

/-- The members of `s` that are not in `t`. -/
def diff (s t : NameSet) : NameSet where
  names := s.names.filter fun n => n ∉ t
  sorted := s.sorted.filter _

@[simp] theorem mem_insert {s : NameSet} {n k : String} : k ∈ s.insert n ↔ k = n ∨ k ∈ s :=
  mem_place

/-- A set that names were inserted into one after another has these and what it had. -/
theorem mem_foldl_insert {l : List String} {s : NameSet} {k : String} :
    k ∈ l.foldl insert s ↔ k ∈ s ∨ k ∈ l := by
  induction l generalizing s with
  | nil => simp
  | cons n rest ih => simp only [List.foldl_cons, ih, mem_insert, List.mem_cons]; grind

@[simp] theorem mem_ofList {l : List String} {k : String} : k ∈ ofList l ↔ k ∈ l := by
  have he : k ∉ (∅ : NameSet) := by simp [mem_def, EmptyCollection.emptyCollection, empty]
  simp [ofList, mem_foldl_insert, he]

@[simp] theorem mem_diff {s t : NameSet} {k : String} : k ∈ s.diff t ↔ k ∈ s ∧ k ∉ t := by
  simp [diff, mem_def]

end NameSet

end WideColumn
