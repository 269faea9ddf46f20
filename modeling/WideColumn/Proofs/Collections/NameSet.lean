import WideColumn.Collections.NameSet

/-!
# Name sets are decided by their members

The increasing list of members is canonical, so two sets with the same members
are one value, and a set that is listed and collected again is the same set.
-/

namespace WideColumn.NameSet

/-- Sets with the same members are equal. -/
theorem ext_mem {s t : NameSet} (h : ∀ n, n ∈ s ↔ n ∈ t) : s = t := by
  obtain ⟨l, hl⟩ := s
  obtain ⟨l', hl'⟩ := t
  have hp : l.Perm l' := by
    refine (List.perm_ext_iff_of_nodup ?_ ?_).mpr h
    · exact hl.imp fun hab => String.ne_of_lt hab
    · exact hl'.imp fun hab => String.ne_of_lt hab
  have he : l = l' :=
    hp.eq_of_pairwise (fun _ _ _ _ hab hba => absurd hba (String.lt_asymm hab)) hl hl'
  subst he
  rfl

/-- Listing a set and collecting the list gives the set again. -/
@[simp] theorem ofList_names (s : NameSet) : ofList s.names = s :=
  ext_mem fun _ => mem_ofList

@[simp] theorem not_mem_empty (n : String) : n ∉ (∅ : NameSet) := List.not_mem_nil

/-- A set without members is empty. -/
theorem isEmpty_iff {s : NameSet} : s.isEmpty = true ↔ ∀ n, n ∉ s := by
  rw [isEmpty, List.isEmpty_iff, List.eq_nil_iff_forall_not_mem]
  rfl

/-- The names of a list are all members of a set exactly when nothing is left of them without it. -/
theorem isEmpty_diff_iff {l : List String} {s : NameSet} :
    ((ofList l).diff s).isEmpty = true ↔ ∀ n ∈ l, n ∈ s := by
  rw [isEmpty_iff]
  simp only [mem_diff, mem_ofList, not_and, Classical.not_not]

end WideColumn.NameSet
