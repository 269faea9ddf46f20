import WideColumn.Settings.Loading

/-!
# What one load answers

A path denotes a configuration if its file is there and its bytes are the text of
a document that gives the configuration; where the file lies does not matter to
that. A load answers with what is remembered for its path, and looks at the files
only where nothing is. It fails exactly where the path then denotes nothing, and a
failure leaves what is remembered.
-/

namespace WideColumn

/-- The bytes are the text of a document that gives the configuration. -/
def Configuration.WrittenIn (c : Configuration) (contents : Bytes) : Prop :=
  ∃ text document, contents.text? = some text ∧ Document.read text = .ok document ∧
    ofDocument document = .ok c

/-- What is read from bytes is what they are the text of, wherever they lie. -/
theorem Configuration.ofBytes_eq_ok_iff {path : String} {contents : Bytes} {c : Configuration} :
    ofBytes path contents = .ok c ↔ c.WrittenIn contents := by
  unfold ofBytes WrittenIn
  cases contents.text? with
  | none =>
    constructor
    · rintro ⟨⟩
    · rintro ⟨_, _, ⟨⟩, -⟩
  | some text =>
    simp only [ofText, Option.some.injEq, exists_and_left, exists_eq_left']
    cases Document.read text with
    | ok document => simp only [Except.ok.injEq, exists_eq_left']
    | error refusal =>
      constructor
      · intro h
        cases refusal <;> cases h
      · rintro ⟨_, ⟨⟩, -⟩

/-- What a path stands for while the files are as they are: the configuration that is written in the
file there. -/
def Path.Denotes (tree : FileTree) (c : Configuration) (p : Path) : Prop :=
  ∃ contents, tree.find p = .file contents ∧ c.WrittenIn contents

/-- A file tree has a configuration at a path exactly if the path denotes it. -/
theorem FileTree.configuration_eq_ok_iff {p : Path} {tree : FileTree} {c : Configuration} :
    tree.configuration p = .ok c ↔ p.Denotes tree c := by
  simp only [configuration, Path.Denotes]
  cases tree.find p with
  | file contents =>
    simp only [Finding.file.injEq, exists_eq_left', Configuration.ofBytes_eq_ok_iff]
  | nothing | directory | badPath | tooLong =>
    constructor
    · rintro ⟨⟩
    · rintro ⟨_, ⟨⟩, -⟩

variable {tree : FileTree} {p : Path} {c : Configuration} {cache : Cache}

/-- What is remembered is answered, whatever the files hold. -/
@[simp] theorem load_of_remembered : load tree p (some (p, c)) = (.ok c, some (p, c)) := by
  simp only [load, if_true]

/-- Where nothing is remembered for the path, a configuration is read and remembered. -/
theorem load_of_read (hnew : ∀ c, cache ≠ some (p, c)) (h : tree.configuration p = .ok c) :
    load tree p cache = (.ok c, some (p, c)) := by
  simp only [load, h]
  cases cache with
  | none => rfl
  | some remembered =>
    have hother : remembered.1 ≠ p := fun hs => hnew remembered.2 (hs ▸ rfl)
    exact if_neg hother

/-- Where nothing is remembered for the path, a failure to read one leaves what is remembered. -/
theorem load_of_unread {e : Error} (hnew : ∀ c, cache ≠ some (p, c))
    (h : tree.configuration p = .error e) : load tree p cache = (.error e, cache) := by
  simp only [load, h]
  cases cache with
  | none => rfl
  | some remembered =>
    have hother : remembered.1 ≠ p := fun hs => hnew remembered.2 (hs ▸ rfl)
    exact if_neg hother

/-- Where nothing is remembered for a path, a load answers with what the text of its file gives. -/
theorem load_of_text {contents : Bytes} {text : String}
    (hfile : tree.find p = .file contents) (htext : contents.text? = some text)
    (hnew : ∀ c, cache ≠ some (p, c)) :
    (load tree p cache).1 = Configuration.ofText p.text text := by
  have hread : tree.configuration p = Configuration.ofText p.text text := by
    simp only [FileTree.configuration, hfile, Configuration.ofBytes, htext]
  cases hresult : Configuration.ofText p.text text with
  | ok c => rw [load_of_read hnew (hread.trans hresult)]
  | error e => rw [load_of_unread hnew (hread.trans hresult)]

/-- All that a load can do: give what is remembered, read and remember, or fail without a trace. -/
theorem load_cases (tree : FileTree) (p : Path) (cache : Cache) :
    (∃ c, cache = some (p, c) ∧ load tree p cache = (.ok c, cache)) ∨
      (∀ c, cache ≠ some (p, c)) ∧
        ((∃ c, p.Denotes tree c ∧ load tree p cache = (.ok c, some (p, c))) ∨
          ∃ e, (∀ c, ¬ p.Denotes tree c) ∧ load tree p cache = (.error e, cache)) := by
  by_cases hremembered : ∃ c, cache = some (p, c)
  · obtain ⟨c, rfl⟩ := hremembered
    exact .inl ⟨c, rfl, load_of_remembered⟩
  · have hnew : ∀ c, cache ≠ some (p, c) := fun c h => hremembered ⟨c, h⟩
    refine .inr ⟨hnew, ?_⟩
    cases hread : tree.configuration p with
    | ok c => exact .inl ⟨c, FileTree.configuration_eq_ok_iff.mp hread, load_of_read hnew hread⟩
    | error e =>
      refine .inr ⟨e, fun c hc => ?_, load_of_unread hnew hread⟩
      cases hread.symm.trans (FileTree.configuration_eq_ok_iff.mpr hc)

/-- A load gives a configuration exactly if it is remembered for the path, or nothing is and the
path denotes it. -/
theorem load_eq_ok_iff :
    (load tree p cache).1 = .ok c ↔
      cache = some (p, c) ∨ (∀ c', cache ≠ some (p, c')) ∧ p.Denotes tree c := by
  obtain ⟨c₀, rfl, hload⟩ | ⟨hnew, ⟨c₀, hdenotes, hload⟩ | ⟨e, hnone, hload⟩⟩ :=
    load_cases tree p cache
  · rw [hload]
    constructor
    · rintro ⟨⟩
      exact .inl rfl
    · rintro (⟨⟨⟩⟩ | ⟨hnew, -⟩)
      · rfl
      · exact absurd rfl (hnew c₀)
  · rw [hload, ← FileTree.configuration_eq_ok_iff]
    have hread := FileTree.configuration_eq_ok_iff.mpr hdenotes
    constructor
    · rintro ⟨⟩
      exact .inr ⟨hnew, hread⟩
    · rintro (hcache | ⟨-, hc⟩)
      · exact absurd hcache (hnew c)
      · exact hread.symm.trans hc
  · rw [hload]
    constructor
    · rintro ⟨⟩
    · rintro (hcache | ⟨-, hc⟩)
      · exact absurd hcache (hnew c)
      · exact absurd hc (hnone c)

/-- A load that fails leaves what is remembered. -/
theorem cache_of_load_error {e : Error} (h : (load tree p cache).1 = .error e) :
    (load tree p cache).2 = cache := by
  obtain ⟨c, -, hload⟩ | ⟨-, ⟨c, -, hload⟩ | ⟨e, -, hload⟩⟩ := load_cases tree p cache
  · rw [hload]
  · rw [hload] at h
    cases h
  · rw [hload]

end WideColumn
