import WideColumn.Operation

/-!
# What operations leave alone

Four properties of an operation, each closed under composition: it keeps a
predicate of the state, it leaves a view of the state as it is, it never fails,
and a failure of it leaves a view as it is. A long operation has one of them
because its steps do, so no proof has to run it.
-/

namespace WideColumn.Operation

variable {σ τ ρ ω α β : Type}

/-- The outcome of a composition is decided by the outcome of its first step. -/
theorem bind_apply (op : Operation σ α) (f : α → Operation σ β) (s : σ) :
    (op >>= f) s =
      match op s with
      | (.ok a, s') => f a s'
      | (.error e, s') => (.error e, s') := rfl

/-- A composition gives a value exactly through a value of its first step. -/
theorem bind_eq_ok {op : Operation σ α} {f : α → Operation σ β} {s s' : σ} {b : β}
    (h : (op >>= f) s = (.ok b, s')) :
    ∃ a s₁, op s = (.ok a, s₁) ∧ f a s₁ = (.ok b, s') := by
  rw [bind_apply] at h
  rcases hr : op s with ⟨e | a, s₁⟩
  · rw [hr] at h
    cases h
  · rw [hr] at h
    exact ⟨a, s₁, rfl, h⟩

/-- A composition fails with its first step, or after a value of it. -/
theorem bind_eq_error {op : Operation σ α} {f : α → Operation σ β} {s s' : σ} {e : Error}
    (h : (op >>= f) s = (.error e, s')) :
    op s = (.error e, s') ∨ ∃ a s₁, op s = (.ok a, s₁) ∧ f a s₁ = (.error e, s') := by
  rw [bind_apply] at h
  rcases hr : op s with ⟨e' | a, s₁⟩
  · rw [hr] at h
    cases h
    exact .inl rfl
  · rw [hr] at h
    exact .inr ⟨a, s₁, rfl, h⟩

/-- Work on a part of the state ends as it does on that part, which is then put back. -/
theorem within_of {view : σ → τ} {update : σ → τ → σ} {op : Operation τ α} {s : σ}
    {r : Except Error α} {t : τ} (h : op (view s) = (r, t)) :
    within view update op s = (r, update s t) := by
  simp only [within, h]

/-- However work on a part of the state ends, only that part is another one afterwards. -/
theorem within_eq {view : σ → τ} {update : σ → τ → σ} {op : Operation τ α} {s s' : σ}
    {r : Except Error α} (h : within view update op s = (r, s')) :
    ∃ t, op (view s) = (r, t) ∧ s' = update s t := by
  rcases hr : op (view s) with ⟨r', t⟩
  rw [within_of hr] at h
  cases h
  exact ⟨t, rfl, rfl⟩

/-- The predicate survives the operation, whether it fails or not. -/
def Keeps (P : σ → Prop) (op : Operation σ α) : Prop := ∀ s, P s → P (op s).2

/-- The view is the same after the operation, whether it fails or not. -/
def Leaves (view : σ → τ) (op : Operation σ α) : Prop := ∀ s, view (op s).2 = view s

/-- The operation gives a value on every state. -/
def Total (op : Operation σ α) : Prop := ∀ s, ∃ a s', op s = (.ok a, s')

/-- The view is the same after a failure of the operation. -/
def Atomic (view : σ → τ) (op : Operation σ α) : Prop :=
  ∀ s e s', op s = (.error e, s') → view s' = view s

theorem Keeps.pure {P : σ → Prop} (a : α) : Keeps P (Pure.pure a : Operation σ α) :=
  fun _ h => h

theorem Keeps.fail {P : σ → Prop} (e : Error) : Keeps P (fail e : Operation σ α) :=
  fun _ h => h

theorem Keeps.lift {P : σ → Prop} (r : Except Error α) : Keeps P (lift r : Operation σ α) :=
  fun _ h => h

/-- A composition keeps what each of its steps keeps. -/
theorem Keeps.bind {P : σ → Prop} {op : Operation σ α} {f : α → Operation σ β}
    (hop : Keeps P op) (hf : ∀ a, Keeps P (f a)) : Keeps P (op >>= f) := by
  intro s hs
  have h := hop s hs
  rw [bind_apply]
  rcases hr : op s with ⟨_ | a, s'⟩ <;> rw [hr] at h
  · exact h
  · exact hf a s' h

/-- A choice keeps what both of its branches keep. -/
theorem Keeps.ite {P : σ → Prop} {c : Prop} [Decidable c] {op op' : Operation σ α}
    (h : Keeps P op) (h' : Keeps P op') : Keeps P (if c then op else op') := by
  split
  · exact h
  · exact h'

/-- Work on a part of the state keeps what the changed part is known to keep. -/
theorem Keeps.within {P : σ → Prop} {Q : τ → Prop} {view : σ → τ} {update : σ → τ → σ}
    {op : Operation τ α} (hop : Keeps Q op) (hview : ∀ s, P s → Q (view s))
    (hupdate : ∀ s t, P s → Q t → P (update s t)) : Keeps P (within view update op) :=
  fun s hs => hupdate s _ hs (hop (view s) (hview s hs))

/-- To leave a view is to keep each of its values. -/
theorem Keeps.of_leaves {view : σ → τ} {op : Operation σ α} (h : Leaves view op) (P : τ → Prop) :
    Keeps (fun s => P (view s)) op := by
  intro s hs
  rw [h s]
  exact hs

/-- An operation that keeps each value of a view leaves the view. -/
theorem Leaves.of_keeps {view : σ → τ} {op : Operation σ α}
    (h : ∀ x, Keeps (fun s => view s = x) op) : Leaves view op :=
  fun s => h (view s) s rfl

/-- What was left is the same in the state that an operation has come to. -/
theorem Leaves.of_eq {view : σ → τ} {op : Operation σ α} (h : Leaves view op) {s s' : σ}
    {r : Except Error α} (hs : op s = (r, s')) : view s' = view s := by
  have := h s
  rwa [hs] at this

theorem Leaves.pure {view : σ → τ} (a : α) : Leaves view (Pure.pure a : Operation σ α) :=
  fun _ => rfl

theorem Leaves.fail {view : σ → τ} (e : Error) : Leaves view (fail e : Operation σ α) :=
  fun _ => rfl

theorem Leaves.state {view : σ → τ} : Leaves view (state : Operation σ σ) := fun _ => rfl

theorem Leaves.lift {view : σ → τ} (r : Except Error α) :
    Leaves view (lift r : Operation σ α) := fun _ => rfl

theorem Leaves.require {view : σ → τ} (o : Option α) (e : Error) :
    Leaves view (require o e : Operation σ α) := by
  cases o with
  | none => exact Leaves.fail e
  | some a => exact Leaves.pure a

/-- A composition leaves what each of its steps leaves. -/
theorem Leaves.bind {view : σ → τ} {op : Operation σ α} {f : α → Operation σ β}
    (hop : Leaves view op) (hf : ∀ a, Leaves view (f a)) : Leaves view (op >>= f) :=
  .of_keeps fun x => (Keeps.of_leaves hop (· = x)).bind fun a => Keeps.of_leaves (hf a) (· = x)

/-- A choice between operations that leave a view alone leaves it alone. -/
theorem Leaves.ite {view : σ → τ} {c : Prop} [Decidable c] {op op' : Operation σ α}
    (h : Leaves view op) (h' : Leaves view op') : Leaves view (if c then op else op') := by
  split
  · exact h
  · exact h'

/-- Work on a part of the state leaves what the part's own view decides. -/
theorem Leaves.within {outer : σ → ρ} {inner : τ → ω} {view : σ → τ} {update : σ → τ → σ}
    {op : Operation τ α} (hop : Leaves inner op)
    (h : ∀ s t, inner t = inner (view s) → outer (update s t) = outer s) :
    Leaves outer (within view update op) :=
  fun s => h s _ (hop (view s))

/-- An operation that leaves the whole state keeps every predicate of it. -/
theorem Leaves.keeps {P : σ → Prop} {op : Operation σ α} (h : Leaves id op) : Keeps P op :=
  Keeps.of_leaves h P

/-- An operation that leaves a view leaves what is seen through it. -/
theorem Leaves.through {view : σ → τ} {op : Operation σ α} (h : Leaves view op) (f : τ → ρ) :
    Leaves (fun s => f (view s)) op :=
  fun s => congrArg f (h s)

/-- An operation that leaves the whole state leaves every view of it. -/
theorem Leaves.every {view : σ → τ} {op : Operation σ α} (h : Leaves id op) : Leaves view op :=
  h.through view

/-- What follows an operation that leaves the whole state may rely on the value that was found. -/
theorem Leaves.bind_keeps {P : σ → Prop} {op : Operation σ α} {f : α → Operation σ β}
    (h : Leaves id op) (hf : ∀ a s, op s = (.ok a, s) → P s → P (f a s).2) :
    Keeps P (op >>= f) := by
  intro s hs
  have hsame : (op s).2 = s := h s
  rw [Operation.bind_apply]
  rcases hr : op s with ⟨_ | a, s'⟩ <;> rw [hr] at hsame <;> subst hsame
  · exact hs
  · exact hf a _ hr hs

theorem Total.pure (a : α) : Total (Pure.pure a : Operation σ α) := fun s => ⟨a, s, rfl⟩

theorem Total.state : Total (state : Operation σ σ) := fun s => ⟨s, s, rfl⟩

theorem Total.change (f : σ → σ) : Total (change f) := fun s => ⟨(), f s, rfl⟩

/-- A composition of steps that never fail never fails. -/
theorem Total.bind {op : Operation σ α} {f : α → Operation σ β} (hop : Total op)
    (hf : ∀ a, Total (f a)) : Total (op >>= f) := by
  intro s
  obtain ⟨a, s', h⟩ := hop s
  rw [bind_of_ok h]
  exact hf a s'

/-- An operation that cannot fail cannot fail inside a larger state. -/
theorem Total.within {view : σ → τ} {update : σ → τ → σ} {op : Operation τ α} (h : Total op) :
    Total (within view update op) := by
  intro s
  obtain ⟨a, t, ht⟩ := h (view s)
  exact ⟨a, update s t, within_of ht⟩

/-- What never touches a view does not touch it when it fails. -/
theorem Leaves.atomic {view : σ → τ} {op : Operation σ α} (h : Leaves view op) :
    Atomic view op :=
  fun _ _ _ hs => h.of_eq hs

/-- What cannot fail has no failure that could touch a view. -/
theorem Total.atomic {view : σ → τ} {op : Operation σ α} (h : Total op) : Atomic view op := by
  intro s e s' hs
  obtain ⟨a, t, ht⟩ := h s
  rw [hs] at ht
  cases ht

/-- A failure that leaves the whole state leaves every view of it. -/
theorem Atomic.every {view : σ → τ} {op : Operation σ α} (h : Atomic id op) : Atomic view op :=
  fun s e s' hs => congrArg view (h s e s' hs)

/-- What fails after steps that leave the view fails without a trace if the last step does. -/
theorem Leaves.bind_atomic {view : σ → τ} {op : Operation σ α} {f : α → Operation σ β}
    (hop : Leaves view op) (hf : ∀ a, Atomic view (f a)) : Atomic view (op >>= f) := by
  intro s e s' h
  have hs := hop s
  rw [bind_apply] at h
  rcases hr : op s with ⟨e' | a, s₁⟩ <;> rw [hr] at h hs
  · cases h
    exact hs
  · exact (hf a s₁ e s' h).trans hs

/-- A step that fails without a trace may be followed by steps that never fail. -/
theorem Atomic.bind_total {view : σ → τ} {op : Operation σ α} {f : α → Operation σ β}
    (hop : Atomic view op) (hf : ∀ a, Total (f a)) : Atomic view (op >>= f) := by
  intro s e s' h
  rw [bind_apply] at h
  rcases hr : op s with ⟨e' | a, s₁⟩ <;> rw [hr] at h
  · cases h
    exact hop s e s' hr
  · obtain ⟨b, s₂, hb⟩ := hf a s₁
    cases hb.symm.trans h

/-- A choice fails without a trace if both of its branches do. -/
theorem Atomic.ite {view : σ → τ} {c : Prop} [Decidable c] {op op' : Operation σ α}
    (h : Atomic view op) (h' : Atomic view op') : Atomic view (if c then op else op') := by
  split
  · exact h
  · exact h'

/-- A refusal under a condition goes before what fails without a trace. -/
theorem Atomic.refuse_first {view : σ → τ} {c : Prop} [Decidable c] {e : Error}
    {f : Unit → Operation σ α} (h : Atomic view (f ())) :
    Atomic view (if c then fail e >>= f else f ()) :=
  .ite (fun _ _ _ hs => by cases hs; rfl) h

/-- An atomic operation is atomic inside a larger state whose view it is of. -/
theorem Atomic.within {outer : σ → ρ} {inner : τ → ω} {view : σ → τ} {update : σ → τ → σ}
    {op : Operation τ α} (hop : Atomic inner op)
    (h : ∀ s t, inner t = inner (view s) → outer (update s t) = outer s) :
    Atomic outer (within view update op) := by
  intro s e s' hs
  obtain ⟨t, ht, rfl⟩ := within_eq hs
  exact h s t (hop (view s) e t ht)

end WideColumn.Operation
