import WideColumn.Proofs.Operation.Frame

/-!
# Operations that agree

Two operations on different kinds of states agree if, from related states, both
give values that correspond or both fail of one cause, and the states stay
related either way. Agreement is closed under composition, so two long
operations of the same shape agree because their steps do.
-/

namespace WideColumn.Operation

variable {σ τ α β γ δ : Type}

/-- Two outcomes that agree: both are values that correspond, with states related by `post`, or both
are failures of one cause, with states related by `failed`. -/
inductive Alike (same : α → β → Prop) (post failed : σ → τ → Prop) :
    Except Error α × σ → Except Error β × τ → Prop where
  /-- Both give a value. -/
  | value {a b s t} (hab : same a b) (h : post s t) : Alike same post failed (.ok a, s) (.ok b, t)
  /-- Both fail. -/
  | failure {s t} (e : Error) (h : failed s t) : Alike same post failed (.error e, s) (.error e, t)

/-- What holds of the states after two values may be weakened. -/
theorem Alike.imp {same : α → β → Prop} {post post' failed : σ → τ → Prop}
    {x : Except Error α × σ} {y : Except Error β × τ} (h : Alike same post failed x y)
    (hpost : ∀ s t, post s t → post' s t) : Alike same post' failed x y := by
  cases h with
  | value hab hst => exact .value hab (hpost _ _ hst)
  | failure e hst => exact .failure e hst

/-- From states related by `pre` the two operations have outcomes that agree. -/
def Agree (pre : σ → τ → Prop) (same : α → β → Prop) (post failed : σ → τ → Prop)
    (op : Operation σ α) (op' : Operation τ β) : Prop :=
  ∀ s t, pre s t → Alike same post failed (op s) (op' t)

namespace Agree

variable {pre mid post failed : σ → τ → Prop} {same : α → β → Prop} {same' : γ → δ → Prop}

/-- Two results that belong together agree. -/
theorem pure {a : α} {b : β} (h : same a b) :
    Agree pre same pre failed (Pure.pure a : Operation σ α) (Pure.pure b : Operation τ β) :=
  fun _ _ hpre => .value h hpre

/-- Failures with one error agree, and leave the states as they stood. -/
theorem fail (e : Error) :
    Agree pre same post pre (Operation.fail e : Operation σ α) (Operation.fail e : Operation τ β) :=
  fun _ _ hpre => .failure e hpre

theorem lift (r : Except Error α) :
    Agree pre Eq pre pre (Operation.lift r : Operation σ α) (Operation.lift r : Operation τ α) := by
  intro s t hpre
  cases r with
  | ok a => exact .value rfl hpre
  | error e => exact .failure e hpre

/-- Changes agree that take related states to related states. -/
theorem change {f : σ → σ} {g : τ → τ} (h : ∀ s t, pre s t → post (f s) (g t)) :
    Agree pre Eq post failed (Operation.change f) (Operation.change g) :=
  fun s t hpre => .value rfl (h s t hpre)

/-- Agreement that ensures more about the states ensures what follows from it. -/
theorem weaken {post' : σ → τ → Prop} {op : Operation σ α} {op' : Operation τ β}
    (h : Agree pre same post failed op op') (hpost : ∀ s t, post s t → post' s t) :
    Agree pre same post' failed op op' :=
  fun s t hpre => (h s t hpre).imp hpost

/-- Compositions agree when their first steps do and the rests do on corresponding values. -/
theorem bind {op : Operation σ α} {op' : Operation τ β} {f : α → Operation σ γ}
    {g : β → Operation τ δ} (hop : Agree pre same mid failed op op')
    (hrest : ∀ a b, same a b → Agree mid same' post failed (f a) (g b)) :
    Agree pre same' post failed (op >>= f) (op' >>= g) := by
  intro s t hpre
  have h := hop s t hpre
  rw [bind_apply, bind_apply]
  revert h
  rcases op s with ⟨ra, s'⟩
  rcases op' t with ⟨rb, t'⟩
  intro h
  cases h with
  | value hab hmid => exact hrest _ _ hab s' t' hmid
  | failure e hfailed => exact .failure e hfailed

/-- The first steps may give the same value. -/
theorem bind_eq {op : Operation σ α} {op' : Operation τ α} {f : α → Operation σ γ}
    {g : α → Operation τ δ} (hop : Agree pre Eq mid failed op op')
    (hrest : ∀ a, Agree mid same' post failed (f a) (g a)) :
    Agree pre same' post failed (op >>= f) (op' >>= g) :=
  hop.bind fun a _ hab => hab ▸ hrest a

end Agree

end WideColumn.Operation
