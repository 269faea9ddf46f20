import WideColumn.Error

/-!
# Operations on a state

An operation takes a state, may fail, and either way says what the state is
afterwards. So what a failure leaves behind is part of its meaning. Operations
are composed with `do`; a failing step ends the composition and keeps the state
that it left.
-/

namespace WideColumn

/-- A step on a state `σ` that gives an `α` or fails. -/
def Operation (σ α : Type) : Type := σ → Except Error α × σ

namespace Operation

variable {σ τ α β : Type}

/-- Run an operation on a state. -/
def run (op : Operation σ α) (s : σ) : Except Error α × σ := op s

/-- Give a value and leave the state as it is. -/
def give (a : α) : Operation σ α := fun s => (.ok a, s)

/-- Go on with the value of an operation that does not fail. -/
def andThen (op : Operation σ α) (f : α → Operation σ β) : Operation σ β := fun s =>
  match op s with
  | (.ok a, s') => f a s'
  | (.error e, s') => (.error e, s')

instance : Monad (Operation σ) where
  pure := give
  bind := andThen

instance : LawfulMonad (Operation σ) := LawfulMonad.mk' _
  (by
    intro α op
    funext s
    change andThen op give s = op s
    unfold andThen give
    rcases op s with ⟨_ | _, _⟩ <;> rfl)
  (by
    intro α β a f
    rfl)
  (by
    intro α β γ op f g
    funext s
    change andThen (andThen op f) g s = andThen op (fun a => andThen (f a) g) s
    unfold andThen
    rcases op s with ⟨_ | _, _⟩ <;> rfl)

/-- Fail and leave the state as it is. -/
def fail (e : Error) : Operation σ α := fun s => (.error e, s)

/-- The state itself. -/
def state : Operation σ σ := fun s => (.ok s, s)

/-- Change the state. -/
def change (f : σ → σ) : Operation σ Unit := fun s => (.ok (), f s)

/-- A computation that does not look at the state. -/
def lift (r : Except Error α) : Operation σ α := fun s => (r, s)

/-- Give the value, or fail with the error if there is none. -/
def require (o : Option α) (e : Error) : Operation σ α :=
  match o with
  | some a => give a
  | none => fail e

/-- Work on a part of the state. -/
def within (view : σ → τ) (update : σ → τ → σ) (op : Operation τ α) : Operation σ α := fun s =>
  let (r, t) := op (view s)
  (r, update s t)

@[simp] theorem pure_apply (a : α) (s : σ) : (pure a : Operation σ α) s = (.ok a, s) := rfl

@[simp] theorem fail_apply (e : Error) (s : σ) :
    (fail e : Operation σ α) s = (.error e, s) := rfl

@[simp] theorem state_apply (s : σ) : (state : Operation σ σ) s = (.ok s, s) := rfl

@[simp] theorem change_apply (f : σ → σ) (s : σ) : change f s = (.ok (), f s) := rfl

@[simp] theorem lift_apply (r : Except Error α) (s : σ) :
    (lift r : Operation σ α) s = (r, s) := rfl

/-- A step that gives a value hands it on with its state. -/
theorem bind_of_ok {op : Operation σ α} {f : α → Operation σ β} {s s' : σ} {a : α}
    (h : op s = (.ok a, s')) : (op >>= f) s = f a s' := by
  change andThen op f s = _
  simp [andThen, h]

/-- A step that fails ends the composition. -/
theorem bind_of_error {op : Operation σ α} {f : α → Operation σ β} {s s' : σ} {e : Error}
    (h : op s = (.error e, s')) : (op >>= f) s = (.error e, s') := by
  change andThen op f s = _
  simp [andThen, h]

end Operation

end WideColumn
