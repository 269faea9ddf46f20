import WideColumn.Proofs.Store.Atomicity

/-!
# What clients log

A client logs details of its work as it goes, and tells what was done when
nothing can fail any more. So an operation that fails has logged nothing but
details, and no operation logs an error of its own.
-/

namespace WideColumn.Client

open Operation

variable {α β : Type}

/-- The operation logs nothing but details. -/
def LogsDetails (op : Operation Client α) : Prop :=
  ∀ c, ∃ l, (op c).2.log = c.log ++ l ∧ ∀ r ∈ l, r.level = .debug

/-- The operation logs no errors, and nothing but details if it fails. -/
def LogsWork (op : Operation Client α) : Prop :=
  ∀ c, ∃ l, (op c).2.log = c.log ++ l ∧ (∀ r ∈ l, r.level ≠ .error) ∧
    ∀ e, (op c).1 = .error e → ∀ r ∈ l, r.level = .debug

namespace LogsDetails

/-- What leaves the log alone logs nothing. -/
theorem of_leaves {op : Operation Client α} (h : Leaves Client.log op) : LogsDetails op :=
  fun c => ⟨[], by rw [h c, List.append_nil], nofun⟩

theorem onStore (op : Operation Store α) : LogsDetails (Client.onStore op) :=
  .of_leaves fun _ => rfl

theorem note (message : String) : LogsDetails (Client.note .debug message) :=
  fun _ => ⟨[⟨.debug, message⟩], rfl, fun _ hr => by rw [List.mem_singleton.mp hr]⟩

/-- What follows details with details logs details. -/
theorem bind {op : Operation Client α} {f : α → Operation Client β} (h : LogsDetails op)
    (hf : ∀ a, LogsDetails (f a)) : LogsDetails (op >>= f) := by
  intro c
  obtain ⟨l, hl, hdetails⟩ := h c
  rcases hr : op c with ⟨e | a, c'⟩ <;> rw [hr] at hl
  · rw [bind_of_error hr]
    exact ⟨l, hl, hdetails⟩
  · obtain ⟨l', hl', hdetails'⟩ := hf a c'
    rw [bind_of_ok hr, hl', hl]
    exact ⟨l ++ l', List.append_assoc .., fun r hr =>
      (List.mem_append.mp hr).elim (hdetails r) (hdetails' r)⟩

end LogsDetails

namespace LogsWork

/-- What logs nothing but details does so as well when it fails. -/
theorem of_details {op : Operation Client α} (h : LogsDetails op) : LogsWork op := by
  intro c
  obtain ⟨l, hl, hdetails⟩ := h c
  refine ⟨l, hl, fun r hr => ?_, fun _ _ => hdetails⟩
  rw [hdetails r hr]
  nofun

theorem note (message : String) : LogsWork (Client.note .info message) := by
  intro c
  refine ⟨[⟨.info, message⟩], rfl, fun r hr => ?_, nofun⟩
  rw [List.mem_singleton.mp hr]
  nofun

theorem ite {p : Prop} [Decidable p] {op op' : Operation Client α} (h : LogsWork op)
    (h' : LogsWork op') : LogsWork (if p then op else op') := by
  split
  · exact h
  · exact h'

/-- What follows the work may not fail. -/
theorem bind_total {op : Operation Client α} {f : α → Operation Client β} (h : LogsWork op)
    (htotal : ∀ a, Total (f a)) (hf : ∀ a, LogsWork (f a)) : LogsWork (op >>= f) := by
  intro c
  obtain ⟨l, hl, hnone, hdetails⟩ := h c
  rcases hr : op c with ⟨e | a, c'⟩ <;> rw [hr] at hl hdetails
  · rw [bind_of_error hr]
    exact ⟨l, hl, hnone, fun _ _ => hdetails e rfl⟩
  · obtain ⟨l', hl', hnone', -⟩ := hf a c'
    obtain ⟨b, c'', hb⟩ := htotal a c'
    rw [bind_of_ok hr, hl', hl]
    refine ⟨l ++ l', List.append_assoc .., fun r hr => ?_, fun e he => ?_⟩
    · exact (List.mem_append.mp hr).elim (hnone r) (hnone' r)
    · rw [hb] at he
      cases he

/-- What is made of the result does not matter to the log. -/
theorem bind_pure {op : Operation Client α} (h : LogsWork op) (f : α → β) :
    LogsWork (op >>= fun a => pure (f a)) :=
  h.bind_total (fun _ => .pure _) fun _ => .of_details (.of_leaves (.pure _))

end LogsWork

end WideColumn.Client

namespace WideColumn.TableRequest

open Client Operation

end WideColumn.TableRequest
