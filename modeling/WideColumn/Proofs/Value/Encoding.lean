import WideColumn.Proofs.Number.Numeral
import WideColumn.Value.Encoding

/-!
# What the stored bytes tell of a value

A server stores the bytes of a cell value and not its kind. Among values of one
kind the bytes tell the value: an integer is stored in its decimal form and a text
in its UTF-8 form, and both are read back. Values of different kinds may be stored
as the same bytes, as an integer and the text of its digits are; a truth value is
never stored like an integer, although both count as numbers.
-/

namespace WideColumn.Value

/-- The decimal form tells an integer. -/
theorem intText_injective {m n : Int} (h : intText m = intText n) : m = n := by
  have hread := congrArg Numeral.integer? h
  rw [Numeral.integer?_intText, Numeral.integer?_intText] at hread
  exact Option.some.inj hread

/-- An integer is stored in its decimal form, from which it is read. -/
theorem exists_decimalForm (n : Int) :
    ∃ s, Numeral.DecimalForm n s ∧ (int n).encode = .ofText s ∧ (int n).encode.text? = some s ∧
      Numeral.integer? s = some n :=
  ⟨intText n, Numeral.decimalForm_iff.mpr rfl, rfl, Bytes.text?_ofText _,
    Numeral.integer?_intText n⟩

/-- The byte tells a truth value. -/
theorem boolByte_injective {b b' : Bool} (h : boolByte b = boolByte b') : b = b' := by
  revert b b'
  decide

/-- The byte of a truth value is the UTF-8 form of a text with a control character. -/
theorem encode_bool (b : Bool) :
    (bool b).encode = .ofText (String.singleton (if b then '\x01' else '\x00')) := by
  cases b <;> decide

/-- A truth value is never stored like an integer, whose text has no control characters. -/
theorem encode_bool_ne_encode_int (b : Bool) (n : Int) : (bool b).encode ≠ (int n).encode := by
  intro h
  rw [encode_bool, encode_int] at h
  have hmem : (if b then '\x01' else '\x00') ∈ (intText n).toList := by
    rw [← Bytes.ofText_injective h]
    simp
  obtain hdigit | hminus := Numeral.isDigit_or_minus_of_mem hmem
  · cases b <;> cases hdigit
  · cases b <;> cases hminus

/-- The two are truth values, or integers, or texts, or byte strings. -/
inductive Alike : Value → Value → Prop where
  /-- Two truth values. -/
  | bool (b b' : Bool) : Alike (bool b) (bool b')
  /-- Two integers. -/
  | int (m n : Int) : Alike (int m) (int n)
  /-- Two texts. -/
  | text (s t : String) : Alike (text s) (text t)
  /-- Two byte strings. -/
  | bytes (x y : Bytes) : Alike (bytes x) (bytes y)

/-- Values of one kind that are stored as the same bytes are equal. -/
theorem Alike.eq_of_encode_eq {v w : Value} (h : Alike v w) (hsame : v.encode = w.encode) :
    v = w := by
  cases h with
  | bool b b' =>
    have hbyte : boolByte b = boolByte b' := List.head_eq_of_cons_eq (Bytes.mk.inj hsame)
    rw [boolByte_injective hbyte]
  | int m n => rw [intText_injective (Bytes.ofText_injective hsame)]
  | text s t => rw [Bytes.ofText_injective hsame]
  | bytes x y => exact congrArg Value.bytes hsame

/-- Values of one kind are told apart by their bytes, integers and texts are read back from them,
and no truth value is stored like an integer. -/
theorem encode_loses_nothing :
    (∀ v w, Alike v w → (v.encode = w.encode ↔ v = w)) ∧
    (∀ n, ∃ s, Numeral.DecimalForm n s ∧ (int n).encode = .ofText s ∧
      (int n).encode.text? = some s ∧ Numeral.integer? s = some n) ∧
    (∀ s, (text s).encode.text? = some s) ∧
    ∀ b n, (bool b).encode ≠ (int n).encode :=
  ⟨fun _ _ h => ⟨h.eq_of_encode_eq, congrArg encode⟩, exists_decimalForm,
    fun s => Bytes.text?_ofText s, encode_bool_ne_encode_int⟩

/-- Integers that differ in sign are told apart; across kinds an integer is stored like the text of
its digits. -/
theorem encode_loses_nothing_of_signs :
    (int 12).encode ≠ (int (-12)).encode ∧ (bool true).encode ≠ (int 1).encode ∧
      (int (-12)).encode = (text "-12").encode ∧ (bool true).encode = (text "\x01").encode := by
  obtain ⟨halike, -, -, hbool⟩ := encode_loses_nothing
  refine ⟨fun h => ?_, hbool true 1, by decide, by decide⟩
  have hsame : int 12 = int (-12) := (halike _ _ (.int 12 (-12))).mp h
  exact absurd (int.inj hsame) (by decide)

end WideColumn.Value
