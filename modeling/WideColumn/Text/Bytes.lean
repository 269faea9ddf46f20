/-!
# Byte strings

What a column server keeps and what a file holds. A text goes out in its UTF-8
form; bytes come back as a text only if they are such a form.
-/

namespace WideColumn

/-- A byte string. -/
structure Bytes where
  /-- The bytes in their order. -/
  toList : List UInt8
  deriving DecidableEq, Repr

namespace Bytes

/-- The byte string without bytes. -/
def empty : Bytes := ⟨[]⟩

instance : Inhabited Bytes := ⟨empty⟩

/-- There are no bytes. -/
def isEmpty (b : Bytes) : Bool := b.toList.isEmpty

/-- The UTF-8 form of a text. -/
def ofText (s : String) : Bytes := ⟨s.toByteArray.data.toList⟩

/-- The text whose UTF-8 form the bytes are. -/
def text? (b : Bytes) : Option String := String.fromUTF8? ⟨b.toList.toArray⟩

/-- The UTF-8 form of a text is read back as that text. -/
@[simp] theorem text?_ofText (s : String) : text? (ofText s) = some s := by
  simp [text?, ofText, String.fromUTF8?, s.isValidUTF8, String.fromUTF8]

/-- Bytes that are read as a text are the UTF-8 form of that text. -/
theorem ofText_of_text? {b : Bytes} {s : String} (h : text? b = some s) : ofText s = b := by
  simp only [text?, String.fromUTF8?] at h
  split at h
  · cases h
    simp [ofText, String.fromUTF8]
  · cases h

/-- Different texts have different UTF-8 forms. -/
theorem ofText_injective {s t : String} (h : ofText s = ofText t) : s = t := by
  have := congrArg text? h
  simpa using this

end Bytes

end WideColumn
