import WideColumn.Value.Basic

/-!
# Cell encoding

The bytes that a column server stores for a cell value. Bytes are stored as they
are, a missing value as nothing, a truth value as one byte, a point in time in
its exchange form, and everything else as the UTF-8 form of its plain text.
-/

namespace WideColumn.Value

/-- The single byte of a truth value. -/
def boolByte (b : Bool) : UInt8 := if b then 1 else 0

/-- The bytes stored for a cell value. -/
def encode : Value → Bytes
  | null => Bytes.empty
  | bytes b => b
  | text s => .ofText s
  | bool b => ⟨[boolByte b]⟩
  | timestamp t => .ofText t.exchangeText
  | v => .ofText v.plainText

@[simp] theorem encode_bytes (b : Bytes) : (bytes b).encode = b := rfl

@[simp] theorem encode_text (s : String) : (text s).encode = .ofText s := rfl

@[simp] theorem encode_int (n : Int) : (int n).encode = .ofText (intText n) := rfl

end WideColumn.Value
