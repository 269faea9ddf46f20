import WideColumn.Document.Token
import WideColumn.Text.Lines
import WideColumn.Value.Mapping

/-!
# Reading documents

The value of a document text. Tokens are taken one after the other; what has
been opened and not closed is kept on a stack, and what may come next is a state
of its own, which also decides what a wrong token is called. The first wrong
token ends the reading.
-/

namespace WideColumn.Document

/-- Why a text is refused. -/
inductive Refusal where
  /-- The text is no document. -/
  | fault (f : Fault)
  /-- An integer has too many digits. -/
  | hugeInteger
  deriving DecidableEq, Repr

/-- A list or an object that has been opened and not closed; what it holds comes last first. -/
inductive Frame where
  /-- A list and its items. -/
  | list (items : List Value)
  /-- An object, its bindings and the key that waits for a value. -/
  | object (entries : List (Value × Value)) (key : String)

/-- What may come next. -/
inductive Expecting where
  /-- A value. -/
  | value
  /-- A value or the end of the list. -/
  | valueOrEnd
  /-- A key or the end of the object. -/
  | keyOrEnd
  /-- A key. -/
  | key
  /-- The colon after a key. -/
  | colon
  /-- A comma or the end of what was opened last. -/
  | commaOrEnd
  /-- Nothing; this is the value of the document. -/
  | nothing (v : Value)

/-- The state of a reading: what is open, innermost first, and what may come next. -/
structure Reading where
  /-- What is open, innermost first. -/
  stack : List Frame
  /-- What may come next. -/
  expecting : Expecting

/-- A wrong token: what it is called, and where. -/
inductive Stop where
  /-- A flaw at a place. -/
  | flaw (f : Flaw) (position : Nat)
  /-- An integer with too many digits. -/
  | hugeInteger

namespace Reading

/-- Nothing read yet. -/
def start : Reading := ⟨[], .value⟩

/-- Hand a finished value to what was opened last. -/
def complete (v : Value) : List Frame → Reading
  | [] => ⟨[], .nothing v⟩
  | .list items :: rest => ⟨.list (v :: items) :: rest, .commaOrEnd⟩
  | .object entries key :: rest => ⟨.object ((.text key, v) :: entries) "" :: rest, .commaOrEnd⟩

/-- The value of what was opened, once it is closed. -/
def closed : Frame → Value
  | .list items => .list items.reverse
  | .object entries _ => Value.mappingOf entries.reverse

/-- Take a token where a value has to come. -/
def takeValue (stack : List Frame) (pos : Nat) : Token → Except Stop Reading
  | .plain v => .ok (complete v stack)
  | .string s => .ok (complete (.text s) stack)
  | .objectStart => .ok ⟨.object [] "" :: stack, .keyOrEnd⟩
  | .listStart => .ok ⟨.list [] :: stack, .valueOrEnd⟩
  | .badString flaw place => .error (.flaw flaw place)
  | .hugeInteger => .error .hugeInteger
  | _ => .error (.flaw .valueExpected pos)

/-- Take a token where a key has to come. -/
def takeKey (stack : List Frame) (pos : Nat) : Token → Except Stop Reading
  | .string s =>
    match stack with
    | .object entries _ :: rest => .ok ⟨.object entries s :: rest, .colon⟩
    | stack => .ok ⟨stack, .colon⟩
  | .badString flaw place => .error (.flaw flaw place)
  | _ => .error (.flaw .keyExpected pos)

/-- Take a token after a finished item or binding. -/
def takeComma (pos : Nat) : List Frame → Token → Except Stop Reading
  | .list items :: rest, .comma => .ok ⟨.list items :: rest, .value⟩
  | .list items :: rest, .listEnd => .ok (complete (closed (.list items)) rest)
  | .object entries key :: rest, .comma => .ok ⟨.object entries key :: rest, .key⟩
  | .object entries key :: rest, .objectEnd => .ok (complete (closed (.object entries key)) rest)
  | _, _ => .error (.flaw .commaExpected pos)

/-- Close what was opened last. -/
def closeLast : List Frame → Reading
  | [] => start
  | f :: rest => complete (closed f) rest

/-- Take a token. -/
def take (r : Reading) (pos : Nat) (t : Token) : Except Stop Reading :=
  match r.expecting, t with
  | .value, t => takeValue r.stack pos t
  | .valueOrEnd, .listEnd => .ok (closeLast r.stack)
  | .valueOrEnd, t => takeValue r.stack pos t
  | .keyOrEnd, .objectEnd => .ok (closeLast r.stack)
  | .keyOrEnd, t => takeKey r.stack pos t
  | .key, t => takeKey r.stack pos t
  | .colon, .colon => .ok ⟨r.stack, .value⟩
  | .colon, _ => .error (.flaw .colonExpected pos)
  | .commaOrEnd, t => takeComma pos r.stack t
  | .nothing v, .finish => .ok ⟨r.stack, .nothing v⟩
  | .nothing _, _ => .error (.flaw .extraData pos)

/-- Take all tokens of a list. -/
def takeAll : Reading → List (Nat × Token) → Except Stop Reading
  | r, [] => .ok r
  | r, (pos, t) :: rest =>
    match r.take pos t with
    | .ok r => takeAll r rest
    | .error s => .error s

end Reading

/-- The refusal that a wrong token of a text amounts to. -/
def refusalOf (text : List Char) : Stop → Refusal
  | .flaw f pos => .fault (Fault.locate text f pos)
  | .hugeInteger => .hugeInteger

/-- The value of a text with unified line ends. -/
def readChars (text : List Char) : Except Refusal Value :=
  if text.head? = some (Char.ofNat 0xFEFF) then .error (refusalOf text (.flaw .byteOrderMark 0))
  else
    match Reading.start.takeAll (tokens text) with
    | .ok ⟨_, .nothing v⟩ => .ok v
    | .ok _ => .error (refusalOf text (.flaw .valueExpected text.length))
    | .error s => .error (refusalOf text s)

/-- The value of a document text. -/
def read (text : String) : Except Refusal Value := readChars (Text.unifyLineEnds text.toList)

end WideColumn.Document
