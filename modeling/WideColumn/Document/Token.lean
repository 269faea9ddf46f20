import WideColumn.Document.Fault
import WideColumn.Number.Binary64
import WideColumn.Text.Hex
import WideColumn.Value.Basic

/-!
# Tokens of a document

A document text is cut into punctuation marks, strings and plain values. Cutting
goes on as long as the pieces are well formed: the first piece that is not
becomes a last token that says what is wrong, and whether that matters is for
the reader to say, who may have expected something else there.
-/

namespace WideColumn.Document

/-- A piece of a document text. -/
inductive Token where
  /-- An opening brace. -/
  | objectStart
  /-- A closing brace. -/
  | objectEnd
  /-- An opening bracket. -/
  | listStart
  /-- A closing bracket. -/
  | listEnd
  /-- A comma. -/
  | comma
  /-- A colon. -/
  | colon
  /-- A string. -/
  | string (s : String)
  /-- A number or a word that stands for a value. -/
  | plain (v : Value)
  /-- A string that is not well formed, and where the flaw is. -/
  | badString (flaw : Flaw) (position : Nat)
  /-- An integer with too many digits. -/
  | hugeInteger
  /-- Something else. -/
  | unknown
  /-- The end of the text. -/
  | finish

/-- The character may stand between tokens. -/
def isSpace (c : Char) : Bool := c = ' ' || c = '\t' || c = '\n' || c = '\r'

/-- The character of a short escape, by the letter after the backslash. -/
def shortEscape? (c : Char) : Option Char :=
  if c = Char.ofNat 34 then some c
  else if c = '\\' || c = '/' then some c
  else if c = 'b' then some (Char.ofNat 8)
  else if c = 'f' then some (Char.ofNat 12)
  else if c = 'n' then some '\n'
  else if c = 'r' then some '\r'
  else if c = 't' then some '\t'
  else none

/-- The number is the first half of a surrogate pair. -/
def isHighSurrogate (n : Nat) : Bool := 0xD800 ≤ n && n ≤ 0xDBFF

/-- The number is the second half of a surrogate pair. -/
def isLowSurrogate (n : Nat) : Bool := 0xDC00 ≤ n && n ≤ 0xDFFF

/-- The code point of a surrogate pair. -/
def joinSurrogates (high low : Nat) : Nat := 0x10000 + (high - 0xD800) * 0x400 + (low - 0xDC00)

/-- The character of a numeric escape. Texts hold no half of a surrogate pair, so every such half
becomes the replacement character, and two texts that differ in halves only are read as one. -/
def escapedChar (n : Nat) : Char :=
  if isHighSurrogate n || isLowSurrogate n then Char.ofNat 0xFFFD else Char.ofNat n

/-- The outcome of reading a string: its characters with what follows them and where, or a flaw. -/
abbrev StringScan := Except (Flaw × Nat) (List Char × Nat × List Char)

/-- Read a string after its opening quote. `start` is the place of that quote, `pos` the place of
the next character and `acc` what has been read, last character first. A numeric escape needs a
character after its digits. -/
def scanString (start : Nat) : (pos : Nat) → (acc : List Char) → List Char → StringScan
  | _, _, [] => .error (.unterminatedString, start)
  | pos, acc, '\\' :: 'u' :: a :: b :: c :: d :: '\\' :: 'u' :: e :: f :: g :: h :: rest =>
    match Text.hexNumber? [a, b, c, d] with
    | none => .error (.badNumericEscape, pos + 1)
    | some n =>
      if isHighSurrogate n && !rest.isEmpty then
        match Text.hexNumber? [e, f, g, h] with
        | none => .error (.badNumericEscape, pos + 7)
        | some m =>
          if isLowSurrogate m then
            scanString start (pos + 12) (Char.ofNat (joinSurrogates n m) :: acc) rest
          else
            scanString start (pos + 6) (escapedChar n :: acc)
              ('\\' :: 'u' :: e :: f :: g :: h :: rest)
      else
        scanString start (pos + 6) (escapedChar n :: acc)
          ('\\' :: 'u' :: e :: f :: g :: h :: rest)
  | pos, acc, '\\' :: 'u' :: a :: b :: c :: d :: e :: rest =>
    match Text.hexNumber? [a, b, c, d] with
    | none => .error (.badNumericEscape, pos + 1)
    | some n => scanString start (pos + 6) (escapedChar n :: acc) (e :: rest)
  | pos, _, '\\' :: 'u' :: _ => .error (.badNumericEscape, pos + 1)
  | pos, acc, '\\' :: c :: rest =>
    match shortEscape? c with
    | some d => scanString start (pos + 2) (d :: acc) rest
    | none => .error (.badEscape, pos)
  | _, _, ['\\'] => .error (.unterminatedString, start)
  | pos, acc, c :: rest =>
    if c = Char.ofNat 34 then .ok (acc.reverse, pos + 1, rest)
    else if c.toNat < 0x20 then .error (.controlCharacter, pos)
    else scanString start (pos + 1) (c :: acc) rest

/-- Split off the digits at the start. -/
def splitDigits (cs : List Char) : List Char × List Char :=
  (cs.takeWhile Char.isDigit, cs.dropWhile Char.isDigit)

/-- Split off the whole part of a number: a zero, or digits that do not start with one. -/
def splitWhole : List Char → List Char × List Char
  | '0' :: rest => (['0'], rest)
  | cs => splitDigits cs

/-- Split off a fraction: a point and at least one digit. -/
def splitFraction : List Char → List Char × List Char
  | '.' :: rest =>
    let (ds, after) := splitDigits rest
    if ds.isEmpty then ([], '.' :: rest) else ('.' :: ds, after)
  | cs => ([], cs)

/-- Split off a power of ten: its mark, an optional sign and at least one digit. -/
def splitPower : List Char → List Char × List Char
  | [] => ([], [])
  | c :: rest =>
    if c = 'e' ∨ c = 'E' then
      let (sign, body) := match rest with
        | '+' :: more => (['+'], more)
        | '-' :: more => (['-'], more)
        | more => ([], more)
      let (ds, after) := splitDigits body
      if ds.isEmpty then ([], c :: rest) else (c :: sign ++ ds, after)
    else ([], c :: rest)

/-- The greatest number of digits of an integer. -/
def maxIntegerDigits : Nat := 4300

/-- Read a number: the token, its characters and what follows them. -/
def scanNumber? (cs : List Char) : Option (Token × Nat × List Char) :=
  let (sign, body) := match cs with
    | '-' :: rest => (['-'], rest)
    | rest => ([], rest)
  let (whole, rest) := splitWhole body
  if whole.isEmpty then none
  else
    let (fraction, rest) := splitFraction rest
    let (power, rest) := splitPower rest
    let chars := sign ++ whole ++ fraction ++ power
    let token :=
      if fraction.isEmpty && power.isEmpty then
        if maxIntegerDigits < whole.length then Token.hugeInteger
        else
          let n : Int := Decimal.ofDigits whole
          Token.plain (.int (if sign.isEmpty then n else -n))
      else
        match Decimal.ofChars? chars with
        | some d => Token.plain (.float (Binary64.ofDecimal d))
        | none => Token.unknown
    some (token, chars.length, rest)

/-- The words that stand for values. -/
def words : List (List Char × Value) :=
  [("null".toList, .null), ("true".toList, .bool true), ("false".toList, .bool false),
    ("NaN".toList, .float .nan), ("Infinity".toList, .float (.infinite false)),
    ("-Infinity".toList, .float (.infinite true))]

/-- Read a word that stands for a value. -/
def scanWord? (cs : List Char) : Option (Token × Nat × List Char) :=
  (words.find? fun w => w.1.isPrefixOf cs).map fun w =>
    (Token.plain w.2, w.1.length, cs.drop w.1.length)

/-- The punctuation mark of a character. -/
def mark? (c : Char) : Option Token :=
  if c = Char.ofNat 123 then some .objectStart
  else if c = Char.ofNat 125 then some .objectEnd
  else if c = '[' then some .listStart
  else if c = ']' then some .listEnd
  else if c = ',' then some .comma
  else if c = ':' then some .colon
  else none

/-- Cut a text into tokens, each with its place. `fuel` bounds the number of cuts. -/
def cut : (fuel : Nat) → (pos : Nat) → List Char → List (Nat × Token)
  | 0, pos, _ => [(pos, .unknown)]
  | _ + 1, pos, [] => [(pos, .finish)]
  | fuel + 1, pos, c :: rest =>
    if isSpace c then cut fuel (pos + 1) rest
    else
      match mark? c with
      | some t => (pos, t) :: cut fuel (pos + 1) rest
      | none =>
        if c = Char.ofNat 34 then
          match scanString pos (pos + 1) [] rest with
          | .ok (s, next, after) => (pos, .string (String.ofList s)) :: cut fuel next after
          | .error (flaw, place) => [(pos, .badString flaw place)]
        else
          match scanWord? (c :: rest) with
          | some (t, n, after) => (pos, t) :: cut fuel (pos + n) after
          | none =>
            match scanNumber? (c :: rest) with
            | some (t, n, after) => (pos, t) :: cut fuel (pos + n) after
            | none => [(pos, .unknown)]

/-- The tokens of a text, with their places. Every cut takes a character at least. -/
def tokens (cs : List Char) : List (Nat × Token) := cut (cs.length + 1) 0 cs

end WideColumn.Document
