import SearchWire.Json.Writer
import SearchWire.Number.Numeral

/-!
# Reading JSON

A JSON text as a value. Besides standard JSON the reader takes the words for numbers without
digits; of fields with one name it keeps the place of the first and the value of the last.
A text that is not JSON is refused with the place of the first fault, and one whose brackets nest
deeper than there is room for is not read.

* `readChars`, `readWithin`, `readBytesWithin`: the value of a text, of a text given as bytes.
* `read`, `readBytes`: the same with as much room as the text may need.
* `Fault`, `Fault.message`: what is wrong, and where.

The readers of the parts return the text that is left, and a fault says how much text was left
when it was found; `read` turns that into a place.
-/

namespace SearchWire.Json

/-- What is wrong with a text. -/
inductive Cause where
  | value
  | name
  | colon
  | comma
  | unterminated
  | control
  | escape
  | unicodeEscape
  | extra
  | byteOrderMark
  deriving DecidableEq, Repr

def Cause.message : Cause → String
  | .value => "Expecting value"
  | .name => "Expecting property name enclosed in double quotes"
  | .colon => "Expecting ':' delimiter"
  | .comma => "Expecting ',' delimiter"
  | .unterminated => "Unterminated string starting at"
  | .control => "Invalid control character at"
  | .escape => "Invalid \\escape"
  | .unicodeEscape => "Invalid \\uXXXX escape"
  | .extra => "Extra data"
  | .byteOrderMark => "Unexpected UTF-8 BOM (decode using utf-8-sig)"

/-- A fault as the parts of the reader report it: with the count of characters left at its
place. -/
inductive Stop where
  | at (cause : Cause) (left : Nat)
  | tooLong (digits : Nat)
  /-- There is no room for what is between two brackets. -/
  | tooDeep
  deriving DecidableEq, Repr

/-- A fault in a text. -/
inductive Fault where
  | at (cause : Cause) (line column position : Nat)
  | tooLong (digits : Nat)
  | tooDeep
  deriving DecidableEq, Repr

def Fault.message : Fault → String
  | .at cause line column position =>
    s!"{cause.message}: line {line} column {column} (char {position})"
  | .tooLong digits =>
    s!"Exceeds the limit ({maxDigits} digits) for integer string conversion: value has {digits} " ++
      "digits; use sys.set_int_max_str_digits() to increase the limit"
  | .tooDeep => "maximum recursion depth exceeded"

/-- Puts characters in front of those that were read after them. -/
def after (front : List Char) (step : Except Stop (List Char × List Char)) :
    Except Stop (List Char × List Char) :=
  step.map fun (cs, r) => (front ++ cs, r)

def isSpace (c : Char) : Bool := c == ' ' || c == '\t' || c == '\n' || c == '\r'

def skipSpace (cs : List Char) : List Char := cs.dropWhile isSpace

/-- The value of four hexadecimal digits. -/
def fourHex? (a b c d : Char) : Option Nat :=
  [a, b, c, d].foldl (fun acc x => do
    let n ← acc
    if x.isDigit then some (16 * n + (x.toNat - '0'.toNat))
    else if 'a' ≤ x ∧ x ≤ 'f' then some (16 * n + (x.toNat - 'a'.toNat + 10))
    else if 'A' ≤ x ∧ x ≤ 'F' then some (16 * n + (x.toNat - 'A'.toNat + 10))
    else none) (some 0)

/-- The character that a letter after a backslash stands for. -/
def escaped? : Char → Option Char
  | '"' => some '"'
  | '\\' => some '\\'
  | '/' => some '/'
  | 'b' => some '\x08'
  | 'f' => some '\x0c'
  | 'n' => some '\n'
  | 'r' => some '\r'
  | 't' => some '\t'
  | _ => none

/-- Half of a surrogate pair that stands alone is no character; this one is put in its place. -/
def replacement : Char := '\ufffd'

def isHighSurrogate (n : Nat) : Bool := 0xd800 ≤ n && n < 0xdc00
def isLowSurrogate (n : Nat) : Bool := 0xdc00 ≤ n && n < 0xe000

/-- The characters that a UTF-16 unit ends: `high` is the first half of a pair if one is open.
The second component is the first half that is open afterwards. -/
def unitChars (high : Option Nat) (n : Nat) : List Char × Option Nat :=
  let alone := if high.isSome then [replacement] else []
  match high with
  | some h =>
    if isLowSurrogate n then ([Char.ofNat (0x10000 + (h - 0xd800) * 0x400 + (n - 0xdc00))], none)
    else if isHighSurrogate n then (alone, some n)
    else (alone ++ [Char.ofNat n], none)
  | none =>
    if isLowSurrogate n then ([replacement], none)
    else if isHighSurrogate n then ([], some n)
    else ([Char.ofNat n], none)

/-- The rest of a string up to its closing quote; `opening` is the count of characters left at
the opening one, `high` an open first half of a surrogate pair. An escape in digits must not be
the end of the text. -/
def readString (opening : Nat) (high : Option Nat) :
    List Char → Except Stop (List Char × List Char)
  | [] => .error (.at .unterminated opening)
  | '"' :: rest => .ok (if high.isSome then [replacement] else [], rest)
  | ['\\'] => .error (.at .unterminated opening)
  | '\\' :: 'u' :: a :: b :: c :: d :: rest =>
    match if rest.isEmpty then none else fourHex? a b c d with
    | none => .error (.at .unicodeEscape (rest.length + 5))
    | some n =>
      let (cs, high) := unitChars high n
      after cs (readString opening high rest)
  | '\\' :: 'u' :: rest => .error (.at .unicodeEscape (rest.length + 1))
  | '\\' :: c :: rest =>
    match escaped? c with
    | none => .error (.at .escape (rest.length + 2))
    | some x => after (if high.isSome then [replacement, x] else [x]) (readString opening none rest)
  | c :: rest =>
    if c.toNat < 0x20 then .error (.at .control (rest.length + 1))
    else after (if high.isSome then [replacement, c] else [c]) (readString opening none rest)

/-- The digits at the start of a text, as numbers, and what follows them. -/
def splitDigits (cs : List Char) : List Nat × List Char :=
  ((cs.takeWhile Char.isDigit).map fun c => c.toNat - '0'.toNat, cs.dropWhile Char.isDigit)

/-- The digits of a fraction; there is one only if a digit follows the point. -/
def splitFraction (cs : List Char) : List Nat × List Char :=
  match cs with
  | '.' :: rest =>
    match splitDigits rest with
    | ([], _) => ([], cs)
    | split => split
  | _ => ([], cs)

/-- The exponent; there is one only if a digit follows the letter and the sign. -/
def splitExponent (cs : List Char) : Option Int × List Char :=
  match cs with
  | c :: rest =>
    if c == 'e' || c == 'E' then
      let (negative, rest) := Numeral.splitSign rest
      match splitDigits rest with
      | ([], _) => (none, cs)
      | (ds, rest) => (some (Numeral.signed negative (Numeral.ofDigits ds)), rest)
    else (none, cs)
  | [] => (none, cs)

/-- The whole part of a number: zero alone, or digits that do not start with zero. -/
def splitWhole : List Char → List Nat × List Char
  | '0' :: rest => ([0], rest)
  | cs => splitDigits cs

/-- A number: whole without fraction and exponent, else floating-point. -/
def readNumber (cs : List Char) : Except Stop (Value × List Char) :=
  let (negative, digits) :=
    match cs with
    | '-' :: rest => (true, rest)
    | _ => (false, cs)
  match splitWhole digits with
  | ([], _) => .error (.at .value cs.length)
  | (whole, rest) =>
    let (fraction, rest) := splitFraction rest
    let (exponent, rest) := splitExponent rest
    if fraction.isEmpty && exponent.isNone then
      if whole.length ≤ maxDigits then
        .ok (.int (Numeral.signed negative (Numeral.ofDigits whole)), rest)
      else .error (.tooLong whole.length)
    else
      .ok (.float (Double.ofDecimal negative (Numeral.ofDigits (whole ++ fraction))
        (exponent.getD 0 - fraction.length)), rest)

/-- The text after a word, if it starts with the word. -/
def afterWord? : List Char → List Char → Option (List Char)
  | [], cs => some cs
  | w :: ws, c :: cs => if w = c then afterWord? ws cs else none
  | _ :: _, [] => none

/-- The values that are written as words. -/
def wordValues : List (List Char × Value) :=
  [("null".toList, .null), ("true".toList, .bool true), ("false".toList, .bool false),
    ("NaN".toList, .float .nan), ("Infinity".toList, .float (.infinite false)),
    ("-Infinity".toList, .float (.infinite true))]

/-- A value that is written as a word, or a number. -/
def readAtom (cs : List Char) : Except Stop (Value × List Char) :=
  match wordValues.findSome? fun (w, v) => (afterWord? w cs).map fun rest => (v, rest) with
  | some step => .ok step
  | none => readNumber cs

/-- The room between two brackets: one unit less than around them. -/
def enter : Nat → Except Stop Nat
  | 0 => .error .tooDeep
  | room + 1 => .ok room

mutual

/-- A value at the start of a text. Every call has one unit of `fuel` less; as two calls at most
start at one character, a text needs no more than twice its length and one. -/
def readValue : (fuel room : Nat) → List Char → Except Stop (Value × List Char)
  | 0, _, cs => .error (.at .value cs.length)
  | fuel + 1, room, cs =>
    match cs with
    | '"' :: rest => do
      let (s, r) ← readString cs.length none rest
      .ok (.str (String.ofList s), r)
    | '\x7b' :: rest => do
      let room ← enter room
      match skipSpace rest with
      | '\x7d' :: r => .ok (.dict [], r)
      | r => do
        let (fs, r) ← readMembers fuel room r
        .ok (Value.object (Fields.ofList fs), r)
    | '[' :: rest => do
      let room ← enter room
      match skipSpace rest with
      | ']' :: r => .ok (.list [], r)
      | r => do
        let (xs, r) ← readItems fuel room r
        .ok (.list xs, r)
    | cs => readAtom cs

/-- The members of an object from the first name to the closing brace. -/
def readMembers : (fuel room : Nat) → List Char →
    Except Stop (List (String × Value) × List Char)
  | 0, _, cs => .error (.at .name cs.length)
  | fuel + 1, room, cs =>
    match cs with
    | '"' :: rest => do
      let (name, r) ← readString cs.length none rest
      match skipSpace r with
      | ':' :: r => do
        let (v, r) ← readValue fuel room (skipSpace r)
        match skipSpace r with
        | '\x7d' :: r => .ok ([(String.ofList name, v)], r)
        | ',' :: r => do
          let (fs, r) ← readMembers fuel room (skipSpace r)
          .ok ((String.ofList name, v) :: fs, r)
        | r => .error (.at .comma r.length)
      | r => .error (.at .colon r.length)
    | cs => .error (.at .name cs.length)

/-- The items of a list up to the closing bracket. -/
def readItems : (fuel room : Nat) → List Char → Except Stop (List Value × List Char)
  | 0, _, cs => .error (.at .value cs.length)
  | fuel + 1, room, cs => do
    let (v, r) ← readValue fuel room cs
    match skipSpace r with
    | ']' :: r => .ok ([v], r)
    | ',' :: r => do
      let (xs, r) ← readItems fuel room (skipSpace r)
      .ok (v :: xs, r)
    | r => .error (.at .comma r.length)

end

/-- A fault with its place in a text: lines and columns count from one, positions from zero. -/
def Stop.toFault (cs : List Char) : Stop → Fault
  | .at cause left =>
    let before := cs.take (cs.length - left)
    .at cause (before.count '\n' + 1) ((before.reverse.takeWhile (· != '\n')).length + 1)
      before.length
  | .tooLong digits => .tooLong digits
  | .tooDeep => .tooDeep

/-- The value of a text that is one JSON value with space around it. -/
def readAll (room : Nat) (cs : List Char) : Except Stop Value := do
  let (v, r) ← readValue (2 * cs.length + 1) room (skipSpace cs)
  match skipSpace r with
  | [] => .ok v
  | r => .error (.at .extra r.length)

def byteOrderMark : Char := '\ufeff'

/-- The value of some characters whose brackets nest no deeper than there is room for. -/
def readChars (room : Nat) (cs : List Char) : Except Fault Value :=
  if cs.head? = some byteOrderMark then .error (Stop.toFault cs (.at .byteOrderMark cs.length))
  else (readAll room cs).mapError (Stop.toFault cs)

/-- The value of such a text. -/
def readWithin (room : Nat) (s : String) : Except Fault Value := readChars room s.toList

/-- The value of such a text that is given as bytes; a byte order mark in front is dropped. -/
def readBytesWithin (room : Nat) (s : String) : Except Fault Value :=
  let cs := s.toList
  let cs := if cs.head? = some byteOrderMark then cs.drop 1 else cs
  (readAll room cs).mapError (Stop.toFault cs)

/-- The value of a JSON text. -/
def read (s : String) : Except Fault Value := readWithin s.length s

/-- The value of a JSON text that is given as bytes. -/
def readBytes (s : String) : Except Fault Value := readBytesWithin s.length s

end SearchWire.Json
