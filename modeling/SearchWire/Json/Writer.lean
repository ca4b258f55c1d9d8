import SearchWire.Json.KeyOrder
import SearchWire.Value.Dump

/-!
# Writing JSON

A value as JSON text. A style fixes what stands between the parts, whether characters outside
ASCII are escaped, whether the entries of an object are sorted, and whether dates and choices are
written. What a style does not write may be translated: `writeWith` puts something in the place of
each value that has no text of its own, and goes no deeper than it has room.

* `Style.compact`, `Style.spaced`, `Style.document`: the styles in use.
* `write`: the text of a value, or the reason why it has none.
* `writeWith`: the same with values translated on the way.
* `writeString`: a text between quotes.
* `keyText?`: the text of a key of an object.
-/

namespace SearchWire.Json

structure Style where
  comma : List Char
  colon : List Char
  ascii : Bool
  sorted : Bool
  dates : Bool

/-- Nothing between the parts; characters outside ASCII stand for themselves, dates are written
as their ISO texts, choices as their values. -/
def Style.compact : Style := ⟨[','], [':'], false, false, true⟩

/-- A blank after commas and colons, sorted entries, ASCII only, no dates. -/
def Style.spaced : Style := ⟨[',', ' '], [':', ' '], true, true, false⟩

/-- The same with the entries in their own order. -/
def Style.document : Style := ⟨[',', ' '], [':', ' '], true, false, false⟩

/-- The most digits that an integer may have. -/
def maxDigits : Nat := 4300

/-- Why a value has no JSON text. -/
inductive WriteFault where
  | key (k : Value)
  | value (v : Value)
  | order (keys : Unordered)
  /-- A value is in its own place after it was translated. -/
  | circular
  /-- A value cannot be translated. -/
  | untranslated
  /-- An integer has too many digits. -/
  | tooLong
  /-- There is no room for the parts of a value. -/
  | tooDeep
  deriving BEq, Repr

/-- The message of a fault. -/
def WriteFault.message : WriteFault → String
  | .key k => "keys must be str, int, float, bool or None, not " ++ k.fullTypeName
  | .value v => "Object of type " ++ v.typeName ++ " is not JSON serializable"
  | .order keys => keys.message
  | .circular => "Circular reference detected"
  | .untranslated => "unable to serialize a value"
  | .tooLong =>
    s!"Exceeds the limit ({maxDigits} digits) for integer string conversion; use " ++
      "sys.set_int_max_str_digits() to increase the limit"
  | .tooDeep => "maximum recursion depth exceeded"

/-- One UTF-16 unit as an escape. -/
def unitEscape (n : Nat) : List Char := '\\' :: 'u' :: Text.hexDigits 4 n

/-- A character as one escape, or two beyond the sixteen-bit range. -/
def charEscape (c : Char) : List Char :=
  let n := c.toNat
  if n < 0x10000 then unitEscape n
  else unitEscape (0xd800 + (n - 0x10000) / 0x400) ++ unitEscape (0xdc00 + (n - 0x10000) % 0x400)

/-- A character within a JSON string. -/
def writeChar (ascii : Bool) (c : Char) : List Char :=
  if c = '"' then ['\\', '"']
  else if c = '\\' then ['\\', '\\']
  else if c = '\n' then ['\\', 'n']
  else if c = '\r' then ['\\', 'r']
  else if c = '\t' then ['\\', 't']
  else if c = '\x0c' then ['\\', 'f']
  else if c = '\x08' then ['\\', 'b']
  else if c.toNat < 0x20 then unitEscape c.toNat
  else if ascii && 0x7f ≤ c.toNat then charEscape c
  else [c]

/-- A JSON string. -/
def writeString (ascii : Bool) (s : String) : List Char :=
  '"' :: s.toList.flatMap (writeChar ascii) ++ ['"']

def writeFloat (x : Double) : List Char := x.textWith Double.documentWords

/-- The text of a key of an object. -/
def keyText? : Value → Option String
  | .str s => some s
  | .member m => some m.value
  | .null => some "null"
  | .bool b => some (if b then "true" else "false")
  | .int n => some (String.ofList (Decimal.intDigits n))
  | .float x => some (String.ofList (writeFloat x))
  | _ => none

/-- The text of a value that has no parts. -/
def writeAtom (style : Style) : Value → Except WriteFault (List Char)
  | .null => .ok "null".toList
  | .bool b => .ok (if b then "true" else "false").toList
  | .int n => .ok (Decimal.intDigits n)
  | .float x => .ok (writeFloat x)
  | .str s => .ok (writeString style.ascii s)
  | .member m => .ok (writeString style.ascii m.value)
  | .date d =>
    if style.dates then .ok (writeString style.ascii (String.ofList d.text))
    else .error (.value (.date d))
  | .datetime t =>
    if style.dates then .ok (writeString style.ascii (String.ofList t.text))
    else .error (.value (.datetime t))
  | v => .error (.value v)

/-- The text of an entry. The key counts before the value. -/
def entryText (style : Style) (k : Value) (value : Except WriteFault (List Char)) :
    Except WriteFault (List Char) :=
  match keyText? k with
  | none => .error (.key k)
  | some name => do .ok (writeString style.ascii name ++ style.colon ++ (← value))

/-- The entries of an object in the order of a style. -/
def inOrder {α : Type} (style : Style) (es : List (Value × α)) :
    Except WriteFault (List (Value × α)) :=
  if style.sorted then (sortByKey es).mapError .order else .ok es

mutual

/-- The JSON text of a value. -/
def write (style : Style) : Value → Except WriteFault (List Char)
  | .list xs => do .ok ('[' :: joinWith style.comma (← writeAll style xs) ++ [']'])
  | .tuple xs => do .ok ('[' :: joinWith style.comma (← writeAll style xs) ++ [']'])
  | .dict es => do
    let entries ← inOrder style (writeEntries style es)
    .ok ('\x7b' :: joinWith style.comma (← entries.mapM Prod.snd) ++ ['\x7d'])
  | .choice e l v => if style.dates then write style v else writeAtom style (.choice e l v)
  | v => writeAtom style v

def writeAll (style : Style) : List Value → Except WriteFault (List (List Char))
  | [] => .ok []
  | x :: xs => do .ok ((← write style x) :: (← writeAll style xs))

/-- The entries of an object by key, each with its text or the fault in it. -/
def writeEntries (style : Style) :
    List (Value × Value) → List (Value × Except WriteFault (List Char))
  | [] => []
  | (k, v) :: es => (k, entryText style k (write style v)) :: writeEntries style es

end

/-! ## Translation on the way -/

/-- A value that has no parts and is not translated. -/
def isAtom : Value → Bool
  | .null | .bool _ | .int _ | .float _ | .str _ | .member _ => true
  | _ => false

/-- An integer with more digits than it may have. -/
def isTooLong : Value → Bool
  | .int n => decide (maxDigits < (Decimal.natDigits n.natAbs).length)
  | _ => false

/-- A text, unless it is that of an integer with too many digits. -/
def unlessTooLong (v : Value) (text : Except WriteFault (List Char)) :
    Except WriteFault (List Char) :=
  if isTooLong v then .error .tooLong else text

/-- The JSON text of a value in which what has no text of its own is translated. A value that stays
in its place would have to be translated again and again. Lists, objects and translations around one
another take up room, one unit each. -/
def writeWith (translate : Value → Value.Translation) (style : Style) :
    (room : Nat) → Value → Except WriteFault (List Char)
  | 0, v => if isAtom v then unlessTooLong v (writeAtom style v) else .error .tooDeep
  | room + 1, v =>
    match v with
    | .list xs => do
      .ok ('[' :: joinWith style.comma (← xs.mapM (writeWith translate style room)) ++ [']'])
    | .tuple xs => do
      .ok ('[' :: joinWith style.comma (← xs.mapM (writeWith translate style room)) ++ [']'])
    | .dict es => do
      let entries ← inOrder style (es.map fun e =>
        (e.1, unlessTooLong e.1 (entryText style e.1 (writeWith translate style room e.2))))
      .ok ('\x7b' :: joinWith style.comma (← entries.mapM Prod.snd) ++ ['\x7d'])
    | v =>
      if isAtom v then unlessTooLong v (writeAtom style v)
      else
        match translate v with
        | .kept => .error .circular
        | .form w => writeWith translate style room w
        | .failed => .error .untranslated

end SearchWire.Json
