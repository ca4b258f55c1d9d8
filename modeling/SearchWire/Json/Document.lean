import SearchWire.Failure
import SearchWire.Json.Reader

/-!
# Documents

A pre-built document is given as a mapping or as the JSON text of an object, and is used as a
JSON object either way: a mapping is written as JSON text, its values translated on the way, and
what comes out of a document is what is read from its text.

Writing and reading go as deep as there is room for; data that nests deeper is no document, but it
is not refused as one either.

* `Document.parseWithin`: a document given in either form.
* `Document.parse`, `Document.parseObject`: the same with as much room as it takes.
-/

namespace SearchWire

namespace Document

/-- The failure of a fault. -/
def refusal (what : String) : DocumentFault → Failure
  | .json .tooDeep | .unwritten .tooDeep => .tooDeep
  | fault => .unreadable what fault

/-- The fields of an object whose keys are texts. -/
def fields? : Value → Option Fields
  | .dict es => es.mapM fun e =>
    match e.1 with
    | .str name => some (name, e.2)
    | _ => none
  | _ => none

/-- A JSON value must be an object to be a document. -/
def asObject (what : String) (v : Value) : Except Failure Fields :=
  match fields? v with
  | some fs => .ok fs
  | none => .error (.notAnObject what v)

/-- What was read from a text as a document. -/
def ofReading (what : String) (v : Except Json.Fault Value) : Except Failure Fields := do
  asObject what (← v.mapError fun fault => refusal what (.json fault))

/-- The document of a JSON text. -/
def ofText (what s : String) : Except Failure Fields := ofReading what (Json.read s)

/-- The text of a mapping. -/
def written (room : Nat) (what : String) (es : Entries) : Except Failure (List Char) :=
  (Json.writeWith Value.translation .document room (.dict es)).mapError
    fun fault => refusal what (.unwritten fault)

/-- The fields of a document given as a mapping or as a JSON text; `null` is no document. Without a
bound on the room there is as much as it takes. -/
def parseWithin (room : Option Nat) (what : String) (v : Value) : Except Failure (Option Fields) :=
  match v with
  | .null => .ok none
  | .dict es => do
    let text ← written (room.getD v.height) what es
    (ofReading what (Json.readChars (room.getD text.length) text)).map some
  | .str s => (ofReading what (Json.readWithin (room.getD s.length) s)).map some
  | .member m => (ofReading what (Json.readWithin (room.getD m.value.length) m.value)).map some
  | .bytes s => (ofReading what (Json.readBytesWithin (room.getD s.length) s)).map some
  | v => .error (.unreadable what (.notText v))

/-- The fields of a document, however deep it is. -/
def parse (what : String) (v : Value) : Except Failure (Option Fields) := parseWithin none what v

/-- The same as a value: an object, or `null` where there is no document. -/
def parseObject (what : String) (v : Value) : Except Failure Value := do
  match ← parse what v with
  | some fields => .ok (.object fields)
  | none => .ok .null

end Document

end SearchWire
