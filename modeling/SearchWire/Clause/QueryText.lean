import SearchWire.Failure
import SearchWire.Value.Dump

/-!
# Query texts

Some clauses hold a text in a small language in which a number of characters have a meaning of
their own. A backslash takes that meaning away.

* `QueryText.isSpecial`, `QueryText.escape`: the characters with a meaning, a text without them.
* `QueryText.ofValue`: a value as a text.
-/

namespace SearchWire.QueryText

/-- The characters with a meaning of their own. -/
def special : List Char :=
  ['\\', '+', '-', '!', '(', ')', ':', '^', '[', ']', '"', '\x7b', '\x7d', '~', '*', '?', '|',
    '&', '/']

def isSpecial (c : Char) : Bool := special.contains c

def escapeChar (c : Char) : List Char := if isSpecial c then ['\\', c] else [c]

/-- A text in which no character has a meaning of its own. -/
def escapeChars (cs : List Char) : List Char := cs.flatMap escapeChar

def escape (s : String) : String := String.ofList (escapeChars s.toList)

/-- A value as a text: truth values by their names in documents, everything else by its words. -/
def ofValue : Value → Except Failure (List Char)
  | .bool b => .ok (if b then "true" else "false").toList
  | v =>
    match v.engineForm? with
    | some w => .ok w.words
    | none => .error .unwritable

end SearchWire.QueryText
