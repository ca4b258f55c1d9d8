import SearchWire.Schema.Check
import SearchWire.Value.Reading

/-!
# Index coordinates

The indices that a request is for: one name at least.

* `IndexCoordinates`, `IndexCoordinates.names`: the type, and the names in order.
* `IndexCoordinates.record`: coordinates from a name, a collection of names or coordinates.
* `IndexCoordinates.coerce`: the same, read.
-/

namespace SearchWire

structure IndexCoordinates where
  first : String
  others : List String
  deriving DecidableEq, Repr

namespace IndexCoordinates

def names (c : IndexCoordinates) : List String := c.first :: c.others

def model : Model := .fixed "IndexCoordinates" [.required "index_names" (.sequence .list .text 1)]

/-- The coordinates with the given names, as a record. -/
def ofNames (names : List Value) : Except Failure Value :=
  Catalogue.build ⟨[model], []⟩ "IndexCoordinates" [("index_names", .list names)]

/-- The names of a record of coordinates. -/
def recordNames (v : Value) : Value := v.field "index_names"

/-- The coordinates that a record holds. -/
def ofRecord? (v : Value) : Option IndexCoordinates :=
  match (recordNames v).texts? with
  | some (n :: ns) => some ⟨n, ns⟩
  | _ => none

/-- Coordinates as a record: a text is one name, everything else that can be gone through gives a
name at each step. -/
def record (v : Value) : Except Failure Value :=
  if v.isInstance "IndexCoordinates" then .ok v
  else if v.text?.isSome then ofNames [v]
  else
    match v.elements? with
    | some xs => ofNames xs
    | none => .error (.notIterable v)

/-- The coordinates that a value gives. -/
def coerce (v : Value) : Except Failure IndexCoordinates := do legible (ofRecord? (← record v))

end IndexCoordinates

end SearchWire
