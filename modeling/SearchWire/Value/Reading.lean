import SearchWire.Failure

/-!
# Reading values

Descriptors come as records; the parts that the library looks into are read from their
properties. A part that has another type than it was declared with cannot be read.

* `Value.field`: a property of a record, `null` where there is none.
* `Value.texts?`, `Value.nat?`, `Value.flag?`: the simple parts.
* `Value.unlessNull`: a part that may be missing.
* `legible`: what was read, or the failure that there is nothing to read.
-/

namespace SearchWire

namespace Value

/-- A property of a record; `null` where there is none. -/
def field (name : String) (v : Value) : Value := (v.property? name).getD .null

/-- The texts in a list, tuple or set. -/
def texts? (v : Value) : Option (List String) := v.collection?.bind fun xs => xs.mapM text?

def int? : Value → Option Int
  | .int n => some n
  | _ => none

def nat? : Value → Option Nat
  | .int n => if n < 0 then none else some n.toNat
  | _ => none

def flag? : Value → Option Bool
  | .bool b => some b
  | _ => none

/-- What is read from a value that may be `null`. -/
def unlessNull {α : Type} (read : Value → Option α) (v : Value) : Option (Option α) :=
  if v.isNull then some none else (read v).map some

/-- The items of a list, tuple or set; none where there is no collection at all. -/
def itemsOrNone? (v : Value) : Option (List Value) := if v.isNull then some [] else v.collection?

/-- The value, if it is a record of the named class or of one that extends it. -/
def ofClass? (name : String) (v : Value) : Option Value :=
  if v.isInstance name then some v else none

/-- A list of texts as a value. -/
def ofTexts (ss : List String) : Value := .list (ss.map .str)

end Value

/-- What was read; there is a failure if nothing could be. -/
def legible {α : Type} : Option α → Except Failure α
  | some a => .ok a
  | none => .error .noAttribute

end SearchWire
