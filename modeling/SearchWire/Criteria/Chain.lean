import SearchWire.Criteria.Record
import SearchWire.Schema.Check

/-!
# Fluent chains

A tree is put together by a sequence of calls: a field and what it is joined with, then what the
field must satisfy; whole chains as operands; negation and weight. Calls are evaluated from left
to right.

* `Call`, `ChainState`: the calls, and what there is between two of them.
* `ChainState.run`: one call.
* `Call.ofName?`: the call with a name.
-/

namespace SearchWire

/-- A field that waits for its condition. -/
structure Pending where
  root : Option Criteria
  field : Value
  connective : Connective
  negated : Bool

/-- What there is between two calls: a chain, or a field that waits for its condition. -/
inductive ChainState where
  | chain (root : Option Criteria)
  | pending (p : Pending)

def ChainState.empty : ChainState := .chain none

/-- A call of a chain. -/
inductive Call where
  /-- Starts again with a field. -/
  | start (field : Value)
  /-- A field that is joined to the chain. -/
  | join (connective : Connective) (field : Value)
  /-- Negates the condition that the field waits for. -/
  | negateNext
  /-- The condition that the field waits for. -/
  | complete (op : Operator) (args : List Value)
  /-- Joins a whole chain. -/
  | joinChain (connective : Connective) (other : Value)
  /-- Negates the chain. -/
  | negate
  /-- Weighs the last condition. -/
  | boost (v : Value)

namespace Operator

/-- The value of a condition from the arguments of its call: pairs for ranges and places, a list
of what a collection holds, `null` where there is no argument. -/
def valueOf (op : Operator) (args : List Value) : Except Failure Value :=
  match op, args with
  | .between, [a, b] | .within, [a, b] | .boundingBox, [a, b] => .ok (.tuple [a, b])
  | .oneOf, [xs] | .noneOf, [xs] =>
    match xs.elements? with
    | some vs => .ok (.list vs)
    | none => .error (.notIterable xs)
  | .exists, [] | .empty, [] | .notEmpty, [] => .ok .null
  | .between, _ | .within, _ | .boundingBox, _ | .oneOf, _ | .noneOf, _ | .exists, _ | .empty, _
  | .notEmpty, _ => .error .noAttribute
  | _, [v] => .ok v
  | _, _ => .error .noAttribute

end Operator

/-- The condition of a pending field; the field must be a text. -/
def Pending.condition (p : Pending) (op : Operator) (v : Value) : Except Failure Criteria :=
  match checkText p.field with
  | .ok a =>
    let leaf : Criteria := .condition ⟨(a.value.text?).getD "", .known op, v, .null⟩
    .ok (if p.negated then .not leaf else leaf)
  | .error issues => .error (.rejected "Condition" (issuesUnder (.name "field") issues))

namespace ChainState

/-- One call. A call that the state has no answer to is a failure. -/
def run : ChainState → Call → Except Failure ChainState
  | .chain _, .start field => .ok (.pending ⟨none, field, .and, false⟩)
  | .chain root, .join connective field => .ok (.pending ⟨root, field, connective, false⟩)
  | .chain root, .joinChain connective other =>
    match other with
    | .chain .null => .ok (.chain root)
    | .chain node => .ok (.chain (some (Criteria.connect root connective (Criteria.ofValue node))))
    | _ => .error .noAttribute
  | .chain root, .negate => .ok (.chain (root.map .not))
  | .chain root, .boost v => .ok (.chain (root.map (Criteria.boostLast v)))
  | .pending p, .negateNext => .ok (.pending { p with negated := !p.negated })
  | .pending p, .complete op args => do
    let v ← op.valueOf args
    let operand ← p.condition op v
    .ok (.chain (some (Criteria.connect p.root p.connective operand)))
  | _, _ => .error .noAttribute

/-- All calls, one after the other; the first failure ends them. -/
def runAll : ChainState → List Call → Except Failure ChainState
  | s, [] => .ok s
  | s, c :: cs => do runAll (← s.run c) cs

end ChainState

namespace Call

/-- The names of the calls that complete a condition. -/
def completions : List (String × Operator) :=
  [("is_", .equals), ("term", .term), ("matches", .matches), ("matches_all", .matchesAll),
    ("contains", .contains), ("starts_with", .startsWith), ("ends_with", .endsWith),
    ("expression", .expression), ("fuzzy", .fuzzy), ("regexp", .regexp), ("lt", .less),
    ("lte", .lessEqual), ("gt", .greater), ("gte", .greaterEqual), ("between", .between),
    ("in_", .oneOf), ("not_in", .noneOf), ("exists", .exists), ("empty", .empty),
    ("not_empty", .notEmpty), ("within", .within), ("bounding_box", .boundingBox)]

/-- The call with a name and arguments. -/
def ofName? (name : String) (args : List Value) : Option Call :=
  match name, args with
  | "where", [field] => some (.start field)
  | "and_", [field] => some (.join .and field)
  | "or_", [field] => some (.join .or field)
  | "and_criteria", [other] => some (.joinChain .and other)
  | "or_criteria", [other] => some (.joinChain .or other)
  | "negate", [] => some .negate
  | "boost", [v] => some (.boost v)
  | "not_", [] => some .negateNext
  | name, args => (completions.lookup name).map fun op => .complete op args

end Call

end SearchWire
