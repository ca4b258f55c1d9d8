import SearchWire.Criteria.Operator

/-!
# Criteria trees

A query by criteria is a tree: conditions on fields at the leaves, groups of which all or any
must hold, and negations. Trees never change; every operation makes another one.

* `Condition`, `Criteria`: the trees.
* `Criteria.connect`: a tree and one more operand, with the operand put into the group that is
  there if it has the same connective.
* `Criteria.boostLast`: the same tree with a weight for its last condition.
* `Criteria.rename`: the same tree with other names for the fields.
-/

namespace SearchWire

/-- A condition on one field. A `boost` of `null` is no weight. -/
structure Condition where
  field : String
  operator : OperatorName
  value : Value
  boost : Value
  deriving BEq, Repr

inductive Criteria where
  | condition (c : Condition)
  /-- All children hold. -/
  | all (children : List Criteria)
  /-- One of the children holds. -/
  | any (children : List Criteria)
  | not (child : Criteria)
  /-- A value that is no criterion; it takes part in a tree until the tree is compiled. -/
  | foreign (v : Value)
  deriving BEq, Repr, Inhabited

/-- How one more operand is joined to a tree. -/
inductive Connective where
  | and
  | or
  deriving DecidableEq, Repr

namespace Criteria

/-- A tree and one more operand. The operand joins the group that is there if it has the same
connective, so that a mixed sequence nests from left to right. -/
def connect (left : Option Criteria) (connective : Connective) (right : Criteria) : Criteria :=
  match left, connective with
  | none, _ => right
  | some (.all cs), .and => .all (cs ++ [right])
  | some (.any cs), .or => .any (cs ++ [right])
  | some t, .and => .all [t, right]
  | some t, .or => .any [t, right]

mutual

/-- The same tree with a weight for its last condition. -/
def boostLast (boost : Value) : Criteria → Criteria
  | .condition c => .condition { c with boost := boost }
  | .all cs => .all (boostLastOf boost cs)
  | .any cs => .any (boostLastOf boost cs)
  | .not c => .not (boostLast boost c)
  | .foreign v => .foreign v

def boostLastOf (boost : Value) : List Criteria → List Criteria
  | [] => []
  | [c] => [boostLast boost c]
  | c :: cs => c :: boostLastOf boost cs

end

mutual

/-- The same tree with other names for the fields. -/
def rename (f : String → String) : Criteria → Criteria
  | .condition c => .condition { c with field := f c.field }
  | .all cs => .all (renameAll f cs)
  | .any cs => .any (renameAll f cs)
  | .not c => .not (rename f c)
  | .foreign v => .foreign v

def renameAll (f : String → String) : List Criteria → List Criteria
  | [] => []
  | c :: cs => rename f c :: renameAll f cs

end

end Criteria

end SearchWire
