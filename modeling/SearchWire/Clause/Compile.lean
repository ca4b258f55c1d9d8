import SearchWire.Clause.Leaf
import SearchWire.Mapping.Path

/-!
# Compiling criteria

A tree of criteria as a clause. A group of which all children must hold puts negated children
beside the others, so that a negation below it costs no clause of its own; a condition alone
becomes a boolean clause, too.

* `Criteria.compile`: the clause of a tree, or of no tree.
* `Criteria.node`: the clause of a tree within another one.
-/

namespace SearchWire.Criteria

/-- A condition or a negation that lacks one of its parts, or else a value that is no node. -/
def foreignFailure (v : Value) : Failure :=
  if v.isInstance "Condition" || v.isInstance "NotGroup" then .noAttribute else .unknownNode v

mutual

/-- The clause of a tree within another one. A group without children holds always. -/
def node (rename : String → String) : Criteria → Except Failure Clause
  | .condition c => c.clause rename
  | .all [] => .ok .matchAll
  | .all (c :: cs) => do
    let must ← plainNodes rename (c :: cs)
    let mustNot ← negatedNodes rename (c :: cs)
    .ok (.boolean must mustNot [] .null)
  | .any [] => .ok .matchAll
  | .any (c :: cs) => do
    let should ← nodes rename (c :: cs)
    .ok (.boolean [] [] should .null)
  | .not c => do
    let clause ← node rename c
    .ok (.boolean [] [clause] [] .null)
  | .foreign v => .error (foreignFailure v)

def nodes (rename : String → String) : List Criteria → Except Failure (List Clause)
  | [] => .ok []
  | c :: cs => do .ok ((← node rename c) :: (← nodes rename cs))

/-- The clauses of those children that are no negations. -/
def plainNodes (rename : String → String) : List Criteria → Except Failure (List Clause)
  | [] => .ok []
  | .not _ :: cs => plainNodes rename cs
  | c :: cs => do .ok ((← node rename c) :: (← plainNodes rename cs))

/-- The clauses of what the negations among the children negate. -/
def negatedNodes (rename : String → String) : List Criteria → Except Failure (List Clause)
  | [] => .ok []
  | .not c :: cs => do .ok ((← node rename c) :: (← negatedNodes rename cs))
  | _ :: cs => negatedNodes rename cs

end

/-- The clause of a tree, or of no tree. -/
def compile (rename : String → String) : Option Criteria → Except Failure Clause
  | none => .ok .matchAll
  | some (.condition c) => do
    let leaf ← c.clause rename
    .ok (.boolean [leaf] [] [] .null)
  | some t => t.node rename

end SearchWire.Criteria
