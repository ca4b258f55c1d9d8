import SearchWire.Failure

/-!
# Operators of conditions

What a condition says about its field.

* `Operator`, `Operator.text`, `Operator.label`: the operators, their names in requests and
  descriptors, their labels in the enumeration.
* `Operator.ofText?`: the operator of a name.
* `Operator.needsValue`: the operators that say nothing without a value.
* `OperatorName`: what a condition may give as its operator.
-/

namespace SearchWire

inductive Operator where
  | equals
  | term
  | matches
  | matchesAll
  | contains
  | startsWith
  | endsWith
  | expression
  | fuzzy
  | regexp
  | less
  | lessEqual
  | greater
  | greaterEqual
  | between
  | oneOf
  | noneOf
  | exists
  | empty
  | notEmpty
  | within
  | boundingBox
  deriving DecidableEq, Repr

namespace Operator

def all : List Operator :=
  [equals, term, «matches», matchesAll, contains, startsWith, endsWith, expression, fuzzy, regexp,
    less, lessEqual, greater, greaterEqual, between, oneOf, noneOf, «exists», empty, notEmpty,
    within, boundingBox]

/-- The name of an operator in descriptors and, for some, in clauses. -/
def text : Operator → String
  | equals => "equals"
  | term => "term"
  | «matches» => "matches"
  | matchesAll => "matches_all"
  | contains => "contains"
  | startsWith => "starts_with"
  | endsWith => "ends_with"
  | expression => "expression"
  | fuzzy => "fuzzy"
  | regexp => "regexp"
  | less => "lt"
  | lessEqual => "lte"
  | greater => "gt"
  | greaterEqual => "gte"
  | between => "between"
  | oneOf => "in"
  | noneOf => "not_in"
  | «exists» => "exists"
  | empty => "empty"
  | notEmpty => "not_empty"
  | within => "within"
  | boundingBox => "bounding_box"

/-- The label of an operator in its enumeration. -/
def label : Operator → String
  | equals => "EQUALS"
  | term => "TERM"
  | «matches» => "MATCHES"
  | matchesAll => "MATCHES_ALL"
  | contains => "CONTAINS"
  | startsWith => "STARTS_WITH"
  | endsWith => "ENDS_WITH"
  | expression => "EXPRESSION"
  | fuzzy => "FUZZY"
  | regexp => "REGEXP"
  | less => "LESS"
  | lessEqual => "LESS_EQUAL"
  | greater => "GREATER"
  | greaterEqual => "GREATER_EQUAL"
  | between => "BETWEEN"
  | oneOf => "IN"
  | noneOf => "NOT_IN"
  | «exists» => "EXISTS"
  | empty => "EMPTY"
  | notEmpty => "NOT_EMPTY"
  | within => "WITHIN"
  | boundingBox => "BOUNDING_BOX"

/-- The operator with a name. -/
def ofText? (s : String) : Option Operator := all.find? (·.text == s)

/-- An operator that says nothing without a value. A range may lack either bound. -/
def needsValue : Operator → Bool
  | between | «exists» | empty | notEmpty => false
  | _ => true

def enumeration : String := "Operator"

def member (op : Operator) : Member := ⟨enumeration, op.label, op.text⟩

end Operator

/-- What a condition gives as its operator: an operator; the bare name of one, which selects the
clause but cannot be asked for its name; or something else, which is shown in the failure. -/
inductive OperatorName where
  | known (op : Operator)
  | bare (op : Operator)
  | unknown (shown : String)
  /-- A collection, by which no operator can be looked up; of it only the type counts. -/
  | unhashable (type : String)
  deriving DecidableEq, Repr

namespace OperatorName

/-- The name of the operator, where a clause or a message asks for it. -/
def text : OperatorName → Except Failure String
  | known op => .ok op.text
  | bare _ | unknown _ | unhashable _ => .error .noAttribute

end OperatorName

end SearchWire
