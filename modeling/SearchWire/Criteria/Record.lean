import SearchWire.Criteria.Basic
import SearchWire.Schema.Model

/-!
# Criteria trees as records

A tree is written down as records of four models. Reading takes any value: what is not such a
record is a foreign node of the tree.

* `Criteria.models`: the models of the records.
* `Criteria.toValue`, `Criteria.ofValue`: a tree as records, and back.
* `Chain`: a sequence of criteria that may still be empty, as a value.
-/

namespace SearchWire

namespace Criteria

/-- The tags of nodes and the models of their records. -/
def nodeTags : List (String × String) :=
  [("condition", "Condition"), ("and", "AndGroup"), ("or", "OrGroup"), ("not", "NotGroup")]

/-- A node of a tree as data. -/
def nodeShape : Shape := .tagged "kind" nodeTags

/-- The property that tells the records of a model from those of others. -/
def tagProperty (tag value : String) : Property :=
  .withDefault tag (.choice [.str value]) (.str value)

/-- The children of a group; there need not be any. -/
def childrenProperty : Property :=
  .withDefault "children" (.sequence .tuple nodeShape 0) (.tuple [])

/-- The models of the records that make up a tree. -/
def models : List Model := [
  .fixed "Condition" [tagProperty "kind" "condition", .required "field" .text,
    .required "operator" (.member Operator.enumeration), .withDefault "value" .any .null,
    .optional "boost" .decimal],
  .fixed "AndGroup" [tagProperty "kind" "and", childrenProperty],
  .fixed "OrGroup" [tagProperty "kind" "or", childrenProperty],
  .fixed "NotGroup" [tagProperty "kind" "not", .required "child" nodeShape]]

/-- A property under its own name. -/
def slot (name : String) (v : Value) : Slot Value := ⟨name, name, v⟩

def conditionRecord (c : Condition) : Value :=
  .record (.root "Condition") [slot "kind" (.str "condition"), slot "field" (.str c.field),
    slot "operator" (match c.operator with
      | .known op => .member op.member
      | .bare op => .str op.text
      | .unknown shown => .str shown
      | .unhashable type => .classRef type),
    slot "value" c.value, slot "boost" c.boost]

mutual

/-- A tree as records. -/
def toValue : Criteria → Value
  | .condition c => conditionRecord c
  | .all cs => .record (.root "AndGroup") [slot "kind" (.str "and"),
      slot "children" (.tuple (toValues cs))]
  | .any cs => .record (.root "OrGroup") [slot "kind" (.str "or"),
      slot "children" (.tuple (toValues cs))]
  | .not c => .record (.root "NotGroup") [slot "kind" (.str "not"), slot "child" (toValue c)]
  | .foreign v => v

def toValues : List Criteria → List Value
  | [] => []
  | c :: cs => toValue c :: toValues cs

end

/-- The operator that a value gives. A member shows its path, other values their words. -/
def operatorName (v : Value) : OperatorName :=
  match v with
  | .member m =>
    match if m.enumeration = Operator.enumeration then Operator.ofText? m.value else none with
    | some op => .known op
    | none => .unknown (String.ofList m.path)
  | .str s =>
    match Operator.ofText? s with
    | some op => .bare op
    | none => .unknown s
  | v =>
    match v.unhashable? with
    | some type => .unhashable type
    | none => .unknown (String.ofList v.words)

/-- The condition that the properties of a record give. -/
def conditionOf? (slots : List (Slot Value)) : Option Condition := do
  let get (name : String) := (slots.find? fun s => s.name == name).map Slot.value
  let field ← (← get "field").text?
  some ⟨field, operatorName (← get "operator"), (get "value").getD .null, (get "boost").getD .null⟩

mutual

/-- The tree that a value writes down. -/
def ofValue : Value → Criteria
  | .record c slots =>
    if c.name = "Condition" then
      match conditionOf? slots with
      | some leaf => .condition leaf
      | none => .foreign (.record c slots)
    else if c.name = "AndGroup" then .all (childrenOf slots)
    else if c.name = "OrGroup" then .any (childrenOf slots)
    else if c.name = "NotGroup" then
      match childOf slots with
      | some child => .not child
      | none => .foreign (.record c slots)
    else .foreign (.record c slots)
  | v => .foreign v

/-- The children of a group. -/
def childrenOf : List (Slot Value) → List Criteria
  | [] => []
  | ⟨name, _, v⟩ :: slots => if name = "children" then ofItems v else childrenOf slots

/-- The child of a negation. -/
def childOf : List (Slot Value) → Option Criteria
  | [] => none
  | ⟨name, _, v⟩ :: slots => if name = "child" then some (ofValue v) else childOf slots

def ofItems : Value → List Criteria
  | .tuple xs => ofValues xs
  | .list xs => ofValues xs
  | .set xs => ofValues xs
  | _ => []

def ofValues : List Value → List Criteria
  | [] => []
  | x :: xs => ofValue x :: ofValues xs

end

/-- The tree that a value gives where criteria are expected: a chain gives its tree, `null` and
the empty chain give none. -/
def given : Value → Option Criteria
  | .null => none
  | .chain .null => none
  | .chain root => some (ofValue root)
  | v => some (ofValue v)

end Criteria

/-- A chain with the given tree, as a value. -/
def chainValue (root : Option Criteria) : Value := .chain ((root.map Criteria.toValue).getD .null)

end SearchWire
