import SearchWire.Failure
import SearchWire.Schema.Shape

/-!
# Models and enumerations

A model declares the properties of a class of records. The catalogue holds the models and
enumerations that data may name.

* `Property`, `Model`, `Enumeration`, `Catalogue`: the declarations.
* `Property.required`, `Property.optional`, `Property.withDefault`: the usual properties.
* `Catalogue.model?`, `Catalogue.member?`: finding a model, a member of an enumeration.
* `Catalogue.isA`: whether one class is another one or extends it.
-/

namespace SearchWire

/-- A property of a model. Data gives it under one of its `keys`, the first of which is used in
the place of an issue; in documents it is called `wire`. -/
structure Property where
  name : String
  declared : TypeExpr
  shape : Shape
  default : Option Value
  keys : List String
  wire : String

namespace Property

/-- A property under its own name that has to be given. -/
def required (name : String) (shape : Shape) : Property :=
  ⟨name, shape.declared, shape, none, [name], name⟩

/-- A property under its own name that may be left out. -/
def withDefault (name : String) (shape : Shape) (v : Value) : Property :=
  ⟨name, shape.declared, shape, some v, [name], name⟩

/-- A property under its own name that may be `null` and is so unless it is given. -/
def optional (name : String) (shape : Shape) : Property :=
  withDefault name (.optional shape) .null

/-- The same property with another name in documents and in data; data may use either name. -/
def called (p : Property) (wire : String) : Property :=
  { p with keys := [wire, p.name], wire := wire }

end Property

/-- The slots of a record: a value for each property. -/
def slotsOf (ps : List Property) (vs : List Value) : List (Slot Value) :=
  (ps.zip vs).map fun (p, v) => ⟨p.name, p.wire, v⟩

/-- A class of records. Its rule is checked once all properties fit; it answers what is wrong. -/
structure Model where
  name : String
  ancestors : List String
  properties : List Property
  frozen : Bool
  rule : List (Slot Value) → Option String

namespace Model

/-- A model that extends no other one and has no rule. -/
def plain (name : String) (properties : List Property) : Model :=
  ⟨name, [], properties, false, fun _ => none⟩

/-- The same, and its records cannot be changed. -/
def fixed (name : String) (properties : List Property) : Model :=
  { plain name properties with frozen := true }

def cls (m : Model) : RecordClass := ⟨m.name, m.ancestors, none⟩

/-- The name of a property in documents of the model; what the model does not have keeps its own. -/
def wireOf (m : Model) (s : Slot Value) : String :=
  ((m.properties.find? (·.name == s.name)).map Property.wire).getD s.wire

/-- A record that stands for one of the model: of a class that extends the model documents show no
more than the model has, under the names that the model gives. -/
def view (m : Model) (c : RecordClass) (slots : List (Slot Value)) : Value :=
  .record
    { c with shown := if c.name = m.name then none else some (m.properties.map Property.name) }
    (slots.map fun s => { s with wire := m.wireOf s })

/-- The record with the given values, one for each property. -/
def record (m : Model) (vs : List Value) : Value := .record m.cls (slotsOf m.properties vs)

end Model

/-- An enumeration: the labels of its members and the texts they stand for. -/
structure Enumeration where
  name : String
  members : List (String × String)

/-- The models and enumerations that data may name. -/
structure Catalogue where
  models : List Model
  enumerations : List Enumeration

namespace Catalogue

def model? (c : Catalogue) (name : String) : Option Model := c.models.find? (·.name == name)

/-- The member of an enumeration that stands for a text. -/
def member? (c : Catalogue) (enumeration value : String) : Option Member := do
  let e ← c.enumerations.find? (·.name == enumeration)
  let m ← e.members.find? (·.2 == value)
  some ⟨enumeration, m.1, value⟩

def isEnumeration (c : Catalogue) (name : String) : Bool := c.enumerations.any (·.name == name)

/-- The first class is the second one or extends it. -/
def isA (c : Catalogue) (name ancestor : String) : Bool :=
  name == ancestor ||
    match c.model? name with
    | some m => m.ancestors.contains ancestor
    | none => false

end Catalogue

end SearchWire
