import SearchWire.Schema.Model

/-!
# Declared domain types

A domain type is declared by its fields with their types and other names. The declaration fixes
what data the type accepts and what its records look like in documents.

* `FieldDeclaration`, `TypeDeclaration`: the declarations.
* `Shape.ofType`: what data a declared type accepts.
* `Catalogue.declare`: a catalogue with one more domain type.
-/

namespace SearchWire

/-- A field of a domain type. `otherName` is its other name both in data and in documents; each of
the two may have one of its own. -/
structure FieldDeclaration where
  name : String
  type : TypeExpr
  otherName : Option String
  documentName : Option String
  dataName : Option String
  default : Option Value

/-- A domain type. With `byName` data may use the names of fields beside their other names. -/
structure TypeDeclaration where
  name : String
  fields : List FieldDeclaration
  byName : Bool
  base : Option String

/-- What data a class accepts. -/
def Shape.ofName (cat : Catalogue) (name : String) : Shape :=
  match name with
  | "str" => .text
  | "int" => .whole
  | "float" => .decimal
  | "bool" => .flag
  | "date" => .date
  | "datetime" => .datetime
  | "timedelta" => .duration
  | "dict" => .mapping .any .any
  | "list" => .sequence .list .any 0
  | "tuple" => .sequence .tuple .any 0
  | "set" => .sequence .set .any 0
  | "type" => .classRef
  | name => if cat.isEnumeration name then .member name else .model name

mutual

/-- What data a declared type accepts. -/
def Shape.ofType (cat : Catalogue) : TypeExpr → Shape
  | .any => .any
  | .none => .none
  | .named name => .ofName cat name
  | .union members _ =>
    let shapes := Shape.ofTypes cat members
    let inner := match shapes with
      | [s] => s
      | ss => .anyOf ss
    if members.any TypeExpr.isNone then .optional inner else inner
  | .list item => .sequence .list (Shape.ofType cat item) 0
  | .set item => .sequence .set (Shape.ofType cat item) 0
  | .frozenset item => .sequence .frozenset (Shape.ofType cat item) 0
  | .tuple items => .positions (Shape.ofEach cat items)
  | .dict key value => .mapping (Shape.ofType cat key) (Shape.ofType cat value)
  | .literal values => .choice values
  | .special _ => .any

/-- The members of a union other than `null`. -/
def Shape.ofTypes (cat : Catalogue) : List TypeExpr → List Shape
  | [] => []
  | t :: ts => if t.isNone then Shape.ofTypes cat ts else Shape.ofType cat t :: Shape.ofTypes cat ts

def Shape.ofEach (cat : Catalogue) : List TypeExpr → List Shape
  | [] => []
  | t :: ts => Shape.ofType cat t :: Shape.ofEach cat ts

end

namespace FieldDeclaration

/-- The names that data may use for a field. -/
def keys (f : FieldDeclaration) (byName : Bool) : List String :=
  match f.dataName <|> f.otherName with
  | some other => if byName then [other, f.name] else [other]
  | none => [f.name]

/-- The name of a field in documents. -/
def wire (f : FieldDeclaration) : String := (f.documentName <|> f.otherName).getD f.name

def property (cat : Catalogue) (byName : Bool) (f : FieldDeclaration) : Property :=
  ⟨f.name, f.type, Shape.ofType cat f.type, f.default, f.keys byName, f.wire⟩

end FieldDeclaration

/-- Properties with others put in their place by name, or at the end. -/
def overrideProperties (inherited own : List Property) : List Property :=
  (inherited.map fun p => (own.find? (·.name == p.name)).getD p) ++
    own.filter fun p => !inherited.any (·.name == p.name)

/-- A catalogue with one more domain type; it has the properties of its base, too. -/
def Catalogue.declare (cat : Catalogue) (d : TypeDeclaration) : Catalogue :=
  let base := d.base.bind cat.model?
  let own := d.fields.map (·.property cat d.byName)
  let model : Model := {
    name := d.name
    ancestors := match base with
      | some b => b.name :: b.ancestors
      | none => []
    properties := overrideProperties ((base.map Model.properties).getD []) own
    frozen := (base.map Model.frozen).getD false
    rule := (base.map Model.rule).getD fun _ => none }
  { cat with models := model :: cat.models }

end SearchWire
