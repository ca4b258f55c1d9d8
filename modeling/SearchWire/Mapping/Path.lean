import SearchWire.Mapping.Entity
import SearchWire.Value.Display

/-!
# Paths of properties

A field of a query is named by a path: names of properties with dots between them, each a
property of the type that the one before holds. A path is known only if all its names are.

* `segments`: the names of a path.
* `Catalogue.path?`: the properties along a path.
* `Catalogue.fieldName?`, `Catalogue.fieldType?`: its name in documents, the type at its end.
* `Domain`: a domain type with the catalogue that knows it, as the compiler uses it.
-/

namespace SearchWire

/-- The names of a path. A text without dots is one name. -/
def segments : List Char → List (List Char)
  | [] => [[]]
  | c :: cs =>
    if c = '.' then [] :: segments cs
    else
      match segments cs with
      | [] => [[c]]
      | s :: ss => (c :: s) :: ss

/-- The names of a path, as texts. -/
def pathNames (path : String) : List String := (segments path.toList).map String.ofList

/-- Names with dots between them. -/
def joinPath (names : List String) : String :=
  String.ofList (joinWith ['.'] (names.map String.toList))

namespace Catalogue

/-- The properties that names lead through, starting in a type. -/
def walk (cat : Catalogue) : TypeExpr → List String → Option (List EntityProperty)
  | _, [] => some []
  | type, name :: names => do
    let e ← cat.entity? type
    let p ← e.property? name
    let ps ← walk cat p.type names
    some (p :: ps)

/-- The properties along a path. -/
def path? (cat : Catalogue) (type : TypeExpr) (path : String) : Option (List EntityProperty) :=
  cat.walk type (pathNames path)

/-- The name of a path in documents. -/
def fieldName? (cat : Catalogue) (type : TypeExpr) (path : String) : Option String :=
  (cat.path? type path).map fun ps => joinPath (ps.map EntityProperty.wire)

/-- The type at the end of a path. -/
def fieldType? (cat : Catalogue) (type : TypeExpr) (path : String) : Option TypeExpr := do
  let ps ← cat.path? type path
  (ps.getLast?).map EntityProperty.type

/-- The property of a type that tracks concurrent writes. -/
def holder? (cat : Catalogue) (type : TypeExpr) : Option String :=
  (cat.entity? type).bind Entity.holder?

end Catalogue

/-- A domain type that a query is about. -/
structure Domain where
  catalogue : Catalogue
  type : TypeExpr

/-- The name of a field in documents. A field that is not known keeps its name, so that fields
of the engine itself can be used; so does every field when there is no domain type. -/
def fieldName (domain : Option Domain) (name : String) : String :=
  match domain with
  | none => name
  | some d => (d.catalogue.fieldName? d.type name).getD name

end SearchWire
