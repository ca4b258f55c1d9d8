import SearchWire.Mapping.Path

/-!
# The registry of entities

Entities are worked out once and kept. Every question may add the entities that it meets, in the
order in which it meets them; no answer depends on what was kept before.

* `Registry`: the entities that were worked out, oldest first.
* `Registry.entity?`, `Registry.fieldName?`, `Registry.fieldType?`, `Registry.holder?`: the
  questions, each with the registry after it.
-/

namespace SearchWire

/-- The entities that were worked out, oldest first. -/
structure Registry where
  entities : List Entity
  deriving Repr

namespace Registry

def empty : Registry := ⟨[]⟩

/-- The types of the entities, oldest first. -/
def types (r : Registry) : List TypeExpr := r.entities.map Entity.type

/-- The entity of a type: the one that was kept, or a new one that is kept from now on. -/
def entity? (cat : Catalogue) (r : Registry) (type : TypeExpr) : Option Entity × Registry :=
  match r.entities.find? (·.type == type) with
  | some e => (some e, r)
  | none =>
    match cat.entity? type with
    | some e => (some e, ⟨r.entities ++ [e]⟩)
    | none => (none, r)

/-- A registry that has worked out the given types. -/
def ofTypes (cat : Catalogue) (types : List TypeExpr) : Registry :=
  types.foldl (fun r type => (r.entity? cat type).2) empty

/-- The properties that names lead through, starting in a type. -/
def walk (cat : Catalogue) : Registry → TypeExpr → List String →
    Option (List EntityProperty) × Registry
  | r, _, [] => (some [], r)
  | r, type, name :: names =>
    let (e?, r) := r.entity? cat type
    match e?.bind (·.property? name) with
    | none => (none, r)
    | some p =>
      let (ps?, r) := walk cat r p.type names
      (ps?.map (p :: ·), r)

/-- The name of a path in documents. -/
def fieldName? (cat : Catalogue) (r : Registry) (type : TypeExpr) (path : String) :
    Option String × Registry :=
  let (ps?, r) := r.walk cat type (pathNames path)
  (ps?.map fun ps => joinPath (ps.map EntityProperty.wire), r)

/-- The type at the end of a path. -/
def fieldType? (cat : Catalogue) (r : Registry) (type : TypeExpr) (path : String) :
    Option TypeExpr × Registry :=
  let (ps?, r) := r.walk cat type (pathNames path)
  (ps?.bind fun ps => ps.getLast?.map EntityProperty.type, r)

/-- The property of a type that tracks concurrent writes. -/
def holder? (cat : Catalogue) (r : Registry) (type : TypeExpr) : Option String × Registry :=
  let (e?, r) := r.entity? cat type
  (e?.bind Entity.holder?, r)

end Registry

end SearchWire
