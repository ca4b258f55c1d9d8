import SearchWire.Schema.Model

/-!
# Entities

What a query has to know of a domain type: its properties, their names in documents and the
types they hold inside optional and collection wrappers.

* `Entity`, `EntityProperty`: the knowledge.
* `Catalogue.entity?`: the entity of a type, if it is a model.
* `EntityProperty.nested`: the type in which a path goes on.
* `Entity.holder?`: the property that tracks concurrent writes.
-/

namespace SearchWire

structure EntityProperty where
  name : String
  wire : String
  type : TypeExpr
  isList : Bool
  deriving BEq, Repr

structure Entity where
  type : TypeExpr
  properties : List EntityProperty
  holder? : Option String
  deriving BEq, Repr

/-- A property as queries know it. -/
def EntityProperty.ofProperty (p : Property) : EntityProperty :=
  let (type, isList) := p.declared.unwrap
  ⟨p.name, if p.wire.isEmpty then p.name else p.wire, type, isList⟩

namespace Catalogue

/-- The name of a type, if it is a model. -/
def modelName? (cat : Catalogue) : TypeExpr → Option String
  | .named name => (cat.model? name).map Model.name
  | _ => none

/-- A type is a class that is another one or extends it. -/
def holds (cat : Catalogue) (ancestor : String) : TypeExpr → Bool
  | .named name => cat.isA name ancestor
  | _ => false

/-- The entity of a model. -/
def entityOf (cat : Catalogue) (type : TypeExpr) (m : Model) : Entity :=
  let properties := m.properties.map EntityProperty.ofProperty
  ⟨type, properties,
    (properties.find? fun p => cat.holds "SeqNoPrimaryTerm" p.type).map EntityProperty.name⟩

/-- The entity of a type, if it is a model. -/
def entity? (cat : Catalogue) : TypeExpr → Option Entity
  | .named name => (cat.model? name).map (cat.entityOf (.named name))
  | _ => none

end Catalogue

def Entity.property? (e : Entity) (name : String) : Option EntityProperty :=
  e.properties.find? (·.name == name)

end SearchWire
