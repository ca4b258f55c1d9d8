import SearchWire.Clause.Leaf
import SearchWire.Mapping.Path
import SearchWire.Query.Sort

/-!
# Sort entries

The entry of a search request for a sort order. A distance sort is refused if the declared type
of its field cannot hold a coordinate.

* `Catalogue.holdsCoordinate`: the types that can.
* `SortOrder.entry`: the entry of an order.
-/

namespace SearchWire

mutual

/-- A type can hold a coordinate: as a point, a text, an object or a pair; a union can if one of
its types can. -/
def Catalogue.holdsCoordinate (cat : Catalogue) : TypeExpr → Bool
  | .any => true
  | .named name =>
    ["str", "dict", "list", "tuple"].contains name || cat.isA name "GeoPoint" ||
      cat.isEnumeration name
  | .union members _ => Catalogue.someHoldsCoordinate cat members
  | .list _ => true
  | .tuple _ => true
  | .dict _ _ => true
  | _ => false

def Catalogue.someHoldsCoordinate (cat : Catalogue) : List TypeExpr → Bool
  | [] => false
  | t :: ts => Catalogue.holdsCoordinate cat t || Catalogue.someHoldsCoordinate cat ts

end

namespace SortOrder

/-- A field that is not known may hold a coordinate; so may every field without a domain type. -/
def checkField (domain : Option Domain) (field : String) : Except Failure Unit :=
  match domain with
  | none => .ok ()
  | some d =>
    match d.catalogue.fieldType? d.type field with
    | none => .ok ()
    | some type =>
      if d.catalogue.holdsCoordinate type then .ok ()
      else .error (.notGeographic field d.type.name type.name)

/-- The entry for an order by a field. -/
def fieldEntry (field : String) (s : FieldSort) : Except Failure Value := do
  let missing ← if s.missing.isNull then .ok [] else do .ok [("missing", ← formOf s.missing)]
  .ok (.object [(field, .object ([("order", .str s.direction.text)] ++
    Fields.given [("mode", s.mode)] ++ missing ++
    Fields.given [("unmapped_type", s.unmappedType)]))])

/-- The entry for an order by distance. -/
def distanceEntry (field : String) (s : DistanceSort) : Value :=
  .object [("_geo_distance", .object (Fields.setAll [(field, .list [s.origin.pointForm])]
    [("unit", .str s.unit), ("distance_type", .str s.distanceType),
      ("order", .str s.direction.text), ("mode", .str s.mode),
      ("ignore_unmapped", .bool s.ignoreUnmapped)]))]

/-- The entry for an order. -/
def entry (domain : Option Domain) : SortOrder → Except Failure Value
  | .field s => fieldEntry (fieldName domain s.field) s
  | .distance s => do
    checkField domain s.field
    .ok (distanceEntry (fieldName domain s.field) s)

/-- One entry for each order. -/
def entries (domain : Option Domain) (orders : List SortOrder) : Except Failure (List Value) :=
  orders.mapM (entry domain)

end SortOrder

end SearchWire
