import SearchWire.Schema.Worded
import SearchWire.Mapping.Standard
import SearchWire.Schema.Check
import SearchWire.Value.Reading

/-!
# Sort orders

Hits are sorted by the value of a field or by the distance of a field from a point.

* `Direction`, `FieldSort`, `DistanceSort`, `SortOrder`: the orders.
* `SortOrder.rename`: the same order with another name for the field.
* `SortOrder.models`, `SortOrder.shape`: their records and what data is one.
-/

namespace SearchWire

inductive Direction where
  | ascending
  | descending
  deriving DecidableEq, Repr

def Direction.text : Direction → String
  | .ascending => "asc"
  | .descending => "desc"

instance : Worded Direction where
  enumeration := "Direction"
  members := [.ascending, .descending]
  text := Direction.text
  label d := Worded.capitals d.text

/-- An order by the value of a field. Options that are not set are `null`. -/
structure FieldSort where
  field : String
  direction : Direction
  mode : Value
  missing : Value
  unmappedType : Value
  deriving Repr

/-- An order by the distance of a field from a point. -/
structure DistanceSort where
  field : String
  origin : Value
  direction : Direction
  unit : String
  distanceType : String
  mode : String
  ignoreUnmapped : Bool
  deriving Repr

inductive SortOrder where
  | field (s : FieldSort)
  | distance (s : DistanceSort)
  deriving Repr

namespace SortOrder

/-- The same order with another name for the field. -/
def rename (f : String → String) : SortOrder → SortOrder
  | .field s => .field { s with field := f s.field }
  | .distance s => .distance { s with field := f s.field }

/-- One of some texts. -/
def words (ss : List String) : Shape := .choice (ss.map .str)

def direction : Property :=
  .withDefault "direction" (Worded.shape Direction) (Worded.value Direction.ascending)

def fieldModel : Model :=
  .fixed "Order" [
    .withDefault "kind" (words ["field"]) (.str "field"),
    .required "field" .text,
    direction,
    .optional "mode" .text,
    .optional "missing" .any,
    .optional "unmapped_type" .text]

def distanceModel : Model :=
  .fixed "GeoDistanceOrder" [
    .withDefault "kind" (words ["geo_distance"]) (.str "geo_distance"),
    .required "field" .text,
    .required "geo_point" (.model "GeoPoint"),
    direction,
    .withDefault "unit" .text (.str "m"),
    .withDefault "distance_type" (words ["arc", "plane"]) (.str "arc"),
    .withDefault "mode" (words ["min", "max", "median", "avg"]) (.str "min"),
    .withDefault "ignore_unmapped" .flag (.bool false)]

def models : List Model := [fieldModel, distanceModel]

/-- Orders are told apart by their kind. -/
def shape : Shape :=
  .tagged "kind" [("field", fieldModel.name), ("geo_distance", distanceModel.name)]

/-- The record of an order by a field. -/
def fieldRecord (field : Value) (d : Direction) : Except Failure Value :=
  Catalogue.build ⟨models ++ Standard.models, [Worded.declaration Direction]⟩ "Order"
    [("field", field), ("direction", Worded.value d)]

/-- The order that a record holds. -/
def ofValue? (v : Value) : Option SortOrder := do
  let field ← (v.field "field").text?
  let direction ← Worded.ofValue? (v.field "direction")
  if v.isInstance "GeoDistanceOrder" then
    some (.distance ⟨field, v.field "geo_point", direction, ← (v.field "unit").text?,
      ← (v.field "distance_type").text?, ← (v.field "mode").text?,
      ← (v.field "ignore_unmapped").flag?⟩)
  else if v.isInstance "Order" then
    some (.field ⟨field, direction, v.field "mode", v.field "missing", v.field "unmapped_type"⟩)
  else none

end SortOrder

end SearchWire
