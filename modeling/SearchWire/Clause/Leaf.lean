import SearchWire.Clause.Basic
import SearchWire.Clause.QueryText
import SearchWire.Criteria.Basic

/-!
# Clauses of conditions

The clause that a single condition is compiled to, by operator. The field of the clause has its
name in documents; failures name the field as the condition does.

* `Condition.clause`: the clause of a condition.
* `Condition.weight`: the weight that a query text carries at its field.
* `weighted`: the body of a clause with the weight of the condition.
-/

namespace SearchWire

/-- The number that a weight is. -/
def weightOf : Value → Except Failure Double
  | .float x => .ok x
  | .int n =>
    let x := Double.ofInt n
    if x.isFinite then .ok x else .error .tooLarge
  | .bool b => .ok (Double.ofInt (if b then 1 else 0))
  | .str s => ofText s
  | .member m => ofText m.value
  | .bytes s => ofText s
  | v => .error (.notNumeric v)
where
  ofText (s : String) : Except Failure Double :=
    match Numeral.double? s with
    | some x => .ok x
    | none => .error (.notDecimal s)

/-- A value as a clause has it. -/
def formOf (v : Value) : Except Failure Value :=
  match v.engineForm? with
  | some w => .ok w
  | none => .error .unwritable

/-- The body of a clause with the weight of the condition, if there is one. -/
def weighted (boost : Value) (body : Fields) : Fields := body.setGiven "boost" boost

namespace Condition

/-- The weight of a query text; it is one unless the condition has a weight. -/
def weight (c : Condition) : Except Failure Double :=
  match c.boost with
  | .null => .ok (Double.ofInt 1)
  | v => weightOf v

/-- A field with its weight, as query texts name it. -/
def weightedField (c : Condition) (field : String) : Except Failure Value := do
  let w ← c.weight
  .ok (.str (field ++ "^" ++ String.ofList w.text))

/-- A clause with a query text. -/
def queryText (c : Condition) (field : String) (text : List Char) (more : Fields) :
    Except Failure Clause := do
  let f ← c.weightedField field
  .ok (.atom "query_string" ([("query", .str (String.ofList text)), ("fields", .list [f])] ++ more))

/-- A query text in which the value stands for itself, with wildcards around it. -/
def wildcardText (c : Condition) (field : String) (before after : List Char) :
    Except Failure Clause := do
  let text ← QueryText.ofValue c.value
  c.queryText field (before ++ QueryText.escapeChars text ++ after)
    [("analyze_wildcard", .bool true)]

/-- A clause of a kind that has the value under a key of the body of the field. -/
def fieldClause (c : Condition) (kind key field : String) (more : Fields) :
    Except Failure Clause := do
  let v ← formOf c.value
  .ok (.atom kind [(field, .object (weighted c.boost ((key, v) :: more)))])

/-- A range with the bounds that are given. -/
def rangeBetween (c : Condition) (field : String) (lower upper : Value) :
    Except Failure Clause := do
  let low ← if lower.isNull then .ok [] else do .ok [("gte", ← formOf lower)]
  let high ← if upper.isNull then .ok [] else do .ok [("lte", ← formOf upper)]
  .ok (.atom "range" [(field, .object (weighted c.boost (low ++ high)))])

/-- The items of a collection as a clause has them. -/
def formsOf : List Value → Except Failure (List Value)
  | [] => .ok []
  | v :: vs => do .ok ((← formOf v) :: (← formsOf vs))

/-- The values of the field, of which one has to be the field's. -/
def terms (c : Condition) (field : String) : Except Failure Clause :=
  match c.value.collection? with
  | none => do .error (.noCollection (← c.operator.text) c.field c.value)
  | some vs => do
    let forms ← formsOf vs
    .ok (.atom "terms" (weighted c.boost [(field, .list forms)]))

/-- The coordinates of a point. -/
def point (c : Condition) (v : Value) : Except Failure Value :=
  if v.isInstance "GeoPoint" then .ok v.pointForm
  else do .error (.noPoint (← c.operator.text) c.field v)

/-- The field is at most a distance away from a point. -/
def withinDistance (c : Condition) (field : String) : Except Failure Clause :=
  match c.value.sequence? with
  | some [origin, distance] => do
    let p ← c.point origin
    .ok (.atom "geo_distance" (weighted c.boost
      (Fields.set [("distance", .str (String.ofList distance.words))] field p)))
  | _ => .error (.noOriginAndDistance c.field)

/-- The field is in a box with two given corners. -/
def inBox (c : Condition) (field : String) : Except Failure Clause :=
  match c.value.sequence? with
  | some [topLeft, bottomRight] => do
    let p ← c.point topLeft
    let q ← c.point bottomRight
    .ok (.atom "geo_bounding_box" (weighted c.boost
      [(field, .object [("top_left", p), ("bottom_right", q)])]))
  | _ => .error (.noCorners c.field)

/-- The clause of an operator on a field with its name in documents. -/
def clauseOf (c : Condition) (op : Operator) (field : String) : Except Failure Clause :=
  match op with
  | .equals => do
    let text ← QueryText.ofValue c.value
    let f ← c.weightedField field
    .ok (.atom "query_string" [("query", .str (String.ofList text)), ("fields", .list [f]),
      ("default_operator", .str "and")])
  | .expression => do
    let text ← QueryText.ofValue c.value
    c.queryText field text []
  | .contains => c.wildcardText field ['*'] ['*']
  | .startsWith => c.wildcardText field [] ['*']
  | .endsWith => c.wildcardText field ['*'] []
  | .term => c.fieldClause "term" "value" field []
  | .matches => c.fieldClause "match" "query" field [("operator", .str "or")]
  | .matchesAll => c.fieldClause "match" "query" field [("operator", .str "and")]
  | .fuzzy | .regexp => do
    let v ← formOf c.value
    let kind ← c.operator.text
    .ok (.atom kind [(field, .object (weighted c.boost [("value", v)]))])
  | .less | .lessEqual | .greater | .greaterEqual => do
    let key ← c.operator.text
    c.fieldClause "range" key field []
  | .between =>
    match c.value.sequence? with
    | some [lower, upper] => c.rangeBetween field lower upper
    | _ => .error (.noBounds c.field c.value)
  | .oneOf => c.terms field
  | .noneOf => do
    let ts ← c.terms field
    .ok (.boolean [] [ts] [] .null)
  | .exists => .ok (.atom "exists" (weighted c.boost [("field", .str field)]))
  | .empty =>
    .ok (.boolean [.atom "exists" [("field", .str field)]]
      [.atom "wildcard" [(field, .object [("value", .str "*")])]] [] c.boost)
  | .notEmpty =>
    .ok (.atom "wildcard" [(field, .object (weighted c.boost [("value", .str "*")]))])
  | .within => c.withinDistance field
  | .boundingBox => c.inBox field

/-- The clause of a condition; `rename` gives a field its name in documents. -/
def clause (rename : String → String) (c : Condition) : Except Failure Clause :=
  match c.operator with
  | .unknown shown => .error (.unsupportedOperator shown c.field)
  | .unhashable type => .error (.unhashable type)
  | .known op => ofOperator op
  | .bare op => ofOperator op
where
  ofOperator (op : Operator) : Except Failure Clause :=
    if op.needsValue && c.value.isNull then do
      .error (.missingValue (← c.operator.text) c.field)
    else c.clauseOf op (rename c.field)

end Condition

end SearchWire
