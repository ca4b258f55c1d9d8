import SearchWire.Mapping.TypeExpr
import SearchWire.Value.Display

/-!
# Shapes of data

What data a property accepts. A shape says more than a type: bounds of numbers, least lengths,
how alternatives are told apart.

* `Shape`: the shapes.
* `Shape.label`: the name of a shape in the place of an issue.
* `Shape.declared`: the type that a shape is declared with.
-/

namespace SearchWire

inductive SequenceKind where
  | list
  | tuple
  | set
  | frozenset
  deriving DecidableEq, Repr

inductive Shape where
  | any
  | none
  | text
  | integer (low high : Option Int)
  | number (low high : Option Int)
  | flag
  | duration
  | date
  | datetime
  /-- A class itself. -/
  | classRef
  | sequence (kind : SequenceKind) (item : Shape) (least : Nat)
  /-- A tuple with a shape for each position. -/
  | positions (items : List Shape)
  | mapping (key value : Shape)
  | optional (inner : Shape)
  /-- One of several values. -/
  | choice (values : List Value)
  /-- A member of an enumeration, or the text it stands for. -/
  | member (enumeration : String)
  /-- A record of a model, or its data. -/
  | model (name : String)
  /-- A record of one of several models, told apart by a property: tags and models. -/
  | tagged (tag : String) (cases : List (String × String))
  /-- The alternative that fits best. -/
  | anyOf (members : List Shape)
  /-- The first alternative that fits. -/
  | firstOf (members : List Shape)
  /-- A chain of criteria stands for the root of its tree. -/
  | rooted (inner : Shape)
  deriving Repr, Inhabited

namespace Shape

def whole : Shape := .integer Option.none Option.none
def decimal : Shape := .number Option.none Option.none

/-- An object with texts as keys. -/
def object : Shape := .mapping .text .any

def texts : Shape := .sequence .list .text 0

/-- A duration or a written time value. -/
def timeout : Shape := .optional (.anyOf [.duration, .text])

mutual

/-- The name of a shape in the place of an issue. -/
def label : Shape → String
  | .any => "any"
  | .none => "none"
  | .text => "str"
  | .integer Option.none Option.none => "int"
  | .integer _ _ => "constrained-int"
  | .number Option.none Option.none => "float"
  | .number _ _ => "constrained-float"
  | .flag => "bool"
  | .duration => "timedelta"
  | .date => "date"
  | .datetime => "datetime"
  | .classRef => "is-instance[type]"
  | .sequence .list item _ => "list[" ++ label item ++ "]"
  | .sequence .tuple item _ => "tuple[" ++ label item ++ ", ...]"
  | .sequence .set item _ => "set[" ++ label item ++ "]"
  | .sequence .frozenset item _ => "frozenset[" ++ label item ++ "]"
  | .positions items => "tuple[" ++ String.intercalate ", " (labels items) ++ "]"
  | .mapping key value => "dict[" ++ label key ++ "," ++ label value ++ "]"
  | .optional inner => "nullable[" ++ label inner ++ "]"
  | .choice values => "literal[" ++ String.intercalate "," (values.map Value.shown) ++ "]"
  | .member enumeration => enumeration
  | .model name => name
  | .tagged _ cases => "tagged-union[" ++ String.intercalate "," (cases.map Prod.snd) ++ "]"
  | .anyOf members => "union[" ++ String.intercalate "," (labels members) ++ "]"
  | .firstOf members => "union[" ++ String.intercalate "," (labels members) ++ "]"
  | .rooted inner => label inner

def labels : List Shape → List String
  | [] => []
  | s :: ss => label s :: labels ss

end

mutual

/-- The type that a shape is declared with. -/
def declared : Shape → TypeExpr
  | .any => .any
  | .none => .none
  | .text => .named "str"
  | .integer _ _ => .named "int"
  | .number _ _ => .named "float"
  | .flag => .named "bool"
  | .duration => .named "timedelta"
  | .date => .named "date"
  | .datetime => .named "datetime"
  | .classRef => .named "type"
  | .sequence .list item _ => .list (declared item)
  | .sequence .tuple item _ => .tuple [declared item]
  | .sequence .set item _ => .set (declared item)
  | .sequence .frozenset item _ => .frozenset (declared item)
  | .positions items => .tuple (declaredAll items)
  | .mapping key value => .dict (declared key) (declared value)
  | .optional inner => .optional (declared inner)
  | .choice values => .literal values
  | .member enumeration => .named enumeration
  | .model name => .named name
  | .tagged _ _ => .special "Annotated"
  | .anyOf members => .unionOf (declaredAll members) false
  | .firstOf members => .unionOf (declaredAll members) false
  | .rooted inner => declared inner

def declaredAll : List Shape → List TypeExpr
  | [] => []
  | s :: ss => declared s :: declaredAll ss

end

end Shape

end SearchWire
