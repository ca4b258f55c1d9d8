import SearchWire.Value.Basic

/-!
# Declared types

The type that a property is declared with: a class by name, a collection of other types, or one
of several types. Optional properties are unions with the type of `null`.

* `TypeExpr`: the types.
* `TypeExpr.same`: when two types are one.
* `TypeExpr.unionOf`: a union without nesting and without repetition.
* `TypeExpr.unwrap`: the type inside optional and collection wrappers, and whether one of them
  was a collection.
-/

namespace SearchWire

inductive TypeExpr where
  /-- Anything. -/
  | any
  /-- The type of `null`. -/
  | none
  /-- A class by name. -/
  | named (name : String)
  /-- One of several types; `piped` if it was written with bars. -/
  | union (members : List TypeExpr) (piped : Bool)
  | list (item : TypeExpr)
  | set (item : TypeExpr)
  | frozenset (item : TypeExpr)
  | tuple (items : List TypeExpr)
  | dict (key value : TypeExpr)
  /-- One of several values. -/
  | literal (values : List Value)
  /-- A form that is neither a class nor built from others. -/
  | special (label : String)
  deriving Repr, Inhabited

namespace TypeExpr

mutual

/-- Two types are written in the same way. -/
def same : TypeExpr → TypeExpr → Bool
  | .any, .any => true
  | .none, .none => true
  | .named a, .named b => a == b
  | .union ts piped, .union us piped' => sameAll ts us && piped == piped'
  | .list t, .list u => same t u
  | .set t, .set u => same t u
  | .frozenset t, .frozenset u => same t u
  | .tuple ts, .tuple us => sameAll ts us
  | .dict k v, .dict k' v' => same k k' && same v v'
  | .literal vs, .literal ws => vs == ws
  | .special a, .special b => a == b
  | _, _ => false

def sameAll : List TypeExpr → List TypeExpr → Bool
  | [], [] => true
  | t :: ts, u :: us => same t u && sameAll ts us
  | _, _ => false

end

instance : BEq TypeExpr := ⟨same⟩

def isNone : TypeExpr → Bool
  | .none => true
  | _ => false

/-- The types that a union has in place of one of its members. -/
def flatten : TypeExpr → List TypeExpr
  | .union members _ => members
  | t => [t]

/-- The first occurrence of every type. -/
def distinct (ts : List TypeExpr) : List TypeExpr :=
  ts.foldl (fun acc t => if acc.contains t then acc else acc ++ [t]) []

/-- A bar between two types makes a union that remembers it, unless one of them is such a form
that it is joined by name. -/
def joinsByName : TypeExpr → Bool
  | .union _ piped => !piped
  | .literal _ => true
  | _ => false

/-- One of several types: unions among them are taken apart, repetitions are dropped, and one
type alone is that type. -/
def unionOf (members : List TypeExpr) (piped : Bool) : TypeExpr :=
  match distinct (members.flatMap flatten) with
  | [t] => t
  | ts => .union ts (piped && !members.any joinsByName)

def optional (t : TypeExpr) : TypeExpr := unionOf [t, .none] false

mutual

/-- The type inside optional and collection wrappers, and whether one of them was a collection.
A union with two types beside `null` is no wrapper. -/
def unwrap : TypeExpr → TypeExpr × Bool
  | .union members piped =>
    match unwrapEach members with
    | [r] => r
    | _ => (.union members piped, false)
  | .list t => ((unwrap t).1, true)
  | .set t => ((unwrap t).1, true)
  | .frozenset t => ((unwrap t).1, true)
  | .tuple (t :: _) => ((unwrap t).1, true)
  | t => (t, false)

/-- The members of a union other than `null`, unwrapped. -/
def unwrapEach : List TypeExpr → List (TypeExpr × Bool)
  | [] => []
  | t :: ts => if t.isNone then unwrapEach ts else unwrap t :: unwrapEach ts

end

/-- The name of a type in a union written with bars. -/
def barName : TypeExpr → String
  | .any => "typing.Any"
  | .none => "None"
  | .named name => name
  | .list (.named name) => "list[" ++ name ++ "]"
  | .list _ => "list"
  | .set _ => "set"
  | .frozenset _ => "frozenset"
  | .tuple _ => "tuple"
  | .dict _ _ => "dict"
  | .union _ _ => "Union"
  | .literal _ => "Literal"
  | .special label => label

/-- The name of a type in a message. -/
def name : TypeExpr → String
  | .any => "Any"
  | .none => "NoneType"
  | .named name => name
  | .union _ false => "Union"
  | .union members true => String.intercalate " | " (members.map barName)
  | t => t.barName

end TypeExpr

end SearchWire
