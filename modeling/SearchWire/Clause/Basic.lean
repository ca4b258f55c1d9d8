import SearchWire.Value.Basic

/-!
# Clauses

What the engine is asked: clauses that a document satisfies or not, put together by boolean
clauses.

* `Clause`: the clauses.
* `Clause.toValue`: a clause as an object.
-/

namespace SearchWire

inductive Clause where
  /-- Every document. -/
  | matchAll
  /-- All of the first hold, none of the second, and one of the third unless there is none. A
  `boost` of `null` is no weight. -/
  | boolean (must mustNot should : List Clause) (boost : Value)
  /-- A clause of another kind with its body. -/
  | atom (kind : String) (body : Fields)
  /-- A clause that was given ready-made. -/
  | readyMade (entries : Entries)
  deriving BEq, Repr, Inhabited

namespace Clause

/-- A field that holds a list, unless the list is empty. -/
def listField (name : String) (vs : List Value) : Fields :=
  if vs.isEmpty then [] else [(name, .list vs)]

/-- Of the alternatives of a boolean clause one has to hold. -/
def shouldFields (vs : List Value) : Fields :=
  if vs.isEmpty then [] else [("should", .list vs), ("minimum_should_match", .int 1)]

mutual

/-- A clause as an object. -/
def toValue : Clause → Value
  | .matchAll => .object [("match_all", .object [])]
  | .boolean must mustNot should boost =>
    .object [("bool", .object (Fields.setGiven
      (listField "must" (toValues must) ++ listField "must_not" (toValues mustNot) ++
        shouldFields (toValues should)) "boost" boost))]
  | .atom kind body => .object [(kind, .object body)]
  | .readyMade entries => .dict entries

def toValues : List Clause → List Value
  | [] => []
  | c :: cs => toValue c :: toValues cs

end

end Clause

end SearchWire
