import SearchWire.Value.Basic

/-!
# The order of keys

The entries of an object may be sorted by their keys. Texts are ordered by their characters and
numbers by size; keys of two kinds have no order, and then neither has the object. Sorting starts
from the longest run that is in order, or in reverse order, and inserts the other entries one by
one, each by halving; so the two keys that are found to have no order are always the same.

* `Unordered`: two keys without an order.
* `keyLess`: whether a key is less than another one.
* `sortByKey`: the entries in order; those with equal keys keep their places.
-/

namespace SearchWire.Json

/-- Two keys without an order, in the order in which they were compared. -/
structure Unordered where
  left : Value
  right : Value
  deriving BEq, Repr

def Unordered.message (u : Unordered) : String :=
  match u.left, u.right with
  | .datetime _, .datetime _ => "can't compare offset-naive and offset-aware datetimes"
  | .datetime _, .date _ => "can't compare datetime.datetime to datetime.date"
  | .date _, .datetime _ => "can't compare datetime.datetime to datetime.date"
  | k, l =>
    "'<' not supported between instances of '" ++ k.fullTypeName ++ "' and '" ++ l.fullTypeName ++
      "'"

/-- The comparison of two numbers. -/
def numberLess : Sum Int Double → Sum Int Double → Bool
  | .inl n, .inl m => n < m
  | .inl n, .inr y => y.atLeast n
  | .inr x, .inl m => x.atMost m
  | .inr x, .inr y => x.less y

/-- The comparison of two keys without parts. Keys that no object can have in the end need no
more than be of one kind. -/
def atomLess (k l : Value) : Except Unordered Bool :=
  match k.text?, l.text? with
  | some s, some t => .ok (decide (s < t))
  | _, _ =>
    match k.keyNumber?, l.keyNumber? with
    | some n, some m => .ok (numberLess n m)
    | _, _ =>
      match k, l with
      | .bytes s, .bytes t => .ok (decide (s < t))
      | .date _, .date _ => .ok false
      | .duration d, .duration e => .ok (d.micros < e.micros)
      | .datetime d, .datetime e =>
        if d.offset.isSome = e.offset.isSome then .ok false else .error ⟨k, l⟩
      | .set _, .set _ => .ok false
      | _, _ => .error ⟨k, l⟩

mutual

/-- A key is less than another one; tuples are compared by the first items that differ. -/
def keyLess : Value → Value → Except Unordered Bool
  | .tuple xs, .tuple ys => keysLess xs ys
  | k, l => atomLess k l

def keysLess : List Value → List Value → Except Unordered Bool
  | _, [] => .ok false
  | [], _ :: _ => .ok true
  | x :: xs, y :: ys => if x.sameKey y then keysLess xs ys else keyLess x y

end

variable {α : Type}

/-- The longest start of a list that is in order after an entry, and what follows it. -/
def ascending (e : Value × α) :
    List (Value × α) → Except Unordered (List (Value × α) × List (Value × α))
  | [] => .ok ([], [])
  | f :: fs => do
    if ← keyLess f.1 e.1 then .ok ([], f :: fs)
    else
      let (run, rest) ← ascending f fs
      .ok (f :: run, rest)

/-- The longest start of a list that is in reverse order after an entry, and what follows it. -/
def descending (e : Value × α) :
    List (Value × α) → Except Unordered (List (Value × α) × List (Value × α))
  | [] => .ok ([], [])
  | f :: fs => do
    if ← keyLess f.1 e.1 then
      let (run, rest) ← descending f fs
      .ok (f :: run, rest)
    else .ok ([], f :: fs)

/-- Puts an entry into entries in order, after those with an equal key. -/
def insertByKey (e : Value × α) (es : List (Value × α)) : Except Unordered (List (Value × α)) :=
  match _h : es.drop (es.length / 2) with
  | [] => .ok [e]
  | f :: after => do
    let before := es.take (es.length / 2)
    if ← keyLess e.1 f.1 then .ok ((← insertByKey e before) ++ f :: after)
    else .ok (before ++ f :: (← insertByKey e after))
termination_by es.length
decreasing_by
  all_goals
    have := congrArg List.length _h
    simp only [List.length_drop, List.length_cons, List.length_take] at this ⊢
    omega

/-- Puts entries into entries in order, one by one. -/
def insertAll : List (Value × α) → List (Value × α) → Except Unordered (List (Value × α))
  | es, [] => .ok es
  | es, f :: fs => do insertAll (← insertByKey f es) fs

/-- Entries in the order of their keys; those with equal keys keep their places. -/
def sortByKey : List (Value × α) → Except Unordered (List (Value × α))
  | [] => .ok []
  | [e] => .ok [e]
  | e :: f :: fs => do
    if ← keyLess f.1 e.1 then
      let (run, rest) ← descending f fs
      insertAll (run.reverse ++ [f, e]) rest
    else
      let (run, rest) ← ascending f fs
      insertAll (e :: f :: run) rest

end SearchWire.Json
