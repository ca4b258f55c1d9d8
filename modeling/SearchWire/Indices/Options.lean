import SearchWire.Schema.Worded
import SearchWire.Value.Reading

/-!
# Index options

How the names of indices are read: whether unknown ones are an error, and what a wildcard in a
name stands for.

* `WildcardState`, `IndicesOptions`: the options.
* `IndicesOptions.params`: the parameters of a request.
* `IndicesOptions.presets`: options in common use, by name.
-/

namespace SearchWire

/-- The state of an index that a wildcard may stand for. -/
inductive WildcardState where
  | opened
  | closed
  | hidden
  | all
  deriving DecidableEq, Repr

def WildcardState.text : WildcardState → String
  | .opened => "open"
  | .closed => "closed"
  | .hidden => "hidden"
  | .all => "all"

instance : Worded WildcardState where
  enumeration := "WildcardState"
  members := [.opened, .closed, .hidden, .all]
  text := WildcardState.text
  label s := Worded.capitals s.text

structure IndicesOptions where
  ignoreUnavailable : Bool
  allowNoIndices : Bool
  expandWildcards : List WildcardState
  deriving DecidableEq, Repr

namespace IndicesOptions

/-- Unknown names are an error, wildcards stand for open indices. -/
def standard : IndicesOptions := ⟨false, true, [.opened]⟩

def statesValue (states : List WildcardState) : Value := .set (states.map Worded.value)

def model : Model :=
  .fixed "IndicesOptions" [
    .withDefault "ignore_unavailable" .flag (.bool standard.ignoreUnavailable),
    .withDefault "allow_no_indices" .flag (.bool standard.allowNoIndices),
    .withDefault "expand_wildcards" (.sequence .frozenset (Worded.shape WildcardState) 0)
      (statesValue standard.expandWildcards)]

/-- The options that a record holds. -/
def ofValue? (v : Value) : Option IndicesOptions := do
  let states ← (v.field "expand_wildcards").collection?
  some ⟨← (v.field "ignore_unavailable").flag?, ← (v.field "allow_no_indices").flag?,
    ← states.mapM Worded.ofValue?⟩

/-- The states of some wildcards in alphabetical order, with commas between them. -/
def statesText (states : List WildcardState) : String :=
  match ([.all, .closed, .hidden, .opened] : List WildcardState).filter states.contains with
  | [] => "none"
  | ss => String.intercalate "," (ss.map WildcardState.text)

/-- The parameters of a request. -/
def params (o : IndicesOptions) : Fields :=
  [("ignore_unavailable", .bool o.ignoreUnavailable),
    ("allow_no_indices", .bool o.allowNoIndices),
    ("expand_wildcards", .str (statesText o.expandWildcards))]

/-- Options in common use, by name. -/
def presets : List (String × IndicesOptions) :=
  [("STRICT_EXPAND_OPEN", standard),
    ("STRICT_SINGLE_INDEX_NO_EXPAND_FORBID_CLOSED",
      { standard with allowNoIndices := false, expandWildcards := [] }),
    ("LENIENT_EXPAND_OPEN", { standard with ignoreUnavailable := true })]

/-- Options as a record. -/
def toValue (o : IndicesOptions) : Value :=
  model.record
    [.bool o.ignoreUnavailable, .bool o.allowNoIndices, statesValue o.expandWildcards]

end IndicesOptions

end SearchWire
