import SearchWire.Clause.Compile
import SearchWire.Criteria.Record
import SearchWire.Value.Reading

/-!
# Scored clauses

A clause may be given ready-made, as criteria, or as a function score: an inner clause whose
scores are changed by functions, each of which may have a filter and may let scores decay with
the distance of a field from an origin.

* `Decay`, `ScoreFunction`, `ScoreOptions`, `ClauseSource`: what a clause is made from.
* `ClauseSource.compile`: the clause.
* `ClauseSource.rename`: the same with other names for the fields; ready-made clauses stay.
* `ClauseSource.ofValue`: what a value gives where a clause is expected.
-/

namespace SearchWire

/-- Scores that decay with the distance of a field from an origin. -/
structure Decay where
  kind : String
  field : String
  origin : Value
  scale : Value
  offset : Value
  decay : Value
  multiValueMode : Value
  deriving Repr

/-- One function of a function score; its filter is a `κ`. A `weight` of `null` is none. -/
structure ScoreFunction (κ : Type) where
  filter : Option κ
  weight : Value
  decay : Option Decay
  deriving Repr

/-- How scores are put together. Options that are not set are `null`. -/
structure ScoreOptions where
  scoreMode : Value
  boostMode : Value
  maxBoost : Value
  boost : Value
  minScore : Value
  deriving Repr

/-- What a clause is made from. -/
inductive ClauseSource where
  | everything
  | readyMade (entries : Entries)
  | criteria (tree : Criteria)
  | scored (inner : ClauseSource) (functions : List (ScoreFunction ClauseSource))
      (options : ScoreOptions)

namespace Decay

def model : Model :=
  .plain "DecayFunction" [
    .withDefault "type" (.choice [.str "gauss", .str "exp", .str "linear"]) (.str "gauss"),
    .required "field" .text, .required "origin" .any, .required "scale" .any,
    .optional "offset" .any, .optional "decay" .decimal,
    .withDefault "multi_value_mode" (.choice [.str "MIN", .str "MAX", .str "AVG", .str "SUM"])
      (.str "MIN")]

def ofValue? (v : Value) : Option Decay := do
  some ⟨← (v.field "type").text?, ← (v.field "field").text?, v.field "origin", v.field "scale",
    v.field "offset", v.field "decay", v.field "multi_value_mode"⟩

def rename (f : String → String) (d : Decay) : Decay := { d with field := f d.field }

/-- The parameters of a decay under the name of its field, and how several values count. -/
def body (rename : String → String) (d : Decay) : Except Failure Value := do
  let origin ← formOf d.origin
  let scale ← formOf d.scale
  let offset ← if d.offset.isNull then .ok [] else do .ok [("offset", ← formOf d.offset)]
  let params := [("origin", origin), ("scale", scale)] ++ offset ++
    Fields.given [("decay", d.decay)]
  .ok (.object (Fields.set [(rename d.field, .object params)] "multi_value_mode" d.multiValueMode))

end Decay

namespace ScoreOptions

def ofFields (get : String → Value) : ScoreOptions :=
  ⟨get "score_mode", get "boost_mode", get "max_boost", get "boost", get "min_score"⟩

/-- The options that are set. -/
def fields (o : ScoreOptions) : Fields :=
  Fields.given [("score_mode", o.scoreMode), ("boost_mode", o.boostMode),
    ("max_boost", o.maxBoost), ("boost", o.boost), ("min_score", o.minScore)]

end ScoreOptions

namespace ClauseSource

mutual

/-- The clause that is made from a source. -/
def compile (rename : String → String) : ClauseSource → Except Failure Clause
  | .everything => .ok .matchAll
  | .readyMade entries => .ok (.readyMade entries)
  | .criteria tree => Criteria.compile rename (some tree)
  | .scored inner functions options => do
    let clause ← compile rename inner
    let entries ← functionEntries rename functions
    .ok (.atom "function_score"
      ([("query", clause.toValue), ("functions", .list entries)] ++ options.fields))

/-- One entry for each function, in order. -/
def functionEntries (rename : String → String) :
    List (ScoreFunction ClauseSource) → Except Failure (List Value)
  | [] => .ok []
  | f :: fs => do .ok ((← functionEntry rename f) :: (← functionEntries rename fs))

/-- The filter, weight and decay of a function, as far as it has them. -/
def functionEntry (rename : String → String) :
    ScoreFunction ClauseSource → Except Failure Value
  | ⟨filter, weight, decay⟩ => do
    let filterFields ← filterFields rename filter
    let decayFields ← match decay with
      | none => .ok []
      | some d => do .ok [(d.kind, ← d.body rename)]
    .ok (.object (filterFields ++ Fields.given [("weight", weight)] ++ decayFields))

def filterFields (rename : String → String) : Option ClauseSource → Except Failure Fields
  | none => .ok []
  | some source => do .ok [("filter", (← compile rename source).toValue)]

end

mutual

/-- The same source with other names for the fields. A ready-made clause stays as it is. -/
def rename (f : String → String) : ClauseSource → ClauseSource
  | .everything => .everything
  | .readyMade entries => .readyMade entries
  | .criteria tree => .criteria (tree.rename f)
  | .scored inner functions options =>
    .scored (rename f inner) (renameFunctions f functions) options

def renameFunctions (f : String → String) :
    List (ScoreFunction ClauseSource) → List (ScoreFunction ClauseSource)
  | [] => []
  | g :: gs => renameFunction f g :: renameFunctions f gs

def renameFunction (f : String → String) :
    ScoreFunction ClauseSource → ScoreFunction ClauseSource
  | ⟨filter, weight, decay⟩ => ⟨renameFilter f filter, weight, decay.map (Decay.rename f)⟩

def renameFilter (f : String → String) : Option ClauseSource → Option ClauseSource
  | none => none
  | some source => some (rename f source)

end

/-- Data for a clause: any object is a ready-made one, everything else a criterion. -/
def shape : Shape := .rooted (.optional (.firstOf [.object, Criteria.nodeShape]))

def words (ss : List String) : Shape := .choice (ss.map .str)

def models : List Model := [
  Decay.model,
  .plain "ScoreFunction" [.withDefault "filter" shape .null, .optional "weight" .decimal,
    .optional "decay" (.model "DecayFunction")],
  .plain "FunctionScoreQuery" [
    .withDefault "query" shape .null,
    .withDefault "functions" (.sequence .list (.model "ScoreFunction") 0) (.list []),
    .optional "score_mode" (words ["multiply", "sum", "avg", "first", "max", "min"]),
    .optional "boost_mode" (words ["multiply", "replace", "sum", "avg", "max", "min"]),
    .optional "max_boost" .decimal, .optional "boost" .decimal, .optional "min_score" .decimal]]

mutual

/-- What a value gives where a clause is expected. -/
def ofValue : Value → ClauseSource
  | .null => .everything
  | .chain .null => .everything
  | .chain root => .criteria (Criteria.ofValue root)
  | .dict entries => .readyMade entries
  | .record c slots =>
    if c.isA "FunctionScoreQuery" then
      .scored (innerOf slots) (functionsOf slots) (ScoreOptions.ofFields (Value.slotValue slots))
    else .criteria (Criteria.ofValue (.record c slots))
  | v => .criteria (.foreign v)

/-- The inner clause of a function score. -/
def innerOf : List (Slot Value) → ClauseSource
  | [] => .everything
  | ⟨name, _, v⟩ :: slots => if name = "query" then ofValue v else innerOf slots

/-- The functions of a function score. -/
def functionsOf : List (Slot Value) → List (ScoreFunction ClauseSource)
  | [] => []
  | ⟨name, _, v⟩ :: slots => if name = "functions" then functionItems v else functionsOf slots

def functionItems : Value → List (ScoreFunction ClauseSource)
  | .list xs => functionEach xs
  | .tuple xs => functionEach xs
  | _ => []

def functionEach : List Value → List (ScoreFunction ClauseSource)
  | [] => []
  | x :: xs => functionOf x :: functionEach xs

def functionOf : Value → ScoreFunction ClauseSource
  | .record _ slots =>
    ⟨filterOf slots, Value.slotValue slots "weight", Decay.ofValue? (Value.slotValue slots "decay")⟩
  | _ => ⟨none, .null, none⟩

/-- The filter of a function, if it has one. -/
def filterOf : List (Slot Value) → Option ClauseSource
  | [] => none
  | ⟨name, _, v⟩ :: slots =>
    if name = "filter" then (if v.isNull then none else some (ofValue v)) else filterOf slots

end

end ClauseSource

end SearchWire
