import SearchWire.Query.Record
import SearchWire.Request.Basic

/-!
# Alias actions

A batch of actions on aliases, which the engine carries out in order. An action adds or removes
aliases or removes indices; an alias may filter its documents by a query.

* `AliasParameters`, `AliasActionKind`, `AliasAction`: the actions.
* `AliasParameters.body`: the parameters of an action in a request.
* `AliasAction.entry`, `aliasRequest`: the entry of an action, and the request of a batch.
-/

namespace SearchWire

/-- The parameters of an action. Options that are not set are `null`. -/
structure AliasParameters where
  indices : List String
  aliases : List String
  filter : Option Query
  /-- The domain type that the filter is about. -/
  filterClass : Option String
  routing : Value
  indexRouting : Value
  searchRouting : Value
  isHidden : Value
  isWriteIndex : Value

inductive AliasActionKind where
  | add
  | remove
  | removeIndex
  deriving DecidableEq, Repr

/-- The key of an action in a request. -/
def AliasActionKind.text : AliasActionKind → String
  | .add => "add"
  | .remove => "remove"
  | .removeIndex => "remove_index"

structure AliasAction where
  kind : AliasActionKind
  parameters : AliasParameters

namespace AliasParameters

def model : Model :=
  .plain "AliasActionParameters" [
    .withDefault "indices" .texts (.list []),
    .withDefault "aliases" .texts (.list []),
    .optional "filter_query" (.model "Query"),
    .optional "filter_query_class" .classRef,
    .optional "routing" .text,
    .optional "index_routing" .text,
    .optional "search_routing" .text,
    .optional "is_hidden" .flag,
    .optional "is_write_index" .flag]

/-- The name of a class. -/
def className? : Value → Option String
  | .classRef name => some name
  | _ => none

def ofValue? (v : Value) : Option AliasParameters := do
  some {
    indices := ← (v.field "indices").texts?
    aliases := ← (v.field "aliases").texts?
    filter := ← (v.field "filter_query").unlessNull Query.ofValue?
    filterClass := ← (v.field "filter_query_class").unlessNull className?
    routing := v.field "routing"
    indexRouting := v.field "index_routing"
    searchRouting := v.field "search_routing"
    isHidden := v.field "is_hidden"
    isWriteIndex := v.field "is_write_index" }

/-- The domain type of the filter, if there is a catalogue that knows it. -/
def domain (resolver : Option Catalogue) (p : AliasParameters) : Option Domain := do
  some ⟨← resolver, .named (← p.filterClass)⟩

/-- The options that are set. -/
def options (p : AliasParameters) : Fields :=
  Fields.given [("routing", p.routing), ("index_routing", p.indexRouting),
    ("search_routing", p.searchRouting), ("is_hidden", p.isHidden),
    ("is_write_index", p.isWriteIndex)]

/-- The filter as a clause, if there is one. -/
def filterFields (resolver : Option Catalogue) (p : AliasParameters) : Except Failure Fields :=
  match p.filter with
  | none => .ok []
  | some q => do .ok [("filter", (← q.clause (fieldName (p.domain resolver))).toValue)]

/-- The filter and the options. -/
def body (resolver : Option Catalogue) (p : AliasParameters) : Except Failure Fields := do
  .ok ((← p.filterFields resolver) ++ p.options)

/-- A list of names, unless it is empty. -/
def namesField (name : String) (names : List String) : Fields :=
  if names.isEmpty then [] else [(name, .ofTexts names)]

/-- Indices and aliases, unless there are none. -/
def names (p : AliasParameters) : Fields :=
  namesField "indices" p.indices ++ namesField "aliases" p.aliases

end AliasParameters

namespace AliasAction

def modelOf (kind : AliasActionKind) (name : String) : Model :=
  .plain name [
    .withDefault "type" (.choice [.str kind.text]) (.str kind.text),
    .required "parameters" (.model "AliasActionParameters")]

/-- The kinds of actions with the names of their models. -/
def kinds : List (AliasActionKind × String) :=
  [(.add, "Add"), (.remove, "Remove"), (.removeIndex, "RemoveIndex")]

def models : List Model :=
  [AliasParameters.model] ++ (kinds.map fun k => modelOf k.1 k.2) ++
    [.plain "AliasActions" [.withDefault "actions"
      (.sequence .list (.tagged "type" (kinds.map fun k => (k.1.text, k.2))) 0) (.list [])]]

/-- The action that a record holds. -/
def ofValue? (v : Value) : Option AliasAction := do
  let kind ← kinds.find? fun k => v.isInstance k.2
  some ⟨kind.1, ← AliasParameters.ofValue? (v.field "parameters")⟩

/-- The actions of a record of a batch. -/
def batch? (v : Value) : Option (List AliasAction) := do
  (← (v.field "actions").collection?).mapM ofValue?

/-- What an action holds under its key. -/
def body (resolver : Option Catalogue) (a : AliasAction) : Except Failure Value :=
  match a.kind with
  | .removeIndex => .ok (.object [("indices", .ofTexts a.parameters.indices)])
  | _ => do .ok (.object (a.parameters.names ++ (← a.parameters.body resolver)))

/-- The entry of an action in a request. -/
def entry (resolver : Option Catalogue) (a : AliasAction) : Except Failure Value := do
  .ok (.object [(a.kind.text, ← a.body resolver)])

end AliasAction

/-- The request of a batch: one entry for each action, in order. -/
def aliasRequest (resolver : Option Catalogue) (actions : List AliasAction) :
    Except Failure Request := do
  let entries ← actions.mapM (AliasAction.entry resolver)
  Request.make .aliasActions [("actions", .list entries)]

end SearchWire
