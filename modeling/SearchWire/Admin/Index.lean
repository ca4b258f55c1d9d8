import SearchWire.Admin.Alias
import SearchWire.Indices.Coordinates

/-!
# Indices and templates

Indices are created with settings, mappings and aliases; a template holds the same for indices
whose names match its patterns. Aliases that are created with an index or by a template are
additions and name no indices.

* `templateAliases`: the aliases of a batch by name.
* `IndexTemplate`, `IndexTemplate.request`: templates and their requests.
* `createIndexRequest`, `putMappingRequest`: the requests for an index.
-/

namespace SearchWire

/-- The same body for each of some aliases. -/
def nameAliases (aliases : Fields) (names : List String) (body : Fields) : Fields :=
  names.foldl (fun acc name => acc.set name (.object body)) aliases

/-- The aliases of a batch by name; the last action that names an alias counts. -/
def addAliases (resolver : Option Catalogue) :
    Fields → List AliasAction → Except Failure Fields
  | aliases, [] => .ok aliases
  | aliases, a :: actions =>
    if a.kind ≠ .add then .error (.templateAction a.kind.text)
    else if !a.parameters.indices.isEmpty then .error .templateIndices
    else do
      let body ← a.parameters.body resolver
      addAliases resolver (nameAliases aliases a.parameters.aliases body) actions

/-- The aliases of a batch, if there is one. -/
def templateAliases (resolver : Option Catalogue) :
    Option (List AliasAction) → Except Failure Value
  | none => .ok .null
  | some actions => do .ok (.object (← addAliases resolver [] actions))

/-- A template for indices whose names match one of its patterns. -/
structure IndexTemplate where
  name : Value
  indexPatterns : List String
  settings : Value
  mappings : Value
  aliasActions : Option (List AliasAction)
  order : Value
  version : Value

namespace IndexTemplate

/-- A document as a text or as an object. -/
def documentShape : Shape := .anyOf [.text, .object]

def model : Model :=
  .plain "IndexTemplate" [
    .required "name" .text,
    .required "index_patterns" (.sequence .list .text 1),
    .optional "settings" documentShape,
    .optional "mappings" documentShape,
    .optional "alias_actions" (.model "AliasActions"),
    .optional "order" .whole,
    .optional "version" .whole]

def ofValue? (v : Value) : Option IndexTemplate := do
  let v ← v.ofClass? "IndexTemplate"
  some {
    name := v.field "name"
    indexPatterns := ← (v.field "index_patterns").texts?
    settings := v.field "settings"
    mappings := v.field "mappings"
    aliasActions := ← (v.field "alias_actions").unlessNull AliasAction.batch?
    order := v.field "order"
    version := v.field "version" }

/-- The request that stores the template. -/
def request (resolver : Option Catalogue) (t : IndexTemplate) : Except Failure Request := do
  let settings ← Document.parseObject "settings" t.settings
  let mappings ← Document.parseObject "mappings" t.mappings
  let aliases ← templateAliases resolver t.aliasActions
  Request.make .putTemplate
    [("name", t.name), ("index_patterns", .ofTexts t.indexPatterns), ("order", t.order),
      ("version", t.version), ("settings", settings), ("mappings", mappings),
      ("aliases", aliases)]

end IndexTemplate

/-- The request that creates an index. -/
def createIndexRequest (resolver : Option Catalogue) (index settings mappings : Value)
    (actions : Option (List AliasAction)) : Except Failure Request := do
  let target ← IndexCoordinates.coerce index
  let settings ← Document.parseObject "settings" settings
  let mappings ← Document.parseObject "mappings" mappings
  let aliases ← templateAliases resolver actions
  Request.make .createIndex [("index", .str target.first), ("settings", settings),
    ("mappings", mappings), ("aliases", aliases)]

/-- The request that adds mappings to indices. -/
def putMappingRequest (index mappings : Value) : Except Failure Request := do
  let target ← IndexCoordinates.coerce index
  let mappings ← Document.parseObject "mappings" mappings
  Request.make .putMapping [("index", .ofTexts target.names), ("mappings", mappings)]

end SearchWire
