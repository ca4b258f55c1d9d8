import SearchWire.Indices.Coordinates
import SearchWire.Json.Document
import SearchWire.Mapping.Path
import SearchWire.Request.Basic
import SearchWire.Request.Timeout
import SearchWire.Write.Basic

/-!
# Requests for one document

Index, update and delete requests. The index of the descriptor counts before the one that is
given beside it; the conditions on concurrent writes are set together or not at all.

* `IndexQuery.document`: the document of an object or a text, and the id that an object has.
* `IndexQuery.request`, `UpdateQuery.request`, `deleteRequest`: the requests.
-/

namespace SearchWire

/-- Both conditions on concurrent writes, or neither. -/
def concurrencyPair (seqNo primaryTerm : Value) : Fields :=
  if seqNo.isNull || primaryTerm.isNull then []
  else [("if_seq_no", seqNo), ("if_primary_term", primaryTerm)]

/-- The index of a descriptor, else the first of those given beside it. -/
def targetIndex (own index : Value) : Except Failure Value :=
  if own.isGiven then .ok own
  else do .ok (.str (← IndexCoordinates.coerce index).first)

/-- The words of an id, if there is one. -/
def idText (v : Value) : Option Value :=
  if v.isNull then none else some (.str (String.ofList v.words))

namespace IndexQuery

/-- The document of a record: all its properties that are set, without the one that tracks
concurrent writes. -/
def recordDocument (resolver : Option Catalogue) (c : RecordClass) (slots : List (Slot Value)) :
    Except Failure Value :=
  let holder := resolver.bind fun cat => cat.holder? (.named c.name)
  match Value.documentSlots? (fun name => some name != holder) slots with
  | some fields => .ok (.object (Fields.ofList fields))
  | none => .error .unwritable

/-- The document, and the id that its object has. -/
def document (resolver : Option Catalogue) (q : IndexQuery) :
    Except Failure (Value × Option Value) :=
  match q.object with
  | .null =>
    if q.source.isNull then .error (.nothingToIndex q.id)
    else do .ok (← Document.parseObject "index source" q.source, none)
  | .record c slots => do
    .ok (← recordDocument resolver c slots, idText ((Value.record c slots).field "id"))
  | .dict entries => do
    let doc ← Document.parseObject "document" (.dict entries)
    .ok (doc, ((Value.findEntry? entries "id").bind idText))
  | v => .error (.notIndexable v)

/-- The op type of a request: `create` if it was asked for, `index` if any was or there is an
id. -/
def opTypeText (opType : Option OpType) (id : Value) : Value :=
  match opType with
  | some t => .str t.text
  | none => if id.isNull then .null else .str OpType.index.text

/-- The version with its type; a type alone is left out. -/
def versionFields (q : IndexQuery) : Fields :=
  if q.version.isNull then []
  else ("version", q.version) ::
    match q.versionType with
    | some t => [("version_type", .str t.text)]
    | none => []

/-- The fields of the index request. -/
def requestFields (resolver : Option Catalogue) (q : IndexQuery) (index : Value) :
    Except Failure Fields := do
  let target ← targetIndex q.indexName index
  let (document, objectId) ← q.document resolver
  let id := if q.id.isNull then objectId.getD .null else q.id
  .ok ([("index", target), ("id", id), ("document", document), ("op_type", opTypeText q.opType id),
    ("routing", q.routing)] ++ concurrencyPair q.seqNo q.primaryTerm ++ q.versionFields)

/-- The index request. -/
def request (resolver : Option Catalogue) (q : IndexQuery) (index : Value) :
    Except Failure Request := do
  Request.make .index (← q.requestFields resolver index)

end IndexQuery

namespace UpdateQuery

/-- A script by its text or its id, with its language and its parameters. -/
def scriptValue (q : UpdateQuery) : Value :=
  if q.script.isNull then .null
  else
    let key := if q.scriptType = .stored then "id" else "source"
    let params := if q.params.isGiven then q.params else .object []
    .object ([(key, q.script)] ++ Fields.given [("lang", q.lang)] ++ [("params", params)])

/-- Which fields of the source are returned: by two lists if one of them is not empty, else as
the flag says. -/
def fetchSourceValue (q : UpdateQuery) : Value :=
  if q.fetchSourceIncludes.isGiven || q.fetchSourceExcludes.isGiven then
    .object [("includes", listOf q.fetchSourceIncludes), ("excludes", listOf q.fetchSourceExcludes)]
  else q.fetchSource
where
  /-- The list that is given, or an empty one. -/
  listOf (v : Value) : Value := if v.isGiven then .list (v.elements?.getD []) else .list []

/-- The fields of the update request. -/
def requestFields (q : UpdateQuery) (index : Value) : Except Failure Fields := do
  let target ← targetIndex q.indexName index
  let doc ← Document.parseObject "document" q.document
  let upsert ← Document.parseObject "upsert" q.upsert
  let refresh : Fields := match q.refresh with
    | some policy => [("refresh", .str policy.text)]
    | none => []
  let timeout ← timeField "timeout" q.timeout
  .ok ([("index", target), ("id", q.id), ("doc", doc), ("upsert", upsert),
    ("script", q.scriptValue), ("fetch_source", q.fetchSourceValue), ("routing", q.routing),
    ("scripted_upsert", q.scriptedUpsert), ("doc_as_upsert", q.docAsUpsert),
    ("retry_on_conflict", q.retryOnConflict),
    ("wait_for_active_shards", q.waitForActiveShards)] ++
      concurrencyPair q.ifSeqNo q.ifPrimaryTerm ++ refresh ++ timeout)

/-- The update request. -/
def request (q : UpdateQuery) (index : Value) : Except Failure Request := do
  Request.make .update (← q.requestFields index)

end UpdateQuery

/-- The request that deletes a document by its id. -/
def deleteRequest (id index routing seqNo primaryTerm : Value) : Except Failure Request := do
  let target ← IndexCoordinates.coerce index
  Request.make .delete ([("index", .str target.first), ("id", id), ("routing", routing)] ++
    concurrencyPair seqNo primaryTerm)

end SearchWire
