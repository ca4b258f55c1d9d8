import SearchWire.Write.Request

/-!
# Bulk requests

A batch of writes. Every item gives two lines: the action with its parameters, and what is
written.

* `Request.indexLines`, `Request.updateLines`: the lines of a request for one document.
* `WriteQuery.lines`, `bulkLines`: the lines of an item and of a batch.
* `bulkRequest`: the request.
-/

namespace SearchWire

namespace Request

/-- The fields of a request among some names that are set. -/
def setFields (r : Request) (names : List String) : Fields :=
  Fields.given (names.map fun name => (name, r.field name))

/-- The lines of an index request: the action is its op type, or `index`. -/
def indexLines (r : Request) : List Value :=
  let action := ((r.field "op_type").text?).getD OpType.index.text
  let parameters := [("_index", r.field "index")] ++ Fields.given [("_id", r.field "id")] ++
    r.setFields ["routing", "if_seq_no", "if_primary_term", "version", "version_type"]
  [.object [(action, .object parameters)], r.field "document"]

/-- The fields of an update that are written. -/
def updateNames : List String :=
  ["doc", "upsert", "script", "scripted_upsert", "doc_as_upsert", "fetch_source"]

/-- The lines of an update request. -/
def updateLines (r : Request) : List Value :=
  let parameters := [("_index", r.field "index"), ("_id", r.field "id")] ++
    r.setFields ["routing", "if_seq_no", "if_primary_term", "retry_on_conflict"]
  let written := Value.wireSlots updateNames.contains r.slots
  [.object [("update", .object parameters)], .object (Fields.ofList written)]

end Request

/-- The lines of an item. -/
def WriteQuery.lines (resolver : Option Catalogue) (index : Value) :
    WriteQuery → Except Failure (List Value)
  | .index q => do .ok (← q.request resolver index).indexLines
  | .update q => do .ok (← q.request index).updateLines
  | .foreign v => .error (.notBulkable v)

/-- The lines of a batch, item by item; the first failure ends it. -/
def bulkLines (resolver : Option Catalogue) (index : Value) :
    List WriteQuery → Except Failure (List Value)
  | [] => .ok []
  | q :: qs => do .ok ((← q.lines resolver index) ++ (← bulkLines resolver index qs))

/-- The fields of a batch for its options. -/
def BulkOptions.fields (o : BulkOptions) : Except Failure Fields := do
  let refresh : Fields := match o.refresh with
    | some policy => [("refresh", .str policy.text)]
    | none => []
  let timeout ← timeField "timeout" o.timeout
  .ok (refresh ++ [("pipeline", o.pipeline), ("routing", o.routing)] ++ timeout ++
    [("wait_for_active_shards", o.waitForActiveShards)])

/-- The bulk request of a batch. -/
def bulkRequest (resolver : Option Catalogue) (queries : List WriteQuery) (index : Value)
    (options : Option BulkOptions) : Except Failure Request := do
  let lines ← bulkLines resolver index queries
  let more ← match options with
    | none => .ok []
    | some o => o.fields
  Request.make .bulk ([("operations", .list lines)] ++ more)

end SearchWire
