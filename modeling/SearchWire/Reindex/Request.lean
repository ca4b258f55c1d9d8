import SearchWire.Reindex.Basic
import SearchWire.Request.Basic
import SearchWire.Request.Timeout

/-!
# Reindex requests

The request that copies documents. The query of the source is about no domain type, so that its
fields have their names in documents already.

* `Remote.toValue`, `ReindexSource.toValue`, `ReindexDest.toValue`: the parts of the body.
* `ReindexQuery.request`: the request.
-/

namespace SearchWire

/-- Another cluster in a request. -/
def Remote.toValue (r : Remote) : Except Failure Value := do
  let socketTimeout ← timeField "socket_timeout" r.socketTimeout
  let connectTimeout ← timeField "connect_timeout" r.connectTimeout
  .ok (.object ([("host", .str r.url)] ++
    Fields.given [("username", r.username), ("password", r.password)] ++ socketTimeout ++
      connectTimeout))

namespace ReindexSource

def remoteFields (s : ReindexSource) : Except Failure Fields :=
  match s.remote with
  | none => .ok []
  | some r => do .ok [("remote", ← r.toValue)]

def queryFields (s : ReindexSource) : Except Failure Fields :=
  match s.query with
  | none => .ok []
  | some q => do .ok [("query", (← q.clause (fieldName none)).toValue)]

def filterFields (s : ReindexSource) : Fields :=
  match s.sourceFilter with
  | none => []
  | some f => [("_source", f.toValue)]

def sliceFields (s : ReindexSource) : Fields :=
  match s.slice with
  | none => []
  | some part => [("slice", .object [("id", part.id), ("max", part.max)])]

/-- The source in a request. -/
def toValue (s : ReindexSource) : Except Failure Value := do
  let remote ← s.remoteFields
  let query ← s.queryFields
  .ok (.object (remote ++ [("index", .ofTexts s.indices)] ++ Fields.given [("size", s.size)] ++
    query ++ s.filterFields ++ s.sliceFields))

end ReindexSource

namespace ReindexDest

/-- The version type: the one that is set, else the internal one if there is an op type. -/
def versionTypeFields (d : ReindexDest) : Fields :=
  match d.versionType, d.opType with
  | some t, _ => [("version_type", .str t.text)]
  | none, some _ => [("version_type", .str VersionType.internal.text)]
  | none, none => []

def opTypeFields (d : ReindexDest) : Fields :=
  match d.opType with
  | some t => [("op_type", .str t.text)]
  | none => []

/-- The destination in a request. -/
def toValue (d : ReindexDest) : Value :=
  .object ([("index", d.index)] ++ Fields.given [("routing", d.routing)] ++ d.opTypeFields ++
    Fields.given [("pipeline", d.pipeline)] ++ d.versionTypeFields)

end ReindexDest

namespace ReindexQuery

def scriptFields (q : ReindexQuery) : Fields :=
  match q.script with
  | none => []
  | some s => [("script", .object ([("source", s.source)] ++ Fields.given [("lang", s.lang)]))]

def conflictsFields (q : ReindexQuery) : Fields :=
  match q.conflicts with
  | none => []
  | some c => [("conflicts", .str c.text)]

/-- The fields of the request. -/
def requestFields (q : ReindexQuery) : Except Failure Fields := do
  let source ← q.source.toValue
  let timeout ← timeField "timeout" q.timeout
  let scroll ← timeField "scroll" q.scroll
  .ok ([("source", source), ("dest", q.dest.toValue), ("max_docs", q.maxDocs),
    ("refresh", q.refresh), ("requests_per_second", q.requestsPerSecond), ("slices", q.slices),
    ("wait_for_completion", q.waitForCompletion),
    ("wait_for_active_shards", q.waitForActiveShards), ("require_alias", q.requireAlias)] ++
      q.scriptFields ++ q.conflictsFields ++ timeout ++ scroll)

/-- The request that copies documents. -/
def request (q : ReindexQuery) : Except Failure Request := do
  Request.make .reindex (← q.requestFields)

end ReindexQuery

end SearchWire
