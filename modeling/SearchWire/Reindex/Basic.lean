import SearchWire.Query.Record
import SearchWire.Write.Basic

/-!
# Reindex descriptors

Documents are copied from source indices, which may be in another cluster, into a destination.
Options that are not set are `null`; options that are only passed on are kept as they were given.

* `Conflicts`: what happens when a document was changed meanwhile.
* `Remote`, `Remote.url`: another cluster and its address.
* `Slice`, `ReindexSource`, `ReindexDest`, `ReindexScript`, `ReindexQuery`: the descriptors.
* `ReindexQuery.models`, `ReindexQuery.ofValue?`: their records.
-/

namespace SearchWire

/-- What happens when a document was changed meanwhile. -/
inductive Conflicts where
  | abort
  | proceed
  deriving DecidableEq, Repr

def Conflicts.text : Conflicts → String
  | .abort => "abort"
  | .proceed => "proceed"

instance : Worded Conflicts where
  enumeration := "Conflicts"
  members := [.abort, .proceed]
  text := Conflicts.text
  label c := Worded.capitals c.text

/-- Another cluster. -/
structure Remote where
  scheme : String
  host : String
  port : Int
  pathPrefix : Option String
  username : Value
  password : Value
  socketTimeout : Value
  connectTimeout : Value

namespace Remote

/-- A text without slashes at its ends. -/
def trimSlashes (cs : List Char) : List Char :=
  ((cs.dropWhile (· == '/')).reverse.dropWhile (· == '/')).reverse

/-- The address of a cluster; an empty path is left out. -/
def url (r : Remote) : String :=
  let base := r.scheme.toList ++ "://".toList ++ r.host.toList ++ ':' :: Decimal.intDigits r.port
  match r.pathPrefix with
  | some path =>
    String.ofList (if path.isEmpty then base else base ++ '/' :: trimSlashes path.toList)
  | none => String.ofList base

def model : Model :=
  .plain "Remote" [
    .withDefault "scheme" .text (.str "http"),
    .required "host" .text,
    .required "port" (.integer (some 1) (some 65535)),
    .optional "path_prefix" .text,
    .optional "username" .text,
    .optional "password" .text,
    .withDefault "socket_timeout" .timeout .null,
    .withDefault "connect_timeout" .timeout .null]

def ofValue? (v : Value) : Option Remote := do
  let v ← v.ofClass? "Remote"
  some ⟨← (v.field "scheme").text?, ← (v.field "host").text?, ← (v.field "port").int?,
    ← (v.field "path_prefix").unlessNull Value.text?, v.field "username", v.field "password",
    v.field "socket_timeout", v.field "connect_timeout"⟩

end Remote

/-- One of several parts of a copy. -/
structure Slice where
  id : Value
  max : Value

namespace Slice

/-- The number of a part is lower than the count of parts. -/
def rule (slots : List (Slot Value)) : Option String :=
  match Value.slotValue slots "id", Value.slotValue slots "max" with
  | .int id, .int max =>
    if id < max then none
    else some ("slice id " ++ String.ofList (Decimal.intDigits id) ++ " must be lower than max " ++
      String.ofList (Decimal.intDigits max))
  | _, _ => none

def model : Model :=
  { Model.plain "Slice" [.required "id" (.integer (some 0) none),
      .required "max" (.integer (some 1) none)] with rule := rule }

def ofValue? (v : Value) : Option Slice := do
  let v ← v.ofClass? "Slice"
  some ⟨v.field "id", v.field "max"⟩

end Slice

/-- Where documents are copied from. -/
structure ReindexSource where
  indices : List String
  remote : Option Remote
  size : Value
  query : Option Query
  sourceFilter : Option SourceFilter
  slice : Option Slice

namespace ReindexSource

def model : Model :=
  .plain "ReindexSource" [
    .required "indices" (.sequence .list .text 1),
    .optional "remote" (.model "Remote"),
    .optional "size" (.integer (some 1) none),
    .optional "query" (.model "Query"),
    .optional "source_filter" (.model "SourceFilter"),
    .optional "slice" (.model "Slice")]

def ofValue? (v : Value) : Option ReindexSource := do
  let v ← v.ofClass? "ReindexSource"
  some {
    indices := ← (v.field "indices").texts?
    remote := ← (v.field "remote").unlessNull Remote.ofValue?
    size := v.field "size"
    query := ← (v.field "query").unlessNull Query.ofValue?
    sourceFilter := ← (v.field "source_filter").unlessNull SourceFilter.ofValue?
    slice := ← (v.field "slice").unlessNull Slice.ofValue? }

end ReindexSource

/-- Where documents are copied to. -/
structure ReindexDest where
  index : Value
  routing : Value
  opType : Option OpType
  versionType : Option VersionType
  pipeline : Value

namespace ReindexDest

def model : Model :=
  .plain "ReindexDest" [
    .required "index" .text,
    .optional "routing" .text,
    .withDefault "op_type" (.optional (Worded.shape OpType)) (Worded.value OpType.index),
    .optional "version_type" (Worded.shape VersionType),
    .optional "pipeline" .text]

def ofValue? (v : Value) : Option ReindexDest := do
  let v ← v.ofClass? "ReindexDest"
  some ⟨v.field "index", v.field "routing",
    ← (v.field "op_type").unlessNull Worded.ofValue?,
    ← (v.field "version_type").unlessNull Worded.ofValue?, v.field "pipeline"⟩

end ReindexDest

/-- A script that changes documents on their way. -/
structure ReindexScript where
  source : Value
  lang : Value

namespace ReindexScript

def model : Model :=
  .plain "ReindexScript" [.required "source" .text, .optional "lang" .text]

def ofValue? (v : Value) : Option ReindexScript := do
  let v ← v.ofClass? "ReindexScript"
  some ⟨v.field "source", v.field "lang"⟩

end ReindexScript

/-- A copy of documents. -/
structure ReindexQuery where
  source : ReindexSource
  dest : ReindexDest
  maxDocs : Value
  script : Option ReindexScript
  conflicts : Option Conflicts
  refresh : Value
  timeout : Value
  requestsPerSecond : Value
  slices : Value
  waitForCompletion : Value
  waitForActiveShards : Value
  scroll : Value
  requireAlias : Value

namespace ReindexQuery

def model : Model :=
  .plain "ReindexQuery" [
    .required "source" (.model "ReindexSource"),
    .required "dest" (.model "ReindexDest"),
    .optional "max_docs" (.integer (some 1) none),
    .optional "script" (.model "ReindexScript"),
    .optional "conflicts" (Worded.shape Conflicts),
    .optional "refresh" .flag,
    .withDefault "timeout" .timeout .null,
    .optional "requests_per_second" .decimal,
    .optional "slices" (.anyOf [.whole, .text]),
    .optional "wait_for_completion" .flag,
    .optional "wait_for_active_shards" .text,
    .withDefault "scroll" .timeout .null,
    .optional "require_alias" .flag]

def models : List Model :=
  [Remote.model, Slice.model, ReindexSource.model, ReindexDest.model, ReindexScript.model, model]

def ofValue? (v : Value) : Option ReindexQuery := do
  let v ← v.ofClass? "ReindexQuery"
  some {
    source := ← ReindexSource.ofValue? (v.field "source")
    dest := ← ReindexDest.ofValue? (v.field "dest")
    maxDocs := v.field "max_docs"
    script := ← (v.field "script").unlessNull ReindexScript.ofValue?
    conflicts := ← (v.field "conflicts").unlessNull Worded.ofValue?
    refresh := v.field "refresh"
    timeout := v.field "timeout"
    requestsPerSecond := v.field "requests_per_second"
    slices := v.field "slices"
    waitForCompletion := v.field "wait_for_completion"
    waitForActiveShards := v.field "wait_for_active_shards"
    scroll := v.field "scroll"
    requireAlias := v.field "require_alias" }

end ReindexQuery

end SearchWire
