import SearchWire.Schema.Check
import SearchWire.Value.Dump

/-!
# Requests

What is sent to the engine. A request has fields by name; some of them travel in the address and
the query string, the others make up the body.

* `RequestKind`, `RequestKind.model`, `RequestKind.paramKeys`: the kinds of requests, their fields
  and which of these are parameters.
* `Request`, `Request.make`: a request, and one from its fields.
* `Request.fields`, `Request.params`, `Request.body`: all fields that are set, the parameters, the
  body.
-/

namespace SearchWire

inductive RequestKind where
  | search
  | index
  | update
  | bulk
  | delete
  | deleteByQuery
  | aliasActions
  | putTemplate
  | createIndex
  | putMapping
  | reindex
  deriving DecidableEq, Repr

namespace RequestKind

def all : List RequestKind :=
  [search, index, update, bulk, delete, deleteByQuery, aliasActions, putTemplate, createIndex,
    putMapping, reindex]

def name : RequestKind → String
  | search => "SearchRequest"
  | index => "IndexRequest"
  | update => "UpdateRequest"
  | bulk => "BulkRequest"
  | delete => "DeleteRequest"
  | deleteByQuery => "DeleteByQueryRequest"
  | aliasActions => "AliasActionsRequest"
  | putTemplate => "PutTemplateRequest"
  | createIndex => "CreateIndexRequest"
  | putMapping => "PutMappingRequest"
  | reindex => "ReindexRequest"

def ofName? (name : String) : Option RequestKind := all.find? fun k => k.name == name

/-- A list of objects. -/
def objects : Shape := .sequence .list .object 0

/-- Objects by name. -/
def objectsByName : Shape := .mapping .text .object

/-- The index options among the fields of a request. -/
def indicesProperties : List Property :=
  [.optional "ignore_unavailable" .flag, .optional "allow_no_indices" .flag,
    .optional "expand_wildcards" .text]

/-- The fields of a kind of requests, in the order in which they are written. -/
def properties : RequestKind → List Property
  | search => [
      .required "index" .texts,
      .required "query" .object,
      .optional "sort" objects,
      (Property.optional "from_" .whole).called "from",
      .optional "size" .whole,
      .optional "rescore" objects,
      .optional "stored_fields" .texts,
      (Property.optional "source_filter" .object).called "_source",
      .optional "timeout" .text,
      .optional "request_cache" .flag,
      .optional "seq_no_primary_term" .flag,
      .optional "version" .flag,
      .optional "track_scores" .flag,
      .optional "track_total_hits" (.anyOf [.flag, .whole]),
      .optional "min_score" .decimal,
      .optional "explain" .flag,
      .optional "search_after" (.sequence .list .any 0),
      .optional "highlight" .object,
      .optional "aggs" .object,
      .optional "post_filter" .object,
      .optional "routing" .text,
      .optional "preference" .text] ++ indicesProperties
  | index => [
      .required "index" .text,
      .optional "id" .text,
      .required "document" .object,
      .optional "op_type" .text,
      .optional "if_seq_no" .whole,
      .optional "if_primary_term" .whole,
      .optional "routing" .text,
      .optional "version" .whole,
      .optional "version_type" .text,
      .optional "refresh" .text,
      .optional "pipeline" .text]
  | update => [
      .required "index" .text,
      .required "id" .text,
      .optional "doc" .object,
      .optional "upsert" .object,
      .optional "script" .object,
      .optional "scripted_upsert" .flag,
      .optional "doc_as_upsert" .flag,
      (Property.optional "fetch_source" (.anyOf [.flag, .object])).called "_source",
      .optional "if_seq_no" .whole,
      .optional "if_primary_term" .whole,
      .optional "routing" .text,
      .optional "refresh" .text,
      .optional "retry_on_conflict" .whole,
      .optional "timeout" .text,
      .optional "wait_for_active_shards" .text]
  | bulk => [
      .required "operations" objects,
      .optional "index" .text,
      .optional "refresh" .text,
      .optional "pipeline" .text,
      .optional "routing" .text,
      .optional "timeout" .text,
      .optional "wait_for_active_shards" .text]
  | delete => [
      .required "index" .text,
      .required "id" .text,
      .optional "routing" .text,
      .optional "refresh" .text,
      .optional "if_seq_no" .whole,
      .optional "if_primary_term" .whole]
  | deleteByQuery => [
      .required "index" .texts,
      .required "query" .object,
      .optional "max_docs" .whole,
      .optional "routing" .text,
      .optional "timeout" .text] ++ indicesProperties
  | aliasActions => [.required "actions" objects]
  | putTemplate => [
      .required "name" .text,
      .required "index_patterns" .texts,
      .optional "order" .whole,
      .optional "version" .whole,
      .optional "settings" .object,
      .optional "mappings" .object,
      .optional "aliases" objectsByName]
  | createIndex => [
      .required "index" .text,
      .optional "settings" .object,
      .optional "mappings" .object,
      .optional "aliases" objectsByName]
  | putMapping => [
      .required "index" .texts,
      .required "mappings" .object]
  | reindex => [
      .required "source" .object,
      .required "dest" .object,
      .optional "max_docs" .whole,
      .optional "script" .object,
      .optional "conflicts" .text,
      .optional "refresh" .flag,
      .optional "timeout" .text,
      .optional "requests_per_second" .decimal,
      .optional "slices" (.anyOf [.whole, .text]),
      .optional "wait_for_completion" .flag,
      .optional "wait_for_active_shards" .text,
      .optional "scroll" .text,
      .optional "require_alias" .flag]

/-- The names of the index options among the parameters. -/
def indicesKeys : List String := ["ignore_unavailable", "allow_no_indices", "expand_wildcards"]

/-- The fields that travel outside the body. -/
def paramKeys : RequestKind → List String
  | search => ["index", "routing", "preference"] ++ indicesKeys
  | index =>
    ["index", "id", "op_type", "if_seq_no", "if_primary_term", "routing", "version",
      "version_type", "refresh", "pipeline"]
  | update =>
    ["index", "id", "if_seq_no", "if_primary_term", "routing", "refresh", "retry_on_conflict",
      "timeout", "wait_for_active_shards"]
  | bulk => ["index", "refresh", "pipeline", "routing", "timeout", "wait_for_active_shards"]
  | delete => ["index", "id", "routing", "refresh", "if_seq_no", "if_primary_term"]
  | deleteByQuery => ["index", "routing", "timeout"] ++ indicesKeys
  | aliasActions => []
  | putTemplate => ["name"]
  | createIndex => ["index"]
  | putMapping => ["index"]
  | reindex =>
    ["refresh", "timeout", "requests_per_second", "slices", "wait_for_completion",
      "wait_for_active_shards", "scroll", "require_alias"]

def model (k : RequestKind) : Model :=
  { Model.plain k.name k.properties with ancestors := ["WireRequest"] }

/-- The class of all requests. -/
def baseModel : Model := .plain "WireRequest" []

def models : List Model := baseModel :: all.map model

end RequestKind

structure Request where
  kind : RequestKind
  slots : List (Slot Value)
  deriving Repr

namespace Request

/-- A request from its fields; those that are `null` are not set. -/
def make (kind : RequestKind) (fields : Fields) : Except Failure Request := do
  match ← Catalogue.build ⟨[kind.model], []⟩ kind.name fields with
  | .record _ slots => .ok ⟨kind, slots⟩
  | _ => .error .noAttribute

/-- The request that a record holds. -/
def ofValue? : Value → Option Request
  | .record c slots => (RequestKind.ofName? c.name).map fun kind => ⟨kind, slots⟩
  | _ => none

/-- A field as it was given; `null` where there is none. -/
def field (r : Request) (name : String) : Value := Value.slotValue r.slots name

/-- The fields that are set, as plain data by their document names. -/
def fields (r : Request) : Fields := Fields.ofList (Value.wireSlots (fun _ => true) r.slots)

/-- A field is a parameter. -/
def isParam (r : Request) (name : String) : Bool := r.kind.paramKeys.contains name

/-- The fields that travel outside the body. -/
def params (r : Request) : Fields := r.fields.filter fun f => r.isParam f.1

/-- The lines of a request that has several. -/
def lines (r : Request) : List Value := ((r.field "operations").sequence?).getD []

/-- The body. A document, mappings and bulk lines make up the whole body of their requests and
stay as they were given. -/
def body (r : Request) : Value :=
  match r.kind with
  | .index => r.field "document"
  | .putMapping => r.field "mappings"
  | .bulk => .list r.lines
  | _ => .object (r.fields.filter fun f => !r.isParam f.1)

end Request

end SearchWire
