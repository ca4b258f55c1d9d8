import SearchWire.Schema.Worded
import SearchWire.Value.Reading

/-!
# Write descriptors

What is written: a document that is indexed, an update of a document, the options of a whole
batch. Options that are not set are `null`; options that are only passed on are kept as they were
given.

* `OpType`, `VersionType`, `RefreshPolicy`, `ScriptType`: the choices.
* `IndexQuery`, `UpdateQuery`, `BulkOptions`: the descriptors, each with its model and reader.
* `WriteQuery`: an item of a batch.
-/

namespace SearchWire

/-- Whether a write may replace a document. -/
inductive OpType where
  | index
  | create
  deriving DecidableEq, Repr

def OpType.text : OpType → String
  | .index => "index"
  | .create => "create"

instance : Worded OpType where
  enumeration := "OpType"
  members := [.index, .create]
  text := OpType.text
  label t := Worded.capitals t.text

/-- Who counts the versions of a document. -/
inductive VersionType where
  | internal
  | external
  | externalOrEqual
  deriving DecidableEq, Repr

def VersionType.text : VersionType → String
  | .internal => "internal"
  | .external => "external"
  | .externalOrEqual => "external_gte"

instance : Worded VersionType where
  enumeration := "VersionType"
  members := [.internal, .external, .externalOrEqual]
  text := VersionType.text
  label t := Worded.capitals t.text

/-- When a write can be seen by searches. -/
inductive RefreshPolicy where
  | none
  | immediate
  | waitUntil
  deriving DecidableEq, Repr

def RefreshPolicy.text : RefreshPolicy → String
  | .none => "false"
  | .immediate => "true"
  | .waitUntil => "wait_for"

def RefreshPolicy.label : RefreshPolicy → String
  | .none => "NONE"
  | .immediate => "IMMEDIATE"
  | .waitUntil => "WAIT_UNTIL"

instance : Worded RefreshPolicy where
  enumeration := "RefreshPolicy"
  members := [.none, .immediate, .waitUntil]
  text := RefreshPolicy.text
  label := RefreshPolicy.label

/-- Whether a script is given by its text or by the id it is stored under. -/
inductive ScriptType where
  | inline
  | stored
  deriving DecidableEq, Repr

def ScriptType.text : ScriptType → String
  | .inline => "inline"
  | .stored => "stored"

instance : Worded ScriptType where
  enumeration := "ScriptType"
  members := [.inline, .stored]
  text := ScriptType.text
  label t := Worded.capitals t.text

/-- A document to index: an object, or else a JSON text. -/
structure IndexQuery where
  id : Value
  object : Value
  source : Value
  version : Value
  versionType : Option VersionType
  seqNo : Value
  primaryTerm : Value
  routing : Value
  opType : Option OpType
  indexName : Value

namespace IndexQuery

def model : Model :=
  .plain "IndexQuery" [
    .optional "id" .text,
    .optional "object" .any,
    .optional "source" .text,
    .optional "version" .whole,
    .optional "version_type" (Worded.shape VersionType),
    .optional "seq_no" .whole,
    .optional "primary_term" .whole,
    .optional "routing" .text,
    .optional "op_type" (Worded.shape OpType),
    .optional "index_name" .text]

def ofValue? (v : Value) : Option IndexQuery := do
  let v ← v.ofClass? "IndexQuery"
  some {
    id := v.field "id"
    object := v.field "object"
    source := v.field "source"
    version := v.field "version"
    versionType := ← (v.field "version_type").unlessNull Worded.ofValue?
    seqNo := v.field "seq_no"
    primaryTerm := v.field "primary_term"
    routing := v.field "routing"
    opType := ← (v.field "op_type").unlessNull Worded.ofValue?
    indexName := v.field "index_name" }

end IndexQuery

/-- An update of a document by a part of it, by a script, or by what is written if it is not
there. -/
structure UpdateQuery where
  id : Value
  document : Value
  upsert : Value
  script : Value
  lang : Value
  params : Value
  scriptType : ScriptType
  scriptedUpsert : Value
  docAsUpsert : Value
  fetchSource : Value
  fetchSourceIncludes : Value
  fetchSourceExcludes : Value
  ifSeqNo : Value
  ifPrimaryTerm : Value
  routing : Value
  refresh : Option RefreshPolicy
  retryOnConflict : Value
  timeout : Value
  waitForActiveShards : Value
  indexName : Value

namespace UpdateQuery

def model : Model :=
  .plain "UpdateQuery" [
    .required "id" .text,
    .optional "document" .object,
    .optional "upsert" .object,
    .optional "script" .text,
    .optional "lang" .text,
    .optional "params" .object,
    .withDefault "script_type" (Worded.shape ScriptType) (Worded.value ScriptType.inline),
    .optional "scripted_upsert" .flag,
    .optional "doc_as_upsert" .flag,
    .optional "fetch_source" .flag,
    .optional "fetch_source_includes" .texts,
    .optional "fetch_source_excludes" .texts,
    .optional "if_seq_no" .whole,
    .optional "if_primary_term" .whole,
    .optional "routing" .text,
    .optional "refresh" (Worded.shape RefreshPolicy),
    .optional "retry_on_conflict" (.integer (some 0) none),
    .withDefault "timeout" .timeout .null,
    .optional "wait_for_active_shards" .text,
    .optional "index_name" .text]

def ofValue? (v : Value) : Option UpdateQuery := do
  let v ← v.ofClass? "UpdateQuery"
  some {
    id := v.field "id"
    document := v.field "document"
    upsert := v.field "upsert"
    script := v.field "script"
    lang := v.field "lang"
    params := v.field "params"
    scriptType := ← Worded.ofValue? (v.field "script_type")
    scriptedUpsert := v.field "scripted_upsert"
    docAsUpsert := v.field "doc_as_upsert"
    fetchSource := v.field "fetch_source"
    fetchSourceIncludes := v.field "fetch_source_includes"
    fetchSourceExcludes := v.field "fetch_source_excludes"
    ifSeqNo := v.field "if_seq_no"
    ifPrimaryTerm := v.field "if_primary_term"
    routing := v.field "routing"
    refresh := ← (v.field "refresh").unlessNull Worded.ofValue?
    retryOnConflict := v.field "retry_on_conflict"
    timeout := v.field "timeout"
    waitForActiveShards := v.field "wait_for_active_shards"
    indexName := v.field "index_name" }

end UpdateQuery

/-- The options of a whole batch. -/
structure BulkOptions where
  refresh : Option RefreshPolicy
  pipeline : Value
  routing : Value
  timeout : Value
  waitForActiveShards : Value

namespace BulkOptions

def model : Model :=
  .plain "BulkOptions" [
    .optional "refresh" (Worded.shape RefreshPolicy),
    .optional "pipeline" .text,
    .optional "routing" .text,
    .withDefault "timeout" .timeout .null,
    .optional "wait_for_active_shards" .text]

def ofValue? (v : Value) : Option BulkOptions := do
  let v ← v.ofClass? "BulkOptions"
  some ⟨← (v.field "refresh").unlessNull Worded.ofValue?, v.field "pipeline", v.field "routing",
    v.field "timeout", v.field "wait_for_active_shards"⟩

end BulkOptions

/-- An item of a batch. -/
inductive WriteQuery where
  | index (q : IndexQuery)
  | update (q : UpdateQuery)
  /-- A value that is no item; the batch fails when it comes to it. -/
  | foreign (v : Value)

namespace WriteQuery

def models : List Model := [IndexQuery.model, UpdateQuery.model, BulkOptions.model]

def enumerations : List Enumeration :=
  [Worded.declaration OpType, Worded.declaration VersionType, Worded.declaration RefreshPolicy,
    Worded.declaration ScriptType]

/-- The item that a value is. -/
def ofValue? (v : Value) : Option WriteQuery :=
  if v.isInstance "IndexQuery" then (IndexQuery.ofValue? v).map .index
  else if v.isInstance "UpdateQuery" then (UpdateQuery.ofValue? v).map .update
  else some (.foreign v)

/-- The items of a batch. -/
def listOf (v : Value) : Except Failure (List WriteQuery) :=
  match v.elements? with
  | some vs => legible (vs.mapM ofValue?)
  | none => .error (.notIterable v)

end WriteQuery

end SearchWire
