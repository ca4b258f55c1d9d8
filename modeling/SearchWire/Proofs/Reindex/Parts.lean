import SearchWire.Proofs.Admin.Suits
import SearchWire.Proofs.Descriptor.Validated
import SearchWire.Proofs.Request.Shows
import SearchWire.Proofs.Search.Options

/-!
# What a copy of documents carries

A validated descriptor of a copy gives a request with exactly those parts that it sets. The source
always has its indices and the destination its index; everything else is there if it is set, whether
it is false, zero or empty. Two parts are there on other grounds: a filter on the fields of
documents has both of its lists, and the destination has a version type also if it has an op type
only.

* `Value.IsTimeout`, `Value.timeValue`: timeouts that were checked, and their time values.
* `ReindexQuery.Admitted`, `ReindexQuery.admitted_of_conforms`: what a validated descriptor meets.
* `Remote.parts`, `ReindexSource.parts`, `ReindexDest.parts`, `ReindexScript.parts`: the parts of a
  request and when they are there.
* `ReindexSource.Admitted.toValue_eq`, `ReindexDest.toValue_eq`: they have these parts.
* `ReindexQuery.Admitted.fields_eq`: the fields of the request.
* `ReindexQuery.request_carries`: **a copy carries exactly what its descriptor sets.**
-/

namespace SearchWire

/-! ## Timeouts -/

/-- Nothing, a duration or a time value that is written already. -/
def Value.IsTimeout (v : Value) : Prop := v = .null ∨ (∃ d, v = .duration d) ∨ ∃ s, v = .str s

/-- The time value of a timeout; what is not set stays so. -/
def Value.timeValue : Value → Value
  | .duration d => .str (TimeValue.span d).text
  | v => v

namespace Value.IsTimeout

variable {v : Value}

theorem admits (h : v.IsTimeout) : (Shape.optional .text).Admits v.timeValue := by
  rcases h with rfl | ⟨d, rfl⟩ | ⟨s, rfl⟩
  · exact .null _
  · exact .given (.text _)
  · exact .given (.text s)

theorem timeField_eq (h : v.IsTimeout) (name : String) :
    timeField name v = .ok (Fields.given [(name, v.timeValue)]) := by
  rcases h with rfl | ⟨d, rfl⟩ | ⟨s, rfl⟩ <;> rfl

end Value.IsTimeout

/-- What a record that conforms has for a timeout is one. -/
theorem Conforms.isTimeout {cat : Catalogue} {m : Model} {v : Value} {key : String}
    (h : Conforms cat m v) (hp : .withDefault key .timeout .null ∈ m.properties) :
    (v.field key).IsTimeout := by
  rcases h.property _ hp with ⟨w, a, -, ha, hvalue⟩ | hdefault
  · have hfield : v.field key = a.value := hvalue
    rw [hfield]
    exact check_timeout_ok ha
  · exact .inl (Option.some.inj hdefault).symm

/-! ## Descriptors that were validated -/

/-- The texts and the timeouts of a cluster. -/
structure Remote.Admitted (r : Remote) : Prop where
  username : (Shape.optional .text).Admits r.username
  password : (Shape.optional .text).Admits r.password
  socketTimeout : r.socketTimeout.IsTimeout
  connectTimeout : r.connectTimeout.IsTimeout

/-- A part is one of as many as there are. -/
def Slice.Admitted (s : Slice) : Prop :=
  ∃ id max : Int, s.id = .int id ∧ s.max = .int max ∧ 0 ≤ id ∧ id < max

structure ReindexSource.Admitted (s : ReindexSource) : Prop where
  remote : ∀ r ∈ s.remote, r.Admitted
  size : (Shape.optional .whole).Admits s.size
  slice : ∀ p ∈ s.slice, p.Admitted

structure ReindexDest.Admitted (d : ReindexDest) : Prop where
  index : Shape.text.Admits d.index
  routing : (Shape.optional .text).Admits d.routing
  pipeline : (Shape.optional .text).Admits d.pipeline

structure ReindexScript.Admitted (s : ReindexScript) : Prop where
  source : Shape.text.Admits s.source
  lang : (Shape.optional .text).Admits s.lang

structure ReindexQuery.Admitted (q : ReindexQuery) : Prop where
  source : q.source.Admitted
  dest : q.dest.Admitted
  script : ∀ s ∈ q.script, s.Admitted
  maxDocs : (Shape.optional .whole).Admits q.maxDocs
  refresh : (Shape.optional .flag).Admits q.refresh
  timeout : q.timeout.IsTimeout
  requestsPerSecond : (Shape.optional .decimal).Admits q.requestsPerSecond
  slices : (Shape.optional (.anyOf [.whole, .text])).Admits q.slices
  waitForCompletion : (Shape.optional .flag).Admits q.waitForCompletion
  waitForActiveShards : (Shape.optional .text).Admits q.waitForActiveShards
  scroll : q.scroll.IsTimeout
  requireAlias : (Shape.optional .flag).Admits q.requireAlias

section Conforms

variable {cat : Catalogue} {v : Value}

theorem Remote.admitted_of_conforms {r : Remote} (h : Conforms cat model v)
    (hr : ofValue? v = some r) : r.Admitted := by
  simp only [ofValue?, Option.bind_eq_bind, Option.bind_eq_some_iff] at hr
  obtain ⟨w, hw, _, -, _, -, _, -, _, -, hr⟩ := hr
  obtain rfl := Value.eq_of_ofClass? hw
  cases hr
  exact {
    username := h.admits (p := .optional "username" .text) (by simp [model, Model.plain]) rfl
    password := h.admits (p := .optional "password" .text) (by simp [model, Model.plain]) rfl
    socketTimeout := h.isTimeout (by simp [model, Model.plain])
    connectTimeout := h.isTimeout (by simp [model, Model.plain]) }

theorem Slice.admitted_of_conforms {s : Slice} (h : Conforms cat model v)
    (hs : ofValue? v = some s) : s.Admitted := by
  simp only [ofValue?, Option.bind_eq_bind, Option.bind_eq_some_iff] at hs
  obtain ⟨w, hw, hs⟩ := hs
  obtain rfl := Value.eq_of_ofClass? hw
  cases hs
  obtain ⟨_, a, -, ha, hid⟩ := h.required "id" (.integer (some 0) none)
    (by simp [model, Model.plain])
  obtain ⟨_, b, -, hb, hmax⟩ := h.required "max" (.integer (some 1) none)
    (by simp [model, Model.plain])
  obtain ⟨id, hid', hlow⟩ := check_integer_low ha
  obtain ⟨max, hmax', -⟩ := check_integer_low hb
  obtain ⟨slots, hslots, hrule⟩ := h.rule
  refine ⟨id, max, hid.trans hid', hmax.trans hmax', hlow, ?_⟩
  have hmessage : rule slots = none := hrule
  rw [rule, hslots, hslots, hid, hmax, hid', hmax'] at hmessage
  dsimp only at hmessage
  split at hmessage
  · next hlt => exact hlt
  · cases hmessage

variable (hcat : cat.Sound) (hmodels : ∀ m ∈ ReindexQuery.models, cat.model? m.name = some m)

section
include hcat hmodels

theorem ReindexSource.admitted_of_conforms {s : ReindexSource} (h : Conforms cat model v)
    (hs : ofValue? v = some s) : s.Admitted := by
  have hremote : v.field "remote" = .null ∨ Conforms cat Remote.model (v.field "remote") :=
    h.record_optional "remote" "Remote" hcat (hmodels Remote.model (by simp [ReindexQuery.models]))
      (by simp [model, Model.plain])
  have hslice : v.field "slice" = .null ∨ Conforms cat Slice.model (v.field "slice") :=
    h.record_optional "slice" "Slice" hcat (hmodels Slice.model (by simp [ReindexQuery.models]))
      (by simp [model, Model.plain])
  simp only [ofValue?, Option.bind_eq_bind, Option.bind_eq_some_iff] at hs
  obtain ⟨w, hw, _, -, remote, hr, _, -, _, -, slice, hp, hs⟩ := hs
  obtain rfl := Value.eq_of_ofClass? hw
  cases hs
  exact {
    remote := forall_of_unlessNull hr fun hset r hread =>
      Remote.admitted_of_conforms (hremote.resolve_left hset) hread
    size := h.admits_whole "size" (some 1) none (by simp [model, Model.plain])
    slice := forall_of_unlessNull hp fun hset p hread =>
      Slice.admitted_of_conforms (hslice.resolve_left hset) hread }

end

theorem ReindexDest.admitted_of_conforms {d : ReindexDest} (h : Conforms cat model v)
    (hd : ofValue? v = some d) : d.Admitted := by
  simp only [ofValue?, Option.bind_eq_bind, Option.bind_eq_some_iff] at hd
  obtain ⟨w, hw, _, -, _, -, hd⟩ := hd
  obtain rfl := Value.eq_of_ofClass? hw
  cases hd
  exact {
    index := h.admits (p := .required "index" .text) (by simp [model, Model.plain]) rfl
    routing := h.admits (p := .optional "routing" .text) (by simp [model, Model.plain]) rfl
    pipeline := h.admits (p := .optional "pipeline" .text) (by simp [model, Model.plain]) rfl }

theorem ReindexScript.admitted_of_conforms {s : ReindexScript} (h : Conforms cat model v)
    (hs : ofValue? v = some s) : s.Admitted := by
  simp only [ofValue?, Option.bind_eq_bind, Option.bind_eq_some_iff] at hs
  obtain ⟨w, hw, hs⟩ := hs
  obtain rfl := Value.eq_of_ofClass? hw
  cases hs
  exact {
    source := h.admits (p := .required "source" .text) (by simp [model, Model.plain]) rfl
    lang := h.admits (p := .optional "lang" .text) (by simp [model, Model.plain]) rfl }

include hcat hmodels

theorem ReindexQuery.admitted_of_conforms {q : ReindexQuery} (h : Conforms cat model v)
    (hq : ofValue? v = some q) : q.Admitted := by
  have hsource : Conforms cat ReindexSource.model (v.field "source") :=
    h.record_required "source" "ReindexSource" hcat (hmodels ReindexSource.model (by simp [models]))
      (by simp [model, Model.plain])
  have hdest : Conforms cat ReindexDest.model (v.field "dest") :=
    h.record_required "dest" "ReindexDest" hcat (hmodels ReindexDest.model (by simp [models]))
      (by simp [model, Model.plain])
  have hscript : v.field "script" = .null ∨ Conforms cat ReindexScript.model (v.field "script") :=
    h.record_optional "script" "ReindexScript" hcat (hmodels ReindexScript.model (by simp [models]))
      (by simp [model, Model.plain])
  simp only [ofValue?, Option.bind_eq_bind, Option.bind_eq_some_iff] at hq
  obtain ⟨w, hw, source, hs, dest, hd, script, hscript', _, -, hq⟩ := hq
  obtain rfl := Value.eq_of_ofClass? hw
  cases hq
  exact {
    source := ReindexSource.admitted_of_conforms hcat hmodels hsource hs
    dest := ReindexDest.admitted_of_conforms hdest hd
    script := forall_of_unlessNull hscript' fun hset s hread =>
      ReindexScript.admitted_of_conforms (hscript.resolve_left hset) hread
    maxDocs := h.admits_whole "max_docs" (some 1) none (by simp [model, Model.plain])
    refresh := h.admits (p := .optional "refresh" .flag) (by simp [model, Model.plain]) rfl
    timeout := h.isTimeout (by simp [model, Model.plain])
    requestsPerSecond := h.admits (p := .optional "requests_per_second" .decimal)
      (by simp [model, Model.plain]) rfl
    slices := h.admits (p := .optional "slices" (.anyOf [.whole, .text]))
      (by simp [model, Model.plain]) rfl
    waitForCompletion := h.admits (p := .optional "wait_for_completion" .flag)
      (by simp [model, Model.plain]) rfl
    waitForActiveShards := h.admits (p := .optional "wait_for_active_shards" .text)
      (by simp [model, Model.plain]) rfl
    scroll := h.isTimeout (by simp [model, Model.plain])
    requireAlias := h.admits (p := .optional "require_alias" .flag)
      (by simp [model, Model.plain]) rfl }

end Conforms

/-! ## What a request shows -/

open Fields (present)

namespace Remote

variable {r : Remote}

/-- The fields of a cluster in a request: its address, and what is set. -/
def parts (r : Remote) : List (String × Option Value) :=
  [("host", some (.str r.url)), ("username", r.username.present?),
    ("password", r.password.present?), ("socket_timeout", r.socketTimeout.timeValue.present?),
    ("connect_timeout", r.connectTimeout.timeValue.present?)]

theorem Admitted.toValue_eq (hr : r.Admitted) :
    r.toValue = .ok (.object (present r.parts)) := by
  have hhost : ([("host", .str r.url)] : Fields) = present [("host", some (.str r.url))] := rfl
  rw [toValue, hr.socketTimeout.timeField_eq, hr.connectTimeout.timeField_eq]
  simp only [bind, Except.bind, hhost, Fields.given_eq_present, ← Fields.present_append]
  rfl

theorem Admitted.wireForm_parts (hr : r.Admitted) :
    (Value.object (present r.parts)).wireForm = .object (present r.parts) := by
  apply Fields.wireForm_present_of
  simp only [parts, List.forall_mem_cons]
  exact ⟨rfl, Value.map_wireForm_present? (hr.username.wireForm_eq rfl),
    Value.map_wireForm_present? (hr.password.wireForm_eq rfl),
    Value.map_wireForm_present? (hr.socketTimeout.admits.wireForm_eq rfl),
    Value.map_wireForm_present? (hr.connectTimeout.admits.wireForm_eq rfl), List.forall_mem_nil _⟩

end Remote

namespace ReindexSource

variable {s : ReindexSource}

/-- The fields of a source in a request: the indices, and what is set. A filter on the fields of
documents has both of its lists. -/
def parts (s : ReindexSource) (query : Option Value) : List (String × Option Value) :=
  [("remote", s.remote.map fun r => .object (present r.parts)),
    ("index", some (.ofTexts s.indices)), ("size", s.size.present?), ("query", query),
    ("_source", s.sourceFilter.map fun f =>
      .object [("includes", .ofTexts f.includes), ("excludes", .ofTexts f.excludes)]),
    ("slice", s.slice.map fun p => .object [("id", p.id), ("max", p.max)])]

theorem Admitted.remoteFields_eq (hs : s.Admitted) : s.remoteFields =
    .ok (present [("remote", s.remote.map fun r => .object (present r.parts))]) := by
  unfold remoteFields
  split
  · next hnone =>
    rw [hnone]
    rfl
  · next r hr =>
    rw [(hs.remote r hr).toValue_eq, hr]
    rfl

/-- The clause of the query, if there is one. -/
theorem queryFields_eq {clause : Option Clause}
    (h : s.query.mapM (Query.clause (fieldName none)) = .ok clause) :
    s.queryFields = .ok (present [("query", clause.map Clause.toValue)]) := by
  unfold queryFields
  rcases option_mapM_eq_ok h with ⟨hnone, rfl⟩ | ⟨q, c, hq, hc, rfl⟩
  · rw [hnone]
    rfl
  · rw [hq]
    simp only [hc, bind, Except.bind]
    rfl

theorem Admitted.toValue_eq (hs : s.Admitted) {clause : Option Clause}
    (hclause : s.query.mapM (Query.clause (fieldName none)) = .ok clause) :
    s.toValue = .ok (.object (present (s.parts (clause.map Clause.toValue)))) := by
  have hindex : ([("index", .ofTexts s.indices)] : Fields) =
      present [("index", some (.ofTexts s.indices))] := rfl
  have hfilter : s.filterFields = present [("_source", s.sourceFilter.map fun f =>
      .object [("includes", .ofTexts f.includes), ("excludes", .ofTexts f.excludes)])] := by
    unfold filterFields
    cases s.sourceFilter <;> rfl
  have hslice : s.sliceFields = present [("slice", s.slice.map fun p =>
      .object [("id", p.id), ("max", p.max)])] := by
    unfold sliceFields
    cases s.slice <;> rfl
  rw [toValue, hs.remoteFields_eq, queryFields_eq hclause]
  simp only [bind, Except.bind, hindex, hfilter, hslice, Fields.given_eq_present,
    ← Fields.present_append]
  rfl

/-- The clause is shown in its wire form, everything else as it is. -/
theorem Admitted.wireForm_parts (hs : s.Admitted) (query : Option Value) :
    (Value.object (present (s.parts query))).wireForm =
      .object (present (s.parts (query.map Value.wireForm))) := by
  have hremote : (s.remote.map fun r => Value.object (present r.parts)).map Value.wireForm =
      s.remote.map fun r => .object (present r.parts) := by
    rw [Option.map_map]
    exact Option.map_congr fun r hr => (hs.remote r hr).wireForm_parts
  have hslice : (s.slice.map fun p => Value.object [("id", p.id), ("max", p.max)]).map
      Value.wireForm = s.slice.map fun p => .object [("id", p.id), ("max", p.max)] := by
    rw [Option.map_map]
    refine Option.map_congr fun p hp => ?_
    obtain ⟨id, max, hid, hmax, -⟩ := hs.slice p hp
    rw [Function.comp_apply, hid, hmax]
    rfl
  have hfilter : (s.sourceFilter.map fun f => Value.object
      [("includes", .ofTexts f.includes), ("excludes", .ofTexts f.excludes)]).map Value.wireForm =
        s.sourceFilter.map fun f =>
          .object [("includes", .ofTexts f.includes), ("excludes", .ofTexts f.excludes)] := by
    rw [Option.map_map]
    refine Option.map_congr fun f _ => ?_
    rw [Function.comp_apply, Value.wireForm_object]
    simp only [List.map_cons, List.map_nil, Query.wireForm_texts]
  rw [Fields.wireForm_present]
  simp only [parts, List.map_cons, List.map_nil, hremote, hslice, hfilter,
    Value.map_wireForm_present? (hs.size.wireForm_eq rfl), Option.map_some, Query.wireForm_texts]

end ReindexSource

namespace ReindexDest

variable {d : ReindexDest}

/-- The version type in a request: the one that is set, else the internal one if there is an op
type. -/
def shownVersionType (d : ReindexDest) : Option VersionType :=
  d.versionType <|> d.opType.map fun _ => .internal

/-- The fields of a destination in a request: the index, and what is set. -/
def parts (d : ReindexDest) : List (String × Option Value) :=
  [("index", some d.index), ("routing", d.routing.present?),
    ("op_type", d.opType.map fun t => .str t.text), ("pipeline", d.pipeline.present?),
    ("version_type", d.shownVersionType.map fun t => .str t.text)]

theorem toValue_eq (d : ReindexDest) : d.toValue = .object (present d.parts) := by
  have hindex : ([("index", d.index)] : Fields) = present [("index", some d.index)] := rfl
  have hop : d.opTypeFields = present [("op_type", d.opType.map fun t => .str t.text)] := by
    unfold opTypeFields
    cases d.opType <;> rfl
  have hversion : d.versionTypeFields =
      present [("version_type", d.shownVersionType.map fun t => .str t.text)] := by
    unfold versionTypeFields shownVersionType
    cases d.versionType <;> cases d.opType <;> rfl
  rw [toValue]
  simp only [hindex, hop, hversion, Fields.given_eq_present, ← Fields.present_append]
  rfl

theorem Admitted.wireForm_parts (hd : d.Admitted) :
    (Value.object (present d.parts)).wireForm = .object (present d.parts) := by
  apply Fields.wireForm_present_of
  simp only [parts, List.forall_mem_cons, Option.map_some, Option.map_map]
  exact ⟨congrArg some (hd.index.wireForm_eq rfl),
    Value.map_wireForm_present? (hd.routing.wireForm_eq rfl), rfl,
    Value.map_wireForm_present? (hd.pipeline.wireForm_eq rfl), rfl, List.forall_mem_nil _⟩

end ReindexDest

namespace ReindexScript

variable {s : ReindexScript}

/-- The fields of a script in a request. -/
def parts (s : ReindexScript) : List (String × Option Value) :=
  [("source", some s.source), ("lang", s.lang.present?)]

theorem Admitted.wireForm_parts (hs : s.Admitted) :
    (Value.object (present s.parts)).wireForm = .object (present s.parts) := by
  apply Fields.wireForm_present_of
  simp only [parts, List.forall_mem_cons, Option.map_some]
  exact ⟨congrArg some (hs.source.wireForm_eq rfl),
    Value.map_wireForm_present? (hs.lang.wireForm_eq rfl), List.forall_mem_nil _⟩

end ReindexScript

namespace ReindexQuery

variable {q : ReindexQuery} {clause : Option Clause} {r : Request}

theorem Admitted.checked (hq : q.Admitted) : q.Checked where
  maxDocs := .of_admits hq.maxDocs
  refresh := .of_admits hq.refresh
  requestsPerSecond := .of_admits hq.requestsPerSecond
  slices := .of_admits hq.slices
  waitForCompletion := .of_admits hq.waitForCompletion
  waitForActiveShards := .of_admits hq.waitForActiveShards
  requireAlias := .of_admits hq.requireAlias

/-- The fields from which a request is always made. -/
def always (q : ReindexQuery) (source : Value) : Fields :=
  [("source", source), ("dest", q.dest.toValue), ("max_docs", q.maxDocs), ("refresh", q.refresh),
    ("requests_per_second", q.requestsPerSecond), ("slices", q.slices),
    ("wait_for_completion", q.waitForCompletion),
    ("wait_for_active_shards", q.waitForActiveShards), ("require_alias", q.requireAlias)]

/-- The fields that are left out if nothing is set. -/
def sometimes (q : ReindexQuery) : Fields :=
  [("script", (q.script.map fun s => .object (present s.parts)).getD .null),
    ("conflicts", (q.conflicts.map fun c => .str c.text).getD .null),
    ("timeout", q.timeout.timeValue), ("scroll", q.scroll.timeValue)]

theorem Admitted.requestFields_eq (hq : q.Admitted)
    (hclause : q.source.query.mapM (Query.clause (fieldName none)) = .ok clause) :
    q.requestFields = .ok (q.always
      (.object (present (q.source.parts (clause.map Clause.toValue)))) ++ q.sometimes.given) := by
  have hscript : q.scriptFields = Fields.given
      [("script", (q.script.map fun s => .object (present s.parts)).getD .null)] := by
    unfold scriptFields
    cases q.script with
    | none => rfl
    | some s =>
      dsimp only
      rw [Fields.given_eq_present]
      rfl
  have hconflicts : q.conflictsFields = Fields.given
      [("conflicts", (q.conflicts.map fun c => .str c.text).getD .null)] := by
    unfold conflictsFields
    cases q.conflicts <;> rfl
  rw [requestFields, hq.source.toValue_eq hclause, hq.timeout.timeField_eq, hq.scroll.timeField_eq]
  simp only [bind, Except.bind, hscript, hconflicts, List.append_assoc, ← Fields.given_append]
  rfl

theorem names_full (q : ReindexQuery) (source : Value) :
    Fields.names (q.always source ++ q.sometimes) =
      ["source", "dest", "max_docs", "refresh", "requests_per_second", "slices",
        "wait_for_completion", "wait_for_active_shards", "require_alias", "script", "conflicts",
        "timeout", "scroll"] := rfl

/-- Every field is of the shape that such requests ask for. -/
theorem Admitted.admits (hq : q.Admitted) {source : Value} (hsource : source.IsObject) :
    ∀ p ∈ RequestKind.reindex.properties,
      p.shape.Admits (((q.always source ++ q.sometimes).get? p.name).getD .null) := by
  have hdest : q.dest.toValue.IsObject := by
    rw [q.dest.toValue_eq]
    exact Fields.isObject_present (by simp [ReindexDest.parts])
  have hscript : (Shape.optional .object).Admits
      ((q.script.map fun s => .object (present s.parts)).getD .null) :=
    Query.admits_option (fun s => admits_object.2
      (Fields.isObject_present (by simp [ReindexScript.parts]))) q.script
  have hconflicts : (Shape.optional .text).Admits
      ((q.conflicts.map fun c => .str c.text).getD .null) :=
    Query.admits_option (fun c => .text c.text) q.conflicts
  simp only [RequestKind.properties, List.forall_mem_cons]
  exact ⟨admits_object.2 hsource, admits_object.2 hdest, hq.maxDocs, hscript,
    hconflicts, hq.refresh, hq.timeout.admits,
    hq.requestsPerSecond, hq.slices, hq.waitForCompletion, hq.waitForActiveShards,
    hq.scroll.admits, hq.requireAlias, List.forall_mem_nil _⟩

/-- The fields of the body by their names, those that are set and those that are not. -/
def bodyParts (q : ReindexQuery) (query : Option Value) : List (String × Option Value) :=
  [("source", some (.object (present (q.source.parts query)))),
    ("dest", some (.object (present q.dest.parts))), ("max_docs", q.maxDocs.present?),
    ("script", q.script.map fun s => .object (present s.parts)),
    ("conflicts", q.conflicts.map fun c => .str c.text)]

/-- The parameters by their names, those that are set and those that are not. -/
def paramParts (q : ReindexQuery) : List (String × Option Value) :=
  [("refresh", q.refresh.present?), ("timeout", q.timeout.timeValue.present?),
    ("requests_per_second", q.requestsPerSecond.present?), ("slices", q.slices.present?),
    ("wait_for_completion", q.waitForCompletion.present?),
    ("wait_for_active_shards", q.waitForActiveShards.present?),
    ("scroll", q.scroll.timeValue.present?), ("require_alias", q.requireAlias.present?)]

/-- **The fields of the request** are those of the body and the parameters. -/
theorem Admitted.fields_eq (hq : q.Admitted)
    (hclause : q.source.query.mapM (Query.clause (fieldName none)) = .ok clause)
    (h : q.request = .ok r) :
    r.fields = present (q.bodyParts (clause.map fun c => c.toValue.wireForm) ++ q.paramParts) := by
  obtain ⟨fields, hfields, hmake⟩ := bind_eq_ok.1 h
  cases (hq.requestFields_eq hclause).symm.trans hfields
  have hsource : (Value.object (present (q.source.parts (clause.map Clause.toValue)))).IsObject :=
    Fields.isObject_present (by simp [ReindexSource.parts])
  have hfull := Request.fields_of_optional (q.always _) (by rw [names_full]; decide)
    (by rw [names_full]; decide) (hq.admits hsource) hmake
  have hdest : q.dest.toValue.wireForm = .object (present q.dest.parts) := by
    rw [q.dest.toValue_eq]
    exact hq.dest.wireForm_parts
  have hscript : ((q.script.map fun s => Value.object (present s.parts)).getD .null).wireForm =
      (q.script.map fun s => .object (present s.parts)).getD .null := by
    cases hs : q.script with
    | none => rfl
    | some s => exact (hq.script s hs).wireForm_parts
  have hconflicts : ((q.conflicts.map fun c => Value.str c.text).getD .null).wireForm =
      (q.conflicts.map fun c => .str c.text).getD .null := by
    cases q.conflicts <;> rfl
  have hsource' : (Value.object (present (q.source.parts (clause.map Clause.toValue)))).wireForm =
      .object (present (q.source.parts (clause.map fun c => c.toValue.wireForm))) := by
    rw [hq.source.wireForm_parts, Option.map_map]
    rfl
  rw [hfull, Fields.given_eq_present, bodyParts, paramParts]
  congr 1
  have hflat : ∀ {s : Shape} {v : Value}, s.Admits v → s.isFlat →
      v.wireForm.present? = v.present? := fun h hs => congrArg Value.present? (h.wireForm_eq hs)
  simp only [RequestKind.properties, List.map_cons, List.map_nil, List.cons_append, List.nil_append,
    List.cons.injEq, Prod.mk.injEq]
  exact ⟨⟨rfl, congrArg Value.present? hsource'⟩, ⟨rfl, congrArg Value.present? hdest⟩,
    ⟨rfl, hflat hq.maxDocs rfl⟩,
    ⟨rfl, (congrArg Value.present? hscript).trans
      (Value.present?_option (fun _ => rfl) q.script)⟩,
    ⟨rfl, (congrArg Value.present? hconflicts).trans
      (Value.present?_option (fun _ => rfl) q.conflicts)⟩,
    ⟨rfl, hflat hq.refresh rfl⟩, ⟨rfl, hflat hq.timeout.admits rfl⟩,
    ⟨rfl, hflat hq.requestsPerSecond rfl⟩, ⟨rfl, hflat hq.slices rfl⟩,
    ⟨rfl, hflat hq.waitForCompletion rfl⟩, ⟨rfl, hflat hq.waitForActiveShards rfl⟩,
    ⟨rfl, hflat hq.scroll.admits rfl⟩, ⟨rfl, hflat hq.requireAlias rfl⟩, trivial⟩

/-- **A copy carries exactly what its descriptor sets.** A validated descriptor of a copy whose
query compiles makes a request. Its body has the source and the destination with their parts, the
script, the number of documents and what happens on conflicts, and its parameters have the other
options, each if it is set and under no other condition, so also if it is false or zero; nothing
else is in either of them. A part of a copy that is asked for is one of as many as there are. -/
theorem request_carries {cat : Catalogue} {args : Fields} {v : Value} (hcat : cat.Sound)
    (hmodels : ∀ m ∈ models, cat.model? m.name = some m)
    (hargs : ∀ f ∈ args, Validated cat f.2) (hbuild : cat.build model.name args = .ok v)
    (hq : ofValue? v = some q)
    (hclause : q.source.query.mapM (Query.clause (fieldName none)) = .ok clause) :
    ∃ r, q.request = .ok r ∧
      r.body = .object (present (q.bodyParts (clause.map fun c => c.toValue.wireForm))) ∧
      r.params = present q.paramParts ∧
      ∀ p ∈ q.source.slice, ∃ id max : Int,
        p.id = .int id ∧ p.max = .int max ∧ 0 ≤ id ∧ id < max := by
  have hm : cat.model? model.name = some model := hmodels model (by simp [models])
  have hadmitted := admitted_of_conforms hcat hmodels (conforms_of_build hcat hm hargs hbuild) hq
  have hsuited := hadmitted.checked.yields_requestFields
  rw [hadmitted.requestFields_eq hclause] at hsuited
  obtain ⟨r, hr⟩ := Request.exists_make hsuited
  have hrequest : q.request = .ok r := bind_eq_ok.2 ⟨_, hadmitted.requestFields_eq hclause, hr⟩
  have hfields := hadmitted.fields_eq hclause hrequest
  have hkind := Request.kind_make hr
  have hparam : ∀ key, r.isParam key = RequestKind.reindex.paramKeys.contains key := by
    intro key
    rw [Request.isParam, hkind]
  refine ⟨r, hrequest, ?_, ?_, hadmitted.source.slice⟩
  · rw [Request.body_eq (by rw [hkind]; rfl), hfields]
    simp only [hparam]
    rw [Fields.filter_present fun key => !RequestKind.reindex.paramKeys.contains key]
    rfl
  · rw [Request.params, hfields]
    simp only [hparam]
    rw [Fields.filter_present fun key => RequestKind.reindex.paramKeys.contains key]
    rfl

/-- A copy of one of two parts of two indices, with options that are set, though to nothing much. -/
private def halved : Fields :=
  [("source", .object [("indices", .ofTexts ["old", "older"]), ("source_filter", .object []),
      ("slice", .object [("id", .int 0), ("max", .int 2)])]),
    ("dest", .object [("index", .str "new")]), ("refresh", .bool false), ("timeout", .int 5),
    ("requests_per_second", .int 0)]

private def halvedBody : Value :=
  .object [("source", .object [("index", .ofTexts ["old", "older"]),
      ("_source", .object [("includes", .list []), ("excludes", .list [])]),
      ("slice", .object [("id", .int 0), ("max", .int 2)])]),
    ("dest", .object [("index", .str "new"), ("op_type", .str "index"),
      ("version_type", .str "internal")])]

theorem request_carries_halved : ∃ v q r, Catalogue.standard.build model.name halved = .ok v ∧
    ofValue? v = some q ∧ q.request = .ok r ∧ r.body = halvedBody ∧
      r.params.names = ["refresh", "timeout", "requests_per_second"] := by
  have hmodels : ∀ m ∈ models, Catalogue.standard.model? m.name = some m := fun m hm =>
    Catalogue.model?_standard (by simp [Catalogue.standardModels, hm])
  have hargs : ∀ f ∈ halved, Validated Catalogue.standard f.2 := by
    have hfilter : Validated Catalogue.standard (.object []) := .object (List.forall_mem_nil _)
    have hslice : Validated Catalogue.standard (.object [("id", .int 0), ("max", .int 2)]) := by
      refine .object ?_
      simp only [List.forall_mem_cons]
      exact ⟨.simple rfl, .simple rfl, List.forall_mem_nil _⟩
    simp only [halved, List.forall_mem_cons]
    refine ⟨.object ?_, .object ?_, .simple rfl, .simple rfl, .simple rfl, List.forall_mem_nil _⟩
    · simp only [List.forall_mem_cons]
      exact ⟨.texts _, hfilter, hslice, List.forall_mem_nil _⟩
    · exact List.forall_mem_singleton.2 (.simple rfl)
  obtain ⟨v, q, hv, hq, hclause, hbody, hparams⟩ : ∃ v q,
      Catalogue.standard.build model.name halved = .ok v ∧ ofValue? v = some q ∧
        q.source.query.mapM (Query.clause (fieldName none)) = .ok none ∧
        Value.object (present (q.bodyParts none)) = halvedBody ∧
        Fields.names (present q.paramParts) = ["refresh", "timeout", "requests_per_second"] :=
    ⟨_, _, rfl, rfl, rfl, rfl, rfl⟩
  obtain ⟨r, hr, hbody', hparams', -⟩ :=
    request_carries Catalogue.standard_sound hmodels hargs hv hq hclause
  exact ⟨v, q, r, hv, hq, hr, hbody'.trans hbody, by rw [hparams', hparams]⟩

end ReindexQuery

end SearchWire
