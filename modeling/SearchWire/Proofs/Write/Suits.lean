import SearchWire.Proofs.Request.Suits
import SearchWire.Proofs.Write.Bulk

/-!
# The fields of writes suit

Requests for one document and batches are made from descriptors that were checked, once the index is
known and the documents are read.

* `IndexQuery.Checked`, `UpdateQuery.Checked`, `BulkOptions.Checked`: what the descriptors have to
  meet, and meet if they are built from arguments.
* `IndexQuery.Admitted`, `UpdateQuery.Admitted`: which values they have then.
* `IndexQuery.Checked.yields_request`, `UpdateQuery.Checked.yields_request`: **the requests for one
  document.**
* `yields_bulkRequest`: **the request for a batch.**
-/

namespace SearchWire

open Request (Suits Suited)

variable {cat : Catalogue} {args : Fields} {v : Value} {index : Value} {target : IndexCoordinates}

/-- The index of a write is a text. -/
theorem yields_targetIndex {own : Value} (hown : (Shape.optional .text).Takes own)
    (hindex : IndexCoordinates.coerce index = .ok target) :
    Yields Shape.text.Takes (targetIndex own index) := by
  unfold targetIndex
  split
  · next hgiven =>
    refine hown.of_optional ?_
    cases own with
    | null => cases hgiven
    | _ => rfl
  · rw [hindex]
    exact .text _

theorem suits_concurrencyPair {kind : RequestKind} {seqNo primaryTerm : Value}
    (hseqNo : Suits kind ("if_seq_no", seqNo))
    (hprimaryTerm : Suits kind ("if_primary_term", primaryTerm)) :
    ∀ f ∈ concurrencyPair seqNo primaryTerm, Suits kind f := by
  unfold concurrencyPair
  split
  · nofun
  · exact List.forall_mem_cons.mpr ⟨hseqNo, List.forall_mem_singleton.mpr hprimaryTerm⟩

/-! ## Index requests -/

namespace IndexQuery

variable {q : IndexQuery} {resolver : Option Catalogue}

/-- What is passed on is of the shapes that a request asks for. -/
structure Checked (q : IndexQuery) : Prop where
  id : (Shape.optional .text).Takes q.id
  version : (Shape.optional .whole).Takes q.version
  seqNo : (Shape.optional .whole).Takes q.seqNo
  primaryTerm : (Shape.optional .whole).Takes q.primaryTerm
  routing : (Shape.optional .text).Takes q.routing
  indexName : (Shape.optional .text).Takes q.indexName

/-- What is passed on is a text, a number or nothing. -/
structure Admitted (q : IndexQuery) : Prop where
  id : (Shape.optional .text).Admits q.id
  version : (Shape.optional .whole).Admits q.version
  seqNo : (Shape.optional .whole).Admits q.seqNo
  primaryTerm : (Shape.optional .whole).Admits q.primaryTerm
  routing : (Shape.optional .text).Admits q.routing
  indexName : (Shape.optional .text).Admits q.indexName

theorem Admitted.checked (hq : q.Admitted) : q.Checked where
  id := .of_admits hq.id
  version := .of_admits hq.version
  seqNo := .of_admits hq.seqNo
  primaryTerm := .of_admits hq.primaryTerm
  routing := .of_admits hq.routing
  indexName := .of_admits hq.indexName

theorem admitted_of_build (hcat : cat.model? model.name = some model)
    (h : cat.build model.name args = .ok v) (hq : ofValue? v = some q) : q.Admitted := by
  have hnames : (model.properties.map Property.name).Nodup := by decide
  have hadmits := fun p hp hwire => admits_of_build (p := p) hcat hnames h hp hwire
  simp only [ofValue?, Option.bind_eq_bind, Option.bind_eq_some_iff] at hq
  obtain ⟨w, hw, versionType, -, opType, -, hq⟩ := hq
  obtain rfl := Value.eq_of_ofClass? hw
  cases hq
  exact {
    id := hadmits (.optional "id" .text) (by simp [model, Model.plain]) rfl
    version := hadmits (.optional "version" .whole) (by simp [model, Model.plain]) rfl
    seqNo := hadmits (.optional "seq_no" .whole) (by simp [model, Model.plain]) rfl
    primaryTerm := hadmits (.optional "primary_term" .whole) (by simp [model, Model.plain]) rfl
    routing := hadmits (.optional "routing" .text) (by simp [model, Model.plain]) rfl
    indexName := hadmits (.optional "index_name" .text) (by simp [model, Model.plain]) rfl }

theorem checked_of_build (hcat : cat.model? model.name = some model)
    (h : cat.build model.name args = .ok v) (hq : ofValue? v = some q) : q.Checked :=
  (admitted_of_build hcat h hq).checked

theorem takes_idText (v : Value) : (Shape.optional .text).Takes ((idText v).getD .null) := by
  unfold idText
  split
  · exact .null _
  · exact .given (.text _)

/-- The document of a record, a mapping or a text is an object, and the id that it has a text. -/
theorem yields_document (resolver : Option Catalogue) (q : IndexQuery) :
    Yields (fun d => Shape.object.Takes d.1 ∧ (Shape.optional .text).Takes (d.2.getD .null))
      (q.document resolver) := by
  unfold document
  split
  · split
    · nofun
    · next hsource =>
      refine (Document.yields_parseObject _ _).bind fun w hw => ⟨?_, .null _⟩
      rcases hw with hobject | ⟨-, hnull⟩
      · exact .of_isObject hobject
      · exact absurd (by rw [hnull]; rfl) hsource
  · next c slots _ =>
    have hrecord : Yields Shape.object.Takes (recordDocument resolver c slots) := by
      unfold recordDocument
      dsimp only
      split
      · exact .object _
      · nofun
    exact hrecord.bind fun w hw => ⟨hw, takes_idText _⟩
  · next entries _ =>
    refine (Document.yields_parseObject _ _).bind fun w hw => ⟨?_, ?_⟩
    · rcases hw with hobject | ⟨-, hnull⟩
      · exact .of_isObject hobject
      · cases hnull
    · cases Value.findEntry? entries "id" with
      | none => exact .null _
      | some id => exact takes_idText id
  · nofun

theorem takes_opTypeText (opType : Option OpType) (id : Value) :
    (Shape.optional .text).Takes (opTypeText opType id) := by
  unfold opTypeText
  split
  · exact .given (.text _)
  · split
    · exact .null _
    · exact .given (.text _)

theorem Checked.suits_versionFields (hq : q.Checked) :
    ∀ f ∈ q.versionFields, Suits .index f := by
  unfold versionFields
  split
  · nofun
  · refine List.forall_mem_cons.mpr ⟨.of rfl hq.version, ?_⟩
    split
    · exact List.forall_mem_singleton.mpr (.of rfl (.given (.text _)))
    · nofun

/-- **The index request** of a query that was checked. -/
theorem Checked.yields_request (hq : q.Checked)
    (hindex : IndexCoordinates.coerce index = .ok target) :
    Yields (fun r => r.kind = .index) (q.request resolver index) := by
  have hfields : Yields (Suited .index) (q.requestFields resolver index) := by
    refine (yields_targetIndex hq.indexName hindex).bind fun own hown => ?_
    refine (yields_document resolver q).bind fun ⟨doc, objectId⟩ ⟨hdoc, hobjectId⟩ => ?_
    have hid : (Shape.optional .text).Takes
        (if q.id.isNull then objectId.getD .null else q.id) := by
      split
      · exact hobjectId
      · exact hq.id
    have hrequired : RequestKind.index.required = ["index", "document"] := rfl
    refine ⟨?_, by simp [hrequired, Fields.names]⟩
    simp only [List.forall_mem_append, List.forall_mem_cons, and_assoc]
    exact ⟨.of rfl hown, .of rfl hid, .of rfl hdoc, .of rfl (takes_opTypeText _ _),
      .of rfl hq.routing, List.forall_mem_nil _,
      suits_concurrencyPair (.of rfl hq.seqNo) (.of rfl hq.primaryTerm), hq.suits_versionFields⟩
  exact hfields.bind fun _ h => h.yields_make

end IndexQuery

/-! ## Update requests -/

/-- The field for a refresh policy. -/
theorem suits_refresh {kind : RequestKind} (policy : Option RefreshPolicy)
    (hkind : kind.shapeOf? "refresh" = some (.optional .text)) :
    ∀ f ∈ (match policy with
      | some policy => [("refresh", .str policy.text)]
      | none => [] : Fields), Suits kind f := by
  cases policy with
  | none => nofun
  | some policy => exact List.forall_mem_singleton.mpr (.of hkind (.given (.text _)))

namespace UpdateQuery

variable {q : UpdateQuery}

/-- What is passed on is of the shapes that a request asks for. -/
structure Checked (q : UpdateQuery) : Prop where
  id : Shape.text.Takes q.id
  scriptedUpsert : (Shape.optional .flag).Takes q.scriptedUpsert
  docAsUpsert : (Shape.optional .flag).Takes q.docAsUpsert
  fetchSource : (Shape.optional .flag).Admits q.fetchSource
  ifSeqNo : (Shape.optional .whole).Takes q.ifSeqNo
  ifPrimaryTerm : (Shape.optional .whole).Takes q.ifPrimaryTerm
  routing : (Shape.optional .text).Takes q.routing
  retryOnConflict : (Shape.optional .whole).Takes q.retryOnConflict
  waitForActiveShards : (Shape.optional .text).Takes q.waitForActiveShards
  indexName : (Shape.optional .text).Takes q.indexName

/-- Where an update goes and on which conditions: texts, numbers or nothing. -/
structure Admitted (q : UpdateQuery) : Prop where
  ifSeqNo : (Shape.optional .whole).Admits q.ifSeqNo
  ifPrimaryTerm : (Shape.optional .whole).Admits q.ifPrimaryTerm
  indexName : (Shape.optional .text).Admits q.indexName

theorem admitted_of_build (hcat : cat.model? model.name = some model)
    (h : cat.build model.name args = .ok v) (hq : ofValue? v = some q) : q.Admitted := by
  have hnames : (model.properties.map Property.name).Nodup := by decide
  have hadmits := fun p hp hwire => admits_of_build (p := p) hcat hnames h hp hwire
  simp only [ofValue?, Option.bind_eq_bind, Option.bind_eq_some_iff] at hq
  obtain ⟨w, hw, scriptType, -, refresh, -, hq⟩ := hq
  obtain rfl := Value.eq_of_ofClass? hw
  cases hq
  exact {
    ifSeqNo := hadmits (.optional "if_seq_no" .whole) (by simp [model, Model.plain]) rfl
    ifPrimaryTerm := hadmits (.optional "if_primary_term" .whole) (by simp [model, Model.plain]) rfl
    indexName := hadmits (.optional "index_name" .text) (by simp [model, Model.plain]) rfl }

theorem checked_of_build (hcat : cat.model? model.name = some model)
    (h : cat.build model.name args = .ok v) (hq : ofValue? v = some q) : q.Checked := by
  have hadmitted := admitted_of_build hcat h hq
  have hnames : (model.properties.map Property.name).Nodup := by decide
  have htakes := fun p hp hwire => takes_of_build (p := p) hcat hnames h hp hwire
  simp only [ofValue?, Option.bind_eq_bind, Option.bind_eq_some_iff] at hq
  have hretries : Property.optional "retry_on_conflict" (.integer (some 0) none) ∈
      model.properties := by simp [model, Model.plain]
  obtain ⟨w, hw, scriptType, -, refresh, -, hq⟩ := hq
  obtain rfl := Value.eq_of_ofClass? hw
  cases hq
  exact {
    id := htakes (.required "id" .text) (by simp [model, Model.plain]) rfl
    scriptedUpsert := htakes (.optional "scripted_upsert" .flag) (by simp [model, Model.plain]) rfl
    docAsUpsert := htakes (.optional "doc_as_upsert" .flag) (by simp [model, Model.plain]) rfl
    fetchSource := admits_of_build (p := .optional "fetch_source" .flag) hcat hnames h
      (by simp [model, Model.plain]) rfl
    ifSeqNo := .of_admits hadmitted.ifSeqNo
    ifPrimaryTerm := .of_admits hadmitted.ifPrimaryTerm
    routing := htakes (.optional "routing" .text) (by simp [model, Model.plain]) rfl
    retryOnConflict := takesWhole_of_build hcat hnames h hretries
    waitForActiveShards := htakes (.optional "wait_for_active_shards" .text)
      (by simp [model, Model.plain]) rfl
    indexName := .of_admits hadmitted.indexName }

theorem takes_scriptValue (q : UpdateQuery) : (Shape.optional .object).Takes q.scriptValue := by
  unfold scriptValue
  split
  · exact .null _
  · exact .given (.object _)

theorem Checked.takes_fetchSourceValue (hq : q.Checked) :
    (Shape.optional (.anyOf [.flag, .object])).Takes q.fetchSourceValue := by
  unfold fetchSourceValue
  split
  · exact .given (.flagOr _)
  · have hflag := hq.fetchSource
    generalize q.fetchSource = v at hflag
    cases hflag with
    | null => exact .null _
    | given h => exact .given (.of_admits (.first rfl h))

/-- **The update request** of a query that was checked. -/
theorem Checked.yields_request (hq : q.Checked)
    (hindex : IndexCoordinates.coerce index = .ok target) :
    Yields (fun r => r.kind = .update) (q.request index) := by
  have hfields : Yields (Suited .update) (q.requestFields index) := by
    refine (yields_targetIndex hq.indexName hindex).bind fun own hown => ?_
    refine (Document.takes_parseObject "document" q.document).bind fun doc hdoc => ?_
    refine (Document.takes_parseObject "upsert" q.upsert).bind fun upsert hupsert => ?_
    refine (Request.suits_timeField .update rfl).bind fun timeout htimeout => ?_
    have hrequired : RequestKind.update.required = ["index", "id"] := rfl
    refine ⟨?_, by simp [hrequired, Fields.names]⟩
    simp only [List.forall_mem_append, List.forall_mem_cons, and_assoc]
    exact ⟨.of rfl hown, .of rfl hq.id, .of rfl hdoc, .of rfl hupsert,
      .of rfl (takes_scriptValue q), .of rfl hq.takes_fetchSourceValue, .of rfl hq.routing,
      .of rfl hq.scriptedUpsert, .of rfl hq.docAsUpsert, .of rfl hq.retryOnConflict,
      .of rfl hq.waitForActiveShards, List.forall_mem_nil _,
      suits_concurrencyPair (.of rfl hq.ifSeqNo) (.of rfl hq.ifPrimaryTerm),
      suits_refresh q.refresh rfl, htimeout⟩
  exact hfields.bind fun _ h => h.yields_make

end UpdateQuery

/-! ## Batches -/

theorem suited_bulk {lines : List Value} {more : Fields} (hlines : ∀ line ∈ lines, line.IsObject)
    (hmore : ∀ f ∈ more, Suits .bulk f) :
    Suited .bulk (("operations", .list lines) :: more) := by
  have hrequired : RequestKind.bulk.required = ["operations"] := rfl
  have hobjects : RequestKind.objects.Takes (.list lines) :=
    .list fun line hline => .of_isObject (hlines line hline)
  refine ⟨?_, by simp [hrequired, Fields.names]⟩
  rw [List.forall_mem_cons]
  exact ⟨.of rfl hobjects, hmore⟩

namespace BulkOptions

variable {o : BulkOptions}

/-- What is passed on is of the shapes that a request asks for. -/
structure Checked (o : BulkOptions) : Prop where
  pipeline : (Shape.optional .text).Takes o.pipeline
  routing : (Shape.optional .text).Takes o.routing
  waitForActiveShards : (Shape.optional .text).Takes o.waitForActiveShards

theorem checked_of_build (hcat : cat.model? model.name = some model)
    (h : cat.build model.name args = .ok v) (ho : ofValue? v = some o) : o.Checked := by
  have hnames : (model.properties.map Property.name).Nodup := by decide
  have htakes := fun p hp hwire => takes_of_build (p := p) hcat hnames h hp hwire
  simp only [ofValue?, Option.bind_eq_bind, Option.bind_eq_some_iff] at ho
  obtain ⟨w, hw, refresh, -, ho⟩ := ho
  obtain rfl := Value.eq_of_ofClass? hw
  cases ho
  exact {
    pipeline := htakes (.optional "pipeline" .text) (by simp [model, Model.plain]) rfl
    routing := htakes (.optional "routing" .text) (by simp [model, Model.plain]) rfl
    waitForActiveShards := htakes (.optional "wait_for_active_shards" .text)
      (by simp [model, Model.plain]) rfl }

theorem Checked.yields_fields (ho : o.Checked) :
    Yields (fun fs => ∀ f ∈ fs, Suits .bulk f) o.fields := by
  refine (Request.suits_timeField .bulk rfl).bind fun timeout htimeout => ?_
  simp only [Yields, List.forall_mem_append, List.forall_mem_cons, and_assoc]
  exact ⟨suits_refresh o.refresh rfl, .of rfl ho.pipeline, .of rfl ho.routing,
    List.forall_mem_nil _, htimeout, .of rfl ho.waitForActiveShards, List.forall_mem_nil _⟩

/-- A timeout that was checked has a text. -/
theorem exists_timeField (hcat : cat.model? model.name = some model)
    (h : cat.build model.name args = .ok v) :
    ∃ fs, timeField "timeout" (v.field "timeout") = .ok fs := by
  have hp : .withDefault "timeout" .timeout .null ∈ model.properties := by simp [model, Model.plain]
  have hvalue : v.field "timeout" = .null ∨ (∃ d, v.field "timeout" = .duration d) ∨
      ∃ s, v.field "timeout" = .str s := by
    rcases field_of_build hcat (by decide) hp h with ⟨w, a, ha, hfield⟩ | hdefault
    · have heq : v.field "timeout" = a.value := hfield
      rw [heq]
      exact check_timeout_ok ha
    · exact .inl (Option.some.inj hdefault).symm
  rcases hvalue with hnull | ⟨d, hd⟩ | ⟨s, hs⟩
  · exact ⟨_, by rw [hnull]; rfl⟩
  · exact ⟨_, by rw [hd]; rfl⟩
  · exact ⟨_, by rw [hs]; rfl⟩

/-- **Options that are built from arguments fit.** -/
theorem fit_of_build {resolver : Option Catalogue} (hcat : cat.model? model.name = some model)
    (h : cat.build model.name args = .ok v) (ho : ofValue? v = some o) : o.Fit resolver index := by
  have hfields := (checked_of_build hcat h ho).yields_fields
  obtain ⟨timeout, htimeout⟩ := exists_timeField hcat h
  -- only the timeout could keep the options from being fields
  have hmore : ∃ more, o.fields = .ok more := by
    simp only [ofValue?, Option.bind_eq_bind, Option.bind_eq_some_iff] at ho
    obtain ⟨w, hw, refresh, -, ho⟩ := ho
    obtain rfl := Value.eq_of_ofClass? hw
    cases ho
    exact ⟨_, bind_eq_ok.mpr ⟨timeout, htimeout, rfl⟩⟩
  obtain ⟨more, hmore⟩ := hmore
  rw [hmore] at hfields
  obtain ⟨r, hr⟩ := Request.exists_make (suited_bulk (List.forall_mem_nil _) hfields)
  exact ⟨r, bulkRequest_eq_ok.mpr ⟨[], rfl, more, hmore, hr⟩⟩

end BulkOptions

/-- An item of a batch that was checked, or a value that is no item. -/
def WriteQuery.Checked : WriteQuery → Prop
  | .index q => q.Checked
  | .update q => q.Checked
  | .foreign _ => True

theorem WriteQuery.Checked.neverRejects_lines {q : WriteQuery} {resolver : Option Catalogue}
    (hq : q.Checked) (hindex : IndexCoordinates.coerce index = .ok target) :
    NeverRejects (q.lines resolver index) := by
  cases q with
  | index q => exact (IndexQuery.Checked.yields_request hq hindex).neverRejects.andThen _
  | update q => exact (UpdateQuery.Checked.yields_request hq hindex).neverRejects.andThen _
  | foreign v => nofun

theorem yields_bulkLines {resolver : Option Catalogue} {queries : List WriteQuery}
    (hqueries : ∀ q ∈ queries, q.Checked) (hindex : IndexCoordinates.coerce index = .ok target) :
    Yields (fun lines => ∀ line ∈ lines, line.IsObject) (bulkLines resolver index queries) := by
  -- an item is made into its lines through a request of its own, which is made as all requests are
  have hmade : NeverRejects (bulkLines resolver index queries) := by
    induction queries with
    | nil => trivial
    | cons q queries ih =>
      obtain ⟨hq, hqueries⟩ := List.forall_mem_cons.mp hqueries
      exact (hq.neverRejects_lines hindex).bind fun lines _ => (ih hqueries).andThen _
  exact hmade.of_ok fun lines h => isObject_bulkLines h

/-- **The request for a batch** of items that were checked. -/
theorem yields_bulkRequest {resolver : Option Catalogue} {queries : List WriteQuery}
    {options : Option BulkOptions} (hqueries : ∀ q ∈ queries, q.Checked)
    (hoptions : ∀ o ∈ options, o.Checked)
    (hindex : IndexCoordinates.coerce index = .ok target) :
    Yields (fun r => r.kind = .bulk) (bulkRequest resolver queries index options) := by
  refine (yields_bulkLines hqueries hindex).bind fun lines hlines => ?_
  cases options with
  | none => exact (suited_bulk hlines (List.forall_mem_nil _)).yields_make
  | some o =>
    exact (hoptions o rfl).yields_fields.bind fun more hmore =>
      (suited_bulk hlines hmore).yields_make

end SearchWire
