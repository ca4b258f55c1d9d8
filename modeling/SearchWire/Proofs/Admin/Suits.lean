import SearchWire.Admin.Index
import SearchWire.Proofs.Search.Suits
import SearchWire.Reindex.Request

/-!
# The fields of requests for indices suit

Alias actions are objects whatever their parameters are; templates and copies are requested from
descriptors that were checked.

* `yields_aliasRequest`: **the request for a batch of alias actions.**
* `IndexTemplate.Checked.yields_request`: **the request that stores a template.**
* `ReindexQuery.Checked.yields_request`: **the request that copies documents.**
-/

namespace SearchWire

open Request (Suits Suited)

variable {cat : Catalogue} {args : Fields} {v : Value} {resolver : Option Catalogue}

/-! ## Alias actions -/

theorem AliasParameters.neverRejects_body (p : AliasParameters) :
    NeverRejects (p.body resolver) := by
  have hfilter : NeverRejects (p.filterFields resolver) := by
    unfold filterFields
    split
    · trivial
    · next q _ => exact q.neverRejects_clause.andThen _
  exact hfilter.andThen _

theorem AliasAction.yields_entry (a : AliasAction) :
    Yields Shape.object.Takes (a.entry resolver) := by
  have hbody : NeverRejects (a.body resolver) := by
    unfold body
    split
    · trivial
    · exact a.parameters.neverRejects_body.andThen _
  exact hbody.bind fun _ _ => .object _

/-- **The request for a batch of alias actions.** -/
theorem yields_aliasRequest (resolver : Option Catalogue) (actions : List AliasAction) :
    Yields (fun r => r.kind = .aliasActions) (aliasRequest resolver actions) := by
  refine (Yields.mapM fun a _ => a.yields_entry).bind fun entries hentries => ?_
  have hrequired : RequestKind.aliasActions.required = ["actions"] := rfl
  have hobjects : RequestKind.objects.Takes (.list entries) := .list hentries
  exact Suited.yields_make
    ⟨List.forall_mem_singleton.mpr (.of rfl hobjects), by simp [hrequired, Fields.names]⟩

/-! ## Templates -/

/-- What holds of a body holds of all aliases that get it. -/
theorem forall_mem_nameAliases {P : Value → Prop} {aliases body : Fields}
    (h : ∀ f ∈ aliases, P f.2) (hbody : P (.object body)) (names : List String) :
    ∀ f ∈ nameAliases aliases names body, P f.2 := by
  unfold nameAliases
  induction names generalizing aliases with
  | nil => exact h
  | cons name names ih => exact ih (Fields.forall_mem_set h hbody name)

theorem yields_addAliases {aliases : Fields} (h : ∀ f ∈ aliases, Shape.object.Takes f.2)
    (actions : List AliasAction) :
    Yields (fun fs => ∀ f ∈ fs, Shape.object.Takes f.2) (addAliases resolver aliases actions) := by
  -- the aliases that earlier actions added are objects by name
  induction actions generalizing aliases with
  | nil => exact h
  | cons a actions ih =>
    unfold addAliases
    split
    · nofun
    · split
      · nofun
      · exact a.parameters.neverRejects_body.bind fun body _ =>
          ih (forall_mem_nameAliases h (.object body) _)

/-- Aliases by name are objects. -/
theorem yields_templateAliases (resolver : Option Catalogue) (actions : Option (List AliasAction)) :
    Yields (Shape.optional RequestKind.objectsByName).Takes (templateAliases resolver actions) := by
  unfold templateAliases
  split
  · exact .null _
  · exact (yields_addAliases (List.forall_mem_nil _) _).bind fun fs hfs => .given (.mapping hfs)

namespace IndexTemplate

variable {t : IndexTemplate}

/-- What is passed on is of the shapes that a request asks for. -/
structure Checked (t : IndexTemplate) : Prop where
  name : Shape.text.Takes t.name
  order : (Shape.optional .whole).Takes t.order
  version : (Shape.optional .whole).Takes t.version

theorem checked_of_build (hcat : cat.model? model.name = some model)
    (h : cat.build model.name args = .ok v) (ht : ofValue? v = some t) : t.Checked := by
  have hnames : (model.properties.map Property.name).Nodup := by decide
  have htakes := fun p hp hwire => takes_of_build (p := p) hcat hnames h hp hwire
  simp only [ofValue?, Option.bind_eq_bind, Option.bind_eq_some_iff] at ht
  obtain ⟨w, hw, patterns, -, actions, -, ht⟩ := ht
  obtain rfl := Value.eq_of_ofClass? hw
  cases ht
  exact {
    name := htakes (.required "name" .text) (by simp [model, Model.plain]) rfl
    order := htakes (.optional "order" .whole) (by simp [model, Model.plain]) rfl
    version := htakes (.optional "version" .whole) (by simp [model, Model.plain]) rfl }

/-- **The request that stores a template.** -/
theorem Checked.yields_request (ht : t.Checked) (resolver : Option Catalogue) :
    Yields (fun r => r.kind = .putTemplate) (t.request resolver) := by
  refine (Document.takes_parseObject "settings" t.settings).bind fun settings hsettings => ?_
  refine (Document.takes_parseObject "mappings" t.mappings).bind fun mappings hmappings => ?_
  refine (yields_templateAliases resolver t.aliasActions).bind fun aliases haliases => ?_
  have hrequired : RequestKind.putTemplate.required = ["name", "index_patterns"] := rfl
  refine Suited.yields_make ⟨?_, by simp [hrequired, Fields.names]⟩
  simp only [List.forall_mem_cons]
  exact ⟨.of rfl ht.name, .of rfl (.texts _), .of rfl ht.order, .of rfl ht.version,
    .of rfl hsettings, .of rfl hmappings, .of rfl haliases, List.forall_mem_nil _⟩

end IndexTemplate

/-! ## Copies -/

theorem Remote.yields_toValue (r : Remote) : Yields Shape.object.Takes r.toValue :=
  (yields_timeField _ _).bind fun _ _ => (yields_timeField _ _).bind fun _ _ => .object _

theorem ReindexSource.yields_toValue (s : ReindexSource) : Yields Shape.object.Takes s.toValue := by
  have hremote : NeverRejects s.remoteFields := by
    unfold remoteFields
    split
    · trivial
    · next r _ => exact r.yields_toValue.neverRejects.andThen _
  have hquery : NeverRejects s.queryFields := by
    unfold queryFields
    split
    · trivial
    · next q _ => exact q.neverRejects_clause.andThen _
  exact hremote.bind fun _ _ => hquery.bind fun _ _ => .object _

namespace ReindexQuery

variable {q : ReindexQuery}

/-- What is passed on is of the shapes that a request asks for. -/
structure Checked (q : ReindexQuery) : Prop where
  maxDocs : (Shape.optional .whole).Takes q.maxDocs
  refresh : (Shape.optional .flag).Takes q.refresh
  requestsPerSecond : (Shape.optional .decimal).Takes q.requestsPerSecond
  slices : (Shape.optional (.anyOf [.whole, .text])).Takes q.slices
  waitForCompletion : (Shape.optional .flag).Takes q.waitForCompletion
  waitForActiveShards : (Shape.optional .text).Takes q.waitForActiveShards
  requireAlias : (Shape.optional .flag).Takes q.requireAlias

theorem checked_of_build (hcat : cat.model? model.name = some model)
    (h : cat.build model.name args = .ok v) (hq : ofValue? v = some q) : q.Checked := by
  have hnames : (model.properties.map Property.name).Nodup := by decide
  have htakes := fun p hp hwire => takes_of_build (p := p) hcat hnames h hp hwire
  have hmaxDocs : Property.optional "max_docs" (.integer (some 1) none) ∈ model.properties := by
    simp [model, Model.plain]
  simp only [ofValue?, Option.bind_eq_bind, Option.bind_eq_some_iff] at hq
  obtain ⟨w, hw, source, -, dest, -, script, -, conflicts, -, hq⟩ := hq
  obtain rfl := Value.eq_of_ofClass? hw
  cases hq
  exact {
    maxDocs := takesWhole_of_build hcat hnames h hmaxDocs
    refresh := htakes (.optional "refresh" .flag) (by simp [model, Model.plain]) rfl
    requestsPerSecond := htakes (.optional "requests_per_second" .decimal)
      (by simp [model, Model.plain]) rfl
    slices := htakes (.optional "slices" (.anyOf [.whole, .text]))
      (by simp [model, Model.plain]) rfl
    waitForCompletion := htakes (.optional "wait_for_completion" .flag)
      (by simp [model, Model.plain]) rfl
    waitForActiveShards := htakes (.optional "wait_for_active_shards" .text)
      (by simp [model, Model.plain]) rfl
    requireAlias := htakes (.optional "require_alias" .flag) (by simp [model, Model.plain]) rfl }

theorem suits_scriptFields (q : ReindexQuery) : ∀ f ∈ q.scriptFields, Suits .reindex f := by
  unfold scriptFields
  split
  · nofun
  · exact List.forall_mem_singleton.mpr (.of rfl (.given (.object _)))

theorem suits_conflictsFields (q : ReindexQuery) : ∀ f ∈ q.conflictsFields, Suits .reindex f := by
  unfold conflictsFields
  split
  · nofun
  · exact List.forall_mem_singleton.mpr (.of rfl (.given (.text _)))

theorem Checked.yields_requestFields (hq : q.Checked) :
    Yields (Suited .reindex) q.requestFields := by
  refine q.source.yields_toValue.bind fun source hsource => ?_
  refine (Request.suits_timeField .reindex rfl).bind fun timeout htimeout => ?_
  refine (Request.suits_timeField .reindex rfl).bind fun scroll hscroll => ?_
  have hrequired : RequestKind.reindex.required = ["source", "dest"] := rfl
  refine ⟨?_, by simp [hrequired, Fields.names]⟩
  simp only [List.forall_mem_append, List.forall_mem_cons, and_assoc]
  exact ⟨.of rfl hsource, .of rfl (.object _), .of rfl hq.maxDocs, .of rfl hq.refresh,
    .of rfl hq.requestsPerSecond, .of rfl hq.slices, .of rfl hq.waitForCompletion,
    .of rfl hq.waitForActiveShards, .of rfl hq.requireAlias, List.forall_mem_nil _,
    suits_scriptFields q, suits_conflictsFields q, htimeout, hscroll⟩

/-- **The request that copies documents.** -/
theorem Checked.yields_request (hq : q.Checked) :
    Yields (fun r => r.kind = .reindex) q.request :=
  hq.yields_requestFields.bind fun _ h => h.yields_make

end ReindexQuery

end SearchWire
