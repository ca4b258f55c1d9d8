import SearchWire.Proofs.Clause.Failure
import SearchWire.Proofs.Query.Clause
import SearchWire.Proofs.Request.Suits
import SearchWire.Search.Request

/-!
# The fields of searches suit

A search request is made from a query that was checked, once its clauses, its sort orders and its
timeout are there: each of its fields is of the shape that the request asks for.

* `Query.Checked`: what a query has to meet.
* `Query.Admitted`, `Query.admitted_of_build`: what **every query that is built from arguments**
  meets, which is more.
* `Query.yields_mainClause`, `SortOrder.yields_entries`, `Rescorer.yields_entry`: the parts that are
  compiled.
* `Query.yields_searchFields`, `Query.yields_searchRequest`: **the search request.**
* `Query.yields_deleteRequest`: **the request that deletes by query.**
-/

namespace SearchWire

open Request (Suits Suited)

variable {rename : String → String} {domain : Option Domain}

/-! ## Clauses -/

theorem QuerySource.neverRejects_compile (s : QuerySource) : NeverRejects (s.compile rename) := by
  cases s with
  | everything => trivial
  | criteria tree => exact Criteria.neverRejects_compile tree
  | native clause _ _ => exact clause.neverRejects_compile
  | text json => exact (Document.neverRejects_ofReading "query" _).andThen _

theorem Query.neverRejects_clause (q : Query) : NeverRejects (q.clause rename) :=
  q.source.neverRejects_compile

theorem Query.yields_mainClause {q : Query} (hq : q.source.HasTextKeys) :
    Yields (fun c => Shape.object.Takes c.toValue) (q.mainClause rename) := by
  refine Yields.of_ok ?_ fun c h => .of_isObject (isObject_mainClause hq h)
  refine q.neverRejects_clause.bind fun c _ => ?_
  split
  all_goals trivial

/-! ## Sort orders and rescorers -/

namespace SortOrder

theorem neverRejects_checkField (field : String) : NeverRejects (checkField domain field) := by
  unfold checkField
  repeat' split
  all_goals first | trivial | nofun

theorem yields_fieldEntry (field : String) (s : FieldSort) :
    Yields Shape.object.Takes (fieldEntry field s) := by
  have hmissing := neverRejects_formOf s.missing
  unfold fieldEntry
  split
  · exact .object _
  · exact hmissing.bind fun _ _ => .object _

theorem yields_entry (s : SortOrder) : Yields Shape.object.Takes (s.entry domain) := by
  cases s with
  | field s => exact yields_fieldEntry _ s
  | distance s => exact (neverRejects_checkField s.field).bind fun _ _ => .object _

theorem yields_entries (orders : List SortOrder) :
    Yields (fun vs => RequestKind.objects.Takes (.list vs)) (entries domain orders) :=
  (Yields.mapM fun s _ => s.yields_entry).imp fun _ h => .list h

end SortOrder

theorem Rescorer.yields_entry (r : Rescorer Query) :
    Yields Shape.object.Takes (r.entry rename) :=
  r.query.neverRejects_clause.bind fun _ _ => .object _

theorem Rescorer.yields_entries (rs : List (Rescorer Query)) :
    Yields (fun vs => RequestKind.objects.Takes (.list vs)) (rs.mapM (Rescorer.entry rename)) :=
  (Yields.mapM fun r _ => r.yields_entry).imp fun _ h => .list h

namespace Query

/-! ## Queries that were checked -/

/-- The options of a query that are passed on are of the shapes that a request asks for. -/
structure Checked (q : Query) : Prop where
  clause : q.source.HasTextKeys
  native : ∀ {clause filter aggregations}, q.source = .native clause filter aggregations →
    (Shape.optional .object).Takes filter ∧ (Shape.optional .object).Takes aggregations
  route : (Shape.optional .text).Takes q.route
  requestCache : (Shape.optional .flag).Takes q.requestCache
  trackScores : (Shape.optional .flag).Takes q.trackScores
  trackTotalHits : (Shape.optional (.anyOf [.flag, .whole])).Takes q.trackTotalHits
  minScore : (Shape.optional .decimal).Takes q.minScore
  explain : (Shape.optional .flag).Takes q.explain
  preference : (Shape.optional .text).Takes q.preference

section Built

variable {cat : Catalogue} {m : Model} {name : String} {args : Fields} {v : Value} {q : Query}

theorem names_nodup : ∀ m ∈ models, (m.properties.map Property.name).Nodup := by decide

/-- Only models of queries give the source of a query; these have the options of all queries. -/
theorem properties_subset {get : String → Value} {source : QuerySource} (hm : m ∈ models)
    (h : sourceOf? m.cls get = some source) : properties ⊆ m.properties := by
  simp only [models, List.mem_cons, List.not_mem_nil, or_false] at hm
  rcases hm with rfl | rfl | rfl | rfl | rfl
  · exact List.Subset.refl _
  · exact List.subset_append_left _ _
  · exact List.subset_append_left _ _
  · exact List.subset_append_left _ _
  · cases h

/-- Only a native query has a filter and aggregations of its own. -/
theorem filter_mem_properties {get : String → Value} {clause : ClauseSource}
    {filter aggregations : Value} (hm : m ∈ models)
    (h : sourceOf? m.cls get = some (.native clause filter aggregations)) :
    Property.optional "filter" .object ∈ m.properties ∧
      Property.optional "aggregations" .object ∈ m.properties ∧
      filter = get "filter" ∧ aggregations = get "aggregations" := by
  simp only [models, List.mem_cons, List.not_mem_nil, or_false] at hm
  rcases hm with rfl | rfl | rfl | rfl | rfl
  · cases h
  · cases h
  · cases h
    exact ⟨by simp [modelOf, Model.plain], by simp [modelOf, Model.plain], rfl, rfl⟩
  · obtain ⟨json, -, heq⟩ := Option.bind_eq_some_iff.mp h
    cases heq
  · cases h

/-- The options of a query that are passed on are of their shapes already. -/
structure Admitted (q : Query) : Prop where
  clause : q.source.HasTextKeys
  native : ∀ {clause filter aggregations}, q.source = .native clause filter aggregations →
    (Shape.optional .object).Admits filter ∧ (Shape.optional .object).Admits aggregations
  timeout : q.timeout = .null ∨ (∃ d, q.timeout = .duration d) ∨ ∃ s, q.timeout = .str s
  route : (Shape.optional .text).Admits q.route
  requestCache : (Shape.optional .flag).Admits q.requestCache
  trackScores : (Shape.optional .flag).Admits q.trackScores
  trackTotalHits : (Shape.optional (.anyOf [.flag, .whole])).Admits q.trackTotalHits
  minScore : (Shape.optional .decimal).Admits q.minScore
  explain : (Shape.optional .flag).Admits q.explain
  preference : (Shape.optional .text).Admits q.preference

theorem Admitted.checked (hq : q.Admitted) : q.Checked where
  clause := hq.clause
  native h := (hq.native h).imp .of_admits .of_admits
  route := .of_admits hq.route
  requestCache := .of_admits hq.requestCache
  trackScores := .of_admits hq.trackScores
  trackTotalHits := .of_admits hq.trackTotalHits
  minScore := .of_admits hq.minScore
  explain := .of_admits hq.explain
  preference := .of_admits hq.preference

/-- **The options of every query that is built from arguments** are of their shapes. -/
theorem admitted_of_build (hm : m ∈ models) (hcat : cat.model? name = some m)
    (h : cat.build name args = .ok v) (hq : ofValue? v = some q) : q.Admitted := by
  have hkeys := hasTextKeys_of_build hm hcat h hq
  have hadmits := fun p hp hwire => admits_of_build (p := p) hcat (names_nodup m hm) h hp hwire
  have htimeout := fun hp => field_of_build (p := .withDefault "timeout" .timeout .null) hcat
    (names_nodup m hm) hp h
  obtain ⟨slots, rfl⟩ := record_of_build hcat h
  rw [ofValue?] at hq
  obtain ⟨rescorers, -, hq⟩ := Option.bind_eq_some_iff.mp hq
  -- whatever model a query is of, a query that can be read has the options of all queries
  have hsource := source_of_assemble hq
  have hoption : ∀ p ∈ properties, p.isWire →
      p.shape.Admits (Value.slotValue slots p.name) :=
    fun p hp hwire => hadmits p (properties_subset hm hsource hp) hwire
  simp only [assemble?, Option.bind_eq_bind, Option.bind_eq_some_iff] at hq
  obtain ⟨source, -, _, -, _, -, _, -, _, -, _, -, _, -, _, -, _, -, _, -, hq⟩ := hq
  cases hq
  exact {
    clause := hkeys
    native := by
      intro clause filter aggregations hnative
      have hsource' := hsource.trans (congrArg some hnative)
      obtain ⟨hfilter, haggregations, rfl, rfl⟩ := filter_mem_properties hm hsource'
      exact ⟨hadmits _ hfilter rfl, hadmits _ haggregations rfl⟩
    timeout := by
      rcases htimeout (properties_subset hm hsource (by simp [properties])) with
        ⟨w, a, ha, heq⟩ | hdefault
      · have hvalue : Value.slotValue slots "timeout" = a.value := heq
        dsimp only
        rw [hvalue]
        exact check_timeout_ok ha
      · have hnull : Value.null = Value.slotValue slots "timeout" := Option.some.inj hdefault
        exact .inl hnull.symm
    route := hoption (.optional "route" .text) (by simp [properties]) rfl
    requestCache := hoption (.optional "request_cache" .flag) (by simp [properties]) rfl
    trackScores := hoption (.optional "track_scores" .flag) (by simp [properties]) rfl
    trackTotalHits := hoption (.optional "track_total_hits" (.anyOf [.flag, .whole]))
      (by simp [properties]) rfl
    minScore := hoption (.optional "min_score" .decimal) (by simp [properties]) rfl
    explain := hoption (.optional "explain" .flag) (by simp [properties]) rfl
    preference := hoption (.optional "preference" .text) (by simp [properties]) rfl }

/-- Every query that is built from arguments was checked. -/
theorem checked_of_build (hm : m ∈ models) (hcat : cat.model? name = some m)
    (h : cat.build name args = .ok v) (hq : ofValue? v = some q) : q.Checked :=
  (admitted_of_build hm hcat h hq).checked

end Built

/-! ## Search requests -/

variable {q : Query}

theorem suits_windowFields (settings : Settings) (q : Query) :
    ∀ f ∈ q.windowFields settings, Suits .search f := by
  rw [windowFields]
  simp only [List.forall_mem_cons]
  exact ⟨.of rfl (.given (.whole _)), .of rfl (.given (.whole _)), List.forall_mem_nil _⟩

theorem suits_concurrencyFields (domain : Option Domain) :
    ∀ f ∈ concurrencyFields domain, Suits .search f := by
  unfold concurrencyFields
  split
  · exact List.forall_mem_singleton.mpr (.of rfl (.given (.flag true)))
  · nofun

/-- A list of objects, unless it is empty. -/
theorem suits_listFields {name : String} {vs : List Value}
    (hname : RequestKind.search.shapeOf? name = some (.optional RequestKind.objects))
    (h : RequestKind.objects.Takes (.list vs)) : ∀ f ∈ listFields name vs, Suits .search f := by
  unfold listFields
  split
  · nofun
  · exact List.forall_mem_singleton.mpr (.of hname (.given h))

theorem suits_hitFields (rename : String → String) (q : Query) :
    ∀ f ∈ q.hitFields rename, Suits .search f := by
  rw [hitFields, List.forall_mem_append]
  constructor
  · cases q.storedFields with
    | none => nofun
    | some names => exact List.forall_mem_singleton.mpr (.of rfl (.given (.texts _)))
  · cases q.sourceFilter with
    | none => nofun
    | some filter => exact List.forall_mem_singleton.mpr (.of rfl (.given (.object _)))

theorem suits_highlight (rename : String → String) (q : Query) :
    ∀ f ∈ optionalField "highlight" (q.highlight.map fun h => (h.rename rename).toValue),
      Suits .search f := by
  cases q.highlight with
  | none => nofun
  | some h => exact List.forall_mem_singleton.mpr (.of rfl (.given (.object _)))

theorem yields_searchAfterFields (q : Query) :
    Yields (fun fs => ∀ f ∈ fs, Suits .search f) q.searchAfterFields := by
  unfold searchAfterFields
  split
  · exact List.forall_mem_nil _
  · next vs _ =>
    have hforms : NeverRejects (vs.mapM formOf) :=
      (Yields.mapM fun v _ => neverRejects_formOf v).neverRejects
    have hany : ∀ xs : List Value, (Shape.sequence .list .any 0).Takes (.list xs) :=
      fun xs => .of_admits (.list fun x _ => .any x)
    exact hforms.bind fun ws _ => List.forall_mem_singleton.mpr (.of rfl (.given (hany ws)))

theorem Checked.suits_optionFields (hq : q.Checked) : ∀ f ∈ q.optionFields, Suits .search f := by
  refine Fields.forall_mem_given ?_
  simp only [List.forall_mem_cons]
  exact ⟨.of rfl hq.requestCache, .of rfl hq.trackScores, .of rfl hq.trackTotalHits,
    .of rfl hq.minScore, .of rfl hq.explain, .of rfl hq.preference, .of rfl hq.route,
    List.forall_mem_nil _⟩

/-- The index options suit in all kinds of requests that have them. -/
theorem suits_indicesFields {kind : RequestKind} (q : Query)
    (hkind : RequestKind.indicesProperties ⊆ kind.properties) :
    ∀ f ∈ q.indicesFields, Suits kind f := by
  have hkeys : ∀ p ∈ RequestKind.indicesProperties, p.name ∈ p.keys := by decide
  have hshape : ∀ p ∈ RequestKind.indicesProperties, kind.shapeOf? p.name = some p.shape :=
    fun p hp => Request.shapeOf?_of_mem (hkind hp) (hkeys p hp)
  simp only [RequestKind.indicesProperties, List.forall_mem_cons] at hshape
  obtain ⟨hignore, hallow, hexpand, -⟩ := hshape
  unfold indicesFields
  cases q.indicesOptions with
  | none => exact List.forall_mem_nil _
  | some o =>
    simp only [Option.map_some, Option.getD_some, IndicesOptions.params, List.forall_mem_cons]
    exact ⟨.of hignore (.given (.flag _)), .of hallow (.given (.flag _)),
      .of hexpand (.given (.text _)), List.forall_mem_nil _⟩

theorem Checked.suits_nativeFields (hq : q.Checked) : ∀ f ∈ q.nativeFields, Suits .search f := by
  unfold nativeFields
  split
  · next hnative =>
    obtain ⟨hfilter, haggregations⟩ := hq.native hnative
    rw [List.forall_mem_append]
    constructor
    · split
      · exact List.forall_mem_singleton.mpr (.of rfl haggregations)
      · nofun
    · exact Fields.forall_mem_given (List.forall_mem_singleton.mpr (.of rfl hfilter))
  · nofun

theorem Checked.yields_searchFields (hq : q.Checked) (settings : Settings) (domain : Option Domain)
    (index : IndexCoordinates) :
    Yields (Suited .search) (q.searchFields settings domain index) := by
  refine (yields_mainClause hq.clause).bind fun clause hclause => ?_
  refine (SortOrder.yields_entries q.sort).bind fun sort hsort => ?_
  refine (Rescorer.yields_entries q.rescorers).bind fun rescore hrescore => ?_
  refine (Request.suits_timeField .search rfl).bind fun timeout htimeout => ?_
  refine q.yields_searchAfterFields.bind fun searchAfter hsearchAfter => ?_
  -- nothing fails after that: what is left are groups of fields that suit one by one
  have hrequired : RequestKind.search.required = ["index", "query"] := rfl
  refine ⟨?_, by simp [hrequired, Fields.names]⟩
  simp only [List.forall_mem_append, List.forall_mem_cons, and_assoc]
  exact ⟨.of rfl (.texts _), .of rfl hclause, .of rfl (.given (.flag true)), List.forall_mem_nil _,
    suits_windowFields settings q, suits_concurrencyFields domain, suits_listFields rfl hsort,
    suits_listFields rfl hrescore, suits_hitFields _ q, htimeout, suits_highlight _ q, hsearchAfter,
    hq.suits_optionFields, suits_indicesFields q (List.subset_append_right _ _),
    hq.suits_nativeFields⟩

/-- **The search request** of a query that was checked is made, unless a clause, a sort order or a
value of it is ill-formed. -/
theorem Checked.yields_searchRequest (hq : q.Checked) (settings : Settings)
    (domain : Option Domain) (index : IndexCoordinates) :
    Yields (fun r => r.kind = .search) (q.searchRequest settings domain index) :=
  (hq.yields_searchFields settings domain index).bind fun _ hfields => hfields.yields_make

/-- **The request that deletes by query**, with any number as a bound or with none. -/
theorem Checked.yields_deleteRequest (hq : q.Checked) (domain : Option Domain)
    (index : IndexCoordinates) {maxDocs : Value} (hmax : (Shape.optional .whole).Takes maxDocs) :
    Yields (fun r => r.kind = .deleteByQuery) (q.deleteRequest domain index maxDocs) := by
  refine (yields_mainClause hq.clause).bind fun clause hclause => ?_
  refine (Request.suits_timeField .deleteByQuery rfl).bind fun timeout htimeout => ?_
  have hrequired : RequestKind.deleteByQuery.required = ["index", "query"] := rfl
  refine Suited.yields_make ⟨?_, by simp [hrequired, Fields.names]⟩
  simp only [List.forall_mem_append, List.forall_mem_cons, and_assoc]
  exact ⟨.of rfl (.texts _), .of rfl hclause, .of rfl hmax, .of rfl hq.route,
    List.forall_mem_nil _, htimeout, suits_indicesFields q (List.subset_append_right _ _)⟩

end Query

end SearchWire
