import SearchWire.Proofs.Mapping.Instance
import SearchWire.Proofs.Request.Exact
import SearchWire.Proofs.Search.Rename
import SearchWire.Proofs.Search.Suits

/-!
# What a search request carries

A search request has its indices, its clause, its window of hits and the mark that hits return their
versions. Every option of the query that is set is there too, with the value that the query has for
it, also if this is false, zero or an empty list; only the lists of sort orders and rescorers and
the aggregations count as set if they are not empty. An option that is not set leaves no trace.

* `Query.Compiled`: the parts of a search request that are compiled.
* `Query.dictionary`: the fields of a search request, with `null` for what is not there.
* `Query.searchRequest_eq`: **the search request has these fields.**
* `Query.presence`, `Catalogue.isSome_holder?_iff`: which of them are there.
* `Query.searchRequest_carries`: **every option is there if it is set, with its value.**
-/

namespace SearchWire

/-- A property of a type tracks concurrent writes, inside optional and collection wrappers. -/
theorem Catalogue.isSome_holder?_iff {cat : Catalogue} {type : TypeExpr} :
    (cat.holder? type).isSome ↔ ∃ n m p k, type = .named n ∧ cat.model? n = some m ∧
      p ∈ m.properties ∧ p.declared.unwrap.1 = .named k ∧ cat.isA k "SeqNoPrimaryTerm" := by
  have hholds : ∀ t : TypeExpr, cat.holds "SeqNoPrimaryTerm" t ↔
      ∃ k, t = .named k ∧ cat.isA k "SeqNoPrimaryTerm" := by
    intro t
    cases t <;> simp [holds]
  cases type with
  | named n =>
    cases hm : cat.model? n with
    | none => simp [holder?, entity?, hm]
    | some m =>
      have hfind : (cat.holder? (.named n)).isSome ↔
          ∃ p ∈ m.properties, cat.holds "SeqNoPrimaryTerm" p.declared.unwrap.1 := by
        simp [holder?, entity?, hm, entityOf, EntityProperty.ofProperty_type]
      rw [hfind]
      simp [hholds, hm]
  | _ => simp [holder?, entity?]

namespace Query

/-! ## Fields that may be missing -/

/-- A list, or `null` for an empty one. -/
def listValue (vs : List Value) : Value := if vs.isEmpty then .null else .list vs

/-- The mark for hits that return the numbers of their writes, or `null`. -/
def markValue (domain : Option Domain) : Value :=
  if (domain.bind fun d => d.catalogue.holder? d.type).isSome then .bool true else .null

theorem listFields_eq (name : String) (vs : List Value) :
    listFields name vs = Fields.given [(name, listValue vs)] := by
  unfold listFields listValue
  split <;> rfl

theorem concurrencyFields_eq (domain : Option Domain) :
    concurrencyFields domain = Fields.given [(mark, markValue domain)] := by
  unfold concurrencyFields markValue
  split
  · next hsome => rw [hsome]; rfl
  · next hnone => rw [hnone]; rfl

theorem optionalField_eq {α : Type} (name : String) (v : Option α) {f : α → Value}
    (h : ∀ a, (f a).isNull = false) :
    optionalField name (v.map f) = Fields.given [(name, (v.map f).getD .null)] := by
  cases v with
  | none => rfl
  | some a => simp [optionalField, Fields.given_eq_filter, h a]

theorem indicesFields_eq (q : Query) : q.indicesFields = Fields.given
    [("ignore_unavailable", (q.indicesOptions.map fun o => .bool o.ignoreUnavailable).getD .null),
      ("allow_no_indices", (q.indicesOptions.map fun o => .bool o.allowNoIndices).getD .null),
      ("expand_wildcards", (q.indicesOptions.map fun o =>
        .str (IndicesOptions.statesText o.expandWildcards)).getD .null)] := by
  unfold indicesFields
  cases q.indicesOptions <;> rfl

/-- The aggregations of a native query, unless there are none. -/
def aggregations (q : Query) : Value :=
  match q.source with
  | .native _ _ aggregations => if aggregations.isGiven then aggregations else .null
  | _ => .null

/-- The filter of a native query on the hits. -/
def postFilter (q : Query) : Value :=
  match q.source with
  | .native _ filter _ => filter
  | _ => .null

theorem nativeFields_eq (q : Query) :
    q.nativeFields = Fields.given [("aggs", q.aggregations), ("post_filter", q.postFilter)] := by
  unfold nativeFields aggregations postFilter
  cases q.source with
  | native clause filter aggregations =>
    dsimp only
    split
    · next hgiven =>
      have hset : aggregations.isNull = false := by
        cases aggregations <;> first | rfl | cases hgiven
      simp [Fields.given_eq_filter, hset]
    · simp [Fields.given_eq_filter, Value.isNull]
  | _ => rfl

/-! ## The fields of a search request -/

/-- The parts of a search request that are compiled; a timeout and values to start after that are
not set are `null`. -/
structure Parts where
  clause : Clause
  sort : List Value
  rescore : List Value
  timeout : Value
  searchAfter : Value

/-- The parts of the search request of a query. -/
structure Compiled (domain : Option Domain) (q : Query) (parts : Parts) : Prop where
  clause : q.mainClause (fieldName domain) = .ok parts.clause
  sort : SortOrder.entries domain q.sort = .ok parts.sort
  rescore : q.rescorers.mapM (Rescorer.entry (fieldName domain)) = .ok parts.rescore
  timeout : q.timeout.isNull ∧ parts.timeout = .null ∨
    q.timeout.isNull = false ∧ timeText q.timeout = .ok parts.timeout
  searchAfter : q.searchAfter = none ∧ parts.searchAfter = .null ∨
    ∃ vs forms, q.searchAfter = some vs ∧ vs.mapM formOf = .ok forms ∧
      parts.searchAfter = .list forms

variable (settings : Settings) (domain : Option Domain) (q : Query) (index : IndexCoordinates)
  (parts : Parts)

/-- The fields from which the search request is made, with `null` for those that are not there. -/
def full : Fields :=
  let (start, count) := (q.paging.getD (.standard settings)).window settings
  [("index", .ofTexts index.names), ("query", parts.clause.toValue), ("version", .bool true),
    ("from_", .int start), ("size", .int count), (mark, markValue domain),
    ("sort", listValue parts.sort), ("rescore", listValue parts.rescore),
    ("stored_fields",
      (q.storedFields.map fun fs => .ofTexts (fs.map (fieldName domain))).getD .null),
    ("source_filter",
      (q.sourceFilter.map fun s => (s.rename (fieldName domain)).toValue).getD .null),
    ("timeout", parts.timeout),
    ("highlight", (q.highlight.map fun h => (h.rename (fieldName domain)).toValue).getD .null),
    ("search_after", parts.searchAfter), ("request_cache", q.requestCache),
    ("track_scores", q.trackScores), ("track_total_hits", q.trackTotalHits),
    ("min_score", q.minScore), ("explain", q.explain), ("preference", q.preference),
    ("routing", q.route),
    ("ignore_unavailable", (q.indicesOptions.map fun o => .bool o.ignoreUnavailable).getD .null),
    ("allow_no_indices", (q.indicesOptions.map fun o => .bool o.allowNoIndices).getD .null),
    ("expand_wildcards", (q.indicesOptions.map fun o =>
      .str (IndicesOptions.statesText o.expandWildcards)).getD .null),
    ("aggs", q.aggregations), ("post_filter", q.postFilter)]

variable {settings domain q index parts}

theorem isNull_toValue (c : Clause) : c.toValue.isNull = false := by
  cases c <;> rfl

/-- A timeout that is set is a text. -/
theorem Admitted.exists_timeText (hq : q.Admitted) (hset : q.timeout.isNull = false) {t : Value}
    (h : timeText q.timeout = .ok t) : ∃ s, t = .str s := by
  rcases hq.timeout with hnull | ⟨d, hd⟩ | ⟨s, hs⟩
  · rw [hnull] at hset
    cases hset
  · rw [hd] at h
    cases h
    exact ⟨_, rfl⟩
  · rw [hs] at h
    cases h
    exact ⟨_, rfl⟩

theorem leading_eq (settings : Settings) (q : Query) (index : IndexCoordinates)
    (clause : Clause) :
    leading settings q index clause = Fields.given (leading settings q index clause) := by
  rw [Fields.given_eq_filter, eq_comm, List.filter_eq_self]
  simp only [leading, windowFields, List.cons_append, List.nil_append, List.forall_mem_cons,
    isNull_toValue]
  exact ⟨rfl, rfl, rfl, rfl, rfl, List.forall_mem_nil _⟩

theorem Admitted.timeField_eq (hq : q.Admitted) {fs : Fields}
    (h : timeField "timeout" q.timeout = .ok fs) :
    ∃ t, fs = Fields.given [("timeout", t)] ∧
      (q.timeout.isNull ∧ t = .null ∨ q.timeout.isNull = false ∧ timeText q.timeout = .ok t) := by
  unfold timeField at h
  split at h
  · next hnull =>
    cases h
    exact ⟨.null, rfl, .inl ⟨hnull, rfl⟩⟩
  · next hset =>
    obtain ⟨t, ht, heq⟩ := bind_eq_ok.1 h
    cases heq
    have hset' : q.timeout.isNull = false := by simpa using hset
    obtain ⟨s, rfl⟩ := hq.exists_timeText hset' ht
    exact ⟨.str s, rfl, .inr ⟨hset', ht⟩⟩

theorem searchAfterFields_eq {fs : Fields} (h : q.searchAfterFields = .ok fs) :
    ∃ after, fs = Fields.given [("search_after", after)] ∧
      (q.searchAfter = none ∧ after = .null ∨ ∃ vs forms, q.searchAfter = some vs ∧
        vs.mapM formOf = .ok forms ∧ after = .list forms) := by
  unfold searchAfterFields at h
  split at h
  · next hnone =>
    cases h
    exact ⟨.null, rfl, .inl ⟨hnone, rfl⟩⟩
  · next vs hvs =>
    obtain ⟨forms, hforms, heq⟩ := bind_eq_ok.1 h
    cases heq
    exact ⟨.list forms, rfl, .inr ⟨vs, forms, hvs, hforms, rfl⟩⟩

/-- **The fields from which the search request is made** are those that are there. -/
theorem Admitted.exists_compiled {fields : Fields} (hq : q.Admitted)
    (h : q.searchFields settings domain index = .ok fields) :
    ∃ parts, Compiled domain q parts ∧ fields = (full settings domain q index parts).given := by
  obtain ⟨clause, sort, rescore, timeout, searchAfter, hclause, hsort, hrescore, htimeout,
    hsearchAfter, rfl⟩ := searchFields_eq_ok.1 h
  obtain ⟨t, rfl, ht⟩ := hq.timeField_eq htimeout
  obtain ⟨after, rfl, hafter⟩ := searchAfterFields_eq hsearchAfter
  refine ⟨⟨clause, sort, rescore, t, after⟩, ⟨hclause, hsort, hrescore, ht, hafter⟩, ?_⟩
  -- each group of fields is what is set of a list, and so are the groups one after the other
  rw [leading_eq, trailing, concurrencyFields_eq, listFields_eq, listFields_eq, hitFields,
    optionalField_eq "stored_fields" _ fun _ => rfl,
    optionalField_eq "source_filter" _ fun _ => rfl,
    optionalField_eq "highlight" _ fun _ => rfl, optionFields, indicesFields_eq, nativeFields_eq]
  simp only [← Fields.given_append]
  rfl

/-! ## Shapes of the fields -/

open Shape (Admits)

theorem admits_texts (ss : List String) : Shape.texts.Admits (.ofTexts ss) :=
  .list (List.forall_mem_map.2 fun s _ => .text s)

theorem admits_listValue {vs : List Value} (h : ∀ v ∈ vs, v.IsObject) :
    (Shape.optional RequestKind.objects).Admits (listValue vs) := by
  unfold listValue
  split
  · exact .null _
  · exact .given (.list fun v hv => admits_object.2 (h v hv))

/-- An option that may be missing. -/
theorem admits_option {α : Type} {s : Shape} {f : α → Value} (h : ∀ a, s.Admits (f a))
    (v : Option α) : (Shape.optional s).Admits ((v.map f).getD .null) := by
  cases v with
  | none => exact .null _
  | some a => exact .given (h a)

theorem admits_markValue (domain : Option Domain) :
    (Shape.optional .flag).Admits (markValue domain) := by
  unfold markValue
  split
  · exact .given (.flag true)
  · exact .null _

theorem isObject_sort {s : SortOrder} {v : Value} (h : s.entry domain = .ok v) : v.IsObject := by
  cases s with
  | field s =>
    rw [SortOrder.entry, SortOrder.fieldEntry] at h
    split at h
    · cases h
      exact Value.isObject_singleton _ _
    · obtain ⟨missing, -, h⟩ := bind_eq_ok.1 h
      cases h
      exact Value.isObject_singleton _ _
  | distance s =>
    obtain ⟨-, -, h⟩ := bind_eq_ok.1 h
    cases h
    exact Value.isObject_singleton _ _

theorem isObject_rescore {rename : String → String} {r : Rescorer Query} {v : Value}
    (h : r.entry rename = .ok v) : v.IsObject := by
  obtain ⟨clause, -, h⟩ := bind_eq_ok.1 h
  cases h
  refine ⟨_, ?_, rfl⟩
  cases r.windowSize <;> simp [Fields.given, Fields.names]

theorem isObject_sourceFilter (s : SourceFilter) : s.toValue.IsObject :=
  ⟨_, by simp [Fields.names], rfl⟩

theorem isObject_highlight (h : Highlight) : h.toValue.IsObject := by
  refine ⟨_, ?_, rfl⟩
  have hoptions : (Fields.names h.options).Sublist
      ["pre_tags", "post_tags", "fragment_size", "number_of_fragments"] :=
    Fields.names_given_sublist _
  rw [Fields.names, List.map_cons, List.nodup_cons]
  constructor
  · intro hmem
    have hfields := hoptions.subset hmem
    simp at hfields
  · exact hoptions.nodup (by decide)

/-- The timeout of a request is set if that of the query is, and is a text then. -/
theorem Compiled.timeout_cases (hq : q.Admitted) (hparts : Compiled domain q parts) :
    q.timeout.isNull = true ∧ parts.timeout = .null ∨
      q.timeout.isNull = false ∧ ∃ s, parts.timeout = .str s :=
  hparts.timeout.imp id fun h => ⟨h.1, hq.exists_timeText h.1 h.2⟩

theorem Compiled.admits_timeout (hq : q.Admitted) (hparts : Compiled domain q parts) :
    (Shape.optional .text).Admits parts.timeout := by
  rcases hparts.timeout_cases hq with ⟨-, hnull⟩ | ⟨-, s, hs⟩
  · exact hnull ▸ .null _
  · exact hs ▸ .given (.text s)

/-- Every field is of the shape that search requests ask for. -/
theorem Compiled.admits (hq : q.Admitted) (hparts : Compiled domain q parts) :
    ∀ p ∈ RequestKind.search.properties,
      p.shape.Admits (((full settings domain q index parts).get? p.name).getD .null) := by
  have hsort : ∀ v ∈ parts.sort, v.IsObject := by
    intro v hv
    obtain ⟨s, -, hs⟩ := exists_of_mem_mapM hparts.sort hv
    exact isObject_sort hs
  have hrescore : ∀ v ∈ parts.rescore, v.IsObject := by
    intro v hv
    obtain ⟨r, -, hr⟩ := exists_of_mem_mapM hparts.rescore hv
    exact isObject_rescore hr
  have hafter : (Shape.optional (.sequence .list .any 0)).Admits parts.searchAfter := by
    rcases hparts.searchAfter with ⟨-, hnull⟩ | ⟨vs, forms, -, -, hforms⟩
    · rw [hnull]
      exact .null _
    · rw [hforms]
      exact .given (.list fun x _ => .any x)
  have hnative : (Shape.optional .object).Admits q.aggregations ∧
      (Shape.optional .object).Admits q.postFilter := by
    unfold aggregations postFilter
    cases hsource : q.source with
    | native clause filter aggregations =>
      obtain ⟨hfilter, haggregations⟩ := hq.native hsource
      refine ⟨?_, hfilter⟩
      dsimp only
      split
      · exact haggregations
      · exact .null _
    | _ => exact ⟨.null _, .null _⟩
  simp only [RequestKind.properties, RequestKind.indicesProperties, List.cons_append,
    List.nil_append, List.forall_mem_cons]
  exact ⟨admits_texts _, admits_object.2 (isObject_mainClause hq.clause hparts.clause),
    admits_listValue hsort, .given (.whole _), .given (.whole _), admits_listValue hrescore,
    admits_option (fun _ => admits_texts _) q.storedFields,
    admits_option (fun s => admits_object.2 (isObject_sourceFilter _)) q.sourceFilter,
    hparts.admits_timeout hq, hq.requestCache, admits_markValue domain, .given (.flag true),
    hq.trackScores, hq.trackTotalHits, hq.minScore, hq.explain, hafter,
    admits_option (fun h => admits_object.2 (isObject_highlight _)) q.highlight, hnative.1,
    hnative.2, hq.route, hq.preference, admits_option (fun o => .flag _) q.indicesOptions,
    admits_option (fun o => .flag _) q.indicesOptions,
    admits_option (fun o => .text _) q.indicesOptions, List.forall_mem_nil _⟩

/-! ## The search request -/

variable (settings domain q index parts) in
/-- The fields of a search request by their document names, with `null` for those that are not
there. -/
def dictionary : Fields :=
  let (start, count) := (q.paging.getD (.standard settings)).window settings
  [("index", .ofTexts index.names), ("query", parts.clause.toValue.wireForm),
    ("sort", (listValue parts.sort).wireForm), ("from", .int start), ("size", .int count),
    ("rescore", (listValue parts.rescore).wireForm),
    ("stored_fields",
      (q.storedFields.map fun fs => .ofTexts (fs.map (fieldName domain))).getD .null),
    ("_source", (q.sourceFilter.map fun s =>
      (s.rename (fieldName domain)).toValue.wireForm).getD .null),
    ("timeout", parts.timeout), ("request_cache", q.requestCache), (mark, markValue domain),
    ("version", .bool true), ("track_scores", q.trackScores),
    ("track_total_hits", q.trackTotalHits), ("min_score", q.minScore), ("explain", q.explain),
    ("search_after", parts.searchAfter.wireForm),
    ("highlight", (q.highlight.map fun h =>
      (h.rename (fieldName domain)).toValue.wireForm).getD .null),
    ("aggs", q.aggregations.wireForm), ("post_filter", q.postFilter.wireForm),
    ("routing", q.route), ("preference", q.preference),
    ("ignore_unavailable", (q.indicesOptions.map fun o => .bool o.ignoreUnavailable).getD .null),
    ("allow_no_indices", (q.indicesOptions.map fun o => .bool o.allowNoIndices).getD .null),
    ("expand_wildcards", (q.indicesOptions.map fun o =>
      .str (IndicesOptions.statesText o.expandWildcards)).getD .null)]

theorem wireForm_option {α : Type} (f : α → Value) (v : Option α) :
    ((v.map f).getD .null).wireForm = (v.map fun a => (f a).wireForm).getD .null := by
  cases v <;> rfl

theorem wireForm_texts (ss : List String) : (Value.ofTexts ss).wireForm = .ofTexts ss :=
  (admits_texts ss).wireForm_eq rfl

theorem Compiled.dictionary_eq (hq : q.Admitted) (hparts : Compiled domain q parts) :
    (RequestKind.search.properties.map fun p =>
      (p.wire, (((full settings domain q index parts).get? p.name).getD .null).wireForm)) =
        dictionary settings domain q index parts := by
  have hoption : ∀ {α : Type} {s : Shape} {f : α → Value}, (∀ a, s.Admits (f a)) → s.isFlat →
      ∀ v : Option α, ((v.map f).getD .null).wireForm = (v.map f).getD .null := by
    intro α s f hf hs v
    exact (admits_option hf v).wireForm_eq hs
  simp only [RequestKind.properties, RequestKind.indicesProperties, List.cons_append,
    List.nil_append, List.map_cons, List.map_nil, dictionary, List.cons.injEq, Prod.mk.injEq]
  exact ⟨⟨rfl, wireForm_texts _⟩, ⟨rfl, rfl⟩, ⟨rfl, rfl⟩, ⟨rfl, rfl⟩, ⟨rfl, rfl⟩, ⟨rfl, rfl⟩,
    ⟨rfl, hoption (fun _ => admits_texts _) rfl q.storedFields⟩,
    ⟨rfl, wireForm_option _ q.sourceFilter⟩, ⟨rfl, (hparts.admits_timeout hq).wireForm_eq rfl⟩,
    ⟨rfl, hq.requestCache.wireForm_eq rfl⟩, ⟨rfl, (admits_markValue domain).wireForm_eq rfl⟩,
    ⟨rfl, rfl⟩, ⟨rfl, hq.trackScores.wireForm_eq rfl⟩, ⟨rfl, hq.trackTotalHits.wireForm_eq rfl⟩,
    ⟨rfl, hq.minScore.wireForm_eq rfl⟩, ⟨rfl, hq.explain.wireForm_eq rfl⟩, ⟨rfl, rfl⟩,
    ⟨rfl, wireForm_option _ q.highlight⟩, ⟨rfl, rfl⟩, ⟨rfl, rfl⟩,
    ⟨rfl, hq.route.wireForm_eq rfl⟩, ⟨rfl, hq.preference.wireForm_eq rfl⟩,
    ⟨rfl, hoption (fun _ => .flag _) rfl q.indicesOptions⟩,
    ⟨rfl, hoption (fun _ => .flag _) rfl q.indicesOptions⟩,
    ⟨rfl, hoption (fun _ => .text _) rfl q.indicesOptions⟩, trivial⟩

theorem names_full : Fields.names (full settings domain q index parts) =
    ["index", "query", "version", "from_", "size", "seq_no_primary_term", "sort", "rescore",
      "stored_fields", "source_filter", "timeout", "highlight", "search_after", "request_cache",
      "track_scores", "track_total_hits", "min_score", "explain", "preference", "routing",
      "ignore_unavailable", "allow_no_indices", "expand_wildcards", "aggs", "post_filter"] := rfl

/-- **The search request** of a query has the fields of its parts and its options. -/
theorem Admitted.searchRequest_eq (hq : q.Admitted) {r : Request}
    (h : q.searchRequest settings domain index = .ok r) :
    ∃ parts, Compiled domain q parts ∧
      r.fields = (dictionary settings domain q index parts).given := by
  obtain ⟨fields, hfields, hr⟩ := bind_eq_ok.1 h
  obtain ⟨parts, hparts, rfl⟩ := hq.exists_compiled hfields
  refine ⟨parts, hparts, ?_⟩
  have hnames : ∀ n ∈ Fields.names (full settings domain q index parts),
      n ∈ RequestKind.search.properties.map Property.name := by
    rw [names_full]
    decide
  rw [Request.fields_of_admits (by rw [names_full]; decide) hnames (hparts.admits hq) hr,
    hparts.dictionary_eq hq]

/-! ## What is there -/

/-- The query asks for aggregations. -/
def hasAggregations (q : Query) : Bool :=
  match q.source with
  | .native _ _ (.dict es) => !es.isEmpty
  | _ => false

/-- The fields that a search request may have by their document names, in order, and whether they
are there. -/
def presence (domain : Option Domain) (q : Query) : List (String × Bool) :=
  [("index", true), ("query", true), ("sort", !q.sort.isEmpty), ("from", true), ("size", true),
    ("rescore", !q.rescorers.isEmpty), ("stored_fields", q.storedFields.isSome),
    ("_source", q.sourceFilter.isSome), ("timeout", !q.timeout.isNull),
    ("request_cache", !q.requestCache.isNull),
    ("seq_no_primary_term", (domain.bind fun d => d.catalogue.holder? d.type).isSome),
    ("version", true), ("track_scores", !q.trackScores.isNull),
    ("track_total_hits", !q.trackTotalHits.isNull), ("min_score", !q.minScore.isNull),
    ("explain", !q.explain.isNull), ("search_after", q.searchAfter.isSome),
    ("highlight", q.highlight.isSome), ("aggs", q.hasAggregations),
    ("post_filter", !q.postFilter.isNull), ("routing", !q.route.isNull),
    ("preference", !q.preference.isNull), ("ignore_unavailable", q.indicesOptions.isSome),
    ("allow_no_indices", q.indicesOptions.isSome), ("expand_wildcards", q.indicesOptions.isSome)]

theorem isNull_listValue (vs : List Value) : (listValue vs).isNull = vs.isEmpty := by
  cases vs <;> rfl

/-- As many entries as there are items. -/
theorem isEmpty_of_mapM {α β : Type} {f : α → Except Failure β} {as : List α} {bs : List β}
    (h : as.mapM f = .ok bs) : bs.isEmpty = as.isEmpty := by
  cases as with
  | nil =>
    cases h
    rfl
  | cons a as =>
    rw [List.mapM_cons] at h
    obtain ⟨b, -, h⟩ := bind_eq_ok.1 h
    obtain ⟨rest, -, h⟩ := bind_eq_ok.1 h
    cases h
    rfl

theorem isNull_option {α : Type} {f : α → Value} (h : ∀ a, (f a).isNull = false) (v : Option α) :
    (!((v.map f).getD .null).isNull) = v.isSome := by
  cases v with
  | none => rfl
  | some a => simp [h a]

theorem Admitted.isNull_aggregations (hq : q.Admitted) :
    (!q.aggregations.isNull) = q.hasAggregations := by
  unfold aggregations hasAggregations
  cases hsource : q.source with
  | native clause filter aggregations =>
    cases (hq.native hsource).2 with
    | null => rfl
    | given h =>
      obtain ⟨fs, -, rfl⟩ := admits_object.1 h
      cases fs <;> rfl
  | _ => rfl

theorem Compiled.presence_eq (hq : q.Admitted) (hparts : Compiled domain q parts) :
    (dictionary settings domain q index parts).map (fun f => (f.1, !f.2.isNull)) =
      presence domain q := by
  have hsort : (!(listValue parts.sort).wireForm.isNull) = !q.sort.isEmpty := by
    rw [Value.isNull_wireForm, isNull_listValue, isEmpty_of_mapM hparts.sort]
  have hrescore : (!(listValue parts.rescore).wireForm.isNull) = !q.rescorers.isEmpty := by
    rw [Value.isNull_wireForm, isNull_listValue, isEmpty_of_mapM hparts.rescore]
  have hquery : (!parts.clause.toValue.wireForm.isNull) = true := by
    rw [Value.isNull_wireForm, isNull_toValue]
    rfl
  have htimeout : (!parts.timeout.isNull) = !q.timeout.isNull := by
    rcases hparts.timeout_cases hq with ⟨hunset, hnull⟩ | ⟨hset, s, hs⟩
    · rw [hunset, hnull]
      rfl
    · rw [hset, hs]
      rfl
  have hafter : (!parts.searchAfter.wireForm.isNull) = q.searchAfter.isSome := by
    rcases hparts.searchAfter with ⟨hnone, hnull⟩ | ⟨vs, forms, hsome, -, hforms⟩
    · rw [hnone, hnull]
      rfl
    · rw [hsome, hforms]
      rfl
  have hmark : (!(markValue domain).isNull) =
      (domain.bind fun d => d.catalogue.holder? d.type).isSome := by
    unfold markValue
    cases (domain.bind fun d => d.catalogue.holder? d.type).isSome <;> rfl
  have haggregations : (!q.aggregations.wireForm.isNull) = q.hasAggregations := by
    rw [Value.isNull_wireForm, hq.isNull_aggregations]
  have hfilter : (!q.postFilter.wireForm.isNull) = !q.postFilter.isNull := by
    rw [Value.isNull_wireForm]
  simp only [dictionary, presence, List.map_cons, List.map_nil, List.cons.injEq, Prod.mk.injEq,
    true_and, and_true]
  exact ⟨rfl, hquery, hsort, rfl, rfl, hrescore, isNull_option (fun _ => rfl) q.storedFields,
    isNull_option (fun _ => rfl) q.sourceFilter, htimeout, ⟨rfl, hmark⟩, rfl, hafter,
    isNull_option (fun _ => rfl) q.highlight, haggregations, hfilter,
    isNull_option (fun _ => rfl) q.indicesOptions, isNull_option (fun _ => rfl) q.indicesOptions,
    isNull_option (fun _ => rfl) q.indicesOptions⟩

theorem names_dictionary : Fields.names (dictionary settings domain q index parts) =
    RequestKind.search.properties.map Property.wire := rfl

/-- **Every option is there if it is set, with its value.** A search request of a query that was
built from arguments has exactly these fields, in this order: the options of the query that are
set, also those that are false, zero or empty; sort orders, rescorers and aggregations unless there
are none; and the mark for the numbers of writes if the domain type has a property for them. Options
that are passed on have the value that the query has, everything else what is compiled from it. -/
theorem searchRequest_carries {cat : Catalogue} {m : Model} {name : String} {args : Fields}
    {v : Value} {r : Request} (hm : m ∈ models) (hcat : cat.model? name = some m)
    (hbuild : cat.build name args = .ok v) (hv : ofValue? v = some q)
    (h : q.searchRequest settings domain index = .ok r) :
    r.fields.names = ((presence domain q).filter Prod.snd).map Prod.fst ∧
      ("seq_no_primary_term" ∈ r.fields.names ↔ ∃ d n m p k, domain = some d ∧
        d.type = .named n ∧ d.catalogue.model? n = some m ∧ p ∈ m.properties ∧
        p.declared.unwrap.1 = .named k ∧ d.catalogue.isA k "SeqNoPrimaryTerm") ∧
      (∀ f ∈ [("request_cache", q.requestCache), ("track_scores", q.trackScores),
          ("track_total_hits", q.trackTotalHits), ("min_score", q.minScore),
          ("explain", q.explain), ("preference", q.preference), ("routing", q.route)],
        f.2.isNull = false → r.fields.get? f.1 = some f.2) ∧
      ∃ parts, Compiled domain q parts ∧
        r.fields = (dictionary settings domain q index parts).given := by
  have hq := admitted_of_build hm hcat hbuild hv
  obtain ⟨parts, hparts, hfields⟩ := hq.searchRequest_eq h
  have hnames : r.fields.names = ((presence domain q).filter Prod.snd).map Prod.fst := by
    rw [hfields, ← hparts.presence_eq hq, Fields.given_eq_filter, List.filter_map, List.map_map]
    rfl
  refine ⟨hnames, ?_, ?_, parts, hparts, hfields⟩
  · have hmark : "seq_no_primary_term" ∈ r.fields.names ↔
        (domain.bind fun d => d.catalogue.holder? d.type).isSome := by
      rw [hnames]
      simp [presence]
    rw [hmark]
    cases domain with
    | none => simp
    | some d => simp [Catalogue.isSome_holder?_iff]
  · intro f hf hset
    have hmem : f ∈ dictionary settings domain q index parts := by
      simp only [List.mem_cons, List.not_mem_nil, or_false] at hf
      rcases hf with rfl | rfl | rfl | rfl | rfl | rfl | rfl <;> simp [dictionary]
    have hgiven : f ∈ r.fields := by
      rw [hfields, Fields.given_eq_filter, List.mem_filter]
      exact ⟨hmem, by rw [hset]; rfl⟩
    refine Fields.get?_of_mem ?_ hgiven
    have hsub : r.fields.names.Sublist
        (Fields.names (dictionary settings domain q index parts)) := by
      rw [hfields]
      exact Fields.names_given_sublist _
    rw [names_dictionary] at hsub
    exact hsub.nodup (Request.wires_nodup .search)

/-- Options that are set, though to nothing much. -/
private def hardlySet : Fields :=
  [("stored_fields", .list []), ("route", .str ""), ("explain", .bool false),
    ("track_total_hits", .int 0), ("search_after", .list [])]

/-- A type with an optional property that tracks concurrent writes. -/
private def counted : Domain :=
  ⟨⟨Model.plain "Count" [.required "total" .whole,
    .optional "written" (.model "SeqNoPrimaryTerm")] :: Standard.models, []⟩, .named "Count"⟩

theorem searchRequest_carries_hardlySet :
    ∃ v q r, Catalogue.build ⟨models, []⟩ "Query" hardlySet = .ok v ∧ ofValue? v = some q ∧
      q.searchRequest .standard (some counted) ⟨"counts", []⟩ = .ok r ∧
      r.fields.names = ["index", "query", "from", "size", "stored_fields", "seq_no_primary_term",
        "version", "track_total_hits", "explain", "search_after", "routing"] ∧
      r.fields.get? "explain" = some (.bool false) ∧ r.fields.get? "routing" = some (.str "") := by
  obtain ⟨v, q, r, hv, hq, hr, hexplain, hroute, hpresence⟩ : ∃ v q r,
      Catalogue.build ⟨models, []⟩ "Query" hardlySet = .ok v ∧ ofValue? v = some q ∧
        q.searchRequest .standard (some counted) ⟨"counts", []⟩ = .ok r ∧
        q.explain = .bool false ∧ q.route = .str "" ∧
        ((presence (some counted) q).filter Prod.snd).map Prod.fst =
          ["index", "query", "from", "size", "stored_fields", "seq_no_primary_term", "version",
            "track_total_hits", "explain", "search_after", "routing"] :=
    ⟨_, _, _, rfl, rfl, rfl, rfl, rfl, rfl⟩
  have hm : Model.plain "Query" properties ∈ models := .head _
  obtain ⟨hnames, -, hvalues, -⟩ := searchRequest_carries hm rfl hv hq hr
  have hfalse := hvalues ("explain", q.explain) (by simp) (by rw [hexplain]; rfl)
  have hempty := hvalues ("routing", q.route) (by simp) (by rw [hroute]; rfl)
  exact ⟨v, q, r, hv, hq, hr, hnames.trans hpresence, by rw [← hexplain]; exact hfalse,
    by rw [← hroute]; exact hempty⟩

end Query

end SearchWire
