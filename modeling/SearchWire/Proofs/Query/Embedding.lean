import SearchWire.Admin.Alias
import SearchWire.Proofs.Query.Clause
import SearchWire.Proofs.Request.Part
import SearchWire.Proofs.Search.Rename
import SearchWire.Reindex.Request

/-!
# Queries within requests

A query stands in the request that searches or deletes what it means, as the filter of an alias, or
as the query of the source of a copy. Its clause is the same everywhere, but for the ids of the
query: these count where the query itself is asked and nowhere else.

* `Query.Requested`, `Query.Embedding`: the requests of a query, and the places at which requests
  have it.
* `Query.Embedding.part?_body`: the clause at such a place.
* `Query.same_clause_iff`: **two places have the same clause if and only if ids count at both or at
  none, or there are no ids.**
* `Query.Requested.holds_query`: **the query of a request holds for the documents with one of the
  ids**, unless there are none.
-/

namespace SearchWire

/-- Requests in which the ids of a query count. -/
def RequestKind.countsIds : RequestKind → Bool
  | .search | .deleteByQuery => true
  | _ => false

namespace Query

/-- The requests of a query about a domain type: to search what it means, or to delete it. -/
inductive Requested (q : Query) (domain : Option Domain) : Request → Prop
  | search {settings : Settings} {index : IndexCoordinates} {r : Request}
      (h : q.searchRequest settings domain index = .ok r) : Requested q domain r
  | delete {index : IndexCoordinates} {maxDocs : Value} {r : Request}
      (h : q.deleteRequest domain index maxDocs = .ok r) : Requested q domain r

/-- A request has the clause of a query about a domain type at the end of a path. -/
inductive Embedding (q : Query) : Option Domain → Request → List Place → Prop
  | asked {domain : Option Domain} {r : Request} (h : q.Requested domain r) :
      Embedding q domain r [.name "query"]
  | aliasFilter {resolver : Option Catalogue} {actions : List AliasAction} {p : AliasParameters}
      {n : Nat} {r : Request} (hfilter : p.filter = some q) (hn : actions[n]? = some ⟨.add, p⟩)
      (h : aliasRequest resolver actions = .ok r) :
      Embedding q (p.domain resolver) r
        [.name "actions", .position n, .name "add", .name "filter"]
  | reindex {copy : ReindexQuery} {r : Request} (hquery : copy.source.query = some q)
      (h : copy.request = .ok r) : Embedding q none r [.name "source", .name "query"]

variable {q : Query} {domain : Option Domain} {r r₁ r₂ : Request} {path path₁ path₂ : List Place}

namespace Embedding

/-- The query of a request is its first field after the index. -/
theorem part?_query {kind : RequestKind} {index : Value} {c : Clause} {after : Fields}
    (hkind : kind.countsIds) (hc : c.toValue.IsObject)
    (h : Request.make kind (("index", index) :: ("query", c.toValue) :: after) = .ok r) :
    r.kind.countsIds ∧ r.body.part? [.name "query"] = some c.toValue.wireForm := by
  have hp : Property.required "query" .object ∈ kind.properties := by
    cases kind <;> first | contradiction | simp [RequestKind.properties]
  have hparam : kind.paramKeys.contains "query" = false := by
    cases kind <;> first | contradiction | decide
  have hown : kind.hasOwnBody = false := by
    cases kind <;> first | contradiction | rfl
  obtain ⟨a, ha, hvalue⟩ := check_isObject ⟨[kind.model], []⟩ hc
  obtain ⟨fs, -, hfs⟩ := hc
  have hset : a.value.isNull = false := by rw [hvalue, hfs]; rfl
  rw [Request.kind_make h]
  refine ⟨hkind, ?_⟩
  have hwhole : a.value.part? [] = some c.toValue := by rw [hvalue]; rfl
  exact Request.part?_body_of_get? hown hp hparam rfl rfl ha hset h hwhole

theorem part?_requested (hq : q.source.HasTextKeys) (h : q.Requested domain r) :
    ∃ c, q.clause (fieldName domain) = .ok c ∧ r.kind.countsIds ∧
      r.body.part? [.name "query"] = some (q.withIds c).toValue.wireForm := by
  cases h with
  | search h =>
    obtain ⟨fields, hfields, h⟩ := bind_eq_ok.1 h
    obtain ⟨clause, sort, rescore, timeout, searchAfter, hclause, -, -, -, -, rfl⟩ :=
      searchFields_eq_ok.1 hfields
    obtain ⟨c, hc, rfl⟩ := mainClause_eq_ok.1 hclause
    exact ⟨c, hc, part?_query rfl (isObject_mainClause hq hclause) h⟩
  | delete h =>
    obtain ⟨clause, hclause, h⟩ := bind_eq_ok.1 h
    obtain ⟨timeout, -, h⟩ := bind_eq_ok.1 h
    obtain ⟨c, hc, rfl⟩ := mainClause_eq_ok.1 hclause
    exact ⟨c, hc, part?_query rfl (isObject_mainClause hq hclause) h⟩

/-- The entry of an action is an object with one field. -/
theorem entry_eq_ok {resolver : Option Catalogue} {action : AliasAction} {entry : Value} :
    action.entry resolver = .ok entry ↔
      ∃ body, action.body resolver = .ok body ∧ .object [(action.kind.text, body)] = entry := by
  rw [AliasAction.entry, bind_eq_ok]
  simp only [Except.ok.injEq]

theorem part?_alias {resolver : Option Catalogue} {actions : List AliasAction} {p : AliasParameters}
    {n : Nat} (hfilter : p.filter = some q) (hn : actions[n]? = some ⟨.add, p⟩)
    (h : aliasRequest resolver actions = .ok r) :
    ∃ c, q.clause (fieldName (p.domain resolver)) = .ok c ∧ r.kind = .aliasActions ∧
      r.body.part? [.name "actions", .position n, .name "add", .name "filter"] =
        some c.toValue.wireForm := by
  obtain ⟨entries, hentries, h⟩ := bind_eq_ok.1 h
  obtain ⟨entry, hentry, hnth⟩ := getElem?_mapM hentries hn
  obtain ⟨body, hbody, rfl⟩ := entry_eq_ok.1 hentry
  obtain ⟨fields, hfields, hbody⟩ := bind_eq_ok.1 hbody
  cases hbody
  obtain ⟨filter, hclause, hfields⟩ := bind_eq_ok.1 hfields
  cases hfields
  rw [AliasParameters.filterFields, hfilter] at hclause
  obtain ⟨c, hc, hclause⟩ := bind_eq_ok.1 hclause
  cases hclause
  refine ⟨c, hc, Request.kind_make h, ?_⟩
  -- the entries of all actions are objects, so they are taken as they are
  have hobjects : ∀ e ∈ entries, e.IsObject := by
    intro e he
    obtain ⟨action, -, haction⟩ := exists_of_mem_mapM hentries he
    obtain ⟨body, -, rfl⟩ := entry_eq_ok.1 haction
    exact Value.isObject_singleton _ _
  obtain ⟨a, ha, hvalue⟩ := check_objects ⟨[RequestKind.aliasActions.model], []⟩ hobjects
  have hnames : "filter" ∉ Fields.names p.names := by
    unfold AliasParameters.names AliasParameters.namesField Fields.names
    split <;> split <;> simp
  have hpart : (Value.object (p.names ++ ("filter", c.toValue) :: p.options)).part?
      [.name "filter"] = some c.toValue := by
    rw [Value.part?_object, Fields.get?_new hnames]
    rfl
  refine Request.part?_body_of_get? (p := .required "actions" RequestKind.objects) rfl
    List.mem_cons_self rfl rfl rfl ha ?_ h ?_
  · rw [hvalue]
    rfl
  · rw [hvalue, Value.part?_list, hnth]
    exact hpart

theorem part?_reindex {copy : ReindexQuery} (hquery : copy.source.query = some q)
    (h : copy.request = .ok r) :
    ∃ c, q.clause (fieldName none) = .ok c ∧ r.kind = .reindex ∧
      r.body.part? [.name "source", .name "query"] = some c.toValue.wireForm := by
  obtain ⟨fields, hfields, h⟩ := bind_eq_ok.1 h
  obtain ⟨source, hsource, hfields⟩ := bind_eq_ok.1 hfields
  obtain ⟨timeout, -, hfields⟩ := bind_eq_ok.1 hfields
  obtain ⟨scroll, -, hfields⟩ := bind_eq_ok.1 hfields
  cases hfields
  obtain ⟨remote, -, hsource⟩ := bind_eq_ok.1 hsource
  obtain ⟨query, hclause, hsource⟩ := bind_eq_ok.1 hsource
  cases hsource
  rw [ReindexSource.queryFields, hquery] at hclause
  obtain ⟨c, hc, hclause⟩ := bind_eq_ok.1 hclause
  cases hclause
  refine ⟨c, hc, Request.kind_make h, ?_⟩
  have hafter : "query" ∉ Fields.names (copy.source.filterFields ++ copy.source.sliceFields) := by
    unfold ReindexSource.filterFields ReindexSource.sliceFields Fields.names
    split <;> split <;> simp
  have hpart : Fields.get? (Fields.ofList (remote ++ [("index", .ofTexts copy.source.indices)] ++
      Fields.given [("size", copy.source.size)] ++ [("query", c.toValue)] ++
      copy.source.filterFields ++ copy.source.sliceFields)) "query" = some c.toValue := by
    rw [List.append_assoc, List.append_assoc, List.singleton_append]
    exact Fields.get?_ofList_new hafter
  refine Request.part?_body_of_get? (p := .required "source" .object) rfl List.mem_cons_self rfl rfl
    rfl (check_object _ _) rfl h ?_
  rw [Value.part?_object, hpart]
  rfl

/-- The clause of a query at a place where a request has it: with the ids of the query if ids count
there. -/
theorem part?_body (hq : q.source.HasTextKeys) (h : q.Embedding domain r path) :
    ∃ c, q.clause (fieldName domain) = .ok c ∧ r.body.part? path =
      some (Clause.toValue (if r.kind.countsIds then q.withIds c else c)).wireForm := by
  cases h with
  | asked h =>
    obtain ⟨c, hc, hkind, hpart⟩ := part?_requested hq h
    exact ⟨c, hc, by rw [hpart, if_pos hkind]⟩
  | aliasFilter hfilter hn h =>
    obtain ⟨c, hc, hkind, hpart⟩ := part?_alias hfilter hn h
    exact ⟨c, hc, by rw [hpart, hkind]; rfl⟩
  | reindex hquery h =>
    obtain ⟨c, hc, hkind, hpart⟩ := part?_reindex hquery h
    exact ⟨c, hc, by rw [hpart, hkind]; rfl⟩

end Embedding

/-! ## The same clause -/

/-- A clause beside ids, as an object. -/
theorem toValue_restrict (ids : List String) (c : Clause) :
    (restrict ids c).toValue = .object [("bool", .object [("must", .list [c.toValue,
      .object [("ids", .object [("values", .ofTexts ids)])]])])] := by
  rw [restrict, Clause.toValue, Clause.toValues, Clause.toValues, Clause.toValues, Clause.toValue]
  rfl

/-- A clause is another one once it is restricted to ids. -/
theorem wireForm_restrict_ne (ids : List String) (c : Clause) :
    (restrict ids c).toValue.wireForm ≠ c.toValue.wireForm := by
  have hpart : (restrict ids c).toValue.part? [.name "bool", .name "must", .position 0] =
      some c.toValue := by
    rw [toValue_restrict]
    rfl
  exact (Value.part?_ne_self (Value.part?_wireForm hpart)).symm

/-- The wire form of a clause is a clause that may be restricted to ids, too. -/
theorem exists_wireForm (ids : List String) {c : Clause} (hc : c.toValue.IsObject) :
    ∃ d : Clause, d.toValue = c.toValue.wireForm ∧
      (restrict ids c).toValue.wireForm = (restrict ids d).toValue := by
  obtain ⟨fs, -, hfs⟩ := hc
  have hentries :
      (Clause.readyMade (Fields.entries (fs.map fun f => (f.1, f.2.wireForm)))).toValue =
        c.toValue.wireForm := by
    rw [hfs, Value.wireForm_object, Clause.toValue]
    rfl
  have htexts : (Value.ofTexts ids).wireForm = .ofTexts ids := by
    rw [Value.ofTexts, Value.wireForm, Value.wireForms_eq_map, List.map_map]
    rfl
  refine ⟨_, hentries, ?_⟩
  rw [toValue_restrict, toValue_restrict, hentries]
  simp only [Value.wireForm_object, List.map_cons, List.map_nil, Value.wireForm, Value.wireForms,
    htexts]

/-- **Two places have the same clause** if and only if the ids of the query count at both or at
none, or the query has no ids. -/
theorem same_clause_iff (hq : q.source.HasTextKeys) (h₁ : q.Embedding domain r₁ path₁)
    (h₂ : q.Embedding domain r₂ path₂) :
    (∃ clause, r₁.body.part? path₁ = some clause ∧ r₂.body.part? path₂ = some clause) ↔
      q.idList = [] ∨ r₁.kind.countsIds = r₂.kind.countsIds := by
  obtain ⟨c, hc, hpart₁⟩ := h₁.part?_body hq
  obtain ⟨c', hc', hpart₂⟩ := h₂.part?_body hq
  cases hc.symm.trans hc'
  rw [hpart₁, hpart₂]
  constructor
  · rintro ⟨clause, hclause₁, hclause₂⟩
    have hsame := Option.some.inj (hclause₁.trans hclause₂.symm)
    by_cases hids : q.idList = []
    · exact .inl hids
    · -- only one of the two clauses is restricted, so they differ
      have hwith : q.withIds c = restrict q.idList c := by simp [withIds, hids]
      rw [hwith] at hsame
      refine .inr ?_
      cases hkind₁ : r₁.kind.countsIds <;> cases hkind₂ : r₂.kind.countsIds <;>
        rw [hkind₁, hkind₂] at hsame
      · exact absurd hsame.symm (wireForm_restrict_ne q.idList c)
      · exact absurd hsame (wireForm_restrict_ne q.idList c)
  · rintro (hids | hkind)
    · have hwith : q.withIds c = c := by simp [withIds, hids]
      rw [hwith, ite_self, ite_self]
      exact ⟨_, rfl, rfl⟩
    · rw [hkind]
      exact ⟨_, rfl, rfl⟩

/-- A query for all documents with one of some ids. -/
private def identified (ids : Option (List String)) : Query where
  source := .criteria none
  paging := none
  sort := []
  rescorers := []
  storedFields := none
  sourceFilter := none
  highlight := none
  indicesOptions := none
  ids := ids
  searchAfter := none
  timeout := .null
  route := .null
  requestCache := .null
  trackScores := .null
  trackTotalHits := .null
  minScore := .null
  explain := .null
  preference := .null

/-- A copy of what a query means. -/
private def copied (q : Query) : ReindexQuery where
  source := ⟨["things"], none, .null, some q, none, none⟩
  dest := ⟨.str "copies", .null, none, none, .null⟩
  maxDocs := .null
  script := none
  conflicts := none
  refresh := .null
  timeout := .null
  requestsPerSecond := .null
  slices := .null
  waitForCompletion := .null
  waitForActiveShards := .null
  scroll := .null
  requireAlias := .null

theorem same_clause_iff_things :
    ∃ r₁ r₂ clause, (identified none).searchRequest .standard none ⟨"things", []⟩ = .ok r₁ ∧
      (copied (identified none)).request = .ok r₂ ∧
      r₁.body.part? [.name "query"] = some clause ∧
      r₂.body.part? [.name "source", .name "query"] = some clause := by
  obtain ⟨r₁, hr₁⟩ : ∃ r, (identified none).searchRequest .standard none ⟨"things", []⟩ = .ok r :=
    ⟨_, rfl⟩
  obtain ⟨r₂, hr₂⟩ : ∃ r, (copied (identified none)).request = .ok r := ⟨_, rfl⟩
  obtain ⟨clause, hclause⟩ :=
    (same_clause_iff (q := identified none) trivial (.asked (.search hr₁))
      (.reindex rfl hr₂)).2 (.inl rfl)
  exact ⟨r₁, r₂, clause, hr₁, hr₂, hclause⟩

/-- A copy is of all documents, where the search is for one of them. -/
theorem copy_ignores_ids :
    ∃ r₁ r₂, (identified (some ["1"])).searchRequest .standard none ⟨"things", []⟩ = .ok r₁ ∧
      (copied (identified (some ["1"]))).request = .ok r₂ ∧
      r₁.body.part? [.name "query"] = some (restrict ["1"] .matchAll).toValue ∧
      r₂.body.part? [.name "source", .name "query"] = some (Clause.toValue .matchAll) ∧
      (restrict ["1"] .matchAll).toValue ≠ Clause.toValue .matchAll := by
  refine ⟨_, _, rfl, rfl, rfl, rfl, ?_⟩
  simp [restrict, Clause.toValue, Value.object]

/-! ## Ids -/

/-- **The query of a request** holds for what its clause holds for, if it has one of the ids. A
query that has no ids, or an empty list of them, is the clause alone. -/
theorem Requested.holds_query (hq : q.source.HasTextKeys) (h : q.Requested domain r) :
    ∃ clause query, q.clause (fieldName domain) = .ok clause ∧
      r.body.part? [.name "query"] = some query ∧
      (q.idList = [] → query = clause.toValue.wireForm) ∧
      (q.idList ≠ [] → ∀ id other, query.holds (Value.about id other) =
        (clause.toValue.wireForm.holds (Value.about id other) && q.idList.contains id)) := by
  obtain ⟨c, hc, -, hpart⟩ := Embedding.part?_requested hq h
  refine ⟨c, _, hc, hpart, ?_, ?_⟩
  · intro hids
    simp [withIds, hids]
  · intro hids id other
    have hwith : q.withIds c = restrict q.idList c := by simp [withIds, hids]
    -- the wire form of the clause is a clause, too, and restricted in the same way
    obtain ⟨d, hd, hrestrict⟩ := exists_wireForm q.idList (QuerySource.isObject_compile hq hc)
    rw [hwith, hrestrict, ← hd]
    exact holds_restrict q.idList d id other

theorem Requested.holds_query_identified :
    ∃ r query, (identified (some ["1"])).deleteRequest none ⟨"things", []⟩ .null = .ok r ∧
      r.body.part? [.name "query"] = some query ∧
      ∀ id other, query.holds (Value.about id other) = ["1"].contains id := by
  obtain ⟨r, hr⟩ : ∃ r, (identified (some ["1"])).deleteRequest none ⟨"things", []⟩ .null = .ok r :=
    ⟨_, rfl⟩
  obtain ⟨clause, query, hclause, hquery, -, hholds⟩ :=
    Requested.holds_query (q := identified (some ["1"])) trivial (.delete hr)
  refine ⟨r, query, hr, hquery, ?_⟩
  intro id other
  cases hclause
  rw [hholds (by simp [idList, identified])]
  simp [Clause.toValue, Value.object, Value.wireForm, Value.wireEntries, Value.holds, idList,
    identified]

/-- With an empty list of ids every document is deleted. -/
theorem deletes_all_of_no_ids :
    ∃ r, (identified (some [])).deleteRequest none ⟨"things", []⟩ .null = .ok r ∧
      r.body.part? [.name "query"] = some (Clause.toValue .matchAll) ∧
      (Clause.toValue .matchAll).holds (Value.about "1" fun _ => false) = true ∧
      ([] : List String).contains "1" = false :=
  ⟨_, rfl, rfl, Clause.holds_matchAll _, rfl⟩

end Query

end SearchWire
