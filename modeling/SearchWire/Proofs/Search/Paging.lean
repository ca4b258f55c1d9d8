import SearchWire.Proofs.Request.Calls
import SearchWire.Proofs.Request.Shows
import SearchWire.Proofs.Search.Options

/-!
# Pages of a search

A search asks for a window of the list of hits: the rank of the first hit and a count. Which window
it is depends on the choice of hits alone, and the choice changes nothing else of the search. So the
pages of one size tile the list: every hit is on one page, and on no other one.

* `Settings.pos_of_arguments`: what valid settings have.
* `Request.window?`, `Request.AsksFor`: the window that a request asks for.
* `Paging.build_page`, `Paging.build_shifted`, `Paging.build_unpaged`: the records of the choices.
* `Paging.Chooses`: what a query makes of such a record.
* `Query.ofValue?_set`: **a query with another choice of hits** differs in nothing else.
* `Query.Admitted.window?_eq`, `Query.Admitted.exists_searchRequest`: the window of a search
  request, also if the query has another choice of hits.
* `Query.Plan`: a search by a query that is to be built.
* `Query.pages_tile`: **the pages of a search tile the list of hits.**
-/

namespace SearchWire

/-- Valid settings have a window of one hit at least, and pages of one hit at least. -/
theorem Settings.pos_of_arguments {args : Fields} {s : Settings}
    (h : Settings.ofArguments args = .ok s) : 1 ≤ s.maxResultWindow ∧ 1 ≤ s.pageSize := by
  obtain ⟨v, hv, h⟩ := bind_eq_ok.1 h
  have hnames : (model.properties.map Property.name).Nodup := by decide
  have hpos : ∀ (name : String) (default n : Nat), 1 ≤ default →
      .withDefault name (.integer (some 1) none) (.int default) ∈ model.properties →
      (v.field name).nat? = some n → 1 ≤ n := by
    intro name default n hdefault hp hn
    have hfield : ∃ k : Int, v.field name = .int k ∧ 1 ≤ k := by
      rcases field_of_build rfl hnames hp hv with ⟨w, a, ha, heq⟩ | heq
      · obtain ⟨k, hk, hlow⟩ := check_integer_low ha
        exact ⟨k, heq.trans hk, hlow⟩
      · exact ⟨default, (Option.some.inj heq).symm, by omega⟩
    obtain ⟨k, hk, hlow⟩ := hfield
    rw [hk, Value.nat?] at hn
    split at hn
    · cases hn
    · cases hn
      omega
  cases hs : ofValue? v with
  | none =>
    rw [hs] at h
    cases h
  | some s' =>
    rw [hs] at h
    cases h
    simp only [ofValue?, Option.bind_eq_bind, Option.bind_eq_some_iff] at hs
    obtain ⟨window, hwindow, size, hsize, level, -, hs⟩ := hs
    cases hs
    exact ⟨hpos _ standard.maxResultWindow window (by decide) (by simp [model, Model.plain])
        hwindow,
      hpos _ standard.pageSize size (by decide) (by simp [model, Model.plain]) hsize⟩

/-- The window of hits that the body of a request asks for: the rank of the first one and a
count. -/
def Request.window? (r : Request) : Option (Int × Nat) := do
  let start ← (← r.body.part? [.name "from"]).int?
  let count ← (← r.body.part? [.name "size"]).nat?
  some (start, count)

/-- A hit is in the window that a request asks for. -/
def Request.AsksFor (r : Request) (rank : Nat) : Prop :=
  ∃ start count, r.window? = some (start, count) ∧ start ≤ rank ∧ (rank : Int) < start + count

/-! ## Choices of hits -/

namespace Paging

variable {cat : Catalogue}

/-- What a property takes that has one name and a lower bound. -/
theorem checkProperty_whole (cat : Catalogue) (fields : Fields) (name : String) {low n : Int}
    (default : Value) (hget : fields.get? name = some (.int n)) (hlow : low ≤ n) :
    checkProperty (.withDefault name (.integer (some low) none) default)
      ⟨[], checkEntries cat fields.entries⟩ = .ok ⟨.int n, .exact, none⟩ :=
  checkProperty_of_get? rfl hget (check_integer_of_le cat hlow)

variable {page size : Nat}

/-- The properties of a page take its number and its size, whatever else is given. -/
theorem map_pageProperties (cat : Catalogue) (fields : Fields) (hsize : 1 ≤ size)
    (hpage : fields.get? "page" = some (.int page)) (hget : fields.get? "size" = some (.int size)) :
    pageProperties.map (fun p => checkProperty p ⟨[], checkEntries cat fields.entries⟩) =
      [.ok ⟨.int page, .exact, none⟩, .ok ⟨.int size, .exact, none⟩] :=
  congrArg₂ (fun number count => [number, count])
    (checkProperty_whole cat fields "page" (.int 0) hpage (Int.natCast_nonneg page))
    (checkProperty_whole cat fields "size" (.int Settings.standard.pageSize) hget
      (Int.ofNat_le.2 hsize))

section Records

variable (hcat : ∀ m ∈ models, cat.model? m.name = some m)
include hcat

/-- The records of a choice of everything. -/
theorem build_unpaged : cat.build "Pageable" [] = .ok (baseModel.record []) ∧
    cat.build "Unpaged" [] = .ok unpagedRecord := by
  have hbase : cat.model? "Pageable" = some baseModel := hcat baseModel (by simp [models])
  have hunpaged : cat.model? "Unpaged" = some unpagedModel := hcat unpagedModel (by simp [models])
  exact ⟨build_eq_record [] hbase (fun _ => rfl) rfl,
    build_eq_record [] hunpaged (fun _ => rfl) rfl⟩

/-- The record of a page of one hit at least. -/
theorem build_page (page : Nat) (hsize : 1 ≤ size) :
    cat.build "PageRequest" [("page", .int page), ("size", .int size)] =
      .ok (pageModel.record [.int page, .int size]) := by
  have hmodel : cat.model? "PageRequest" = some pageModel := hcat pageModel (by simp [models])
  let as : List Accepted := [⟨.int page, .exact, none⟩, ⟨.int size, .exact, none⟩]
  have haccepted : pageModel.properties.map (fun p => checkProperty p
      ⟨[], checkEntries cat (Fields.entries [("page", .int page), ("size", .int size)])⟩) =
        as.map .ok := map_pageProperties cat _ hsize rfl rfl
  exact build_eq_record as hmodel (fun _ => rfl) haccepted

/-- The record of a page that starts at an offset of its own. -/
theorem build_shifted (page : Nat) (hsize : 1 ≤ size) (offset : Int) :
    cat.build "OffsetPageRequest"
      [("page", .int page), ("size", .int size), ("fixed", .int offset)] =
        .ok (shiftedModel.record [.int page, .int size, .int offset]) := by
  have hmodel : cat.model? "OffsetPageRequest" = some shiftedModel :=
    hcat shiftedModel (by simp [models])
  let fields : Fields := [("page", .int page), ("size", .int size), ("fixed", .int offset)]
  let as : List Accepted :=
    [⟨.int page, .exact, none⟩, ⟨.int size, .exact, none⟩, ⟨.int offset, .exact, none⟩]
  have hfixed : checkProperty (.withDefault "fixed" .whole (.int 0))
      ⟨[], checkEntries cat fields.entries⟩ = .ok ⟨.int offset, .exact, none⟩ :=
    checkProperty_of_get? rfl rfl rfl
  have haccepted : shiftedModel.properties.map (fun p => checkProperty p
      ⟨[], checkEntries cat fields.entries⟩) = as.map .ok := by
    have hpage := map_pageProperties cat fields hsize rfl rfl
    exact congrArg₂ (fun page fixed => page ++ [fixed]) hpage hfixed
  exact build_eq_record as hmodel (fun _ => rfl) haccepted

end Records

/-! ## What a query makes of a choice -/

theorem nat?_natCast (n : Nat) : (Value.int n).nat? = some n := by
  have hnot : ¬ ((n : Int) < 0) := by omega
  rw [Value.nat?, if_neg hnot, Int.toNat_natCast]

theorem ofValue?_view (m : Model) (c : RecordClass) (slots : List (Slot Value)) :
    ofValue? (m.view c slots) = ofValue? (.record c slots) := by
  have hinstance : ∀ name, (m.view c slots).isInstance name =
      (Value.record c slots).isInstance name := fun _ => rfl
  simp only [ofValue?, hinstance, field_view]

/-- A value is taken for a choice of hits where a query has one. -/
def Chooses (cat : Catalogue) (v : Value) (choice : Option Paging) : Prop :=
  ∃ a, check cat v (.optional (.model "Pageable")) = .ok a ∧
    a.value.unlessNull ofValue? = some choice

/-- A record of a choice is taken for this choice. -/
theorem chooses_record {c : RecordClass} {slots : List (Slot Value)} {choice : Paging}
    (hcat : cat.model? "Pageable" = some baseModel) (hc : c.isA "Pageable")
    (h : ofValue? (.record c slots) = some choice) :
    Chooses cat (.record c slots) (some choice) := by
  have hcheck : check cat (.record c slots) (.optional (.model "Pageable")) =
      checkModel cat "Pageable" (.record c slots) noParts := rfl
  rw [checkModel, if_pos hc, hcat] at hcheck
  refine ⟨_, hcheck, ?_⟩
  have hview := ofValue?_view baseModel c slots
  rw [h] at hview
  exact congrArg (Option.map some) hview

section Choices

variable (hcat : ∀ m ∈ models, cat.model? m.name = some m)
include hcat

theorem chooses_unpaged {v : Value}
    (hv : cat.build "Pageable" [] = .ok v ∨ cat.build "Unpaged" [] = .ok v) :
    Chooses cat v (some .unpaged) := by
  have hbase : cat.model? "Pageable" = some baseModel := hcat baseModel (by simp [models])
  obtain ⟨hall, hunpaged⟩ := build_unpaged hcat
  rcases hv with hv | hv
  · cases hall.symm.trans hv
    exact chooses_record hbase rfl rfl
  · cases hunpaged.symm.trans hv
    exact chooses_record hbase rfl rfl

theorem chooses_page (page size : Nat) :
    Chooses cat (pageModel.record [.int page, .int size]) (some (.page page size)) := by
  have hbase : cat.model? "Pageable" = some baseModel := hcat baseModel (by simp [models])
  refine chooses_record hbase rfl ?_
  have hread : ofValue? (pageModel.record [.int page, .int size]) = (do
      some (.page (← (Value.int page).nat?) (← (Value.int size).nat?))) := rfl
  rw [nat?_natCast, nat?_natCast] at hread
  exact hread

theorem chooses_shifted (page size : Nat) (offset : Int) :
    Chooses cat (shiftedModel.record [.int page, .int size, .int offset])
      (some (.shifted offset size)) := by
  have hbase : cat.model? "Pageable" = some baseModel := hcat baseModel (by simp [models])
  refine chooses_record hbase rfl ?_
  have hread : ofValue? (shiftedModel.record [.int page, .int size, .int offset]) = (do
      some (.shifted (← (Value.int offset).int?) (← (Value.int size).nat?))) := rfl
  rw [nat?_natCast] at hread
  exact hread

end Choices

end Paging

/-! ## Queries with another choice of hits -/

namespace Query

variable {cat : Catalogue} {m : Model} {name : String} {args : Fields} {v w : Value} {q : Query}
  {choice : Option Paging}

/-- What chooses the hits of a query is its first property and no other one. -/
theorem properties_eq {get : String → Value} {source : QuerySource} (hm : m ∈ models)
    (h : sourceOf? m.cls get = some source) :
    ∃ rest, m.properties = .optional "pageable" (.model "Pageable") :: rest ∧
      ∀ p ∈ rest, "pageable" ∉ p.keys := by
  simp only [models, List.mem_cons, List.not_mem_nil, or_false] at hm
  rcases hm with rfl | rfl | rfl | rfl | rfl
  · exact ⟨_, rfl, by decide⟩
  · exact ⟨_, rfl, by decide⟩
  · exact ⟨_, rfl, by decide⟩
  · exact ⟨_, rfl, by decide⟩
  · cases h

/-- Another choice of hits changes nothing else of what is read. -/
theorem assemble?_paging {c : RecordClass} {get other : String → Value}
    {rescorers : List (Rescorer Query)} (h : assemble? c get rescorers = some q)
    (hget : ∀ key, key ≠ "pageable" → other key = get key)
    (hchoice : (other "pageable").unlessNull Paging.ofValue? = some choice) :
    assemble? c other rescorers = some { q with paging := choice } := by
  have hsource : sourceOf? c other = sourceOf? c get := by
    unfold sourceOf?
    rw [hget "criteria" (by decide), hget "query" (by decide), hget "filter" (by decide),
      hget "aggregations" (by decide), hget "source" (by decide)]
  simp only [assemble?, Option.bind_eq_bind, Option.bind_eq_some_iff] at h
  obtain ⟨source, hsource', _, -, items, hitems, sort, hsort, stored, hstored, filter, hfilter,
    highlight, hhighlight, indices, hindices, ids, hids, after, hafter, h⟩ := h
  cases h
  simp only [assemble?, hsource, hget, ne_eq, String.reduceEq, not_false_eq_true, hsource', hchoice,
    hitems, hsort, hstored, hfilter, hhighlight, hindices, hids, hafter, Option.bind_eq_bind,
    Option.bind_some]

/-- The choice of hits is read from the property for it. -/
theorem paging_of_assemble {c : RecordClass} {get : String → Value}
    {rescorers : List (Rescorer Query)} (h : assemble? c get rescorers = some q) :
    (get "pageable").unlessNull Paging.ofValue? = some q.paging := by
  simp only [assemble?, Option.bind_eq_bind, Option.bind_eq_some_iff] at h
  obtain ⟨_, -, paging, hpaging, _, -, _, -, _, -, _, -, _, -, _, -, _, -, _, -, h⟩ := h
  cases h
  exact hpaging

theorem rule_eq_none (hm : m ∈ models) (slots : List (Slot Value)) : m.rule slots = none := by
  simp only [models, List.mem_cons, List.not_mem_nil, or_false] at hm
  rcases hm with rfl | rfl | rfl | rfl | rfl <;> rfl

/-- **A query with another choice of hits** is built from arguments with this choice. -/
theorem ofValue?_set (hm : m ∈ models) (hcat : cat.model? name = some m)
    (hbuild : cat.build name args = .ok v) (hq : ofValue? v = some q)
    (hw : Paging.Chooses cat w choice) :
    ∃ v', cat.build name (args.set "pageable" w) = .ok v' ∧
      ofValue? v' = some { q with paging := choice } := by
  obtain ⟨m', a, hm', ha, rfl⟩ := build_eq_ok.1 hbuild
  cases hcat.symm.trans hm'
  obtain ⟨hok, hvalue⟩ := buildRecord_ok ha
  rw [hvalue, recordOf, ofValue?] at hq
  obtain ⟨rescorers, hrescorers, hassemble⟩ := Option.bind_eq_some_iff.1 hq
  obtain ⟨rest, hproperties, hrest⟩ := properties_eq hm (source_of_assemble hassemble)
  rw [hproperties, List.map_cons] at hrescorers hassemble
  rw [hproperties, List.forall_mem_cons] at hok
  -- the choice is taken where there was one before, and nothing else is taken in another way
  obtain ⟨b, hb, hchoice⟩ := hw
  have hfirst : checkProperty (.optional "pageable" (.model "Pageable"))
      ⟨[], checkEntries cat (args.set "pageable" w).entries⟩ = .ok b :=
    checkProperty_of_get? rfl (by rw [Fields.get?_set, if_pos rfl]) hb
  have hothers := fun p hp => checkProperty_set cat args (hrest p hp) w
  have hnew : ∃ a', buildRecord m ⟨[], checkEntries cat (args.set "pageable" w).entries⟩ =
      .ok a' := by
    refine exists_buildRecord (rule_eq_none hm) ?_
    rw [hproperties, List.forall_mem_cons]
    refine ⟨⟨b, hfirst⟩, ?_⟩
    intro p hp
    rw [hothers p hp]
    exact hok.2 p hp
  obtain ⟨a', ha'⟩ := hnew
  have hmap : rest.map (fun p => (⟨p.name, p.wire, valueOf (checkProperty p
      ⟨[], checkEntries cat (args.set "pageable" w).entries⟩)⟩ : Slot Value)) =
      rest.map fun p => ⟨p.name, p.wire, valueOf (checkProperty p
        ⟨[], checkEntries cat args.entries⟩)⟩ :=
    List.map_congr_left fun p hp => by rw [hothers p hp]
  refine ⟨_, build_eq_ok.2 ⟨m, a', hcat, ha', (buildRecord_ok ha').2⟩, ?_⟩
  rw [recordOf, hproperties, List.map_cons, hfirst, hmap, ofValue?]
  refine Option.bind_eq_some_iff.2 ⟨rescorers, hrescorers, ?_⟩
  refine assemble?_paging hassemble ?_ hchoice
  intro key hkey
  have hne : ("pageable" == key) = false := by simp [Ne.symm hkey]
  rw [Value.slotValue, Value.slotValue, List.find?_cons, List.find?_cons]
  simp only [Property.optional, Property.withDefault, hne]

/-- A query without a choice of hits. -/
theorem paging_eq_none (hm : m ∈ models) (hcat : cat.model? name = some m)
    (hbuild : cat.build name args = .ok v) (hq : ofValue? v = some q)
    (hunset : (args.get? "pageable").getD .null = .null) : q.paging = none := by
  obtain ⟨m', a, hm', ha, rfl⟩ := build_eq_ok.1 hbuild
  cases hcat.symm.trans hm'
  rw [(buildRecord_ok ha).2, recordOf, ofValue?] at hq
  obtain ⟨rescorers, -, hassemble⟩ := Option.bind_eq_some_iff.1 hq
  obtain ⟨rest, hproperties, -⟩ := properties_eq hm (source_of_assemble hassemble)
  have hfirst : checkProperty (.optional "pageable" (.model "Pageable"))
      ⟨[], checkEntries cat args.entries⟩ = Verdict.exact .null := by
    cases hget : args.get? "pageable" with
    | none =>
      rw [checkProperty, findGiven_entries]
      simp [Property.optional, Property.withDefault, hget]
    | some w =>
      rw [hget, Option.getD_some] at hunset
      rw [hunset] at hget
      exact checkProperty_of_get? rfl hget rfl
  have hread := paging_of_assemble hassemble
  rw [hproperties, List.map_cons, hfirst] at hread
  exact (Option.some.inj hread).symm

/-! ## Their search requests -/

variable {settings : Settings} {domain : Option Domain} {index : IndexCoordinates} {r : Request}

/-- The window of a search request is that of the query, or of the first page. -/
theorem Admitted.window?_eq (hq : q.Admitted)
    (h : q.searchRequest settings domain index = .ok r) :
    r.window? = some ((q.paging.getD (.standard settings)).window settings) := by
  obtain ⟨parts, -, hfields⟩ := hq.searchRequest_eq h
  obtain ⟨_, -, hmake⟩ := bind_eq_ok.1 h
  have hkind := Request.kind_make hmake
  have hnames : Fields.names (dictionary settings domain q index parts) |>.Nodup :=
    Request.wires_nodup .search
  have hbody : ∀ key v, RequestKind.search.paramKeys.contains key = false →
      (key, v) ∈ dictionary settings domain q index parts → v ≠ .null →
        r.body.part? [.name key] = some v := by
    intro key v hparam hmem hset
    have hshown : (!r.isParam key) = true := by rw [Request.isParam, hkind, hparam]; rfl
    rw [Request.body_eq (by rw [hkind]; rfl), Value.part?_object,
      Fields.get?_filter (fun name => !r.isParam name) hshown, hfields,
      Fields.get?_given_eq hnames, Fields.get?_of_mem hnames hmem, Option.getD_some,
      Value.present?_of_ne hset]
    rfl
  have hfrom := hbody "from" (.int ((q.paging.getD (.standard settings)).window settings).1)
    rfl (by simp [dictionary]) (by simp)
  have hsize := hbody "size" (.int ((q.paging.getD (.standard settings)).window settings).2)
    rfl (by simp [dictionary]) (by simp)
  simp only [Request.window?, hfrom, hsize, Value.int?, Paging.nat?_natCast, Option.bind_eq_bind,
    Option.bind_some]

/-- **A search with another choice of hits** succeeds, too, and asks for the window of this
choice. -/
theorem Admitted.exists_searchRequest (hq : q.Admitted) (choice : Option Paging)
    (h : q.searchRequest settings domain index = .ok r) :
    ∃ r', ({ q with paging := choice } : Query).searchRequest settings domain index = .ok r' ∧
      r'.window? = some ((choice.getD (.standard settings)).window settings) := by
  have hpaged : ({ q with paging := choice } : Query).Admitted := { hq with }
  obtain ⟨fields, hfields, -⟩ := bind_eq_ok.1 h
  obtain ⟨clause, sort, rescore, timeout, searchAfter, hclause, hsort, hrescore, htimeout,
    hsearchAfter, -⟩ := searchFields_eq_ok.1 hfields
  have hfields' : ({ q with paging := choice } : Query).searchFields settings domain index =
      .ok _ :=
    searchFields_eq_ok.2 ⟨clause, sort, rescore, timeout, searchAfter, hclause, hsort, hrescore,
      htimeout, hsearchAfter, rfl⟩
  have hsuited := hpaged.checked.yields_searchFields settings domain index
  rw [hfields'] at hsuited
  obtain ⟨r', hr'⟩ := Request.exists_make hsuited
  have hsearch := bind_eq_ok.2 ⟨_, hfields', hr'⟩
  exact ⟨r', hsearch, hpaged.window?_eq hsearch⟩

/-! ## Pages of a search -/

/-- A search by a query that is to be built from arguments. -/
structure Plan where
  cat : Catalogue
  name : String
  args : Fields
  settings : Settings
  domain : Option Domain
  target : Value

namespace Plan

/-- The search request. -/
def run (s : Plan) : Except Failure Request := do
  let query ← s.cat.build s.name s.args
  (RequestCall.search s.settings s.domain query s.target).run

/-- The same search for other hits. The choice is a record of a class, built from arguments. -/
def paged (s : Plan) (choice : String) (fields : Fields) : Except Failure Request := do
  let pageable ← s.cat.build choice fields
  { s with args := s.args.set "pageable" pageable }.run

variable {s : Plan}

theorem run_eq_ok : s.run = .ok r ↔ ∃ v index q, s.cat.build s.name s.args = .ok v ∧
    IndexCoordinates.coerce s.target = .ok index ∧ ofValue? v = some q ∧
      q.searchRequest s.settings s.domain index = .ok r := by
  have hlegible : ∀ {v q}, legible (ofValue? v) = .ok q ↔ ofValue? v = some q := by
    intro v q
    cases ofValue? v <;> simp [legible]
  simp only [run, RequestCall.run, bind_eq_ok, hlegible, exists_and_left]

/-- **A search with a choice of hits** succeeds if it does with another one, and asks for the window
of the choice. -/
theorem exists_paged (hm : m ∈ models) (hcat : s.cat.model? s.name = some m)
    (h : s.run = .ok r) {choice : String} {fields : Fields} {paging : Paging}
    (hbuild : s.cat.build choice fields = .ok w) (hw : Paging.Chooses s.cat w (some paging)) :
    ∃ r', s.paged choice fields = .ok r' ∧ r'.window? = some (paging.window s.settings) := by
  obtain ⟨v, index, q, hv, hindex, hq, hr⟩ := run_eq_ok.1 h
  obtain ⟨v', hv', hq'⟩ := ofValue?_set hm hcat hv hq hw
  obtain ⟨r', hr', hwindow⟩ :=
    (admitted_of_build hm hcat hv hq).exists_searchRequest (some paging) hr
  exact ⟨r', bind_eq_ok.2 ⟨w, hbuild, run_eq_ok.2 ⟨v', index, _, hv', hindex, hq', hr'⟩⟩, hwindow⟩

end Plan

/-- A rank is on one page. -/
theorem existsUnique_page {size : Nat} (hsize : 1 ≤ size) (rank : Nat) :
    ∃! page : Nat, page * size ≤ rank ∧ rank < page * size + size := by
  refine ⟨rank / size, ⟨Nat.div_mul_le_self rank size, ?_⟩, ?_⟩
  · have hrest := Nat.mod_lt rank hsize
    have hsplit := Nat.div_add_mod' rank size
    omega
  · rintro page ⟨hfirst, hlast⟩
    rw [← Nat.succ_mul] at hlast
    exact (Nat.div_eq_of_lt_le hfirst hlast).symm

/-- **The pages of a search tile the list of hits.** A search that succeeds does so with every page,
and for every size of pages and every rank there is exactly one page whose search asks for the hit
of this rank. A page that starts at an offset of its own asks for as many hits as it has from there
on, whatever its number is. Without pages a search asks for all hits up to the result window. And a
search that chooses no hits is that for the first page of the usual size, with all valid
settings. -/
theorem pages_tile {s : Plan} {sargs : Fields} (hm : m ∈ models)
    (hcat : s.cat.model? s.name = some m)
    (hpaging : ∀ p ∈ Paging.models, s.cat.model? p.name = some p)
    (hsettings : Settings.ofArguments sargs = .ok s.settings) (h : s.run = .ok r) :
    (∀ size : Nat, 1 ≤ size →
      (∀ page : Nat, ∃ r', s.paged "PageRequest" [("page", .int page), ("size", .int size)] =
        .ok r') ∧
      ∀ rank : Nat, ∃! page : Nat, ∃ r',
        s.paged "PageRequest" [("page", .int page), ("size", .int size)] = .ok r' ∧
          r'.AsksFor rank) ∧
      (∀ (page size : Nat) (offset : Int), 1 ≤ size → ∃ r', s.paged "OffsetPageRequest"
        [("page", .int page), ("size", .int size), ("fixed", .int offset)] = .ok r' ∧
          r'.window? = some (offset, size)) ∧
      (∀ choice ∈ ["Pageable", "Unpaged"], ∃ r', s.paged choice [] = .ok r' ∧
        r'.window? = some (0, s.settings.maxResultWindow)) ∧
      ((s.args.get? "pageable").getD .null = .null →
        s.paged "PageRequest" [("page", .int 0), ("size", .int s.settings.pageSize)] = .ok r) := by
  have hpage : ∀ page size : Nat, 1 ≤ size → ∃ r',
      s.paged "PageRequest" [("page", .int page), ("size", .int size)] = .ok r' ∧
        r'.window? = some (((page * size : Nat) : Int), size) := fun page size hsize =>
    Plan.exists_paged hm hcat h (Paging.build_page hpaging page hsize)
      (Paging.chooses_page hpaging page size)
  refine ⟨fun size hsize => ⟨fun page => ?_, fun rank => ?_⟩, ?_, ?_, ?_⟩
  · exact (hpage page size hsize).imp fun _ h => h.1
  · obtain ⟨page, ⟨hfirst, hlast⟩, hunique⟩ := existsUnique_page hsize rank
    obtain ⟨r', hr', hwindow⟩ := hpage page size hsize
    refine ⟨page, ⟨r', hr', _, _, hwindow, by omega, by omega⟩, ?_⟩
    rintro other ⟨r'', hr'', start, count, hasked, hstart, hcount⟩
    obtain ⟨r₀, hr₀, hwindow₀⟩ := hpage other size hsize
    cases hr₀.symm.trans hr''
    cases hwindow₀.symm.trans hasked
    exact hunique other ⟨by omega, by omega⟩
  · intro page size offset hsize
    exact Plan.exists_paged hm hcat h (Paging.build_shifted hpaging page hsize offset)
      (Paging.chooses_shifted hpaging page size offset)
  · obtain ⟨hall, hunpaged⟩ := Paging.build_unpaged hpaging
    intro choice hchoice
    simp only [List.mem_cons, List.not_mem_nil, or_false] at hchoice
    rcases hchoice with rfl | rfl
    · exact Plan.exists_paged hm hcat h hall (Paging.chooses_unpaged hpaging (.inl hall))
    · exact Plan.exists_paged hm hcat h hunpaged (Paging.chooses_unpaged hpaging (.inr hunpaged))
  · intro hunset
    obtain ⟨v, index, q, hv, hindex, hq, hr⟩ := Plan.run_eq_ok.1 h
    have hnone := paging_eq_none hm hcat hv hq hunset
    have hbuild := Paging.build_page hpaging 0 (Settings.pos_of_arguments hsettings).2
    have hchooses := Paging.chooses_page hpaging 0 s.settings.pageSize
    obtain ⟨v', hv', hq'⟩ := ofValue?_set hm hcat hv hq hchooses
    have hsame : ({ q with paging := some (.standard s.settings) } : Query).searchRequest s.settings
        s.domain index = q.searchRequest s.settings s.domain index := by
      obtain ⟨source, paging⟩ := q
      cases hnone
      rfl
    exact bind_eq_ok.2 ⟨_, hbuild, Plan.run_eq_ok.2 ⟨v', index, _, hv', hindex, hq',
      hsame.trans hr⟩⟩

/-- A search of some documents, with settings that were checked. -/
private def explained : Plan :=
  ⟨⟨models ++ Paging.models, []⟩, "Query", [("explain", .bool true)], ⟨100, 5, "WARNING"⟩, none,
    .str "things"⟩

theorem pages_tile_explained :
    (∃! page : Nat, ∃ r, explained.paged "PageRequest" [("page", .int page), ("size", .int 7)] =
      .ok r ∧ r.AsksFor 40) ∧
      (∃ r, explained.paged "OffsetPageRequest"
        [("page", .int 3), ("size", .int 7), ("fixed", .int (-1))] = .ok r ∧
          r.window? = some (-1, 7)) ∧
      (∃ r, explained.paged "Unpaged" [] = .ok r ∧ r.window? = some (0, 100)) ∧
      ∃ r, explained.run = .ok r ∧
        explained.paged "PageRequest" [("page", .int 0), ("size", .int 5)] = .ok r := by
  have hm : Model.plain "Query" properties ∈ models := .head _
  have hpaging : ∀ p ∈ Paging.models, explained.cat.model? p.name = some p := by
    simp only [Paging.models, List.forall_mem_cons]
    exact ⟨rfl, rfl, rfl, rfl, List.forall_mem_nil _⟩
  have hsettings : Settings.ofArguments
      [("max_result_window", .int 100), ("default_page_size", .int 5)] = .ok explained.settings :=
    rfl
  obtain ⟨r, hr⟩ : ∃ r, explained.run = .ok r := ⟨_, rfl⟩
  obtain ⟨htile, hshifted, hunpaged, hunset⟩ := pages_tile hm rfl hpaging hsettings hr
  exact ⟨(htile 7 (by decide)).2 40, hshifted 3 7 (-1) (by decide), hunpaged "Unpaged" (by simp),
    r, hr, hunset rfl⟩

end Query

end SearchWire
