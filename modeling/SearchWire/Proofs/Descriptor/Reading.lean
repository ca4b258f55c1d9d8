import SearchWire.Proofs.Descriptor.Legible

/-!
# Descriptors can be read

A descriptor that was built from validated arguments can be read, with all the descriptors in it:
there is a query, a copy, a batch of actions or a write for its record.

* `Paging.exists_ofValue?`, `SortOrder.exists_ofValue?`, `Query.exists_assemble?`: parts of queries.
* `Query.exists_ofValue?`: **queries**, with those of their rescorers.
* `Query.exists_of_build`, `ReindexQuery.exists_of_build`, `AliasAction.exists_batch_of_build`,
  `IndexTemplate.exists_of_build`, `IndexQuery.exists_of_build`, `UpdateQuery.exists_of_build`,
  `BulkOptions.exists_of_build`: **every descriptor that is built can be read.**
-/

namespace SearchWire

/-! ## Parts of queries -/

variable {cat : Catalogue} {m : Model} {v : Value}

theorem SourceFilter.exists_ofValue? (h : Conforms cat model v) : ∃ s, ofValue? v = some s := by
  obtain ⟨includes, hincludes⟩ := h.reads_default "includes" (.list []) (.texts 0) ⟨[], rfl⟩
    (by simp [model, Model.plain, Shape.texts])
  obtain ⟨excludes, hexcludes⟩ := h.reads_default "excludes" (.list []) (.texts 0) ⟨[], rfl⟩
    (by simp [model, Model.plain, Shape.texts])
  exact ⟨⟨includes, excludes⟩, by rw [ofValue?, hincludes, hexcludes]; rfl⟩

theorem Highlight.exists_ofValue? (h : Conforms cat model v) : ∃ s, ofValue? v = some s := by
  obtain ⟨fields, hfields⟩ := h.reads_required "fields" (.texts 0)
    (by simp [model, Model.plain, Shape.texts])
  exact ⟨_, by rw [ofValue?, hfields]; rfl⟩

theorem IndicesOptions.exists_ofValue? (hcat : cat.Complete) (h : Conforms cat model v) :
    ∃ o, ofValue? v = some o := by
  have hstates : Legible cat (Worded.shape WildcardState) Worded.ofValue? :=
    .worded WildcardState hcat (by simp [Catalogue.standardEnumerations])
  obtain ⟨ignore, hignore⟩ := h.reads_default "ignore_unavailable" (.bool false) .flag ⟨_, rfl⟩
    (by simp [model, Model.fixed, Model.plain, standard])
  obtain ⟨allow, hallow⟩ := h.reads_default "allow_no_indices" (.bool true) .flag ⟨_, rfl⟩
    (by simp [model, Model.fixed, Model.plain, standard])
  obtain ⟨states, hread⟩ := h.reads_default "expand_wildcards"
    (statesValue standard.expandWildcards) (.items .frozenset 0 hstates)
    ⟨[WildcardState.opened], rfl⟩
    (by simp [model, Model.fixed, Model.plain])
  obtain ⟨xs, hxs, hmapM⟩ := Option.bind_eq_some_iff.1 hread
  refine ⟨⟨ignore, allow, states⟩, ?_⟩
  simp only [ofValue?, hxs, hignore, hallow, hmapM, Option.bind_eq_bind, Option.bind_some]

namespace Paging

/-- What extends a choice of hits is one of the library. -/
theorem filter_isA : Catalogue.standardModels.filter (·.cls.isA "Pageable") = models := rfl

theorem exists_ofValue? (hcat : cat.Complete) (h : OfClass cat m v) (hisA : m.cls.isA "Pageable") :
    ∃ p, ofValue? v = some p := by
  have hm : m ∈ models := filter_isA ▸ hcat.mem_of_isA h.found hisA (by decide) (by decide)
  have hsize : Property.withDefault "size" (.integer (some 1) none)
      (.int Settings.standard.pageSize) ∈ m.properties →
      ∃ n, (v.field "size").nat? = some n :=
    fun hp => h.conforms.reads_default "size" _ (.nat 1 none (by decide)) ⟨10, rfl⟩ hp
  simp only [models, List.mem_cons, List.not_mem_nil, or_false] at hm
  simp only [ofValue?, h.isInstance_eq]
  rcases hm with rfl | rfl | rfl | rfl
  · exact ⟨.unpaged, rfl⟩
  · obtain ⟨page, hpage⟩ := h.conforms.reads_default "page" (.int 0) (.nat 0 none (by decide))
      ⟨0, rfl⟩ (by simp [pageModel, pageProperties, Model.fixed, Model.plain])
    obtain ⟨size, hsize⟩ := hsize (by simp [pageModel, pageProperties, Model.fixed, Model.plain])
    exact ⟨.page page size, by rw [hpage, hsize]; rfl⟩
  · exact ⟨.unpaged, rfl⟩
  · obtain ⟨offset, hoffset⟩ := h.conforms.reads_default "fixed" (.int 0) (.int none none)
      ⟨0, rfl⟩ (by simp [shiftedModel, pageProperties, Model.fixed, Model.plain, Shape.whole])
    obtain ⟨size, hsize⟩ := hsize
      (by simp [shiftedModel, pageProperties, Model.fixed, Model.plain])
    exact ⟨.shifted offset size, by rw [hoffset, hsize]; rfl⟩

end Paging

namespace SortOrder

theorem filter_isA : Catalogue.standardModels.filter (·.cls.isA fieldModel.name) = [fieldModel] ∧
    Catalogue.standardModels.filter (·.cls.isA distanceModel.name) = [distanceModel] := ⟨rfl, rfl⟩

theorem exists_ofValue? (hcat : cat.Complete) (h : OfClass cat m v) (hm : m ∈ models) :
    ∃ s, ofValue? v = some s := by
  have hread : ∀ hfield : .required "field" .text ∈ m.properties,
      ∀ hdirection : direction ∈ m.properties,
        (∃ s, (v.field "field").text? = some s) ∧
          ∃ d : Direction, Worded.ofValue? (v.field "direction") = some d :=
    fun hfield hdirection => ⟨h.conforms.reads_required "field" .text hfield,
      h.conforms.reads_default "direction" (Worded.value Direction.ascending)
        (.worded Direction hcat (by simp [Catalogue.standardEnumerations]))
        ⟨Direction.ascending, rfl⟩ hdirection⟩
  simp only [models, List.mem_cons, List.not_mem_nil, or_false] at hm
  rcases hm with rfl | rfl
  · obtain ⟨⟨field, hfield⟩, d, hd⟩ := hread (by simp [fieldModel, Model.fixed, Model.plain])
      (by simp [fieldModel, Model.fixed, Model.plain])
    refine ⟨.field ⟨field, d, v.field "mode", v.field "missing", v.field "unmapped_type"⟩, ?_⟩
    simp only [ofValue?, hfield, hd, h.isInstance_eq, Option.bind_eq_bind, Option.bind_some]
    rfl
  · obtain ⟨⟨field, hfield⟩, d, hd⟩ := hread (by simp [distanceModel, Model.fixed, Model.plain])
      (by simp [distanceModel, Model.fixed, Model.plain])
    obtain ⟨unit, hunit⟩ := h.conforms.reads_default "unit" (.str "m") .text ⟨_, rfl⟩
      (by simp [distanceModel, Model.fixed, Model.plain])
    obtain ⟨kind, hkind⟩ := h.conforms.reads_default "distance_type" (.str "arc")
      (.words ["arc", "plane"]) ⟨_, rfl⟩ (by simp [distanceModel, Model.fixed, Model.plain, words])
    obtain ⟨mode, hmode⟩ := h.conforms.reads_default "mode" (.str "min")
      (.words ["min", "max", "median", "avg"]) ⟨_, rfl⟩
      (by simp [distanceModel, Model.fixed, Model.plain, words])
    obtain ⟨ignore, hignore⟩ := h.conforms.reads_default "ignore_unmapped" (.bool false) .flag
      ⟨_, rfl⟩ (by simp [distanceModel, Model.fixed, Model.plain])
    refine ⟨.distance ⟨field, v.field "geo_point", d, unit, kind, mode, ignore⟩, ?_⟩
    simp only [ofValue?, hfield, hd, hunit, hkind, hmode, hignore, h.isInstance_eq,
      Option.bind_eq_bind, Option.bind_some]
    rfl

theorem legible_shape (hcat : cat.Complete) : Legible cat shape ofValue? := by
  refine .tagged fun name hname => .ofClass hcat fun {m v} h hisA => ?_
  obtain ⟨hfield, hdistance⟩ := filter_isA
  simp only [List.map_cons, List.map_nil, List.mem_cons, List.not_mem_nil, or_false] at hname
  refine exists_ofValue? hcat h ?_
  rcases hname with rfl | rfl
  · have hm := hcat.mem_of_isA h.found hisA (by decide) (by decide)
    rw [hfield, List.mem_singleton] at hm
    exact hm ▸ List.mem_cons_self
  · have hm := hcat.mem_of_isA h.found hisA (by decide) (by decide)
    rw [hdistance, List.mem_singleton] at hm
    exact hm ▸ .tail _ List.mem_cons_self

end SortOrder

/-! ## Queries -/

theorem Value.slotValue_cons_of_ne {name wire key : String} {slots : List (Slot Value)}
    (h : name ≠ key) : slotValue (⟨name, wire, v⟩ :: slots) key = slotValue slots key := by
  rw [slotValue, List.find?_cons_of_neg (by simpa using h)]
  rfl

namespace Query

variable {c : RecordClass} {slots : List (Slot Value)}

/-- What extends a query is a query of the library. -/
theorem filter_isA : Catalogue.standardModels.filter (·.cls.isA "Query") = models.take 4 := rfl

/-- Every query has a source, and the options of all queries. -/
theorem exists_source (hcat : cat.Complete) (h : OfClass cat m (.record c slots))
    (hisA : m.cls.isA "Query") :
    properties ⊆ m.properties ∧ ∃ s, sourceOf? c (Value.slotValue slots) = some s := by
  have hm : m ∈ models.take 4 :=
    filter_isA ▸ hcat.mem_of_isA h.found hisA (by decide) (by decide)
  have hclass : sourceOf? c (Value.slotValue slots) = sourceOf? m.cls (Value.slotValue slots) := by
    have hisInstance : ∀ name, c.isA name = m.cls.isA name := h.isInstance_eq
    simp only [sourceOf?, hisInstance]
  rw [hclass]
  simp only [models, List.take_succ_cons, List.take_zero, List.mem_cons, List.not_mem_nil,
    or_false] at hm
  rcases hm with rfl | rfl | rfl | rfl
  · exact ⟨List.Subset.refl _, .everything, rfl⟩
  · exact ⟨List.subset_append_left _ _,
      .criteria (Criteria.given (Value.slotValue slots "criteria")), rfl⟩
  · exact ⟨List.subset_append_left _ _, .native (.ofValue (Value.slotValue slots "query"))
      (Value.slotValue slots "filter") (Value.slotValue slots "aggregations"), rfl⟩
  · obtain ⟨s, hs⟩ := h.conforms.reads_required "source" .text (by simp [modelOf, Model.plain])
    have htext : (Value.slotValue slots "source").text? = some s := hs
    have hsource : sourceOf? (modelOf "StringQuery" [.required "source" .text]).cls
        (Value.slotValue slots) =
          (Value.slotValue slots "source").text?.bind fun s => some (.text s) := rfl
    refine ⟨List.subset_append_left _ _, .text s, ?_⟩
    rw [hsource, htext]
    rfl

/-- A query can be read once its rescorers are. -/
theorem exists_assemble? (hcat : cat.Complete) (h : OfClass cat m (.record c slots))
    (hisA : m.cls.isA "Query") (rescorers : List (Rescorer Query)) :
    ∃ q, assemble? c (Value.slotValue slots) rescorers = some q := by
  obtain ⟨hproperties, source, hsource⟩ := exists_source hcat h hisA
  have hoption : ∀ {β : Type} {read : Value → Option β} (key : String) {s : Shape},
      Legible cat s read → .optional key s ∈ properties →
        ∃ o, (Value.slotValue slots key).unlessNull read = some o :=
    fun key _ hs hp => h.conforms.reads_optional key hs (hproperties hp)
  obtain ⟨paging, hpaging⟩ := hoption "pageable" (.ofClass hcat (Paging.exists_ofValue? hcat))
    (by simp [properties])
  obtain ⟨storedFields, hstored⟩ := hoption "stored_fields" (.texts 0)
    (by simp [properties, Shape.texts])
  obtain ⟨sourceFilter, hfilter⟩ := hoption "source_filter"
    (.model hcat (m := SourceFilter.model) (by simp [Catalogue.standardModels])
      SourceFilter.exists_ofValue?) (by simp [properties, SourceFilter.model, Model.plain])
  obtain ⟨highlight, hhighlight⟩ := hoption "highlight"
    (.model hcat (m := Highlight.model) (by simp [Catalogue.standardModels])
      Highlight.exists_ofValue?) (by simp [properties, Highlight.model, Model.plain])
  obtain ⟨indicesOptions, hindices⟩ := hoption "indices_options"
    (.model hcat (m := IndicesOptions.model) (by simp [Catalogue.standardModels])
      (IndicesOptions.exists_ofValue? hcat))
    (by simp [properties, IndicesOptions.model, Model.fixed, Model.plain])
  obtain ⟨ids, hids⟩ := hoption "ids" (.texts 0) (by simp [properties, Shape.texts])
  obtain ⟨after, hafter⟩ := hoption "search_after" (.collection .list .any 0)
    (by simp [properties])
  have hsort : ∃ orders, ((Value.slotValue slots "sort").itemsOrNone?.bind fun xs =>
      xs.mapM SortOrder.ofValue?) = some orders :=
    h.conforms.reads_default "sort" (.list []) (.itemsOrNone .list 0 (SortOrder.legible_shape hcat))
      ⟨[], rfl⟩ (hproperties (by simp [properties]))
  obtain ⟨orders, horders⟩ := hsort
  obtain ⟨items, hitems, horders⟩ := Option.bind_eq_some_iff.1 horders
  simp only [assemble?, hsource, hpaging, hitems, horders, hstored, hfilter, hhighlight, hindices,
    hids, hafter, Option.bind_eq_bind, Option.bind_some]
  exact ⟨_, rfl⟩

/-- A rescorer has a query, and can be read once this is. -/
theorem exists_rescorerWith? (hcat : cat.Complete)
    (h : Conforms cat rescorerModel (.record c slots)) (query : Query) :
    ∃ r, rescorerWith? (Value.slotValue slots) query = some r := by
  obtain ⟨mode, hmode⟩ := h.reads_default "score_mode" (Worded.value RescoreMode.default)
    (.worded RescoreMode hcat (by simp [Catalogue.standardEnumerations])) ⟨RescoreMode.default, rfl⟩
    (by simp [rescorerModel, Model.plain])
  have hread : Worded.ofValue? (Value.slotValue slots "score_mode") = some mode := hmode
  exact ⟨_, by rw [rescorerWith?, hread]; rfl⟩

theorem exists_query (hcat : cat.Complete) (h : Conforms cat rescorerModel (.record c slots)) :
    ∃ m, m.cls.isA "Query" ∧ OfClass cat m (Value.slotValue slots "query") := by
  obtain ⟨w, a, hw, ha, hvalue⟩ := h.required "query" (.model "Query")
    (by simp [rescorerModel, Model.plain])
  have hfield : Value.slotValue slots "query" = a.value := hvalue
  rw [hfield]
  exact exists_ofClass_of_check hcat.toSound hw ha

/-- A list of rescorers, or nothing. -/
def AreRescorers (cat : Catalogue) (v : Value) : Prop :=
  v = .null ∨ ∃ xs, v = .list xs ∧ ∀ x ∈ xs, Conforms cat rescorerModel x

theorem areRescorers (hcat : cat.Complete) (h : OfClass cat m (.record c slots))
    (hisA : m.cls.isA "Query") : AreRescorers cat (Value.slotValue slots "rescorer_queries") := by
  obtain ⟨hproperties, -⟩ := exists_source hcat h hisA
  have hmodel : cat.model? "RescorerQuery" = some rescorerModel :=
    hcat.found rescorerModel (by simp [Catalogue.standardModels, models])
  refine .inr ?_
  rcases h.conforms.property (.withDefault "rescorer_queries"
      (.sequence .list (.model "RescorerQuery") 0) (.list [])) (hproperties (by simp [properties]))
    with ⟨w, a, hw, ha, hvalue⟩ | hdefault
  · obtain ⟨ws, xs, hws, hxs, hitems⟩ := check_list_items ha
    refine ⟨xs, hvalue.trans hxs, fun x hx => ?_⟩
    obtain ⟨w', hw', b, hb, rfl⟩ := hitems x hx
    exact conforms_of_check hcat.toSound hmodel (hw.of_collection hws w' hw') hb
  · exact ⟨[], (Option.some.inj hdefault).symm, List.forall_mem_nil _⟩

-- by recursion on the value, as queries are read
mutual

theorem exists_ofValue? (hcat : cat.Complete) : ∀ {v : Value} {m : Model}, OfClass cat m v →
    m.cls.isA "Query" → ∃ q, ofValue? v = some q
  | .record c slots, m, h, hisA => by
    obtain ⟨rescorers, hrescorers⟩ := exists_rescorersIn hcat (areRescorers hcat h hisA)
    obtain ⟨q, hq⟩ := exists_assemble? hcat h hisA rescorers
    exact ⟨q, by rw [ofValue?, hrescorers]; exact hq⟩

theorem exists_rescorersIn (hcat : cat.Complete) : ∀ {slots : List (Slot Value)},
    AreRescorers cat (Value.slotValue slots "rescorer_queries") →
      ∃ rs, rescorersIn slots = some rs
  | [], _ => ⟨[], rfl⟩
  | ⟨name, wire, v⟩ :: slots, h => by
    rw [rescorersIn]
    split
    · next hname =>
      refine exists_rescorersOf hcat ?_
      rw [hname] at h
      exact h
    · next hname =>
      refine exists_rescorersIn hcat ?_
      rw [Value.slotValue_cons_of_ne hname] at h
      exact h

theorem exists_rescorersOf (hcat : cat.Complete) : ∀ {v : Value}, AreRescorers cat v →
    ∃ rs, rescorersOf v = some rs
  | .null, _ => ⟨[], rfl⟩
  | .list xs, h => by
    obtain ⟨ys, hys, hconform⟩ := h.resolve_left nofun
    cases hys
    exact exists_rescorersEach hcat hconform

theorem exists_rescorersEach (hcat : cat.Complete) : ∀ {xs : List Value},
    (∀ x ∈ xs, Conforms cat rescorerModel x) → ∃ rs, rescorersEach xs = some rs
  | [], _ => ⟨[], rfl⟩
  | x :: xs, h => by
    obtain ⟨hx, hxs⟩ := List.forall_mem_cons.1 h
    obtain ⟨r, hr⟩ := exists_rescorerOf hcat hx
    obtain ⟨rs, hrs⟩ := exists_rescorersEach hcat hxs
    exact ⟨r :: rs, by rw [rescorersEach, hr, hrs]; rfl⟩

theorem exists_rescorerOf (hcat : cat.Complete) : ∀ {v : Value}, Conforms cat rescorerModel v →
    ∃ r, rescorerOf v = some r
  | .record c slots, h => by
    obtain ⟨m, hisA, hof⟩ := exists_query hcat h
    obtain ⟨q, hq⟩ := exists_queryIn hcat hof hisA
    obtain ⟨r, hr⟩ := exists_rescorerWith? hcat h q
    exact ⟨r, by rw [rescorerOf, hq]; exact hr⟩

theorem exists_queryIn (hcat : cat.Complete) : ∀ {slots : List (Slot Value)} {m : Model},
    OfClass cat m (Value.slotValue slots "query") → m.cls.isA "Query" →
      ∃ q, queryIn slots = some q
  | [], _, h, _ => nomatch h.conforms.isInstance
  | ⟨name, wire, v⟩ :: slots, m, h, hisA => by
    rw [queryIn]
    split
    · next hname =>
      rw [hname] at h
      exact exists_ofValue? hcat h hisA
    · next hname =>
      rw [Value.slotValue_cons_of_ne hname] at h
      exact exists_queryIn hcat h hisA

end

/-- **Every query that is built from validated arguments can be read.** -/
theorem exists_of_build {name : String} {args : Fields} (hcat : cat.Complete)
    (hm : cat.model? name = some m) (hisA : m.cls.isA "Query")
    (hargs : ∀ f ∈ args, Validated cat f.2) (h : cat.build name args = .ok v) :
    ∃ q, ofValue? v = some q :=
  exists_ofValue? hcat (ofClass_of_build hcat.toSound hm hargs h) hisA

/-- What is taken for a query can be read. -/
theorem legible_model (hcat : cat.Complete) : Legible cat (.model "Query") ofValue? :=
  .ofClass hcat (exists_ofValue? hcat)

end Query

/-! ## Copies -/

theorem Conforms.ofClass?_eq (h : Conforms cat m v) : v.ofClass? m.name = some v :=
  if_pos h.isInstance

/-- What is built of a model of the library conforms to it. -/
theorem Catalogue.Complete.conforms {args : Fields} (hcat : cat.Complete)
    (hm : m ∈ Catalogue.standardModels) (hargs : ∀ f ∈ args, Validated cat f.2)
    (h : cat.build m.name args = .ok v) : Conforms cat m v :=
  conforms_of_build hcat.toSound (hcat.found m hm) hargs h

theorem Remote.exists_ofValue? (h : Conforms cat model v) : ∃ r, ofValue? v = some r := by
  obtain ⟨scheme, hscheme⟩ := h.reads_default "scheme" (.str "http") .text ⟨_, rfl⟩
    (by simp [model, Model.plain])
  obtain ⟨host, hhost⟩ := h.reads_required "host" .text (by simp [model, Model.plain])
  obtain ⟨port, hport⟩ := h.reads_required "port" (.int (some 1) (some 65535))
    (by simp [model, Model.plain])
  obtain ⟨path, hpath⟩ := h.reads_optional "path_prefix" .text (by simp [model, Model.plain])
  have hclass : v.ofClass? "Remote" = some v := h.ofClass?_eq
  simp only [ofValue?, hclass, hscheme, hhost, hport, hpath, Option.bind_eq_bind, Option.bind_some]
  exact ⟨_, rfl⟩

theorem Slice.exists_ofValue? (h : Conforms cat model v) : ∃ s, ofValue? v = some s := by
  have hclass : v.ofClass? "Slice" = some v := h.ofClass?_eq
  exact ⟨_, by rw [ofValue?, hclass]; rfl⟩

theorem ReindexScript.exists_ofValue? (h : Conforms cat model v) : ∃ s, ofValue? v = some s := by
  have hclass : v.ofClass? "ReindexScript" = some v := h.ofClass?_eq
  exact ⟨_, by rw [ofValue?, hclass]; rfl⟩

section
variable (hcat : cat.Complete)
include hcat

theorem ReindexSource.exists_ofValue? (h : Conforms cat model v) : ∃ s, ofValue? v = some s := by
  obtain ⟨indices, hindices⟩ := h.reads_required "indices" (.texts 1)
    (by simp [model, Model.plain])
  obtain ⟨remote, hremote⟩ := h.reads_optional "remote"
    (.model hcat (m := Remote.model) (by simp [Catalogue.standardModels, ReindexQuery.models])
      Remote.exists_ofValue?) (by simp [model, Model.plain, Remote.model])
  obtain ⟨query, hquery⟩ := h.reads_optional "query" (Query.legible_model hcat)
    (by simp [model, Model.plain])
  obtain ⟨sourceFilter, hfilter⟩ := h.reads_optional "source_filter"
    (.model hcat (m := SourceFilter.model) (by simp [Catalogue.standardModels])
      SourceFilter.exists_ofValue?) (by simp [model, Model.plain, SourceFilter.model])
  obtain ⟨slice, hslice⟩ := h.reads_optional "slice"
    (.model hcat (m := Slice.model) (by simp [Catalogue.standardModels, ReindexQuery.models])
      Slice.exists_ofValue?) (by simp [model, Model.plain, Slice.model])
  have hclass : v.ofClass? "ReindexSource" = some v := h.ofClass?_eq
  simp only [ofValue?, hclass, hindices, hremote, hquery, hfilter, hslice, Option.bind_eq_bind,
    Option.bind_some]
  exact ⟨_, rfl⟩

theorem ReindexDest.exists_ofValue? (h : Conforms cat model v) : ∃ d, ofValue? v = some d := by
  obtain ⟨opType, hopType⟩ := h.reads_default "op_type" (Worded.value OpType.index)
    (.optional (.worded OpType hcat
      (by simp [Catalogue.standardEnumerations, WriteQuery.enumerations])))
    ⟨some OpType.index, rfl⟩ (by simp [model, Model.plain])
  obtain ⟨versionType, hversionType⟩ := h.reads_optional "version_type"
    (.worded VersionType hcat (by simp [Catalogue.standardEnumerations, WriteQuery.enumerations]))
    (by simp [model, Model.plain])
  have hclass : v.ofClass? "ReindexDest" = some v := h.ofClass?_eq
  simp only [ofValue?, hclass, hopType, hversionType, Option.bind_eq_bind, Option.bind_some]
  exact ⟨_, rfl⟩

theorem ReindexQuery.exists_ofValue? (h : Conforms cat model v) : ∃ q, ofValue? v = some q := by
  obtain ⟨source, hsource⟩ := h.reads_required "source"
    (.model hcat (m := ReindexSource.model) (by simp [Catalogue.standardModels, models])
      (ReindexSource.exists_ofValue? hcat)) (by simp [model, Model.plain, ReindexSource.model])
  obtain ⟨dest, hdest⟩ := h.reads_required "dest"
    (.model hcat (m := ReindexDest.model) (by simp [Catalogue.standardModels, models])
      (ReindexDest.exists_ofValue? hcat)) (by simp [model, Model.plain, ReindexDest.model])
  obtain ⟨script, hscript⟩ := h.reads_optional "script"
    (.model hcat (m := ReindexScript.model) (by simp [Catalogue.standardModels, models])
      ReindexScript.exists_ofValue?) (by simp [model, Model.plain, ReindexScript.model])
  obtain ⟨conflicts, hconflicts⟩ := h.reads_optional "conflicts"
    (.worded Conflicts hcat (by simp [Catalogue.standardEnumerations]))
    (by simp [model, Model.plain])
  have hclass : v.ofClass? "ReindexQuery" = some v := h.ofClass?_eq
  simp only [ofValue?, hclass, hsource, hdest, hscript, hconflicts, Option.bind_eq_bind,
    Option.bind_some]
  exact ⟨_, rfl⟩

/-- **Every copy that is built from validated arguments can be read.** -/
theorem ReindexQuery.exists_of_build {args : Fields} (hargs : ∀ f ∈ args, Validated cat f.2)
    (h : cat.build model.name args = .ok v) : ∃ q, ofValue? v = some q :=
  exists_ofValue? hcat (hcat.conforms (by simp [Catalogue.standardModels, models]) hargs h)

end

/-! ## Actions on aliases -/

namespace AliasAction

/-- The model of a batch. -/
def batchModel : Model :=
  .plain "AliasActions" [.withDefault "actions"
    (.sequence .list (.tagged "type" (kinds.map fun k => (k.1.text, k.2))) 0) (.list [])]

theorem batchModel_mem : batchModel ∈ models := by simp [models, batchModel]

end AliasAction

section
variable (hcat : cat.Complete)
include hcat

theorem AliasParameters.exists_ofValue? (h : Conforms cat model v) : ∃ p, ofValue? v = some p := by
  obtain ⟨indices, hindices⟩ := h.reads_default "indices" (.list []) (.texts 0) ⟨[], rfl⟩
    (by simp [model, Model.plain, Shape.texts])
  obtain ⟨aliases, haliases⟩ := h.reads_default "aliases" (.list []) (.texts 0) ⟨[], rfl⟩
    (by simp [model, Model.plain, Shape.texts])
  obtain ⟨filter, hfilter⟩ := h.reads_optional "filter_query" (Query.legible_model hcat)
    (by simp [model, Model.plain])
  obtain ⟨filterClass, hfilterClass⟩ := h.reads_optional "filter_query_class" .classRef
    (by simp [model, Model.plain])
  simp only [ofValue?, hindices, haliases, hfilter, hfilterClass, Option.bind_eq_bind,
    Option.bind_some]
  exact ⟨_, rfl⟩

namespace AliasAction

/-- An action is of one of the kinds, and has parameters. -/
theorem exists_ofValue? {kind : AliasActionKind × String} (hkind : kind ∈ kinds)
    (h : Conforms cat (modelOf kind.1 kind.2) v) : ∃ a, ofValue? v = some a := by
  obtain ⟨parameters, hparameters⟩ := h.reads_required "parameters"
    (.model hcat (m := AliasParameters.model) (by simp [Catalogue.standardModels, models])
      (AliasParameters.exists_ofValue? hcat))
    (by simp [modelOf, Model.plain, AliasParameters.model])
  have hfind : (kinds.find? fun k => v.isInstance k.2).isSome :=
    List.find?_isSome.2 ⟨kind, hkind, h.isInstance⟩
  obtain ⟨found, hfound⟩ := Option.isSome_iff_exists.1 hfind
  simp only [ofValue?, hfound, hparameters, Option.bind_eq_bind, Option.bind_some]
  exact ⟨_, rfl⟩

theorem legible_shape :
    Legible cat (.tagged "type" (kinds.map fun k => (k.1.text, k.2))) ofValue? := by
  refine .tagged fun name hname => ?_
  obtain ⟨kind, hkind, rfl⟩ : ∃ k ∈ kinds, k.2 = name := by simpa using hname
  have hm : modelOf kind.1 kind.2 ∈ models := List.mem_append_left _
    (List.mem_append_right _ (List.mem_map.2 ⟨kind, hkind, rfl⟩))
  exact .model hcat (by simp [Catalogue.standardModels, hm]) (exists_ofValue? hcat hkind)

theorem exists_batch? (h : Conforms cat batchModel v) : ∃ actions, batch? v = some actions :=
  h.reads_default "actions" (.list []) (.items .list 0 (legible_shape hcat)) ⟨[], rfl⟩
    (by simp [batchModel, Model.plain])

/-- **Every batch that is built from validated arguments can be read.** -/
theorem exists_batch_of_build {args : Fields} (hargs : ∀ f ∈ args, Validated cat f.2)
    (h : cat.build batchModel.name args = .ok v) : ∃ actions, batch? v = some actions :=
  exists_batch? hcat (hcat.conforms (by simp [Catalogue.standardModels, batchModel_mem]) hargs h)

end AliasAction

theorem IndexTemplate.exists_ofValue? (h : Conforms cat model v) : ∃ t, ofValue? v = some t := by
  obtain ⟨patterns, hpatterns⟩ := h.reads_required "index_patterns" (.texts 1)
    (by simp [model, Model.plain])
  obtain ⟨actions, hactions⟩ := h.reads_optional "alias_actions"
    (.model hcat (m := AliasAction.batchModel)
      (by simp [Catalogue.standardModels, AliasAction.batchModel_mem])
      (AliasAction.exists_batch? hcat)) (by simp [model, Model.plain, AliasAction.batchModel])
  have hclass : v.ofClass? "IndexTemplate" = some v := h.ofClass?_eq
  simp only [ofValue?, hclass, hpatterns, hactions, Option.bind_eq_bind, Option.bind_some]
  exact ⟨_, rfl⟩

/-- **Every template that is built from validated arguments can be read.** -/
theorem IndexTemplate.exists_of_build {args : Fields} (hargs : ∀ f ∈ args, Validated cat f.2)
    (h : cat.build model.name args = .ok v) : ∃ t, ofValue? v = some t :=
  exists_ofValue? hcat (hcat.conforms (by simp [Catalogue.standardModels]) hargs h)

/-! ## Writes -/

theorem IndexQuery.exists_ofValue? (h : Conforms cat model v) : ∃ q, ofValue? v = some q := by
  obtain ⟨versionType, hversionType⟩ := h.reads_optional "version_type"
    (.worded VersionType hcat (by simp [Catalogue.standardEnumerations, WriteQuery.enumerations]))
    (by simp [model, Model.plain])
  obtain ⟨opType, hopType⟩ := h.reads_optional "op_type"
    (.worded OpType hcat (by simp [Catalogue.standardEnumerations, WriteQuery.enumerations]))
    (by simp [model, Model.plain])
  have hclass : v.ofClass? "IndexQuery" = some v := h.ofClass?_eq
  simp only [ofValue?, hclass, hversionType, hopType, Option.bind_eq_bind, Option.bind_some]
  exact ⟨_, rfl⟩

theorem UpdateQuery.exists_ofValue? (h : Conforms cat model v) : ∃ q, ofValue? v = some q := by
  obtain ⟨scriptType, hscriptType⟩ := h.reads_default "script_type"
    (Worded.value ScriptType.inline)
    (.worded ScriptType hcat (by simp [Catalogue.standardEnumerations, WriteQuery.enumerations]))
    ⟨ScriptType.inline, rfl⟩ (by simp [model, Model.plain])
  obtain ⟨refresh, hrefresh⟩ := h.reads_optional "refresh"
    (.worded RefreshPolicy hcat (by simp [Catalogue.standardEnumerations, WriteQuery.enumerations]))
    (by simp [model, Model.plain])
  have hclass : v.ofClass? "UpdateQuery" = some v := h.ofClass?_eq
  simp only [ofValue?, hclass, hscriptType, hrefresh, Option.bind_eq_bind, Option.bind_some]
  exact ⟨_, rfl⟩

theorem BulkOptions.exists_ofValue? (h : Conforms cat model v) : ∃ o, ofValue? v = some o := by
  obtain ⟨refresh, hrefresh⟩ := h.reads_optional "refresh"
    (.worded RefreshPolicy hcat (by simp [Catalogue.standardEnumerations, WriteQuery.enumerations]))
    (by simp [model, Model.plain])
  have hclass : v.ofClass? "BulkOptions" = some v := h.ofClass?_eq
  simp only [ofValue?, hclass, hrefresh, Option.bind_eq_bind, Option.bind_some]
  exact ⟨_, rfl⟩

/-- **Every write that is built from validated arguments can be read**, and so can the options of
a batch. -/
theorem IndexQuery.exists_of_build {args : Fields} (hargs : ∀ f ∈ args, Validated cat f.2)
    (h : cat.build model.name args = .ok v) : ∃ q, ofValue? v = some q :=
  exists_ofValue? hcat
    (hcat.conforms (by simp [Catalogue.standardModels, WriteQuery.models]) hargs h)

theorem UpdateQuery.exists_of_build {args : Fields} (hargs : ∀ f ∈ args, Validated cat f.2)
    (h : cat.build model.name args = .ok v) : ∃ q, ofValue? v = some q :=
  exists_ofValue? hcat
    (hcat.conforms (by simp [Catalogue.standardModels, WriteQuery.models]) hargs h)

theorem BulkOptions.exists_of_build {args : Fields} (hargs : ∀ f ∈ args, Validated cat f.2)
    (h : cat.build model.name args = .ok v) : ∃ o, ofValue? v = some o :=
  exists_ofValue? hcat
    (hcat.conforms (by simp [Catalogue.standardModels, WriteQuery.models]) hargs h)

end

end SearchWire
