import SearchWire.Admin.Index
import SearchWire.Proofs.Json.Data
import SearchWire.Proofs.Request.Remake
import SearchWire.Proofs.Write.Bulk
import SearchWire.Reindex.Request
import SearchWire.Search.Request

/-!
# Parameters and bodies

The fields of a request are divided into parameters and a body. Nothing is lost on the way: put
together they are the fields again, and from these the same request is made.

* `RequestKind.bodyKey?`, `Request.bodyFields?`: the fields that a body stands for.
* `Request.Returned`: requests that come out of descriptors.
* `Request.InLines.wireForm`, `Request.Returned.stable`: a body that is one field is plain data.
* `Request.split_fields`: **parameters and body are the fields, which give the same request.**
-/

namespace SearchWire

/-- The name of the field that is the whole body of a request. -/
def RequestKind.bodyKey? : RequestKind → Option String
  | .index => some "document"
  | .bulk => some "operations"
  | .putMapping => some "mappings"
  | _ => none

namespace Request

/-- The fields that a body stands for: itself under the name of its field, or those that it has. -/
def bodyFields? (r : Request) : Option Fields :=
  match r.kind.bodyKey? with
  | some key => some [(key, r.body)]
  | none => Document.fields? r.body

variable {kind : RequestKind} {fields : Fields} {r : Request}

/-! ## Bodies -/

/-- A body that is one field is the value of this field. -/
theorem body_eq_field {key : String} (hkey : kind.bodyKey? = some key)
    (h : make kind fields = .ok r) : r.body = r.field key := by
  rw [body, kind_make h]
  cases kind <;> cases hkey
  · rfl
  · have hp : Property.required "operations" RequestKind.objects ∈ RequestKind.bulk.properties :=
      List.mem_cons_self
    have hadmits : RequestKind.objects.Admits (r.field "operations") := admits_field hp h
    simp only [lines]
    generalize r.field "operations" = v at hadmits
    cases hadmits
    rfl
  · rfl

/-- It is the only field that is no parameter. -/
theorem filter_fields {key : String} (hkey : kind.bodyKey? = some key)
    (h : make kind fields = .ok r) :
    (r.fields.filter fun f => !r.isParam f.1) = [(key, (r.field key).wireForm)] := by
  have hparam : (fun f : String × Value => !r.isParam f.1) =
      fun f => !kind.paramKeys.contains f.1 := by
    funext f
    rw [isParam, kind_make h]
  obtain ⟨p, hp, hprops, hwire, hname, hdefault⟩ : ∃ p ∈ kind.properties,
      (kind.properties.filter fun p => !kind.paramKeys.contains p.wire) = [p] ∧
        p.wire = key ∧ p.name = key ∧ p.default = none := by
    cases kind <;> cases hkey
    · exact ⟨.required "document" .object, by simp [RequestKind.properties], rfl, rfl, rfl, rfl⟩
    · exact ⟨.required "operations" RequestKind.objects, by simp [RequestKind.properties],
        rfl, rfl, rfl, rfl⟩
    · exact ⟨.required "mappings" .object, by simp [RequestKind.properties], rfl, rfl, rfl, rfl⟩
  have hset : (r.field p.name).isNull = false := by
    rw [← Bool.not_eq_true]
    intro hnull
    have hadmits := admits_field hp h
    rw [Value.eq_null_of_isNull hnull] at hadmits
    cases hdefault.symm.trans (Property.default_of_null (isWire_properties kind p hp) hadmits)
  rw [hparam, fields_eq_given h, Fields.filter_given fun name => !kind.paramKeys.contains name,
    List.filter_map]
  have hone : (kind.properties.filter ((fun f : String × Value => !kind.paramKeys.contains f.1) ∘
      fun p => (p.wire, (r.field p.name).wireForm))) = [p] := hprops
  rw [hone, List.map_singleton, Fields.given_eq_filter, List.filter_singleton,
    Value.isNull_wireForm, hset, hwire, hname]
  rfl

/-- A body stands for the fields that are no parameters, if it is plain data where it is one
field. -/
theorem bodyFields?_eq (h : make kind fields = .ok r)
    (hstable : kind.bodyKey?.isSome → r.body.wireForm = r.body) :
    r.bodyFields? = some (r.fields.filter fun f => !r.isParam f.1) := by
  rw [bodyFields?, kind_make h]
  cases hkey : kind.bodyKey? with
  | some key =>
    rw [filter_fields hkey h, ← body_eq_field hkey h, hstable (by rw [hkey]; rfl)]
  | none =>
    have hbody : r.kind.hasOwnBody = false := by
      rw [kind_make h]
      cases kind <;> first | rfl | cases hkey
    rw [body_eq hbody]
    exact Document.fields?_object _

/-! ## Documents as bodies -/

/-- A document that is a body is sent as it was. -/
theorem stable_of_document {key : String} {doc : Value} (hkey : kind.bodyKey? = some key)
    (hp : Property.required key .object ∈ kind.properties) (hget : fields.get? key = some doc)
    (hdoc : doc = .null ∨ doc.IsObject ∧ doc.wireForm = doc) (h : make kind fields = .ok r) :
    r.body.wireForm = r.body := by
  obtain ⟨a, ha, hfield⟩ := exists_check_of_get? hp rfl hget h
  have hbody : r.body = a.value := (body_eq_field hkey h).trans hfield
  rcases hdoc with rfl | ⟨hobject, hwire⟩
  · cases ha
  · obtain ⟨b, hb, hvalue⟩ := check_isObject ⟨[kind.model], []⟩ hobject
    cases ha.symm.trans hb
    rw [hbody, hvalue, hwire]

theorem wireForm_of_mem_fields {f : String × Value} (hf : f ∈ r.fields) : f.2.wireForm = f.2 :=
  Value.wireForm_of_mem_wireSlots r.slots (Fields.mem_of_mem_ofList hf)

/-- A body that is made of several fields is plain data. -/
theorem stable_of_fields (h : r.kind.hasOwnBody = false) : r.body.wireForm = r.body := by
  rw [body_eq h]
  exact Value.wireForm_object_of fun f hf => wireForm_of_mem_fields (List.mem_filter.mp hf).1

/-- The lines of an item are plain data if the body of the request for it is. -/
theorem InLines.wireForm {lines : List Value} (h : r.InLines lines)
    (hbody : r.body.wireForm = r.body) : ∀ line ∈ lines, line.wireForm = line := by
  -- the parameters of an action are parameters of the request under other names
  have haction : ∀ {keep : String × Value → Bool} {action : String} {parameters : Fields},
      parameters.Perm (lineFields (r.params.filter keep)) →
        (Value.object [(action, .object parameters)]).wireForm =
          .object [(action, .object parameters)] := by
    intro keep action parameters hperm
    refine Value.wireForm_object_of (List.forall_mem_singleton.mpr ?_)
    refine Value.wireForm_object_of fun f hf => ?_
    obtain ⟨g, hg, rfl⟩ := List.mem_map.mp (hperm.mem_iff.mp hf)
    have hparam := (List.mem_filter.mp hg).1
    have hfield := wireForm_of_mem_fields (List.mem_filter.mp hparam).1
    exact hfield
  cases h with
  | index hkind hperm =>
    exact List.forall_mem_cons.mpr ⟨haction hperm, List.forall_mem_singleton.mpr hbody⟩
  | update hkind hperm =>
    exact List.forall_mem_cons.mpr ⟨haction hperm, List.forall_mem_singleton.mpr hbody⟩

end Request

variable {resolver : Option Catalogue} {index : Value} {r : Request}

namespace IndexQuery

variable {q : IndexQuery}

theorem recordDocument_ok {c : RecordClass} {slots : List (Slot Value)} {doc : Value}
    (h : recordDocument resolver c slots = .ok doc) : doc.IsObject ∧ doc.wireForm = doc := by
  unfold recordDocument at h
  dsimp only at h
  split at h
  · next fs hfs =>
    cases h
    have hplain := Value.IsPlain.ofList (Value.isPlain_of_mem_documentSlots hfs)
    exact ⟨hplain.isObject, hplain.wireForm⟩
  · cases h

/-- The document of an index query is plain data, if there is any. -/
theorem document_ok {doc : Value} {id : Option Value} (h : q.document resolver = .ok (doc, id)) :
    doc = .null ∨ doc.IsObject ∧ doc.wireForm = doc := by
  unfold document at h
  split at h
  · split at h
    · cases h
    · obtain ⟨w, hw, h⟩ := bind_eq_ok.mp h
      cases h
      exact Document.parseObject_ok hw
  · obtain ⟨w, hw, h⟩ := bind_eq_ok.mp h
    cases h
    exact .inr (recordDocument_ok hw)
  · obtain ⟨w, hw, h⟩ := bind_eq_ok.mp h
    cases h
    exact Document.parseObject_ok hw
  · cases h

theorem stable_request (h : q.request resolver index = .ok r) : r.body.wireForm = r.body := by
  obtain ⟨fields, hfields, hmake⟩ := bind_eq_ok.mp h
  obtain ⟨target, -, hfields⟩ := bind_eq_ok.mp hfields
  obtain ⟨⟨doc, id⟩, hdoc, hfields⟩ := bind_eq_ok.mp hfields
  cases hfields
  exact Request.stable_of_document rfl (by simp [RequestKind.properties]) rfl (document_ok hdoc)
    hmake

end IndexQuery

theorem UpdateQuery.stable_request {q : UpdateQuery} (h : q.request index = .ok r) :
    r.body.wireForm = r.body := by
  obtain ⟨fields, -, hmake⟩ := bind_eq_ok.mp h
  exact Request.stable_of_fields (by rw [Request.kind_make hmake]; rfl)

theorem stable_putMapping {mappings : Value} (h : putMappingRequest index mappings = .ok r) :
    r.body.wireForm = r.body := by
  obtain ⟨target, -, h⟩ := bind_eq_ok.mp h
  obtain ⟨doc, hdoc, hmake⟩ := bind_eq_ok.mp h
  exact Request.stable_of_document rfl (by simp [RequestKind.properties]) rfl
    (Document.parseObject_ok hdoc) hmake

theorem stable_bulk {queries : List WriteQuery} {options : Option BulkOptions}
    (h : bulkRequest resolver queries index options = .ok r) : r.body.wireForm = r.body := by
  obtain ⟨parts, hsingles, hparts, hlines⟩ := bulkLines_parts (bulkLines_of_bulkRequest h)
  obtain ⟨_, _, _, _, hmake⟩ := bulkRequest_eq_ok.mp h
  -- the lines of an item hold the body of its own request, which is plain data already
  have hstable : ∀ p ∈ parts, p.1.body.wireForm = p.1.body := by
    intro p hp
    have hmem : (.ok p.1 : Except Failure Request) ∈
        queries.map (WriteQuery.single resolver index) :=
      hsingles ▸ List.mem_map.mpr ⟨p, hp, rfl⟩
    obtain ⟨q, -, hq⟩ := List.mem_map.mp hmem
    cases q with
    | index q => exact q.stable_request hq
    | update q => exact q.stable_request hq
    | foreign v => cases hq
  have hbody : r.body = .list r.lines := by rw [Request.body, Request.kind_make hmake]
  rw [hbody, hlines]
  refine Value.wireForm_list_of fun line hline => ?_
  obtain ⟨p, hp, hline⟩ := List.mem_flatMap.mp hline
  exact (hparts p hp).1.wireForm (hstable p hp) line hline

/-! ## Requests that are returned -/

/-- Requests that come out of descriptors. -/
inductive Request.Returned : Request → Prop
  | search {settings : Settings} {domain : Option Domain} {q : Query} {index : IndexCoordinates}
      {r : Request} (h : q.searchRequest settings domain index = .ok r) : Returned r
  | deleteByQuery {domain : Option Domain} {q : Query} {index : IndexCoordinates} {maxDocs : Value}
      {r : Request} (h : q.deleteRequest domain index maxDocs = .ok r) : Returned r
  | index {resolver : Option Catalogue} {q : IndexQuery} {index : Value} {r : Request}
      (h : q.request resolver index = .ok r) : Returned r
  | update {q : UpdateQuery} {index : Value} {r : Request} (h : q.request index = .ok r) :
      Returned r
  | bulk {resolver : Option Catalogue} {queries : List WriteQuery} {index : Value}
      {options : Option BulkOptions} {r : Request}
      (h : bulkRequest resolver queries index options = .ok r) : Returned r
  | delete {id index routing seqNo primaryTerm : Value} {r : Request}
      (h : deleteRequest id index routing seqNo primaryTerm = .ok r) : Returned r
  | aliases {resolver : Option Catalogue} {actions : List AliasAction} {r : Request}
      (h : aliasRequest resolver actions = .ok r) : Returned r
  | template {resolver : Option Catalogue} {t : IndexTemplate} {r : Request}
      (h : t.request resolver = .ok r) : Returned r
  | createIndex {resolver : Option Catalogue} {index settings mappings : Value}
      {actions : Option (List AliasAction)} {r : Request}
      (h : createIndexRequest resolver index settings mappings actions = .ok r) : Returned r
  | putMapping {index mappings : Value} {r : Request}
      (h : putMappingRequest index mappings = .ok r) : Returned r
  | reindex {q : ReindexQuery} {r : Request} (h : q.request = .ok r) : Returned r

namespace Request

variable {kind : RequestKind} {fields : Fields}

theorem exists_fields (h : make kind fields = .ok r) : ∃ fields, make r.kind fields = .ok r :=
  ⟨fields, by rw [kind_make h]; exact h⟩

theorem stable_of_make (hkind : kind.hasOwnBody = false) (h : make kind fields = .ok r) :
    (∃ fields, make r.kind fields = .ok r) ∧ r.body.wireForm = r.body :=
  ⟨exists_fields h, stable_of_fields (by rw [kind_make h]; exact hkind)⟩

/-- They are made from fields, and their bodies are plain data. -/
theorem Returned.stable (h : r.Returned) :
    (∃ fields, make r.kind fields = .ok r) ∧ r.body.wireForm = r.body := by
  cases h with
  | search h =>
    obtain ⟨_, -, hmake⟩ := bind_eq_ok.mp h
    exact stable_of_make rfl hmake
  | deleteByQuery h =>
    obtain ⟨_, -, h⟩ := bind_eq_ok.mp h
    obtain ⟨_, -, hmake⟩ := bind_eq_ok.mp h
    exact stable_of_make rfl hmake
  | index h =>
    obtain ⟨_, -, hmake⟩ := bind_eq_ok.mp h
    exact ⟨exists_fields hmake, IndexQuery.stable_request h⟩
  | update h =>
    obtain ⟨_, -, hmake⟩ := bind_eq_ok.mp h
    exact stable_of_make rfl hmake
  | bulk h =>
    obtain ⟨_, _, _, _, hmake⟩ := bulkRequest_eq_ok.mp h
    exact ⟨exists_fields hmake, stable_bulk h⟩
  | delete h =>
    obtain ⟨_, -, hmake⟩ := bind_eq_ok.mp h
    exact stable_of_make rfl hmake
  | aliases h =>
    obtain ⟨_, -, hmake⟩ := bind_eq_ok.mp h
    exact stable_of_make rfl hmake
  | template h =>
    obtain ⟨_, -, h⟩ := bind_eq_ok.mp h
    obtain ⟨_, -, h⟩ := bind_eq_ok.mp h
    obtain ⟨_, -, hmake⟩ := bind_eq_ok.mp h
    exact stable_of_make rfl hmake
  | createIndex h =>
    obtain ⟨_, -, h⟩ := bind_eq_ok.mp h
    obtain ⟨_, -, h⟩ := bind_eq_ok.mp h
    obtain ⟨_, -, h⟩ := bind_eq_ok.mp h
    obtain ⟨_, -, hmake⟩ := bind_eq_ok.mp h
    exact stable_of_make rfl hmake
  | putMapping h =>
    obtain ⟨_, -, h'⟩ := bind_eq_ok.mp h
    obtain ⟨_, -, hmake⟩ := bind_eq_ok.mp h'
    exact ⟨exists_fields hmake, stable_putMapping h⟩
  | reindex h =>
    obtain ⟨_, -, hmake⟩ := bind_eq_ok.mp h
    exact stable_of_make rfl hmake

/-- A request that is made again from its fields has the same body, if that is plain data. -/
theorem body_remake {r' : Request} (h : make kind fields = .ok r)
    (h' : make kind r.fields = .ok r') (hfields : r'.fields = r.fields)
    (hvalues : ∀ p ∈ kind.properties, r'.field p.name = (r.field p.name).wireForm)
    (hstable : r.body.wireForm = r.body) : r'.body = r.body := by
  -- a body of several fields depends on the fields only; one that is a field is read from it
  cases hkey : kind.bodyKey? with
  | some key =>
    obtain ⟨p, hp, hname⟩ : ∃ p ∈ kind.properties, p.name = key := by
      cases kind <;> cases hkey <;> simp [RequestKind.properties, Property.required]
    have hvalue := hvalues p hp
    rw [hname, ← body_eq_field hkey h, ← body_eq_field hkey h', hstable] at hvalue
    exact hvalue
  | none =>
    have hown : kind.hasOwnBody = false := by cases kind <;> first | rfl | cases hkey
    rw [body_eq (by rw [kind_make h']; exact hown), body_eq (by rw [kind_make h]; exact hown),
      hfields]
    simp only [isParam, kind_make h, kind_make h']

/-- **Parameters and body are the fields, which give the same request.** Each field of a request
that came out of a descriptor is a parameter or among the fields that the body stands for, and none
is both. From the fields a request is made that has these fields, parameters and body. -/
theorem split_fields (h : r.Returned) :
    (∃ fs, r.bodyFields? = some fs ∧ (r.params ++ fs).Perm r.fields ∧
      ∀ name ∈ r.params.names, name ∉ fs.names) ∧
    r.fields.names.Nodup ∧
    ∃ r', make r.kind r.fields = .ok r' ∧ r'.kind = r.kind ∧ r'.fields = r.fields ∧
      r'.params = r.params ∧ r'.body = r.body := by
  obtain ⟨⟨fields, hmake⟩, hstable⟩ := h.stable
  refine ⟨⟨_, bodyFields?_eq hmake fun _ => hstable, List.filter_append_perm _ _, ?_⟩, ?_, ?_⟩
  · intro name hparam hbody
    obtain ⟨f, hf, rfl⟩ := List.mem_map.mp hparam
    obtain ⟨g, hg, hname⟩ := List.mem_map.mp hbody
    have hisParam := (List.mem_filter.mp hf).2
    have hnot := (List.mem_filter.mp hg).2
    rw [hname, hisParam] at hnot
    cases hnot
  · exact Fields.nodup_ofList _
  · obtain ⟨r', hr', hfields, hvalues⟩ := exists_remake hmake
    have hkind := kind_make hr'
    refine ⟨r', hr', hkind, hfields, ?_, body_remake hmake hr' hfields hvalues hstable⟩
    simp only [params, hfields, isParam, hkind]

/-- A document with a date and a tuple, which its text cannot hold as they are. -/
private def dated : IndexQuery where
  id := .null
  object := .object [("id", .str "7"), ("day", .date ⟨2024, 1, 31⟩),
    ("tags", .tuple [.str "a", .null])]
  source := .null
  version := .null
  versionType := none
  seqNo := .null
  primaryTerm := .null
  routing := .str "north"
  opType := none
  indexName := .null

theorem split_fields_dated : ∃ r r', dated.request none (.str "things") = .ok r ∧
    r.params.names = ["index", "id", "op_type", "routing"] ∧
    r.bodyFields? = some [("document", r.body)] ∧
    r.body = .object [("id", .str "7"), ("day", .str "2024-01-31"),
      ("tags", .list [.str "a", .null])] ∧
    (r.params ++ [("document", r.body)]).Perm r.fields ∧
    make .index r.fields = .ok r' ∧ r'.params = r.params ∧ r'.body = r.body := by
  have hdocument : dated.document none = .ok (.object [("id", .str "7"),
      ("day", .str "2024-01-31"), ("tags", .list [.str "a", .null])], some (.str "7")) := rfl
  have hfields : dated.requestFields none (.str "things") = .ok [("index", .str "things"),
      ("id", .str "7"), ("document", .object [("id", .str "7"), ("day", .str "2024-01-31"),
        ("tags", .list [.str "a", .null])]), ("op_type", .str "index"),
      ("routing", .str "north")] := by
    rw [IndexQuery.requestFields, hdocument]
    rfl
  obtain ⟨r, hr⟩ : ∃ r, dated.request none (.str "things") = .ok r := by
    rw [IndexQuery.request, hfields]
    exact ⟨_, rfl⟩
  obtain ⟨⟨fs, hfs, hperm, -⟩, -, r', hr', -, -, hparams, hbody⟩ := split_fields (.index hr)
  have hmake := hr
  rw [IndexQuery.request, hfields] at hmake
  cases hmake
  cases hfs
  exact ⟨_, r', hr, rfl, rfl, rfl, hperm, hr', hparams, hbody⟩

end Request

end SearchWire
