import SearchWire.Proofs.Request.Params
import SearchWire.Write.Bulk

/-!
# Lines of batches

The lines of an item of a batch say what the request for its document alone says: the action with
the parameters of that request, and its body.

* `Request.InLines`: two lines that say what a request says.
* `Request.indexLines_eq`, `Request.updateLines_eq`: the parameters in the lines.
* `Request.inLines_indexLines`, `Request.inLines_updateLines`: the lines of the two kinds of
  requests.
* `WriteQuery.single`: the request for an item alone.
* `WriteQuery.lines_of_ok`: **the lines of an item say what its request alone says.**
-/

namespace SearchWire

namespace Request

/-- The name of a parameter in the lines of a batch. -/
def lineName (name : String) : String :=
  if name = "index" then "_index" else if name = "id" then "_id" else name

/-- Parameters under their names in the lines of a batch. -/
def lineFields (fs : Fields) : Fields := fs.map fun f => (lineName f.1, f.2)

/-- The parameters of an index request that the lines of a batch have. -/
def indexParams : List String :=
  ["index", "id", "routing", "if_seq_no", "if_primary_term", "version", "version_type"]

/-- The parameters of an update that the lines of a batch have. -/
def updateParams : List String :=
  ["index", "id", "routing", "if_seq_no", "if_primary_term", "retry_on_conflict"]

/-- Some parameters of a request as the lines of a batch have them. -/
def lineParameters (r : Request) (names : List String) : Fields :=
  Fields.given (names.map fun name => (lineName name, r.field name))

/-- Two lines of a batch that say what a request for one document says: its parameters, in any
order, under the action, and its body. The action of an index request is its op type, or `index`. -/
inductive InLines (r : Request) : List Value → Prop
  | index {parameters : Fields} (hkind : r.kind = .index)
      (h : parameters.Perm (lineFields (r.params.filter fun f => f.1 != "op_type"))) :
      InLines r [.object [(((r.field "op_type").text?).getD "index", .object parameters)], r.body]
  | update {parameters : Fields} (hkind : r.kind = .update)
      (h : parameters.Perm (lineFields (r.params.filter fun f => updateParams.contains f.1))) :
      InLines r [.object [("update", .object parameters)], r.body]

variable {fields : Fields} {r : Request}

/-- A text that has to be given is given. -/
theorem field_text {kind : RequestKind} {name : String}
    (hp : Property.required name .text ∈ kind.properties) (h : make kind fields = .ok r) :
    ∃ s, r.field name = .str s := by
  have htaken : r.field name = taken kind fields (.required name .text) := field_eq_taken hp h
  rcases taken_cases hp h with ⟨v, a, ha, heq⟩ | hdefault
  · obtain ⟨s, hs⟩ := check_text_ok ha
    exact ⟨s, by rw [htaken, heq, hs]⟩
  · cases hdefault

/-- The parameters of an index request. -/
theorem params_index (h : make .index fields = .ok r) :
    r.params = Fields.given [("index", r.field "index"), ("id", r.field "id"),
      ("op_type", r.field "op_type"), ("if_seq_no", r.field "if_seq_no"),
      ("if_primary_term", r.field "if_primary_term"), ("routing", r.field "routing"),
      ("version", r.field "version"), ("version_type", r.field "version_type"),
      ("refresh", r.field "refresh"), ("pipeline", r.field "pipeline")] := by
  have hplain : ∀ p ∈ RequestKind.index.properties, RequestKind.index.paramKeys.contains p.wire →
      p.isPlain := by decide
  rw [params_eq hplain h]
  rfl

/-- The parameters of an update request. -/
theorem params_update (h : make .update fields = .ok r) :
    r.params = Fields.given [("index", r.field "index"), ("id", r.field "id"),
      ("if_seq_no", r.field "if_seq_no"), ("if_primary_term", r.field "if_primary_term"),
      ("routing", r.field "routing"), ("refresh", r.field "refresh"),
      ("retry_on_conflict", r.field "retry_on_conflict"), ("timeout", r.field "timeout"),
      ("wait_for_active_shards", r.field "wait_for_active_shards")] := by
  have hplain : ∀ p ∈ RequestKind.update.properties, RequestKind.update.paramKeys.contains p.wire →
      p.isPlain := by decide
  rw [params_eq hplain h]
  rfl

/-- A field that stands before two others may stand after them. -/
theorem perm_third (a b c : String × Value) (fs : Fields) :
    (a :: b :: c :: fs).Perm (b :: c :: a :: fs) :=
  .trans (.swap b a (c :: fs)) (.cons b (.swap c a fs))

/-- The lines of an index request have those of its parameters that are set. -/
theorem indexLines_eq (h : make .index fields = .ok r) :
    r.indexLines = [.object [(((r.field "op_type").text?).getD "index",
      .object (r.lineParameters indexParams))], r.field "document"] := by
  obtain ⟨name, hname⟩ : ∃ s, r.field "index" = .str s := field_text List.mem_cons_self h
  have hparameters : [("_index", r.field "index")] ++ Fields.given [("_id", r.field "id")] ++
      r.setFields ["routing", "if_seq_no", "if_primary_term", "version", "version_type"] =
      r.lineParameters indexParams := by
    have hfirst : r.lineParameters indexParams = Fields.given (("_index", r.field "index") ::
        indexParams.tail.map fun name => (lineName name, r.field name)) := rfl
    rw [hfirst, setFields, hname, List.append_assoc, ← Fields.given_append]
    rfl
  rw [indexLines, hparameters]
  rfl

/-- The lines of an index request that does not say when it can be seen and names no pipeline. -/
theorem inLines_indexLines (h : make .index fields = .ok r) (hrefresh : r.field "refresh" = .null)
    (hpipeline : r.field "pipeline" = .null) : r.InLines r.indexLines := by
  have hbody : r.body = r.field "document" := by rw [body, kind_make h]
  have hparams : lineFields (r.params.filter fun f => f.1 != "op_type") =
      Fields.given [("_index", r.field "index"), ("_id", r.field "id"),
        ("if_seq_no", r.field "if_seq_no"), ("if_primary_term", r.field "if_primary_term"),
        ("routing", r.field "routing"), ("version", r.field "version"),
        ("version_type", r.field "version_type")] := by
    rw [params_index h, Fields.filter_given (· != "op_type"), lineFields, Fields.map_given lineName,
      hrefresh, hpipeline]
    rfl
  rw [indexLines_eq h, ← hbody]
  refine .index (kind_make h) ?_
  rw [hparams]
  -- the routing stands before the conditions on concurrent writes
  exact Fields.perm_given (.cons _ (.cons _ (perm_third _ _ _ _)))

/-- What the lines of an update have is all that is no parameter. -/
theorem wireSlots_update (h : make .update fields = .ok r) :
    Value.wireSlots updateNames.contains r.slots = r.fields.filter fun f => !r.isParam f.1 := by
  have hnames : ∀ p ∈ RequestKind.update.properties,
      updateNames.contains p.name = !RequestKind.update.paramKeys.contains p.wire := by decide
  have hfields := fields_make h
  obtain ⟨-, rfl⟩ := make_eq_ok.1 h
  rw [hfields, Value.wireSlots_eq, List.filter_map, List.filter_map, List.map_map,
    List.filter_filter]
  have hwritten : ∀ p ∈ RequestKind.update.properties,
      (!(taken .update fields p).isNull && updateNames.contains p.name) =
        (!RequestKind.update.paramKeys.contains p.wire && !(taken .update fields p).isNull) := by
    intro p hp
    rw [hnames p hp, Bool.and_comm]
  exact congrArg (List.map _) (List.filter_congr hwritten)

theorem written_update (h : make .update fields = .ok r) :
    .object (Fields.ofList (Value.wireSlots updateNames.contains r.slots)) = r.body := by
  have hkind := kind_make h
  have hnodup : r.fields.names.Nodup := Fields.nodup_ofList _
  have hsub := (List.filter_sublist (p := fun f => !r.isParam f.1) (l := r.fields)).map Prod.fst
  rw [wireSlots_update h, Fields.ofList_of_nodup (hsub.nodup hnodup), body_eq (by rw [hkind]; rfl)]

/-- The lines of an update have those of its parameters that are set. -/
theorem updateLines_eq (h : make .update fields = .ok r) :
    r.updateLines = [.object [("update", .object (r.lineParameters updateParams))], r.body] := by
  obtain ⟨name, hname⟩ : ∃ s, r.field "index" = .str s := field_text List.mem_cons_self h
  obtain ⟨id, hid⟩ : ∃ s, r.field "id" = .str s := field_text (.tail _ List.mem_cons_self) h
  have hparameters : [("_index", r.field "index"), ("_id", r.field "id")] ++
      r.setFields ["routing", "if_seq_no", "if_primary_term", "retry_on_conflict"] =
      r.lineParameters updateParams := by
    have hfirst : r.lineParameters updateParams = Fields.given (("_index", r.field "index") ::
        ("_id", r.field "id") ::
        updateParams.tail.tail.map fun name => (lineName name, r.field name)) := rfl
    rw [hfirst, setFields, hname, hid]
    rfl
  rw [updateLines, written_update h, hparameters]

/-- The lines of an update request. -/
theorem inLines_updateLines (h : make .update fields = .ok r) : r.InLines r.updateLines := by
  have hparams : lineFields (r.params.filter fun f => updateParams.contains f.1) =
      Fields.given [("_index", r.field "index"), ("_id", r.field "id"),
        ("if_seq_no", r.field "if_seq_no"), ("if_primary_term", r.field "if_primary_term"),
        ("routing", r.field "routing"), ("retry_on_conflict", r.field "retry_on_conflict")] := by
    rw [params_update h, Fields.filter_given updateParams.contains, lineFields,
      Fields.map_given lineName]
    rfl
  rw [updateLines_eq h]
  refine .update (kind_make h) ?_
  rw [hparams]
  exact Fields.perm_given (.cons _ (.cons _ (perm_third _ _ _ _)))

end Request

/-! ## Items -/

namespace WriteQuery

/-- The request for an item alone. -/
def single (resolver : Option Catalogue) (index : Value) : WriteQuery → Except Failure Request
  | .index q => q.request resolver index
  | .update q => q.request index
  | .foreign v => .error (.notBulkable v)

variable {resolver : Option Catalogue} {index : Value} {q : WriteQuery} {r : Request}

/-- The document of an index request is an object. -/
theorem isObject_document {fields : Fields} (h : Request.make .index fields = .ok r) :
    (r.field "document").IsObject := by
  have hp : Property.required "document" .object ∈ RequestKind.index.properties :=
    .tail _ (.tail _ List.mem_cons_self)
  have htaken : r.field "document" = Request.taken .index fields (.required "document" .object) :=
    Request.field_eq_taken hp h
  rw [htaken]
  rcases Request.taken_cases hp h with ⟨v, a, ha, heq⟩ | hdefault
  · exact heq ▸ isObject_of_check ha
  · cases hdefault

theorem not_mem_concurrencyPair {name : String} (hseqNo : name ≠ "if_seq_no")
    (hterm : name ≠ "if_primary_term") (seqNo primaryTerm : Value) :
    name ∉ Fields.names (concurrencyPair seqNo primaryTerm) := by
  unfold concurrencyPair
  split <;> simp [Fields.names, hseqNo, hterm]

theorem not_mem_versionFields {name : String} (hversion : name ≠ "version")
    (htype : name ≠ "version_type") (q : IndexQuery) : name ∉ Fields.names q.versionFields := by
  unfold IndexQuery.versionFields
  split
  · simp [Fields.names]
  · cases q.versionType <;> simp [Fields.names, hversion, htype]

/-- An index query says neither when its document can be seen nor which pipeline it goes through. -/
theorem not_mem_requestFields {q : IndexQuery} {fields : Fields}
    (h : q.requestFields resolver index = .ok fields) :
    "refresh" ∉ fields.names ∧ "pipeline" ∉ fields.names := by
  obtain ⟨target, -, h⟩ := bind_eq_ok.1 h
  obtain ⟨⟨document, objectId⟩, -, h⟩ := bind_eq_ok.1 h
  cases h
  simp only [Fields.names_append, List.mem_append, not_or]
  refine ⟨⟨⟨?_, ?_⟩, ?_⟩, ⟨?_, ?_⟩, ?_⟩
  · simp [Fields.names]
  · exact not_mem_concurrencyPair (by decide) (by decide) _ _
  · exact not_mem_versionFields (by decide) (by decide) q
  · simp [Fields.names]
  · exact not_mem_concurrencyPair (by decide) (by decide) _ _
  · exact not_mem_versionFields (by decide) (by decide) q

/-- The lines of an item say what its request alone says. -/
theorem lines_of_ok (h : q.single resolver index = .ok r) :
    ∃ lines, q.lines resolver index = .ok lines ∧ r.InLines lines ∧
      ∀ line ∈ lines, line.IsObject := by
  cases q with
  | index q =>
    obtain ⟨fields, hfields, hmake⟩ := bind_eq_ok.1 h
    obtain ⟨hrefresh, hpipeline⟩ := not_mem_requestFields hfields
    have hp : Property.optional "refresh" .text ∈ RequestKind.index.properties ∧
        Property.optional "pipeline" .text ∈ RequestKind.index.properties := by
      simp [RequestKind.properties]
    have hinLines := Request.inLines_indexLines hmake
      (Request.field_missing hp.1 hrefresh hmake) (Request.field_missing hp.2 hpipeline hmake)
    refine ⟨r.indexLines, bind_eq_ok.2 ⟨r, h, rfl⟩, hinLines, ?_⟩
    intro line hline
    rcases List.mem_cons.1 hline with rfl | hline
    · exact Value.isObject_singleton _ _
    · rw [List.mem_singleton.1 hline]
      exact isObject_document hmake
  | update q =>
    obtain ⟨fields, -, hmake⟩ := bind_eq_ok.1 h
    refine ⟨r.updateLines, bind_eq_ok.2 ⟨r, h, rfl⟩, Request.inLines_updateLines hmake, ?_⟩
    intro line hline
    rcases List.mem_cons.1 hline with rfl | hline
    · exact Value.isObject_singleton _ _
    · rw [List.mem_singleton.1 hline]
      exact Value.isObject_ofList _
  | foreign v => cases h

theorem lines_of_error {e : Failure} (h : q.single resolver index = .error e) :
    q.lines resolver index = .error e := by
  cases q with
  | index q =>
    have hrequest : q.request resolver index = .error e := h
    rw [lines, hrequest]
    rfl
  | update q =>
    have hrequest : q.request index = .error e := h
    rw [lines, hrequest]
    rfl
  | foreign v =>
    cases h
    rfl

end WriteQuery

end SearchWire
