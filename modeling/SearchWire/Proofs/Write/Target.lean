import SearchWire.Proofs.Request.Calls
import SearchWire.Proofs.Request.Shows

/-!
# Where writes go and on which conditions

A write goes to the index of its descriptor, and to the one that is given beside it only if the
descriptor has none. It is done on both conditions on concurrent writes or on none. The id of a
document comes from the descriptor or from the object; with the op type that is asked for it says
whether a document may be replaced. All of this is the same in a request for one document and in the
lines of a batch.

* `Write.Aims`: the index of a write and its conditions, as its parameters have them.
* `IndexQuery.Says`: the same with the id, the op type and the version.
* `Write.Made.aims`, `IndexQuery.says_of_shows`: **what parameters show of a request.**
* `lines_at`: the two lines of an item of a batch.
* `WriteQuery.single_independent`: an item with an index of its own.
* `writes_aim`: **writes on every path.**
-/

namespace SearchWire

/-! ## Indices and conditions -/

namespace Write

/-- The name of an index. -/
def NamesIndex (own : Value) : Prop := ∃ s, s ≠ "" ∧ own = .str s

/-- The parameters of a write have the index of its descriptor, else the first of those that are
given beside it, and both conditions on concurrent writes if both are set. -/
structure Aims (indexKey : String) (own index seqNo primaryTerm : Value) (parameters : Fields) :
    Prop where
  nodup : parameters.names.Nodup
  named : NamesIndex own → parameters.get? indexKey = some own
  given : ¬ NamesIndex own → ∃ target, IndexCoordinates.coerce index = .ok target ∧
    parameters.get? indexKey = some (.str target.first)
  both : seqNo ≠ .null → primaryTerm ≠ .null →
    parameters.get? "if_seq_no" = some seqNo ∧ parameters.get? "if_primary_term" = some primaryTerm
  neither : seqNo = .null ∨ primaryTerm = .null →
    parameters.get? "if_seq_no" = none ∧ parameters.get? "if_primary_term" = none

variable {own index target seqNo primaryTerm : Value} {kind : RequestKind} {fields : Fields}
  {r : Request} {key : String → String} {names : List String} {parameters : Fields}

/-- The index of a descriptor counts, whatever is given beside it. -/
theorem targetIndex_own (h : NamesIndex own) (index : Value) : targetIndex own index = .ok own := by
  obtain ⟨s, hs, rfl⟩ := h
  have hgiven : (Value.str s).isGiven := by simp [Value.isGiven, hs]
  exact if_pos hgiven

theorem targetIndex_given (hown : (Shape.optional .text).Admits own) (h : ¬ NamesIndex own)
    (index : Value) :
    targetIndex own index = (do .ok (.str (← IndexCoordinates.coerce index).first)) := by
  refine if_neg fun hgiven => h ?_
  cases hown with
  | null => cases hgiven
  | given htext =>
    cases htext with
    | text s => exact ⟨s, fun hs => by simp [Value.isGiven, hs] at hgiven, rfl⟩

/-- The index of a write is a text. -/
theorem exists_text_of_targetIndex (hown : (Shape.optional .text).Admits own)
    (h : targetIndex own index = .ok target) : ∃ s, target = .str s := by
  by_cases hnames : NamesIndex own
  · rw [targetIndex_own hnames] at h
    obtain ⟨s, -, rfl⟩ := hnames
    exact ⟨s, (Except.ok.inj h).symm⟩
  · rw [targetIndex_given hown hnames] at h
    obtain ⟨coordinates, -, h⟩ := bind_eq_ok.1 h
    exact ⟨_, (Except.ok.inj h).symm⟩

theorem get?_concurrencyPair (seqNo primaryTerm : Value) :
    ((concurrencyPair seqNo primaryTerm).get? "if_seq_no").getD .null =
        (if seqNo.isNull || primaryTerm.isNull then .null else seqNo) ∧
      ((concurrencyPair seqNo primaryTerm).get? "if_primary_term").getD .null =
        if seqNo.isNull || primaryTerm.isNull then .null else primaryTerm := by
  unfold concurrencyPair
  split <;> exact ⟨rfl, rfl⟩

/-- A request that is made for a target and on some conditions has these. -/
structure Made (r : Request) (target seqNo primaryTerm : Value) : Prop where
  index_eq : r.field "index" = target
  seqNo_eq : r.field "if_seq_no" = if seqNo.isNull || primaryTerm.isNull then .null else seqNo
  primaryTerm_eq : r.field "if_primary_term" =
    if seqNo.isNull || primaryTerm.isNull then .null else primaryTerm

/-- Conditions stand among the fields of a request once, whatever else does. -/
theorem made_of_fields {s : String} {before after : Fields}
    (hindex : .required "index" .text ∈ kind.properties)
    (hconditions : .optional "if_seq_no" .whole ∈ kind.properties ∧
      .optional "if_primary_term" .whole ∈ kind.properties)
    (hbefore : "if_seq_no" ∉ before.names ∧ "if_primary_term" ∉ before.names)
    (hafter : "if_seq_no" ∉ after.names ∧ "if_primary_term" ∉ after.names)
    (hseqNo : (Shape.optional .whole).Admits seqNo)
    (hprimaryTerm : (Shape.optional .whole).Admits primaryTerm)
    (h : Request.make kind (("index", .str s) :: before ++ concurrencyPair seqNo primaryTerm ++
      after) = .ok r) : Made r (.str s) seqNo primaryTerm := by
  have hget : ∀ name, name ≠ "index" → name ∉ before.names → name ∉ after.names →
      Fields.get? (("index", .str s) :: before ++ concurrencyPair seqNo primaryTerm ++ after) name =
        (concurrencyPair seqNo primaryTerm).get? name := by
    intro name hname hbefore hafter
    rw [Fields.get?_append, Fields.get?_append, Fields.get?_cons, if_neg hname,
      Fields.get?_of_not_mem hbefore, Fields.get?_of_not_mem hafter, Option.none_or, Option.or_none]
  have hnull : ∀ v, (Shape.optional .whole).Admits v → (Shape.optional .whole).Admits
      (if seqNo.isNull || primaryTerm.isNull then .null else v) := by
    intro v hv
    split
    · exact .null _
    · exact hv
  obtain ⟨hseqNoRead, hprimaryTermRead⟩ := get?_concurrencyPair seqNo primaryTerm
  rw [← hget "if_seq_no" (by decide) hbefore.1 hafter.1] at hseqNoRead
  rw [← hget "if_primary_term" (by decide) hbefore.2 hafter.2] at hprimaryTermRead
  exact ⟨Request.field_required hindex rfl h,
    Request.field_optional hconditions.1 hseqNoRead (hnull _ hseqNo) h,
    Request.field_optional hconditions.2 hprimaryTermRead (hnull _ hprimaryTerm) h⟩

/-- **What parameters show** of a request that is made for a target and on some conditions. -/
theorem Made.aims (hmade : Made r target seqNo primaryTerm)
    (hown : (Shape.optional .text).Admits own) (htarget : targetIndex own index = .ok target)
    (hshows : r.Shows key names parameters)
    (hnames : "index" ∈ names ∧ "if_seq_no" ∈ names ∧ "if_primary_term" ∈ names)
    (hkeys : key "if_seq_no" = "if_seq_no" ∧ key "if_primary_term" = "if_primary_term") :
    Aims (key "index") own index seqNo primaryTerm parameters := by
  have hindex := hshows.get? "index" hnames.1
  have hseqNo := hshows.get? "if_seq_no" hnames.2.1
  have hprimaryTerm := hshows.get? "if_primary_term" hnames.2.2
  obtain ⟨s, rfl⟩ := exists_text_of_targetIndex hown htarget
  rw [hmade.index_eq] at hindex
  rw [hkeys.1, hmade.seqNo_eq] at hseqNo
  rw [hkeys.2, hmade.primaryTerm_eq] at hprimaryTerm
  refine ⟨hshows.nodup, ?_, ?_, ?_, ?_⟩
  · intro hnamed
    rw [targetIndex_own hnamed] at htarget
    rw [Except.ok.inj htarget]
    exact hindex
  · intro hnamed
    rw [targetIndex_given hown hnamed] at htarget
    obtain ⟨coordinates, hcoordinates, htarget⟩ := bind_eq_ok.1 htarget
    cases htarget
    exact ⟨coordinates, hcoordinates, hindex⟩
  · intro hs hp
    have hboth : (seqNo.isNull || primaryTerm.isNull) = false := by
      rw [Bool.or_eq_false_iff]
      exact ⟨Bool.eq_false_iff.2 fun hnull => hs (Value.eq_null_of_isNull hnull),
        Bool.eq_false_iff.2 fun hnull => hp (Value.eq_null_of_isNull hnull)⟩
    rw [hseqNo, hprimaryTerm, hboth]
    exact ⟨Value.present?_of_ne hs, Value.present?_of_ne hp⟩
  · intro hnull
    have hone : (seqNo.isNull || primaryTerm.isNull) = true := by
      rcases hnull with rfl | rfl
      · rfl
      · exact Bool.or_true _
    rw [hseqNo, hprimaryTerm, hone]
    exact ⟨rfl, rfl⟩

end Write

open Write (Made Aims NamesIndex)

variable {resolver : Option Catalogue} {index : Value} {fields parameters : Fields} {r : Request}
  {key : String → String} {names : List String}

/-! ## Ids, op types and versions -/

namespace IndexQuery

variable {q : IndexQuery}

/-- What the object of a query has as its id. -/
def objectId (q : IndexQuery) : Value :=
  match q.object with
  | .record c slots => (Value.record c slots).field "id"
  | .dict entries => (Value.findEntry? entries "id").getD .null
  | _ => .null

/-- The id that a document is written under: that of the query, else the words of that of its
object. -/
def writtenId? (q : IndexQuery) : Option Value :=
  q.id.present?.or (q.objectId.present?.map fun v => .str (String.ofList v.words))

/-- The op type of a query: `create` if it was asked for, `index` if any was or there is an id. -/
structure Operates (q : IndexQuery) (opType : Option String) : Prop where
  create : opType = some "create" ↔ q.opType = some .create
  index : opType = some "index" ↔
    q.opType ≠ some .create ∧ (q.opType ≠ none ∨ q.writtenId? ≠ none)
  absent : opType = none ↔ q.opType = none ∧ q.writtenId? = none

/-- The parameters of an index request, in the request or in a line of a batch. A type of versions
is there only beside a version. -/
structure Says (indexKey idKey : String) (q : IndexQuery) (index : Value) (parameters : Fields) :
    Prop extends Aims indexKey q.indexName index q.seqNo q.primaryTerm parameters where
  id : parameters.get? idKey = q.writtenId?
  version : parameters.get? "version" = q.version.present?
  versionType : ∀ v, parameters.get? "version_type" = some v ↔
    q.version ≠ .null ∧ ∃ t, q.versionType = some t ∧ v = .str t.text

theorem present?_writtenId (q : IndexQuery) :
    (q.writtenId?.getD .null).present? = q.writtenId? := by
  unfold writtenId? Value.present?
  cases hid : q.id.isNull with
  | false => simp [hid]
  | true => cases hobject : q.objectId.isNull <;> simp [Value.isNull]

theorem admits_writtenId (h : q.Admitted) :
    (Shape.optional .text).Admits (q.writtenId?.getD .null) := by
  unfold writtenId? Value.present?
  split
  · split
    · exact .null _
    · exact .given (.text _)
  · exact h.id

theorem idText_eq (v : Value) :
    idText v = v.present?.map fun v => .str (String.ofList v.words) := by
  unfold idText Value.present?
  split <;> rfl

/-- What a document says about an id is what its object has as one. -/
theorem idText_objectId {document : Value} {id : Option Value}
    (h : q.document resolver = .ok (document, id)) : id = idText q.objectId := by
  unfold IndexQuery.document at h
  split at h
  · next hobject =>
    split at h
    · cases h
    · obtain ⟨doc, -, h⟩ := bind_eq_ok.1 h
      cases h
      rw [objectId, hobject]
      rfl
  · next hobject =>
    obtain ⟨doc, -, h⟩ := bind_eq_ok.1 h
    cases h
    rw [objectId, hobject]
  · next entries hobject =>
    obtain ⟨doc, -, h⟩ := bind_eq_ok.1 h
    cases h
    have hid : q.objectId = (Value.findEntry? entries "id").getD .null := by
      rw [objectId, hobject]
    rw [hid]
    cases Value.findEntry? entries "id" <;> rfl
  · cases h

theorem document_id {document : Value} {id : Option Value}
    (h : q.document resolver = .ok (document, id)) :
    (if q.id.isNull then id.getD .null else q.id) = q.writtenId?.getD .null := by
  rw [idText_objectId h, idText_eq, writtenId?]
  cases hid : q.id.isNull <;> simp [Value.present?, hid]

/-- The op type that is asked for, or the one that an id implies. -/
def operation? (q : IndexQuery) : Option String :=
  match q.opType with
  | some t => some t.text
  | none => q.writtenId?.map fun _ => "index"

theorem operates (q : IndexQuery) : q.Operates q.operation? := by
  unfold operation?
  cases hop : q.opType with
  | some t => cases t <;> constructor <;> simp [hop, OpType.text]
  | none => cases hid : q.writtenId? <;> constructor <;> simp [hop, hid]

theorem opTypeText_eq (q : IndexQuery) :
    opTypeText q.opType (q.writtenId?.getD .null) = (q.operation?.map Value.str).getD .null := by
  unfold opTypeText operation?
  cases q.opType with
  | some t => rfl
  | none =>
    have hpresent := q.present?_writtenId
    unfold Value.present? at hpresent
    dsimp only
    split at hpresent
    · next hnull => rw [if_pos hnull, ← hpresent]; rfl
    · next hset => rw [if_neg hset, ← hpresent]; rfl

theorem get?_versionFields (q : IndexQuery) :
    (q.versionFields.get? "version").getD .null = q.version ∧
      (q.versionFields.get? "version_type").getD .null =
        if q.version.isNull then .null else (q.versionType.map (Value.str ·.text)).getD .null := by
  unfold versionFields
  split
  · next hnull => exact ⟨(Value.eq_null_of_isNull hnull).symm, rfl⟩
  · cases q.versionType <;> exact ⟨rfl, rfl⟩

/-- The fields of an index request: the conditions stand behind its target and its document. -/
theorem requestFields_eq_ok (h : q.requestFields resolver index = .ok fields) :
    ∃ target document, targetIndex q.indexName index = .ok target ∧
      fields = ("index", target) :: [("id", q.writtenId?.getD .null), ("document", document),
        ("op_type", (q.operation?.map Value.str).getD .null), ("routing", q.routing)] ++
          concurrencyPair q.seqNo q.primaryTerm ++ q.versionFields := by
  obtain ⟨target, htarget, h⟩ := bind_eq_ok.1 h
  obtain ⟨⟨document, objectId⟩, hdocument, h⟩ := bind_eq_ok.1 h
  cases h
  refine ⟨target, document, htarget, ?_⟩
  rw [← opTypeText_eq, ← document_id hdocument]

/-- A request that is made of a query has its target, its id, its op type and its version. -/
structure Filled (q : IndexQuery) (r : Request) (target : Value) : Prop extends
    Made r target q.seqNo q.primaryTerm where
  id_eq : r.field "id" = q.writtenId?.getD .null
  opType_eq : r.field "op_type" = (q.operation?.map Value.str).getD .null
  version_eq : r.field "version" = q.version
  versionType_eq : r.field "version_type" =
    if q.version.isNull then .null else (q.versionType.map (Value.str ·.text)).getD .null

theorem admits_operation (q : IndexQuery) :
    (Shape.optional .text).Admits ((q.operation?.map Value.str).getD .null) := by
  cases q.operation? with
  | none => exact .null _
  | some s => exact .given (.text s)

theorem admits_versionType (q : IndexQuery) : (Shape.optional .text).Admits
    (if q.version.isNull then .null else (q.versionType.map (Value.str ·.text)).getD .null) := by
  split
  · exact .null _
  · cases q.versionType with
    | none => exact .null _
    | some t => exact .given (.text _)

theorem filled_of_fields (hq : q.Admitted) (hfields : q.requestFields resolver index = .ok fields)
    (h : Request.make .index fields = .ok r) :
    ∃ target, targetIndex q.indexName index = .ok target ∧ q.Filled r target := by
  obtain ⟨target, document, htarget, hfields⟩ := requestFields_eq_ok hfields
  obtain ⟨s, rfl⟩ := Write.exists_text_of_targetIndex hq.indexName htarget
  have hproperties : ∀ p ∈ [Property.optional "id" .text, .optional "op_type" .text,
      .optional "if_seq_no" .whole, .optional "if_primary_term" .whole,
      .optional "version" .whole, .optional "version_type" .text],
      p ∈ RequestKind.index.properties := by
    simp [RequestKind.properties]
  simp only [List.forall_mem_cons] at hproperties
  obtain ⟨hid, hopType, hseqNo, hprimaryTerm, hversion, hversionType, -⟩ := hproperties
  -- the version stands behind the conditions
  have hlast : ∀ name, name ∉ ["index", "id", "document", "op_type", "routing", "if_seq_no",
      "if_primary_term"] → fields.get? name = q.versionFields.get? name := by
    intro name hname
    simp only [List.mem_cons, List.not_mem_nil, or_false, not_or] at hname
    obtain ⟨hindex, hid, hdocument, hopType, hrouting, hseqNo, hprimaryTerm⟩ := hname
    rw [hfields, Fields.get?_append, Fields.get?_append,
      Fields.get?_of_not_mem (WriteQuery.not_mem_concurrencyPair hseqNo hprimaryTerm _ _),
      Fields.get?_of_not_mem (by simp [Fields.names, *])]
    rfl
  obtain ⟨hversionRead, hversionTypeRead⟩ := q.get?_versionFields
  rw [← hlast _ (by decide)] at hversionRead hversionTypeRead
  have hidRead : fields.get? "id" = some (q.writtenId?.getD .null) := by rw [hfields]; rfl
  have hopTypeRead : fields.get? "op_type" = some ((q.operation?.map Value.str).getD .null) := by
    rw [hfields]
    rfl
  refine ⟨.str s, htarget, ?_, ?_, ?_, ?_, ?_⟩
  · rw [hfields] at h
    exact Write.made_of_fields List.mem_cons_self ⟨hseqNo, hprimaryTerm⟩
      (by simp [Fields.names])
      ⟨WriteQuery.not_mem_versionFields (by decide) (by decide) q,
        WriteQuery.not_mem_versionFields (by decide) (by decide) q⟩ hq.seqNo hq.primaryTerm h
  · exact Request.field_optional hid (by rw [hidRead]; rfl) (admits_writtenId hq) h
  · exact Request.field_optional hopType (by rw [hopTypeRead]; rfl) q.admits_operation h
  · exact Request.field_optional hversion hversionRead hq.version h
  · exact Request.field_optional hversionType hversionTypeRead q.admits_versionType h

/-- **What parameters show** of an index request. -/
theorem says_of_shows {target : Value} (hq : q.Admitted)
    (htarget : targetIndex q.indexName index = .ok target) (hfilled : q.Filled r target)
    (hshows : r.Shows key names parameters)
    (hnames : ["index", "id", "if_seq_no", "if_primary_term", "version", "version_type"] ⊆ names)
    (hkeys : ∀ name ∈ ["if_seq_no", "if_primary_term", "version", "version_type"],
      key name = name) : q.Says (key "index") (key "id") index parameters := by
  have haims := hfilled.toMade.aims hq.indexName htarget hshows
    ⟨hnames (by decide), hnames (by decide), hnames (by decide)⟩
    ⟨hkeys _ (by decide), hkeys _ (by decide)⟩
  have hid := hshows.get? "id" (hnames (by decide))
  have hversion := hshows.get? "version" (hnames (by decide))
  have hversionType := hshows.get? "version_type" (hnames (by decide))
  rw [hfilled.id_eq, present?_writtenId] at hid
  rw [hkeys _ (by decide), hfilled.version_eq] at hversion
  rw [hkeys _ (by decide), hfilled.versionType_eq] at hversionType
  refine ⟨haims, hid, hversion, fun v => ?_⟩
  rw [hversionType]
  by_cases hnull : q.version = .null
  · simp [hnull, Value.isNull, Value.present?]
  · cases q.versionType with
    | none => simp [Value.isNull, Value.present?]
    | some t => simp [hnull, Value.isNull, Value.present?, eq_comm]

end IndexQuery

/-! ## Requests for one document -/

theorem Request.shows_lineParameters {names : List String}
    (h : (names.map Request.lineName).Nodup) :
    r.Shows Request.lineName names (r.lineParameters names) :=
  shows_given Request.lineName h

/-- A query that was built from arguments. -/
def IndexQuery.Built (q : IndexQuery) : Prop := ∃ v, model.Builds v ∧ ofValue? v = some q

def UpdateQuery.Built (q : UpdateQuery) : Prop := ∃ v, model.Builds v ∧ ofValue? v = some q

theorem IndexQuery.Built.admitted {q : IndexQuery} (h : q.Built) : q.Admitted := by
  obtain ⟨v, ⟨cat, args, hcat, hbuild⟩, hq⟩ := h
  exact admitted_of_build hcat hbuild hq

theorem UpdateQuery.Built.admitted {q : UpdateQuery} (h : q.Built) : q.Admitted := by
  obtain ⟨v, ⟨cat, args, hcat, hbuild⟩, hq⟩ := h
  exact admitted_of_build hcat hbuild hq

namespace IndexQuery

variable {q : IndexQuery}

theorem filled_of_request (hq : q.Admitted) (h : q.request resolver index = .ok r) :
    ∃ target, targetIndex q.indexName index = .ok target ∧ q.Filled r target := by
  obtain ⟨fields, hfields, hmake⟩ := bind_eq_ok.1 h
  exact filled_of_fields hq hfields hmake

/-- The index request. -/
theorem says_params (hq : q.Admitted) (h : q.request resolver index = .ok r) :
    q.Says "index" "id" index r.params ∧
      r.params.get? "op_type" = q.operation?.map Value.str := by
  obtain ⟨target, htarget, hfilled⟩ := filled_of_request hq h
  obtain ⟨fields, -, hmake⟩ := bind_eq_ok.1 h
  have hshows := Request.shows_params (by decide) hmake
  refine ⟨says_of_shows hq htarget hfilled hshows (by decide) (by decide), ?_⟩
  have hopType := hshows.get? "op_type" (by decide)
  rw [hfilled.opType_eq] at hopType
  refine hopType.trans ?_
  cases q.operation? <;> rfl

/-- The lines of an index query in a batch. -/
theorem says_lines (hq : q.Admitted) (h : q.request resolver index = .ok r) :
    ∃ parameters, r.indexLines =
        [.object [(q.operation?.getD "index", .object parameters)], r.field "document"] ∧
      q.Says "_index" "_id" index parameters := by
  obtain ⟨target, htarget, hfilled⟩ := filled_of_request hq h
  obtain ⟨fields, -, hmake⟩ := bind_eq_ok.1 h
  have hshows : r.Shows Request.lineName Request.indexParams
      (r.lineParameters Request.indexParams) := Request.shows_lineParameters (by decide)
  refine ⟨r.lineParameters Request.indexParams, ?_,
    says_of_shows hq htarget hfilled hshows (by decide) (by decide)⟩
  rw [Request.indexLines_eq hmake, hfilled.opType_eq]
  cases q.operation? <;> rfl

end IndexQuery

namespace UpdateQuery

variable {q : UpdateQuery}

theorem not_mem_refresh {name : String} (hname : name ≠ "refresh") (policy : Option RefreshPolicy) :
    name ∉ Fields.names (match policy with
      | some policy => [("refresh", .str policy.text)]
      | none => []) := by
  cases policy <;> simp [Fields.names, hname]

/-- A request that is made of an update has its target and its conditions. -/
theorem made_of_request (hq : q.Admitted) (h : q.request index = .ok r) :
    ∃ target, targetIndex q.indexName index = .ok target ∧
      Made r target q.ifSeqNo q.ifPrimaryTerm := by
  obtain ⟨fields, hfields, hmake⟩ := bind_eq_ok.1 h
  obtain ⟨target, htarget, hfields⟩ := bind_eq_ok.1 hfields
  obtain ⟨doc, -, hfields⟩ := bind_eq_ok.1 hfields
  obtain ⟨upsert, -, hfields⟩ := bind_eq_ok.1 hfields
  obtain ⟨timeout, htimeout, hfields⟩ := bind_eq_ok.1 hfields
  cases hfields
  obtain ⟨s, rfl⟩ := Write.exists_text_of_targetIndex hq.indexName htarget
  have hproperties : Property.optional "if_seq_no" .whole ∈ RequestKind.update.properties ∧
      Property.optional "if_primary_term" .whole ∈ RequestKind.update.properties := by
    simp [RequestKind.properties]
  have hafter : ∀ name, name ≠ "refresh" → name ≠ "timeout" → name ∉ Fields.names
      ((match q.refresh with
        | some policy => [("refresh", .str policy.text)]
        | none => []) ++ timeout) := by
    intro name hrefresh htime
    rw [Fields.names_append, List.mem_append, not_or]
    exact ⟨not_mem_refresh hrefresh q.refresh, not_mem_timeField htime htimeout⟩
  rw [List.append_assoc _ _ timeout] at hmake
  refine ⟨.str s, htarget, ?_⟩
  exact Write.made_of_fields List.mem_cons_self hproperties (by simp [Fields.names])
    ⟨hafter _ (by decide) (by decide), hafter _ (by decide) (by decide)⟩ hq.ifSeqNo
    hq.ifPrimaryTerm hmake

/-- The update request. -/
theorem aims_params (hq : q.Admitted) (h : q.request index = .ok r) :
    Aims "index" q.indexName index q.ifSeqNo q.ifPrimaryTerm r.params := by
  obtain ⟨target, htarget, hmade⟩ := made_of_request hq h
  obtain ⟨fields, -, hmake⟩ := bind_eq_ok.1 h
  exact hmade.aims hq.indexName htarget (Request.shows_params (by decide) hmake) (by decide)
    ⟨rfl, rfl⟩

/-- The lines of an update in a batch. -/
theorem aims_lines (hq : q.Admitted) (h : q.request index = .ok r) :
    ∃ parameters, r.updateLines = [.object [("update", .object parameters)], r.body] ∧
      Aims "_index" q.indexName index q.ifSeqNo q.ifPrimaryTerm parameters := by
  obtain ⟨target, htarget, hmade⟩ := made_of_request hq h
  obtain ⟨fields, -, hmake⟩ := bind_eq_ok.1 h
  have hshows : r.Shows Request.lineName Request.updateParams
      (r.lineParameters Request.updateParams) := Request.shows_lineParameters (by decide)
  exact ⟨r.lineParameters Request.updateParams, Request.updateLines_eq hmake,
    hmade.aims hq.indexName htarget hshows (by decide) (by decide)⟩

end UpdateQuery

/-- The request that deletes a document. -/
theorem aims_delete {docId routing seqNo primaryTerm : Value}
    (hseqNo : (Shape.optional .whole).Admits seqNo)
    (hprimaryTerm : (Shape.optional .whole).Admits primaryTerm)
    (h : deleteRequest docId index routing seqNo primaryTerm = .ok r) :
    Aims "index" .null index seqNo primaryTerm r.params := by
  obtain ⟨coordinates, hcoordinates, hmake⟩ := bind_eq_ok.1 h
  have hproperties : Property.optional "if_seq_no" .whole ∈ RequestKind.delete.properties ∧
      Property.optional "if_primary_term" .whole ∈ RequestKind.delete.properties := by
    simp [RequestKind.properties]
  have htarget : targetIndex .null index = .ok (.str coordinates.first) := by
    rw [targetIndex, hcoordinates]
    rfl
  rw [← List.append_nil (_ ++ _)] at hmake
  have hmade : Made r (.str coordinates.first) seqNo primaryTerm :=
    Write.made_of_fields List.mem_cons_self hproperties (by simp [Fields.names])
      (by simp [Fields.names]) hseqNo hprimaryTerm hmake
  exact hmade.aims (.null _) htarget (Request.shows_params (by decide) hmake) (by decide) ⟨rfl, rfl⟩

/-! ## Items of batches -/

namespace WriteQuery

variable {q : WriteQuery}

/-- The index that an item names itself. -/
def indexName : WriteQuery → Value
  | .index q => q.indexName
  | .update q => q.indexName
  | .foreign _ => .null

/-- What is written to an index of its own does not depend on the index that is given beside it. -/
theorem single_independent (h : NamesIndex q.indexName) (index index' : Value) :
    q.single resolver index = q.single resolver index' := by
  have htarget : targetIndex q.indexName index = targetIndex q.indexName index' := by
    rw [Write.targetIndex_own h, Write.targetIndex_own h]
  cases q with
  | index q =>
    have hfields : q.requestFields resolver index = q.requestFields resolver index' :=
      congrArg (· >>= _) htarget
    rw [single, single, IndexQuery.request, IndexQuery.request, hfields]
  | update q =>
    have hfields : q.requestFields index = q.requestFields index' := congrArg (· >>= _) htarget
    rw [single, single, UpdateQuery.request, UpdateQuery.request, hfields]
  | foreign v => rfl

/-- Neither do its lines in a batch. -/
theorem lines_independent (h : NamesIndex q.indexName) (index index' : Value) :
    q.lines resolver index = q.lines resolver index' := by
  have hsingle : q.single resolver index = q.single resolver index' :=
    single_independent h index index'
  cases q with
  | index q =>
    have hrequest : q.request resolver index = q.request resolver index' := hsingle
    rw [lines, lines, hrequest]
  | update q =>
    have hrequest : q.request index = q.request index' := hsingle
    rw [lines, lines, hrequest]
  | foreign v => rfl

/-- An item has two lines. -/
theorem exists_lines {lines : List Value} (h : q.lines resolver index = .ok lines) :
    ∃ first second, lines = [first, second] := by
  cases q with
  | index q =>
    obtain ⟨r, -, h⟩ := bind_eq_ok.1 h
    exact ⟨_, _, (Except.ok.inj h).symm⟩
  | update q =>
    obtain ⟨r, -, h⟩ := bind_eq_ok.1 h
    exact ⟨_, _, (Except.ok.inj h).symm⟩
  | foreign v => cases h

end WriteQuery

/-- The lines of an item stand at twice its position in the batch. -/
theorem lines_at {queries : List WriteQuery} {lines : List Value} {n : ℕ} {q : WriteQuery}
    (h : bulkLines resolver index queries = .ok lines) (hq : queries[n]? = some q) :
    ∃ first second, q.lines resolver index = .ok [first, second] ∧
      lines[2 * n]? = some first ∧ lines[2 * n + 1]? = some second := by
  induction queries generalizing n lines with
  | nil => cases hq
  | cons p queries ih =>
    rw [bulkLines] at h
    obtain ⟨own, hown, h⟩ := bind_eq_ok.1 h
    obtain ⟨rest, hrest, h⟩ := bind_eq_ok.1 h
    obtain ⟨first, second, rfl⟩ := WriteQuery.exists_lines hown
    cases h
    cases n with
    | zero =>
      cases hq
      exact ⟨first, second, hown, rfl, rfl⟩
    | succ n =>
      obtain ⟨first', second', hlines, hfirst, hsecond⟩ := ih hrest hq
      exact ⟨first', second', hlines, hfirst, hsecond⟩

/-- A note with an id of its own, written on two conditions of which one is zero. -/
private def noted : Fields :=
  [("object", .object [("id", .str "7"), ("text", .str "new")]), ("seq_no", .int 0),
    ("primary_term", .int 1), ("version_type", .str "external"), ("index_name", .str "notes")]

/-- The query that is built of these. -/
private def noting : IndexQuery where
  id := .null
  object := .object [("id", .str "7"), ("text", .str "new")]
  source := .null
  version := .null
  versionType := some .external
  seqNo := .int 0
  primaryTerm := .int 1
  routing := .null
  opType := none
  indexName := .str "notes"

/-- An update with one condition alone. -/
private def amended : Fields :=
  [("id", .str "7"), ("document", .object [("text", .str "old")]), ("if_seq_no", .int 4)]

/-- The query that is built of these. -/
private def amending : UpdateQuery where
  id := .str "7"
  document := .object [("text", .str "old")]
  upsert := .null
  script := .null
  lang := .null
  params := .null
  scriptType := .inline
  scriptedUpsert := .null
  docAsUpsert := .null
  fetchSource := .null
  fetchSourceIncludes := .null
  fetchSourceExcludes := .null
  ifSeqNo := .int 4
  ifPrimaryTerm := .null
  routing := .null
  refresh := none
  retryOnConflict := .null
  timeout := .null
  waitForActiveShards := .null
  indexName := .null

private theorem noting_built : noting.Built := by
  obtain ⟨v, hv, hq⟩ : ∃ v, Catalogue.standard.build IndexQuery.model.name noted = .ok v ∧
      IndexQuery.ofValue? v = some noting := ⟨_, rfl, rfl⟩
  exact ⟨v, ⟨Catalogue.standard, noted, rfl, hv⟩, hq⟩

private theorem amending_built : amending.Built := by
  obtain ⟨v, hv, hq⟩ : ∃ v, Catalogue.standard.build UpdateQuery.model.name amended = .ok v ∧
      UpdateQuery.ofValue? v = some amending := ⟨_, rfl, rfl⟩
  exact ⟨v, ⟨Catalogue.standard, amended, rfl, hv⟩, hq⟩

/-- The batch of both. -/
private theorem exists_batch : ∃ r,
    bulkRequest none [.update amending, .index noting] (.str "things") none = .ok r := by
  have hdocument : noting.document none =
      .ok (.object [("id", .str "7"), ("text", .str "new")], some (.str "7")) := rfl
  have hpart : Document.parseObject "document" amending.document =
      .ok (.object [("text", .str "old")]) := rfl
  obtain ⟨lines, hlines⟩ : ∃ lines,
      bulkLines none (.str "things") [.update amending, .index noting] = .ok lines := by
    rw [bulkLines, bulkLines, WriteQuery.lines, WriteQuery.lines, UpdateQuery.request,
      UpdateQuery.requestFields, IndexQuery.request, IndexQuery.requestFields, hdocument, hpart]
    exact ⟨_, rfl⟩
  have hfit : ∀ o : BulkOptions, none = some o → o.Fit none (.str "things") := by
    intro o ho
    cases ho
  obtain ⟨r, hr, -⟩ := exists_bulkRequest hfit hlines
  exact ⟨r, hr⟩

end SearchWire
