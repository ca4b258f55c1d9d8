import SearchWire.Admin.Index
import SearchWire.Proofs.Query.Clause
import SearchWire.Proofs.Request.Suits
import SearchWire.Request.Text
import SearchWire.Write.Request

/-!
# Documents as texts

A document may be given as an object or as its JSON text. What is made from the one is what is made
from the other: requests for indices, documents to index, clauses of queries. The body of a request
is read back from the text of the request.

* `SameRequests`, `sameRequests`: values that give the same document are in the same requests.
* `exists_putMapping`: mappings are the whole body of their request.
* `IndexQuery.document_source`, `IndexQuery.document_object`: the document to index.
* `Query.clause_text`, `Query.clause_native`: the clause of a query.
* `Request.json_of_body`: the text of a request is the text of its body.
* `document_asText`: **a document means the same as an object and as its text.**
-/

namespace SearchWire

open Document

variable {fs : Fields} {v w : Value} {resolver : Option Catalogue}

theorem Document.Gives.parseObject (h : Gives w fs) (what : String) :
    parseObject what w = .ok (.object fs) := by
  rw [Document.parseObject, h what]
  rfl

/-! ## Requests -/

/-- Mappings have a request if there is an index for them, and are its whole body. -/
theorem exists_putMapping (hnames : fs.names.Nodup) (h : Gives w fs) {index : Value}
    {target : IndexCoordinates} (hindex : IndexCoordinates.coerce index = .ok target) :
    ∃ r, putMappingRequest index w = .ok r ∧ r.body = .object fs := by
  have hsuited : Request.Suited .putMapping
      [("index", .ofTexts target.names), ("mappings", .object fs)] := by
    have hrequired : RequestKind.putMapping.required = ["index", "mappings"] := rfl
    refine ⟨?_, by simp [hrequired, Fields.names]⟩
    simp only [List.forall_mem_cons]
    exact ⟨.of rfl (.texts _), .of rfl (.object _), List.forall_mem_nil _⟩
  obtain ⟨r, hr⟩ := Request.exists_make hsuited
  obtain ⟨a, ha, hvalue⟩ := check_isObject ⟨[RequestKind.putMapping.model], []⟩ ⟨fs, hnames, rfl⟩
  have hp : Property.required "mappings" .object ∈ RequestKind.putMapping.properties := by
    simp [RequestKind.properties]
  have hfield : r.field "mappings" = .object fs := by
    rw [← hvalue]
    exact Request.field_of_get? hp rfl rfl ha hr
  refine ⟨r, ?_, ?_⟩
  · rw [putMappingRequest, hindex, h.parseObject]
    exact hr
  · rw [Request.body, Request.kind_make hr]
    exact hfield

/-- The requests that have one value as a document are those that have another one there. -/
structure SameRequests (v w : Value) : Prop where
  putMapping : ∀ index, putMappingRequest index v = putMappingRequest index w
  newSettings : ∀ resolver index mappings actions,
    createIndexRequest resolver index v mappings actions =
      createIndexRequest resolver index w mappings actions
  newMappings : ∀ resolver index settings actions,
    createIndexRequest resolver index settings v actions =
      createIndexRequest resolver index settings w actions
  templateSettings : ∀ resolver (t : IndexTemplate),
    { t with settings := v }.request resolver = { t with settings := w }.request resolver
  templateMappings : ∀ resolver (t : IndexTemplate),
    { t with mappings := v }.request resolver = { t with mappings := w }.request resolver

theorem sameRequests (hv : Gives v fs) (hw : Gives w fs) : SameRequests v w where
  putMapping _ := by
    rw [putMappingRequest, putMappingRequest, hv.parseObject, hw.parseObject]
  newSettings _ _ _ _ := by
    rw [createIndexRequest, createIndexRequest, hv.parseObject, hw.parseObject]
  newMappings _ _ _ _ := by
    rw [createIndexRequest, createIndexRequest, hv.parseObject, hw.parseObject]
  templateSettings _ _ := by
    rw [IndexTemplate.request, IndexTemplate.request, hv.parseObject, hw.parseObject]
  templateMappings _ _ := by
    rw [IndexTemplate.request, IndexTemplate.request, hv.parseObject, hw.parseObject]

namespace IndexQuery

variable {q : IndexQuery}

/-- A document to index that is given by another value. -/
theorem document_source (hobject : q.object = .null) (h : Gives q.source fs) :
    q.document resolver = .ok (.object fs, none) := by
  have hsource : q.source.isNull = false := by
    rw [← Bool.not_eq_true]
    intro hnull
    have hgives := h "index source"
    generalize q.source = v at hnull hgives
    cases v <;> cases hnull
    cases hgives
  rw [document, hobject]
  simp only [hsource, Bool.false_eq_true, if_false, h.parseObject]
  rfl

/-- A document to index that is an object; its id may be used. -/
theorem document_object (hobject : q.object = .object fs) (h : Gives (.object fs) fs) :
    q.document resolver = .ok (.object fs, (fs.get? "id").bind idText) := by
  rw [document, hobject, Fields.object_eq]
  simp only
  rw [← Fields.object_eq, h.parseObject, Fields.findEntry?_entries]
  rfl

end IndexQuery

/-! ## Clauses -/

section Clauses

variable {style : Json.Style} {text : List Char} {rename : String → String} {q : Query}

/-- The clause of a query with a text is what the text was written from. -/
theorem Query.clause_text (hstyle : style.Keeps) (h : Json.IsJson (.object fs))
    (htext : Json.write style (.object fs) = .ok text)
    (hq : q.source = .text (String.ofList text)) :
    q.clause rename = .ok (.readyMade fs.entries) := by
  rw [clause, hq, QuerySource.compile, ofText_write hstyle h htext]
  rfl

theorem Query.clause_native {filter aggregations : Value}
    (hq : q.source = .native (.readyMade fs.entries) filter aggregations) :
    q.clause rename = .ok (.readyMade fs.entries) := by
  rw [clause, hq, QuerySource.compile, ClauseSource.compile]

/-- A query that is built from arguments, one of which is known. -/
def Query.BuiltWith (cat : Catalogue) (cls name : String) (w : Value) (q : Query) : Prop :=
  ∃ args v, Fields.get? args name = some w ∧ cat.build cls args = .ok v ∧ ofValue? v = some q

end Clauses

/-! ## Bodies -/

/-- The text of a request whose body is an object is the text of the body. -/
theorem Request.json_of_body {r : Request} {text : List Char} (hbody : r.body = .object fs)
    (htext : Json.write .compact (.object fs) = .ok text) : r.json = .ok (String.ofList text) := by
  have hkind : r.kind ≠ .bulk := by
    intro hbulk
    rw [body, hbulk] at hbody
    cases hbody
  have hjson : r.jsonText .compact = .ok text := by
    rw [jsonText]
    split
    · contradiction
    · rw [hbody, htext]
  rw [json, hjson]

/-! ## Agreement -/

/-- **A document means the same as an object and as its text.** Every object that a text can hold
has a text. The text and its bytes give the object, requests that have them as a document are those
that have the object there, and documents to index and clauses of queries are the object. A request
with the object as its body has this text, from which the body is read back. -/
theorem document_asText {d : Fields} (h : Json.IsJson (.object d)) :
    ∃ s : String, Json.write .compact (.object d) = .ok s.toList ∧
      Gives (.object d) d ∧
      (∀ w, AsText s w → Gives w d ∧ SameRequests w (.object d) ∧
        ∀ index target, IndexCoordinates.coerce index = .ok target →
          ∃ r, putMappingRequest index w = .ok r ∧ r.body = .object d) ∧
      (∀ resolver (q q' : IndexQuery), q.object = .null → AsText s q.source →
        q'.object = .object d →
          (q.document resolver).map Prod.fst = .ok (.object d) ∧
          (q'.document resolver).map Prod.fst = .ok (.object d)) ∧
      (∀ (cat : Catalogue) (q q' : Query), (∀ m ∈ Query.models, cat.model? m.name = some m) →
        q.BuiltWith cat "StringQuery" "source" (.str s) →
        q'.BuiltWith cat "NativeQuery" "query" (.object d) →
          ∀ rename, ∃ c, q.clause rename = .ok c ∧ q'.clause rename = .ok c ∧
            c.toValue = .object d) ∧
      ∀ r : Request, r.body = .object d →
        r.json = .ok s ∧ Json.read s = .ok r.body ∧ Json.readBytes s = .ok r.body := by
  have hstyle := Json.Style.keeps_compact
  obtain ⟨text, htext, -⟩ := Json.exists_write hstyle h
  have hobject := gives_object h
  have hnames := names_of_isJson h
  have hasText : ∀ w, AsText (String.ofList text) w → Gives w d :=
    fun w hw => gives_asText hstyle h htext hw
  refine ⟨String.ofList text, ?_, hobject, ?_, ?_, ?_, ?_⟩
  · rw [htext, String.toList_ofList]
  · intro w hw
    refine ⟨hasText w hw, sameRequests (hasText w hw) hobject, ?_⟩
    intro index target hindex
    exact exists_putMapping hnames (hasText w hw) hindex
  · -- the id that the object may have is not part of the document
    intro resolver q q' hnull hsource hq'
    rw [IndexQuery.document_source hnull (hasText _ hsource),
      IndexQuery.document_object hq' hobject]
    exact ⟨rfl, rfl⟩
  · rintro cat q q' hcat ⟨args, v, hargs, hv, hq⟩ ⟨args', v', hargs', hv', hq'⟩ rename
    obtain ⟨filter, aggregations, hnative⟩ := Query.source_of_native hcat hnames hargs' hv' hq'
    have hclause : q.clause rename = .ok (.readyMade d.entries) :=
      Query.clause_text hstyle h htext (Query.source_of_text hcat hargs hv hq)
    exact ⟨_, hclause, Query.clause_native hnative, rfl⟩
  · intro r hbody
    have hread := Json.read_write hstyle h htext
    rw [← hbody] at hread
    exact ⟨Request.json_of_body hbody htext, hread⟩

/-- An object with empty parts, nothing, a negative integer and characters that need escapes. -/
private def nested : Fields :=
  [("parts", .list [.null, .bool false, .int 0, .int (-12), .object [], .list []]),
    ("a\"b\\", .str "\n\x01é😀"), ("inner", .object [("none", .null)])]

private def nestedText : String :=
  "\x7b\"parts\":[null,false,0,-12,\x7b\x7d,[]],\"a\\\"b\\\\\":\"\\n\\u0001é😀\"," ++
    "\"inner\":\x7b\"none\":null\x7d\x7d"

private theorem isJson_nested : Json.IsJson (.object nested) := by
  have hempty : Json.IsJson (.object []) := .object (by decide) (List.forall_mem_nil _)
  have hinner : Json.IsJson (.object [("none", .null)]) :=
    .object (by decide) (List.forall_mem_singleton.2 .null)
  have hparts :
      Json.IsJson (.list [.null, .bool false, .int 0, .int (-12), .object [], .list []]) := by
    refine .list ?_
    simp only [List.forall_mem_cons]
    exact ⟨.null, .bool false, .int (by decide), .int (by decide), hempty,
      .list (List.forall_mem_nil _), List.forall_mem_nil _⟩
  refine .object (by decide) ?_
  simp only [nested, List.forall_mem_cons]
  exact ⟨hparts, .str _, hinner, List.forall_mem_nil _⟩

theorem document_asText_nested :
    Json.write .compact (.object nested) = .ok nestedText.toList ∧
      Gives (.object nested) nested ∧ Gives (.str nestedText) nested ∧
      Gives (.bytes nestedText) nested ∧
      (∃ r, putMappingRequest (.str "things") (.str nestedText) = .ok r ∧
        putMappingRequest (.str "things") (.object nested) = .ok r ∧
        r.body = .object nested ∧ r.json = .ok nestedText ∧ Json.read nestedText = .ok r.body) ∧
      ∃ q q' c, Query.BuiltWith ⟨Query.models, []⟩ "StringQuery" "source" (.str nestedText) q ∧
        Query.BuiltWith ⟨Query.models, []⟩ "NativeQuery" "query" (.object nested) q' ∧
        q.clause id = .ok c ∧ q'.clause id = .ok c ∧ c.toValue = .object nested := by
  have hwrite : Json.write .compact (.object nested) = .ok nestedText.toList := rfl
  obtain ⟨s, hs, hobject, htexts, -, hclauses, hbodies⟩ := document_asText isJson_nested
  obtain rfl : nestedText = s := String.toList_inj.1 (Except.ok.inj (hwrite.symm.trans hs))
  obtain ⟨hgives, hrequests, hmapping⟩ := htexts _ .text
  obtain ⟨r, hr, hbody⟩ := hmapping (.str "things") ⟨"things", []⟩ rfl
  have hr' : putMappingRequest (.str "things") (.object nested) = .ok r :=
    (hrequests.putMapping _).symm.trans hr
  obtain ⟨hjson, hread, -⟩ := hbodies r hbody
  have hcat : ∀ m ∈ Query.models,
      (⟨Query.models, []⟩ : Catalogue).model? m.name = some m := by
    simp only [Query.models, List.forall_mem_cons]
    exact ⟨rfl, rfl, rfl, rfl, rfl, List.forall_mem_nil _⟩
  obtain ⟨q, hq⟩ : ∃ q, Query.BuiltWith ⟨Query.models, []⟩ "StringQuery" "source"
      (.str nestedText) q := ⟨_, [("source", .str nestedText)], _, rfl, by rfl, by rfl⟩
  obtain ⟨q', hq'⟩ : ∃ q, Query.BuiltWith ⟨Query.models, []⟩ "NativeQuery" "query"
      (.object nested) q := ⟨_, [("query", .object nested)], _, rfl, by rfl, by rfl⟩
  obtain ⟨c, hc⟩ := hclauses _ q q' hcat hq hq' id
  exact ⟨hs, hobject, hgives, (htexts _ .bytes).1, ⟨r, hr, hr', hbody, hjson, hread⟩,
    q, q', c, hq, hq', hc⟩

end SearchWire
