import SearchWire.Proofs.Write.Lines

/-!
# Batches and single requests

A batch is made of the requests for its items. Items do not depend on each other, and the options of
the batch have no part in its lines.

* `bulkLines_of_ok`, `bulkLines_of_error`, `bulkLines_parts`, `bulkLines_append`: the lines of a
  batch.
* `bulkLines_of_bulkRequest`: those of a batch that was made.
* `BulkOptions.Fit`: options that do for a batch without items.
* `bulkRequest_agrees`: **a batch is made if each of its items can be requested alone, and its body
  is the lines of these requests.**
-/

namespace SearchWire

/-! ## Batches -/

variable {resolver : Option Catalogue} {index : Value} {options : Option BulkOptions}

/-- A batch whose items can be requested alone has the lines of these requests. -/
theorem bulkLines_of_ok {queries : List WriteQuery}
    (h : ∀ q ∈ queries, ∃ s, q.single resolver index = .ok s) :
    ∃ parts : List (Request × List Value),
      queries.map (WriteQuery.single resolver index) = parts.map (fun p => .ok p.1) ∧
      (∀ p ∈ parts, p.1.InLines p.2 ∧ ∀ line ∈ p.2, line.IsObject) ∧
      bulkLines resolver index queries = .ok (parts.flatMap Prod.snd) := by
  induction queries with
  | nil => exact ⟨[], rfl, nofun, rfl⟩
  | cons q queries ih =>
    rw [List.forall_mem_cons] at h
    obtain ⟨s, hs⟩ := h.1
    obtain ⟨lines, hlines, hinLines⟩ := WriteQuery.lines_of_ok hs
    obtain ⟨parts, hsingles, hparts, hrest⟩ := ih h.2
    refine ⟨(s, lines) :: parts, ?_, List.forall_mem_cons.2 ⟨hinLines, hparts⟩, ?_⟩
    · rw [List.map_cons, List.map_cons, hs, hsingles]
    · rw [bulkLines, hlines, hrest]
      rfl

/-- The first item that cannot be requested ends a batch. -/
theorem bulkLines_of_error {before after : List WriteQuery} {q : WriteQuery} {e : Failure}
    (hbefore : ∀ p ∈ before, ∃ s, p.single resolver index = .ok s)
    (h : q.single resolver index = .error e) :
    bulkLines resolver index (before ++ q :: after) = .error e := by
  induction before with
  | nil =>
    rw [List.nil_append, bulkLines, WriteQuery.lines_of_error h]
    rfl
  | cons p before ih =>
    rw [List.forall_mem_cons] at hbefore
    obtain ⟨s, hs⟩ := hbefore.1
    obtain ⟨lines, hlines, -⟩ := WriteQuery.lines_of_ok hs
    rw [List.cons_append, bulkLines, hlines, ih hbefore.2]
    rfl

/-- The lines of a batch are those of the requests for its items. -/
theorem bulkLines_parts {queries : List WriteQuery} {lines : List Value}
    (h : bulkLines resolver index queries = .ok lines) :
    ∃ parts : List (Request × List Value),
      queries.map (WriteQuery.single resolver index) = parts.map (fun p => .ok p.1) ∧
      (∀ p ∈ parts, p.1.InLines p.2 ∧ ∀ line ∈ p.2, line.IsObject) ∧
      lines = parts.flatMap Prod.snd := by
  rcases all_ok_or_first_error (WriteQuery.single resolver index) queries with
    hall | ⟨before, q, after, e, rfl, hbefore, hq⟩
  · obtain ⟨parts, hsingles, hparts, hsame⟩ := bulkLines_of_ok hall
    exact ⟨parts, hsingles, hparts, Except.ok.inj (h.symm.trans hsame)⟩
  · cases h.symm.trans (bulkLines_of_error hbefore hq)

/-- They are objects. -/
theorem isObject_bulkLines {queries : List WriteQuery} {lines : List Value}
    (h : bulkLines resolver index queries = .ok lines) : ∀ line ∈ lines, line.IsObject := by
  obtain ⟨parts, -, hparts, rfl⟩ := bulkLines_parts h
  intro line hline
  obtain ⟨p, hp, hline⟩ := List.mem_flatMap.1 hline
  exact (hparts p hp).2 line hline

theorem bulkLines_append {xs ys : List WriteQuery} {linesX linesY : List Value}
    (hxs : bulkLines resolver index xs = .ok linesX)
    (hys : bulkLines resolver index ys = .ok linesY) :
    bulkLines resolver index (xs ++ ys) = .ok (linesX ++ linesY) := by
  induction xs generalizing linesX with
  | nil =>
    cases hxs
    exact hys
  | cons x xs ih =>
    rw [bulkLines] at hxs
    obtain ⟨lines, hx, hxs⟩ := bind_eq_ok.1 hxs
    obtain ⟨rest, hrest, hxs⟩ := bind_eq_ok.1 hxs
    cases hxs
    rw [List.cons_append, bulkLines, hx, ih hrest, List.append_assoc]
    rfl

/-- The fields of a batch for its options, if there are any. -/
def BulkOptions.fieldsOf : Option BulkOptions → Except Failure Fields
  | none => .ok []
  | some o => o.fields

theorem bulkRequest_eq_ok {queries : List WriteQuery} {r : Request} :
    bulkRequest resolver queries index options = .ok r ↔
      ∃ lines, bulkLines resolver index queries = .ok lines ∧
        ∃ more, BulkOptions.fieldsOf options = .ok more ∧
          Request.make .bulk (("operations", .list lines) :: more) = .ok r := by
  cases options <;> simp only [bulkRequest, bind_eq_ok] <;> rfl

/-- Options that do for a batch without items. -/
def BulkOptions.Fit (resolver : Option Catalogue) (index : Value) (o : BulkOptions) : Prop :=
  ∃ r, bulkRequest resolver [] index (some o) = .ok r

/-- The operations of a batch do not matter to its other properties. -/
theorem checkProperty_bulk {lines : List Value} {more : Fields} {p : Property}
    (hp : p ∈ RequestKind.bulk.properties.tail) :
    checkProperty p (Request.given .bulk (("operations", .list lines) :: more)) =
      checkProperty p (Request.given .bulk more) := by
  have hkeys : ∀ p ∈ RequestKind.bulk.properties.tail, "operations" ∉ p.keys := by decide
  rw [← List.nil_append (_ :: more), Request.checkProperty_insert .bulk (hkeys p hp),
    List.nil_append]

/-- A batch is made from its lines, if its other properties take what they find. -/
theorem exists_make_bulk {lines : List Value} {more : Fields}
    (hmore : ∀ p ∈ RequestKind.bulk.properties.tail,
      ∃ a, checkProperty p (Request.given .bulk more) = .ok a)
    (hobjects : ∀ line ∈ lines, line.IsObject) :
    ∃ r, Request.make .bulk (("operations", .list lines) :: more) = .ok r ∧
      r.body = .list lines := by
  obtain ⟨a, ha, hvalue⟩ := check_objects ⟨[RequestKind.bulk.model], []⟩ hobjects
  have hchecked : ∀ p ∈ RequestKind.bulk.properties, ∃ b, checkProperty p
      (Request.given .bulk (("operations", .list lines) :: more)) = .ok b := by
    intro p hp
    rcases List.mem_cons.1 hp with rfl | hp
    · rw [← List.nil_append (_ :: more), Request.checkProperty_new .bulk rfl List.not_mem_nil]
      exact ⟨a, under_eq_ok.2 ha⟩
    · rw [checkProperty_bulk hp]
      exact hmore p hp
  obtain ⟨r, hr⟩ : ∃ r, Request.make .bulk (("operations", .list lines) :: more) = .ok r :=
    ⟨_, Request.make_eq_ok.2 ⟨hchecked, rfl⟩⟩
  refine ⟨r, hr, ?_⟩
  have hp : Property.required "operations" RequestKind.objects ∈ RequestKind.bulk.properties :=
    List.mem_cons_self
  have hfield : r.field "operations" = .list lines := by
    rw [← hvalue]
    exact Request.field_of_get? hp rfl rfl ha hr
  rw [Request.body, Request.kind_make hr, Request.lines, hfield]
  rfl

/-- The lines of a batch that was made are those of its items. -/
theorem bulkLines_of_bulkRequest {queries : List WriteQuery} {r : Request}
    (h : bulkRequest resolver queries index options = .ok r) :
    bulkLines resolver index queries = .ok r.lines := by
  obtain ⟨lines, hlines, more, -, hr⟩ := bulkRequest_eq_ok.1 h
  have hmore : ∀ p ∈ RequestKind.bulk.properties.tail,
      ∃ a, checkProperty p (Request.given .bulk more) = .ok a := by
    intro p hp
    rw [← checkProperty_bulk hp]
    exact (Request.make_eq_ok.1 hr).1 p (.tail _ hp)
  obtain ⟨r', hr', hbody⟩ := exists_make_bulk hmore (isObject_bulkLines hlines)
  cases hr.symm.trans hr'
  rw [Request.body, Request.kind_make hr] at hbody
  rw [hlines, Value.list.inj hbody]

/-! ## Agreement -/

/-- The operations of a batch are its lines, whatever its options are. -/
theorem exists_bulkRequest {queries : List WriteQuery} {lines : List Value}
    (ho : ∀ o, options = some o → o.Fit resolver index)
    (h : bulkLines resolver index queries = .ok lines) :
    ∃ r, bulkRequest resolver queries index options = .ok r ∧ r.body = .list lines := by
  obtain ⟨r, hr⟩ : ∃ r, bulkRequest resolver [] index options = .ok r := by
    cases options with
    | none => exact ⟨_, rfl⟩
    | some o => exact ho o rfl
  obtain ⟨none, hnone, more, hoptions, hr⟩ := bulkRequest_eq_ok.1 hr
  cases hnone
  obtain ⟨hok, -⟩ := Request.make_eq_ok.1 hr
  have hmore : ∀ p ∈ RequestKind.bulk.properties.tail,
      ∃ a, checkProperty p (Request.given .bulk more) = .ok a := by
    intro p hp
    rw [← checkProperty_bulk hp]
    exact hok p (.tail _ hp)
  obtain ⟨r, hr, hbody⟩ := exists_make_bulk hmore (isObject_bulkLines h)
  exact ⟨r, bulkRequest_eq_ok.2 ⟨lines, h, more, hoptions, hr⟩, hbody⟩

/-- A batch whose items can be requested alone is made, with the lines of these requests. -/
theorem bulkRequest_of_ok {queries : List WriteQuery}
    (ho : ∀ o, options = some o → o.Fit resolver index)
    (h : ∀ q ∈ queries, ∃ s, q.single resolver index = .ok s) :
    ∃ r lines, bulkRequest resolver queries index options = .ok r ∧ r.body = .list lines ∧
      bulkLines resolver index queries = .ok lines ∧ ∃ parts : List (Request × List Value),
        queries.map (WriteQuery.single resolver index) = parts.map (fun p => .ok p.1) ∧
        (∀ p ∈ parts, p.1.InLines p.2) ∧ lines = parts.flatMap Prod.snd := by
  obtain ⟨parts, hsingles, hparts, hlines⟩ := bulkLines_of_ok h
  obtain ⟨r, hr, hbody⟩ := exists_bulkRequest ho hlines
  exact ⟨r, _, hr, hbody, hlines, parts, hsingles, fun p hp => (hparts p hp).1, rfl⟩

/-- A batch fails as the first item that cannot be requested alone. -/
theorem bulkRequest_of_error {before after : List WriteQuery} {q : WriteQuery} {e : Failure}
    (hbefore : ∀ p ∈ before, ∃ s, p.single resolver index = .ok s)
    (h : q.single resolver index = .error e) :
    bulkRequest resolver (before ++ q :: after) index options = .error e := by
  rw [bulkRequest, bulkLines_of_error hbefore h]
  rfl

/-- **A batch agrees with single requests.** It is made if and only if each of its items can be
requested alone, and else fails as the first item that cannot be. Its body has the lines of these
requests, item by item; so the body of one batch after another one is the body of the one after that
of the other. -/
theorem bulkRequest_agrees (queries : List WriteQuery)
    (ho : ∀ o, options = some o → o.Fit resolver index) :
    ((∃ r, bulkRequest resolver queries index options = .ok r) ↔
      ∀ q ∈ queries, ∃ s, q.single resolver index = .ok s) ∧
    (∀ e, bulkRequest resolver queries index options = .error e ↔
      ∃ before q after, queries = before ++ q :: after ∧
        (∀ p ∈ before, ∃ s, p.single resolver index = .ok s) ∧ q.single resolver index = .error e) ∧
    ∀ r, bulkRequest resolver queries index options = .ok r →
      (∃ parts : List (Request × List Value),
        queries.map (WriteQuery.single resolver index) = parts.map (fun p => .ok p.1) ∧
        (∀ p ∈ parts, p.1.InLines p.2) ∧ r.body = .list (parts.flatMap Prod.snd)) ∧
      ∀ xs ys, queries = xs ++ ys → ∃ x y linesX linesY,
        bulkRequest resolver xs index options = .ok x ∧ x.body = .list linesX ∧
        bulkRequest resolver ys index options = .ok y ∧ y.body = .list linesY ∧
        r.body = .list (linesX ++ linesY) := by
  rcases all_ok_or_first_error (WriteQuery.single resolver index) queries with
    hall | ⟨before, q, after, e, rfl, hbefore, hq⟩
  · obtain ⟨r, lines, hr, hbody, hlines, parts, hsingles, hparts, rfl⟩ := bulkRequest_of_ok ho hall
    refine ⟨⟨fun _ => hall, fun _ => ⟨r, hr⟩⟩, ?_, ?_⟩
    · intro e
      constructor
      · intro he
        cases hr.symm.trans he
      · rintro ⟨before, q, after, rfl, hbefore, hq⟩
        exact bulkRequest_of_error hbefore hq
    · intro r' hr'
      cases hr.symm.trans hr'
      refine ⟨⟨parts, hsingles, hparts, hbody⟩, ?_⟩
      rintro xs ys rfl
      obtain ⟨x, linesX, hx, hbodyX, hlinesX, -⟩ :=
        bulkRequest_of_ok ho fun q hq => hall q (List.mem_append_left ys hq)
      obtain ⟨y, linesY, hy, hbodyY, hlinesY, -⟩ :=
        bulkRequest_of_ok ho fun q hq => hall q (List.mem_append_right xs hq)
      have hsame := Except.ok.inj (hlines.symm.trans (bulkLines_append hlinesX hlinesY))
      exact ⟨x, y, linesX, linesY, hx, hbodyX, hy, hbodyY, by rw [hbody, hsame]⟩
  · have herror : bulkRequest resolver (before ++ q :: after) index options = .error e :=
      bulkRequest_of_error hbefore hq
    refine ⟨⟨?_, ?_⟩, ?_, ?_⟩
    · rintro ⟨r, hr⟩
      cases herror.symm.trans hr
    · intro hall
      obtain ⟨s, hs⟩ := hall q (List.mem_append_right before List.mem_cons_self)
      cases hq.symm.trans hs
    · intro e'
      constructor
      · intro he'
        cases herror.symm.trans he'
        exact ⟨before, q, after, rfl, hbefore, hq⟩
      · rintro ⟨before', q', after', heq, hbefore', hq'⟩
        rw [heq]
        exact bulkRequest_of_error hbefore' hq'
    · intro r hr
      cases herror.symm.trans hr

/-- A document that is indexed. -/
private def indexed : IndexQuery where
  id := .str "1"
  object := .object [("name", .str "Ann")]
  source := .null
  version := .null
  versionType := none
  seqNo := .int 3
  primaryTerm := .int 1
  routing := .str "north"
  opType := some .create
  indexName := .null

/-- A document that is updated by a part of it. -/
private def updated : UpdateQuery where
  id := .str "2"
  document := .object [("name", .str "Bob")]
  upsert := .null
  script := .null
  lang := .null
  params := .null
  scriptType := .inline
  scriptedUpsert := .null
  docAsUpsert := .bool true
  fetchSource := .null
  fetchSourceIncludes := .null
  fetchSourceExcludes := .null
  ifSeqNo := .null
  ifPrimaryTerm := .null
  routing := .null
  refresh := none
  retryOnConflict := .int 2
  timeout := .null
  waitForActiveShards := .null
  indexName := .str "others"

theorem bulkRequest_agrees_pair :
    ∃ (r : Request) (parts : List (Request × List Value)),
      bulkRequest none [.index indexed, .update updated] (.str "things")
        (some ⟨some .waitUntil, .null, .null, .str "5s", .null⟩) = .ok r ∧
      [indexed.request none (.str "things"), updated.request (.str "things")] =
        parts.map (fun p => .ok p.1) ∧
      (∀ p ∈ parts, p.1.InLines p.2) ∧ r.body = .list (parts.flatMap Prod.snd) := by
  have ho : ∀ o, some (⟨some .waitUntil, .null, .null, .str "5s", .null⟩ : BulkOptions) = some o →
      o.Fit none (.str "things") := by
    rintro o ⟨⟩
    exact ⟨_, rfl⟩
  have hitems : ∀ q ∈ [WriteQuery.index indexed, .update updated],
      ∃ s, q.single none (.str "things") = .ok s := by
    simp only [List.forall_mem_cons]
    exact ⟨⟨_, rfl⟩, ⟨_, rfl⟩, List.forall_mem_nil _⟩
  obtain ⟨hmade, -, hbody⟩ := bulkRequest_agrees [.index indexed, .update updated] ho
  obtain ⟨r, hr⟩ := hmade.2 hitems
  obtain ⟨⟨parts, hsingles, hparts, hlines⟩, -⟩ := hbody r hr
  exact ⟨r, parts, hr, hsingles, hparts, hlines⟩

end SearchWire
