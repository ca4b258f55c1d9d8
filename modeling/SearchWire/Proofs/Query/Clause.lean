import SearchWire.Proofs.Clause.Truth
import SearchWire.Proofs.Json.Document
import SearchWire.Proofs.Schema.Check
import SearchWire.Query.Record

/-!
# Clauses of queries

The clause of a query is an object whose keys are distinct texts, if a ready-made clause is one; a
ready-made clause of a query that was checked is. Ids that are set stand beside the clause.

* `QuerySource.HasTextKeys`, `Query.hasTextKeys_of_build`: the condition on ready-made clauses,
  which every query that is built from arguments meets.
* `Query.isObject_mainClause`: the clause of such a query.
* `Query.withIds`, `Query.mainClause_eq_ok`: the clause of a query and its ids.
* `Query.holds_restrict`: **a clause with ids holds for what the clause holds for, if it has one of
  the ids.**
-/

namespace SearchWire

/-! ## Clauses as objects -/

namespace Clause

theorem isObject_matchAll : toValue .matchAll |>.IsObject := by
  rw [toValue]
  exact Value.isObject_singleton _ _

theorem isObject_boolean (must mustNot should : List Clause) (boost : Value) :
    (toValue (.boolean must mustNot should boost)).IsObject := by
  rw [toValue]
  exact Value.isObject_singleton _ _

theorem isObject_atom (kind : String) (body : Fields) : (toValue (.atom kind body)).IsObject := by
  rw [toValue]
  exact Value.isObject_singleton _ _

end Clause

variable {rename : String → String} {c : Clause}

theorem Criteria.isObject_node {t : Criteria} (ht : ∀ cond, t ≠ .condition cond)
    (h : t.node rename = .ok c) : c.toValue.IsObject := by
  unfold node at h
  split at h
  · next cond => exact absurd rfl (ht cond)
  · cases h
    exact Clause.isObject_matchAll
  · obtain ⟨must, -, h⟩ := bind_eq_ok.1 h
    obtain ⟨mustNot, -, h⟩ := bind_eq_ok.1 h
    cases h
    exact Clause.isObject_boolean _ _ _ _
  · cases h
    exact Clause.isObject_matchAll
  · obtain ⟨should, -, h⟩ := bind_eq_ok.1 h
    cases h
    exact Clause.isObject_boolean _ _ _ _
  · obtain ⟨clause, -, h⟩ := bind_eq_ok.1 h
    cases h
    exact Clause.isObject_boolean _ _ _ _
  · cases h

/-- A tree is compiled to `match_all` or to a boolean clause. -/
theorem Criteria.isObject_compile {tree : Option Criteria} (h : compile rename tree = .ok c) :
    c.toValue.IsObject := by
  unfold compile at h
  split at h
  · cases h
    exact Clause.isObject_matchAll
  · obtain ⟨leaf, -, h⟩ := bind_eq_ok.1 h
    cases h
    exact Clause.isObject_boolean _ _ _ _
  · next hne => exact isObject_node hne h

/-- A ready-made clause has distinct texts as keys. -/
def QuerySource.HasTextKeys : QuerySource → Prop
  | .native (.readyMade entries) _ _ => (Value.dict entries).IsObject
  | _ => True

theorem QuerySource.isObject_compile {s : QuerySource} (hs : s.HasTextKeys)
    (h : s.compile rename = .ok c) : c.toValue.IsObject := by
  cases s with
  | everything =>
    cases h
    exact Clause.isObject_matchAll
  | criteria tree => exact Criteria.isObject_compile h
  | native source filter aggregations =>
    rw [compile] at h
    cases source with
    | everything =>
      rw [ClauseSource.compile] at h
      cases h
      exact Clause.isObject_matchAll
    | readyMade entries =>
      rw [ClauseSource.compile] at h
      cases h
      exact hs
    | criteria tree =>
      rw [ClauseSource.compile] at h
      exact Criteria.isObject_compile h
    | scored inner functions options =>
      rw [ClauseSource.compile] at h
      obtain ⟨clause, -, h⟩ := bind_eq_ok.1 h
      obtain ⟨entries, -, h⟩ := bind_eq_ok.1 h
      cases h
      exact Clause.isObject_atom _ _
  | text json =>
    obtain ⟨fields, hfields, h⟩ := bind_eq_ok.1 h
    cases h
    exact ⟨fields, Document.nodup_ofText hfields, rfl⟩

/-! ## Documents with ids -/

namespace Value

/-- The ids of which a clause asks for one. -/
def idsOf? : Value → Option (List Value)
  | .dict [(.str "ids", .dict body)] => do (← findEntry? body "values").collection?
  | _ => none

/-- The truth of clauses about the document with an id, where `other` gives the truth of those
clauses that do not ask for ids. -/
def about (id : String) (other : Value → Bool) (clause : Value) : Bool :=
  match clause.idsOf? with
  | some ids => ids.any fun v => v.text? == some id
  | none => other clause

end Value

namespace Query

variable {q : Query}

/-- The ids of a query. -/
def idList (q : Query) : List String := q.ids.getD []

/-- The clause of a query with the ids of the query, unless it has none. -/
def withIds (q : Query) (c : Clause) : Clause :=
  if q.idList.isEmpty then c else restrict q.idList c

theorem mainClause_eq_ok :
    q.mainClause rename = .ok c ↔ ∃ d, q.clause rename = .ok d ∧ q.withIds d = c := by
  unfold mainClause withIds idList
  rw [bind_eq_ok]
  rcases q.ids with _ | _ | ⟨id, ids⟩ <;> simp

theorem isObject_withIds (h : c.toValue.IsObject) : (q.withIds c).toValue.IsObject := by
  unfold withIds
  split
  · exact h
  · exact Clause.isObject_boolean _ _ _ _

/-- The clause of a query, with its ids or without. -/
theorem isObject_mainClause (hq : q.source.HasTextKeys) (h : q.mainClause rename = .ok c) :
    c.toValue.IsObject := by
  obtain ⟨d, hd, rfl⟩ := mainClause_eq_ok.1 h
  exact isObject_withIds (QuerySource.isObject_compile hq hd)

/-! ## Ids -/

/-- **A clause that is restricted to ids** holds for those documents with one of the ids for which
the clause holds. -/
theorem holds_restrict (ids : List String) (c : Clause) (id : String) (other : Value → Bool) :
    (restrict ids c).holds (Value.about id other) =
      (c.holds (Value.about id other) && ids.contains id) := by
  have hids : Clause.holds (Value.about id other) (.atom "ids" [("values", .ofTexts ids)]) =
      ids.contains id := by
    have hread : Clause.holds (Value.about id other) (.atom "ids" [("values", .ofTexts ids)]) =
        Value.about id other (.dict [(.str "ids", .dict [(.str "values", .ofTexts ids)])]) := by
      simp [Clause.holds, Clause.toValue, Value.object, Value.holds]
    have htexts : (ids.map Value.str).any (fun v => v.text? == some id) = ids.contains id := by
      rw [List.any_map, List.contains_eq_any_beq]
      congr 1
      funext s
      exact Bool.beq_comm
    rw [hread, ← htexts]
    rfl
  rw [restrict, Clause.holds_boolean]
  simp [hids]

/-! ## Queries that are built from arguments -/

theorem source_of_assemble {cls : RecordClass} {get : String → Value}
    {rescorers : List (Rescorer Query)} (h : assemble? cls get rescorers = some q) :
    sourceOf? cls get = some q.source := by
  simp only [assemble?, Option.bind_eq_bind, Option.bind_eq_some_iff] at h
  obtain ⟨source, hsource, _, -, _, -, _, -, _, -, _, -, _, -, _, -, _, -, _, -, h⟩ := h
  cases h
  exact hsource

/-- The source of a query that is built from arguments is read from what its properties took. -/
theorem sourceOf?_of_build {cat : Catalogue} {m : Model} {name : String} {args : Fields} {v : Value}
    (hcat : cat.model? name = some m) (h : cat.build name args = .ok v)
    (hq : ofValue? v = some q) :
    sourceOf? m.cls (Value.slotValue (m.properties.map fun p =>
      ⟨p.name, p.wire, valueOf (checkProperty p ⟨[], checkEntries cat args.entries⟩)⟩)) =
        some q.source := by
  obtain ⟨m', a, hm', ha, rfl⟩ := build_eq_ok.1 h
  cases hcat.symm.trans hm'
  obtain ⟨-, hvalue⟩ := buildRecord_ok ha
  rw [hvalue, recordOf, ofValue?] at hq
  obtain ⟨rescorers, -, hq⟩ := Option.bind_eq_some_iff.1 hq
  exact source_of_assemble hq

/-- What is taken for a native clause is an object, if it is a dictionary. -/
theorem isObject_of_native {cat : Catalogue} {v : Value} {a : Accepted}
    (h : check cat v (.optional (.firstOf [.object, .model "FunctionScoreQuery"])) = .ok a)
    {es : Entries} (hes : a.value = .dict es) : (Value.dict es).IsObject := by
  rw [check_optional] at h
  split at h
  · next hnull =>
    cases h
    rw [show v = .dict es from hes] at hnull
    contradiction
  · rcases check_firstOf h with h | h
    · exact hes ▸ isObject_of_check h
    · obtain ⟨c, slots, hrecord⟩ := isRecord_of_check h
      cases hes.symm.trans hrecord

theorem hasTextKeys_native {v filter aggregations : Value}
    (h : ∀ es, v = .dict es → (Value.dict es).IsObject) :
    (QuerySource.native (ClauseSource.ofValue v) filter aggregations).HasTextKeys := by
  unfold ClauseSource.ofValue
  split
  case h_4 entries => exact h entries rfl
  case h_5 =>
    split <;> trivial
  all_goals trivial

/-- **Every query that is built from arguments** has distinct texts as keys of its clause. -/
theorem hasTextKeys_of_build {cat : Catalogue} {m : Model} {name : String} {args : Fields}
    {v : Value} (hm : m ∈ models) (hcat : cat.model? name = some m)
    (h : cat.build name args = .ok v) (hq : ofValue? v = some q) : q.source.HasTextKeys := by
  have hsource := sourceOf?_of_build hcat h hq
  obtain ⟨m', a, hm', ha, -⟩ := build_eq_ok.1 h
  cases hcat.symm.trans hm'
  obtain ⟨hok, -⟩ := buildRecord_ok ha
  simp only [models, List.mem_cons, List.not_mem_nil, or_false] at hm
  rcases hm with rfl | rfl | rfl | rfl | rfl
  · have heq : some QuerySource.everything = some q.source := hsource
    rw [← Option.some.inj heq]
    trivial
  · have heq : some (QuerySource.criteria _) = some q.source := hsource
    rw [← Option.some.inj heq]
    trivial
  · have heq : some (QuerySource.native (ClauseSource.ofValue (valueOf (checkProperty
        (.optional "query" (.firstOf [.object, .model "FunctionScoreQuery"]))
        ⟨[], checkEntries cat args.entries⟩))) _ _) = some q.source := hsource
    rw [← Option.some.inj heq]
    apply hasTextKeys_native
    intro es hes
    obtain ⟨b, hb⟩ := hok (.optional "query" (.firstOf [.object, .model "FunctionScoreQuery"]))
      (by simp [modelOf, Model.plain])
    rw [hb] at hes
    rcases checkProperty_cases hb with ⟨-, w, -, hw⟩ | hdefault
    · exact isObject_of_native hw hes
    · have hnull : Value.null = b.value := Option.some.inj hdefault
      cases hnull.trans hes
  · obtain ⟨json, -, heq⟩ := Option.bind_eq_some_iff.1 hsource
    rw [← Option.some.inj heq]
    trivial
  · cases hsource

/-- A query with a ready-made clause. -/
theorem source_of_native {cat : Catalogue} {args : Fields} {v : Value} {fs : Fields}
    (hcat : ∀ m ∈ models, cat.model? m.name = some m) (hnames : fs.names.Nodup)
    (hargs : args.get? "query" = some (.object fs)) (h : cat.build "NativeQuery" args = .ok v)
    (hq : ofValue? v = some q) :
    ∃ filter aggregations, q.source = .native (.readyMade fs.entries) filter aggregations := by
  have hsource := sourceOf?_of_build (hcat _ (.tail _ (.tail _ (.head _)))) h hq
  have heq : some (QuerySource.native (ClauseSource.ofValue (valueOf (checkProperty
      (.optional "query" (.firstOf [.object, .model "FunctionScoreQuery"]))
      ⟨[], checkEntries cat args.entries⟩))) _ _) = some q.source := hsource
  obtain ⟨a, ha, hvalue⟩ := check_isObject cat ⟨fs, hnames, rfl⟩
  have hfits : check cat (.object fs)
      (.optional (.firstOf [.object, .model "FunctionScoreQuery"])) = .ok a := by
    rw [check_optional, check_firstOf_eq, ha]
    rfl
  rw [checkProperty_of_get? rfl hargs hfits, valueOf, hvalue] at heq
  exact ⟨_, _, (Option.some.inj heq).symm⟩

/-- A query with a text. -/
theorem source_of_text {cat : Catalogue} {args : Fields} {v : Value} {s : String}
    (hcat : ∀ m ∈ models, cat.model? m.name = some m)
    (hargs : args.get? "source" = some (.str s)) (h : cat.build "StringQuery" args = .ok v)
    (hq : ofValue? v = some q) : q.source = .text s := by
  have hsource := sourceOf?_of_build (hcat _ (.tail _ (.tail _ (.tail _ (.head _))))) h hq
  have heq : (Value.text? (valueOf (checkProperty (.required "source" .text)
      ⟨[], checkEntries cat args.entries⟩))).bind (fun s => some (QuerySource.text s)) =
        some q.source := hsource
  have hfits : check cat (.str s) .text = Verdict.exact (.str s) := rfl
  rw [checkProperty_of_get? rfl hargs hfits] at heq
  exact (Option.some.inj heq).symm

end Query

end SearchWire
