import SearchWire.Proofs.Mapping.Unwrap
import SearchWire.Proofs.Search.Rename
import SearchWire.Proofs.Search.Suits

/-!
# Distance sorts by declared type

A search with a further sort order by distance is made if and only if its field passes a check of
the type with which the field is declared. The check sees a union by its types as they are written,
but the one type that a wrapper holds without its wrapper. So a union is accepted if and only if one
of its types is, as long as none of them is a collection: a set of points is accepted, a set of
points or a number is not.

* `Catalogue.holdsCoordinate_of_same`: types that are written in the same way.
* `Catalogue.acceptsDistance`, `Catalogue.acceptsDistance_unionOf`: **the check of a property by its
  declared type**, and of unions.
* `Query.searchRequest_withDistance`: the check is all that a sort order by distance asks for.
* `Query.acceptsDistance_members`: **when a union is checked type by type.**
-/

namespace SearchWire

open TypeExpr

namespace Catalogue

variable {cat : Catalogue}

/-! ## Types that are written in the same way -/

theorem someHoldsCoordinate_eq_any (ts : List TypeExpr) :
    cat.someHoldsCoordinate ts = ts.any cat.holdsCoordinate := by
  induction ts with
  | nil => rfl
  | cons t ts ih => rw [someHoldsCoordinate, ih, List.any_cons]

theorem holdsCoordinate_union (ts : List TypeExpr) (piped : Bool) :
    cat.holdsCoordinate (.union ts piped) = ts.any cat.holdsCoordinate := by
  rw [holdsCoordinate, someHoldsCoordinate_eq_any]

/-- The type of a property that is declared with the given type lets hits be sorted by distance. -/
def acceptsDistance (cat : Catalogue) (declared : TypeExpr) : Bool :=
  cat.holdsCoordinate declared.unwrap.1

/-- Types are alike if they hold coordinates both or neither, also inside their wrappers. -/
private structure Alike (cat : Catalogue) (t u : TypeExpr) : Prop where
  isNone : t.isNone = u.isNone
  holds : cat.holdsCoordinate t = cat.holdsCoordinate u
  accepts : cat.acceptsDistance t = cat.acceptsDistance u

namespace Alike

variable {t u : TypeExpr} {ts us : List TypeExpr}

/-- Types without anything else in their wrappers are alike if they hold coordinates both or
neither. -/
theorem of_holds (hnone : t.isNone = u.isNone) (ht : t.unwrap = (t, false))
    (hu : u.unwrap = (u, false)) (h : cat.holdsCoordinate t = cat.holdsCoordinate u) :
    Alike cat t u :=
  ⟨hnone, h, by rw [acceptsDistance, acceptsDistance, ht, hu, h]⟩

theorem any_eq (h : List.Forall₂ (Alike cat) ts us) :
    ts.any cat.holdsCoordinate = us.any cat.holdsCoordinate := by
  induction h with
  | nil => rfl
  | cons htu _ ih => rw [List.any_cons, List.any_cons, htu.holds, ih]

theorem filter (h : List.Forall₂ (Alike cat) ts us) :
    List.Forall₂ (Alike cat) (ts.filter fun t => !t.isNone) (us.filter fun t => !t.isNone) := by
  induction h with
  | nil => exact .nil
  | @cons t u _ _ htu _ ih =>
    rw [List.filter_cons, List.filter_cons, htu.isNone]
    cases u.isNone with
    | false => exact .cons htu ih
    | true => exact ih

theorem union (piped piped' : Bool) (h : List.Forall₂ (Alike cat) ts us) :
    Alike cat (.union ts piped) (.union us piped') := by
  have hholds : cat.holdsCoordinate (.union ts piped) = cat.holdsCoordinate (.union us piped') := by
    rw [holdsCoordinate_union, holdsCoordinate_union, any_eq h]
  refine ⟨rfl, hholds, ?_⟩
  have hlength := (filter h).length_eq
  rw [acceptsDistance, acceptsDistance]
  rcases unwrap_union ts piped with ⟨t, ht, hone⟩ | ⟨hmany, hwhole⟩
  · rcases unwrap_union us piped' with ⟨u, hu, hone'⟩ | ⟨hmany', -⟩
    · have hrest := filter h
      rw [ht, hu, List.forall₂_cons] at hrest
      rw [hone, hone']
      exact hrest.1.accepts
    · rw [ht] at hlength
      exact absurd hlength.symm hmany'
  · rcases unwrap_union us piped' with ⟨u, hu, -⟩ | ⟨-, hwhole'⟩
    · rw [hu] at hlength
      exact absurd hlength hmany
    · rw [hwhole, hwhole']
      exact hholds

end Alike

/-- Types that are written in the same way are alike. -/
theorem alike_of_same (t u : TypeExpr) : same t u = true → Alike cat t u := by
  refine same.induct (fun t u => same t u = true → Alike cat t u)
    (fun ts us => sameAll ts us = true → List.Forall₂ (Alike cat) ts us)
    ?any ?none ?named ?union ?list ?set ?frozenset ?tuple ?dict ?literal ?special ?other
    ?nil ?cons ?others t u
  case any => exact fun _ => .of_holds rfl rfl rfl rfl
  case none => exact fun _ => .of_holds rfl rfl rfl rfl
  case named =>
    intro a b h
    rw [same, beq_iff_eq] at h
    exact .of_holds rfl rfl rfl (by rw [h])
  case union =>
    intro ts piped us piped' ih h
    rw [same, Bool.and_eq_true] at h
    exact .union piped piped' (ih h.1)
  case list => exact fun t u ih h => ⟨rfl, rfl, (ih h).accepts⟩
  case set => exact fun t u ih h => ⟨rfl, rfl, (ih h).accepts⟩
  case frozenset => exact fun t u ih h => ⟨rfl, rfl, (ih h).accepts⟩
  case tuple =>
    intro ts us ih h
    rw [same] at h
    cases ih h with
    | nil => exact .of_holds rfl rfl rfl rfl
    | cons htu _ => exact ⟨rfl, rfl, htu.accepts⟩
  case dict => exact fun _ _ _ _ _ _ _ => .of_holds rfl rfl rfl rfl
  case literal => exact fun _ _ _ => .of_holds rfl rfl rfl rfl
  case special => exact fun _ _ _ => .of_holds rfl rfl rfl rfl
  case other =>
    intro t u
    intros
    simp_all only [same, Bool.false_eq_true]
  case nil => exact fun _ => .nil
  case cons =>
    intro t ts u us ih ihs h
    rw [sameAll, Bool.and_eq_true] at h
    exact .cons (ih h.1) (ihs h.2)
  case others =>
    intro ts us hnil hcons h
    cases ts with
    | nil =>
      cases us with
      | nil => exact (hnil rfl rfl).elim
      | cons => cases h
    | cons t ts =>
      cases us with
      | nil => cases h
      | cons u us => exact (hcons t ts u us rfl rfl).elim

/-! ## Unions -/

variable {ts : List TypeExpr}

theorem any_distinct_holds (ts : List TypeExpr) :
    (distinct ts).any cat.holdsCoordinate = ts.any cat.holdsCoordinate :=
  any_distinct (fun t u h => (alike_of_same t u h).holds) ts

/-- There is no coordinate in `null`. -/
theorem any_filter_holds (ts : List TypeExpr) :
    (ts.filter fun t => !t.isNone).any cat.holdsCoordinate = ts.any cat.holdsCoordinate := by
  induction ts with
  | nil => rfl
  | cons t ts ih =>
    rw [List.filter_cons, List.any_cons]
    cases hnone : t.isNone with
    | false => simp [ih]
    | true =>
      obtain rfl := eq_none_of_isNone hnone
      simpa [holdsCoordinate] using ih

/-- **A union of types that are no unions** is accepted as the one type beside `null`, if there is
one, and else if one of its types holds a coordinate as it is written. -/
theorem acceptsDistance_unionOf (h : ∀ t ∈ ts, t.isUnion = false) (piped : Bool) :
    (∃ t, (distinct ts).filter (fun t => !t.isNone) = [t] ∧
        cat.acceptsDistance (unionOf ts piped) = cat.acceptsDistance t) ∨
      cat.acceptsDistance (unionOf ts piped) = ts.any cat.holdsCoordinate := by
  unfold acceptsDistance
  rcases unwrap_unionOf h piped with ⟨t, ht, hone⟩ | ⟨-, ⟨hts, hnull⟩ | ⟨piped', hwhole⟩⟩
  · exact .inl ⟨t, ht, by rw [hone]⟩
  · right
    rw [hnull, ← any_distinct_holds, hts]
    rfl
  · right
    rw [hwhole, holdsCoordinate_union, any_distinct_holds]

theorem acceptsDistance_of_plain {t : TypeExpr} (hunion : t.isUnion = false)
    (hcollection : t.isCollection = false) : cat.acceptsDistance t = cat.holdsCoordinate t := by
  rw [acceptsDistance, unwrap_of_plain hunion hcollection]

/-- Without collections, a union is accepted if one of its types is. -/
theorem acceptsDistance_any (h : ∀ t ∈ ts, t.isUnion = false ∧ t.isCollection = false)
    (piped : Bool) :
    cat.acceptsDistance (unionOf ts piped) = ts.any cat.acceptsDistance := by
  have hplain : ts.any cat.acceptsDistance = ts.any cat.holdsCoordinate := by
    rw [Bool.eq_iff_iff, List.any_eq_true, List.any_eq_true]
    refine exists_congr fun t => and_congr_right fun ht => ?_
    rw [acceptsDistance_of_plain (h t ht).1 (h t ht).2]
  rw [hplain]
  rcases acceptsDistance_unionOf (fun t ht => (h t ht).1) piped with ⟨t, ht, hone⟩ | hmany
  · have hmem : t ∈ (distinct ts).filter fun t => !t.isNone := by rw [ht]; exact .head _
    have htypes := h t (mem_distinct (List.mem_filter.1 hmem).1)
    rw [hone, acceptsDistance_of_plain htypes.1 htypes.2, ← any_distinct_holds,
      ← any_filter_holds, ht]
    simp
  · exact hmany

/-- A type is accepted alone if and only if it is accepted as optional. -/
theorem acceptsDistance_optional {t : TypeExpr} (h : t.isUnion = false) :
    cat.acceptsDistance t.optional = cat.acceptsDistance t := by
  have hnull : t.optional.unwrap = t.unwrap := (unwrap_orNone h false).1
  rw [acceptsDistance, acceptsDistance, hnull]

/-- Of two types one is left if they are written in the same way. -/
theorem acceptsDistance_pair {t u : TypeExpr} (ht : t.isUnion = false) (hu : u.isUnion = false)
    (ht' : t.isNone = false) (hu' : u.isNone = false) (piped : Bool) :
    cat.acceptsDistance (unionOf [t, u] piped) =
      if same u t then cat.acceptsDistance t
      else cat.holdsCoordinate t || cat.holdsCoordinate u := by
  have hdistinct : distinct [t, u] = if same u t then [t] else [t, u] := by
    simp [distinct, BEq.beq]
  have htypes : ∀ v ∈ [t, u], v.isUnion = false := by simp [ht, hu]
  rw [unionOf, flatMap_flatten htypes, hdistinct]
  cases same u t with
  | true => rfl
  | false =>
    have hboth : [t, u].filter (fun v => !v.isNone) = [t, u] := by simp [ht', hu']
    simp only [Bool.false_eq_true, if_false, acceptsDistance]
    rcases unwrap_union [t, u] (piped && !([t, u].any joinsByName)) with ⟨v, hv, -⟩ | ⟨-, hwhole⟩
    · -- neither of the two types is `null`, so none of them is alone
      rw [hboth] at hv
      cases hv
    · rw [hwhole, holdsCoordinate_union]
      simp

end Catalogue

/-! ## Searches -/

namespace SortOrder

/-- The check of a field is that of its declared type. -/
theorem checkField_declared {d : Domain} {field : String} {t : TypeExpr}
    (h : d.catalogue.declared? d.type field = some t) :
    checkField (some d) field = if d.catalogue.acceptsDistance t then .ok ()
      else .error (.notGeographic field d.type.name t.unwrap.1.name) := by
  simp only [checkField, Catalogue.fieldType?_eq_map, h, Option.map_some]
  rfl

end SortOrder

namespace Query

variable {settings : Settings} {domain : Option Domain} {q : Query} {index : IndexCoordinates}
  {n : Nat} {s : DistanceSort}

/-- The same query with a sort order by distance after some others. -/
def withDistance (q : Query) (n : Nat) (s : DistanceSort) : Query :=
  { q with sort := q.sort.take n ++ .distance s :: q.sort.drop n }

theorem Checked.withDistance (hq : q.Checked) : (q.withDistance n s).Checked where
  clause := hq.clause
  native := hq.native
  route := hq.route
  requestCache := hq.requestCache
  trackScores := hq.trackScores
  trackTotalHits := hq.trackTotalHits
  minScore := hq.minScore
  explain := hq.explain
  preference := hq.preference

/-- The entries of the other orders are there, so only the check of the field may fail. -/
theorem entries_withDistance {sort : List Value}
    (hsort : SortOrder.entries domain q.sort = .ok sort) :
    (SortOrder.checkField domain s.field = .ok () →
        ∃ sort', SortOrder.entries domain (q.withDistance n s).sort = .ok sort') ∧
      ∀ e, SortOrder.checkField domain s.field = .error e →
        SortOrder.entries domain (q.withDistance n s).sort = .error e := by
  have hall := exists_mapM_iff.1 ⟨sort, hsort⟩
  have hbefore : ∀ o ∈ q.sort.take n, ∃ v, SortOrder.entry domain o = .ok v :=
    fun o ho => hall o (List.mem_of_mem_take ho)
  have hafter : ∀ o ∈ q.sort.drop n, ∃ v, SortOrder.entry domain o = .ok v :=
    fun o ho => hall o (List.mem_of_mem_drop ho)
  constructor
  · intro hcheck
    have hentry : ∃ v, SortOrder.entry domain (.distance s) = .ok v :=
      ⟨_, bind_eq_ok.2 ⟨(), hcheck, rfl⟩⟩
    refine exists_mapM_iff.2 ?_
    rw [withDistance, List.forall_mem_append, List.forall_mem_cons]
    exact ⟨hbefore, hentry, hafter⟩
  · intro e hcheck
    have hentry : SortOrder.entry domain (.distance s) = .error e := by
      rw [SortOrder.entry, hcheck]
      rfl
    exact mapM_eq_error hbefore hentry

/-- **The check of its field is all that a further sort order by distance asks for.** If the field
does not pass, the request fails with what the check says. -/
theorem searchRequest_withDistance (hq : q.Checked)
    (hmade : ∃ r, q.searchRequest settings domain index = .ok r) :
    (SortOrder.checkField domain s.field = .ok () →
        ∃ r, (q.withDistance n s).searchRequest settings domain index = .ok r) ∧
      ∀ e, SortOrder.checkField domain s.field = .error e →
        (q.withDistance n s).searchRequest settings domain index = .error e := by
  obtain ⟨r, hr⟩ := hmade
  obtain ⟨fields, hfields, -⟩ := bind_eq_ok.1 hr
  obtain ⟨clause, sort, rescore, timeout, searchAfter, hclause, hsort, hrescore, htimeout,
    hsearchAfter, -⟩ := searchFields_eq_ok.1 hfields
  obtain ⟨hpass, hfail⟩ := entries_withDistance (n := n) (s := s) hsort
  constructor
  · intro hcheck
    obtain ⟨sort', hsort'⟩ := hpass hcheck
    have hfields' : ∃ fields', (q.withDistance n s).searchFields settings domain index =
        .ok fields' :=
      ⟨_, searchFields_eq_ok.2 ⟨clause, sort', rescore, timeout, searchAfter, hclause, hsort',
        hrescore, htimeout, hsearchAfter, rfl⟩⟩
    obtain ⟨fields', hfields'⟩ := hfields'
    have hq' : (q.withDistance n s).Checked := hq.withDistance
    have hsuited := hq'.yields_searchFields settings domain index
    rw [hfields'] at hsuited
    obtain ⟨r', hr'⟩ := Request.exists_make hsuited
    exact ⟨r', bind_eq_ok.2 ⟨fields', hfields', hr'⟩⟩
  · intro e hcheck
    have hclause' : (q.withDistance n s).mainClause (fieldName domain) = .ok clause := hclause
    rw [searchRequest, searchFields]
    simp only [hclause', hfail e hcheck]
    rfl

/-- A type with points, alone, in a set and as one of two types. -/
private def places : Domain :=
  ⟨⟨Model.plain "Place" [
    ⟨"pin", .named "GeoPoint", .any, none, ["pin"], "pin"⟩,
    ⟨"home", .optional (.named "GeoPoint"), .any, none, ["home"], "home"⟩,
    ⟨"visits", .named "int", .any, none, ["visits"], "visits"⟩,
    ⟨"spot", unionOf [.named "int", .named "GeoPoint"] true, .any, none, ["spot"], "spot"⟩,
    ⟨"stops", .set (.named "GeoPoint"), .any, none, ["stops"], "stops"⟩,
    ⟨"either", unionOf [.set (.named "GeoPoint"), .named "int"] false, .any, none, ["either"],
      "either"⟩] :: Standard.models, []⟩, .named "Place"⟩

/-- All places, with their numbers of visits first. -/
private def visited : Query where
  source := .everything
  paging := none
  sort := [.field ⟨"visits", .descending, .null, .null, .null⟩]
  rescorers := []
  storedFields := none
  sourceFilter := none
  highlight := none
  indicesOptions := none
  ids := none
  searchAfter := none
  timeout := .null
  route := .null
  requestCache := .null
  trackScores := .null
  trackTotalHits := .null
  minScore := .null
  explain := .null
  preference := .null

private theorem checked_visited : visited.Checked where
  clause := trivial
  native := nofun
  route := .null _
  requestCache := .null _
  trackScores := .null _
  trackTotalHits := .null _
  minScore := .null _
  explain := .null _
  preference := .null _

/-- The distance of a field of a place from a point. -/
private def nearest (field : String) : DistanceSort :=
  ⟨field, Standard.geoPoint.record [.int 49, .int 8], .ascending, "m", "arc", "min", false⟩

/-- The request for places by their visits and by the distance of a field. -/
private def search (field : String) : Except Failure Request :=
  (visited.withDistance 1 (nearest field)).searchRequest .standard (some places) ⟨"places", []⟩

end Query

end SearchWire
