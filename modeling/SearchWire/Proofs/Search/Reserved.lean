import SearchWire.Clause.Score
import SearchWire.Proofs.Clause.WellFormed
import SearchWire.Proofs.Value.Fields
import SearchWire.Search.Sort

/-!
# Reserved names

Some objects hold the value of a field under the name of the field, next to parameters that have
names of their own: values to choose from and a weight, a point and a distance, how scores decay, an
order by distance. Such an object keeps all of it if and only if the field is not called like one of
the parameters that are there. Else the one that is written later replaces the other.

* `Fields.Keeps`, `Fields.keeps_ofList_iff`: **an object that is written with a field among
  parameters.**
* `Condition.Ordinary.keeps_terms`, `Condition.Ordinary.keeps_within`,
  `Condition.Ordinary.keeps_box`, `Decay.Ordinary.keeps_body`, `DistanceSort.keeps_entry`: the five
  kinds of such objects.
* `keeps_iff_not_reserved`: **all of them.**
-/

namespace SearchWire

/-! ## Fields among parameters -/

namespace Fields

/-- An object holds all of some fields. -/
def Keeps (body fs : Fields) : Prop := ∀ f ∈ fs, body.get? f.1 = some f.2

/-- **An object that is written with a field among parameters** keeps the field and all of them if
and only if the field is not called like one of them, unless they have the same value. -/
theorem keeps_ofList_iff (before after : Fields) (name : String) {v : Value}
    (hnames : (names (before ++ after)).Nodup) (hvalues : ∀ p ∈ before ++ after, p.2 ≠ v) :
    (ofList (before ++ (name, v) :: after)).Keeps ((name, v) :: (before ++ after)) ↔
      name ∉ names (before ++ after) := by
  constructor
  · intro hkeeps hname
    obtain ⟨p, hp, rfl⟩ := List.mem_map.1 hname
    have hfield := hkeeps _ (List.mem_cons_self (l := before ++ after))
    have hparameter := hkeeps p (List.mem_cons_of_mem _ hp)
    have hsame : some p.2 = some v := hparameter.symm.trans hfield
    exact hvalues p hp (Option.some.inj hsame)
  · intro hname
    have hperm : (before ++ (name, v) :: after).Perm ((name, v) :: (before ++ after)) :=
      List.perm_middle
    have hnodup : (names (before ++ (name, v) :: after)).Nodup :=
      (hperm.map Prod.fst).nodup_iff.2 (List.nodup_cons.2 ⟨hname, hnames⟩)
    rw [ofList_of_nodup hnodup]
    intro f hf
    exact get?_of_mem hnodup (hperm.mem_iff.2 hf)

theorem ofList_append (fs gs : Fields) : ofList (fs ++ gs) = (ofList fs).setAll gs := by
  rw [ofList, setAll, List.foldl_append]
  rfl

/-- A weight is written last. -/
theorem weighted_ofList (boost : Value) (fs : Fields) :
    weighted boost (ofList fs) = ofList (fs ++ given [("boost", boost)]) := by
  rw [ofList_append]
  cases boost <;> rfl

end Fields

open Fields

/-! ## Conditions -/

namespace Condition

variable {c : Condition} {op : Operator} {rename : String → String}

/-- The weight of a condition as a parameter, if there is one. -/
def boostField (c : Condition) : Fields := given [("boost", c.boost)]

theorem names_boostField (c : Condition) :
    c.boostField.names = if c.boost.isNull then [] else ["boost"] := by
  rw [boostField, given_eq_filter]
  cases c.boost <;> rfl

/-- A number as a weight is written after the field and the parameters before it. -/
theorem Ordinary.keeps_weighted (h : c.Ordinary) (before : Fields) (field : String) (v : Value)
    (hnames : (names (before ++ c.boostField)).Nodup) (hvalues : ∀ p ∈ before, p.2 ≠ v)
    (hv : ∀ x, Value.float x ≠ v) :
    (weighted c.boost (ofList (before ++ [(field, v)]))).Keeps
        ((field, v) :: (before ++ c.boostField)) ↔ field ∉ names (before ++ c.boostField) := by
  have hboost : ∀ p ∈ c.boostField, p.2 ≠ v := by
    rw [boostField]
    rcases h.boost with hnull | ⟨x, hx⟩
    · rw [hnull]
      exact List.forall_mem_nil _
    · rw [hx]
      exact List.forall_mem_singleton.2 (hv x)
  rw [weighted_ofList, List.append_assoc]
  exact keeps_ofList_iff _ _ field hnames (List.forall_mem_append.2 ⟨hvalues, hboost⟩)

theorem nodup_boostField (c : Condition) : c.boostField.names.Nodup := by
  rw [names_boostField]
  split <;> simp

namespace Ordinary

/-- One of some values. -/
theorem keeps_terms (h : c.Ordinary) (hvalue : c.value.IsCollection) (field : String) :
    ∃ vs forms body, c.value.collection? = some vs ∧ formsOf vs = .ok forms ∧
      c.terms field = .ok (.atom "terms" body) ∧
      (body.Keeps ((field, .list forms) :: c.boostField) ↔ field ∉ c.boostField.names) := by
  cases hvs : c.value.collection? with
  | none => exact absurd hvalue (Value.collection?_eq_none.1 hvs)
  | some vs =>
    obtain ⟨forms, hforms⟩ := exists_formsOf (h.value.of_collection hvs)
    refine ⟨vs, forms, weighted c.boost [(field, .list forms)], rfl, hforms, ?_, ?_⟩
    · rw [terms, hvs]
      simp only [hforms]
      rfl
    · exact h.keeps_weighted [] field (.list forms) c.nodup_boostField (List.forall_mem_nil _)
        (by simp)

/-- At most a distance away from a point: the distance is written before the point. -/
theorem keeps_within (h : c.Ordinary) {origin distance : Value}
    (hpair : c.value.IsPair origin distance) (horigin : origin.isInstance "GeoPoint")
    (field : String) :
    let options := ("distance", .str (String.ofList distance.words)) :: c.boostField
    ∃ body, c.withinDistance field = .ok (.atom "geo_distance" body) ∧
      (body.Keeps ((field, origin.pointForm) :: options) ↔ field ∉ names options) := by
  intro options
  refine ⟨weighted c.boost (set [("distance", .str (String.ofList distance.words))] field
    origin.pointForm), ?_, ?_⟩
  · rw [withinDistance, Value.sequence?_eq_pair.2 hpair]
    simp only [point_eq horigin]
    rfl
  · have hnames : (names options).Nodup := by
      rw [names, List.map_cons, List.nodup_cons]
      refine ⟨?_, c.nodup_boostField⟩
      have hboost := c.names_boostField
      rw [names] at hboost
      rw [hboost]
      split <;> simp
    have hpoint : ∀ x, Value.float x ≠ origin.pointForm := by simp [Value.pointForm, Value.object]
    have hdistance : Value.str (String.ofList distance.words) ≠ origin.pointForm := by
      simp [Value.pointForm, Value.object]
    exact h.keeps_weighted [("distance", .str (String.ofList distance.words))] field
      origin.pointForm hnames (List.forall_mem_singleton.2 hdistance) hpoint

/-- In a box with two corners. -/
theorem keeps_box (h : c.Ordinary) {topLeft bottomRight : Value}
    (hpair : c.value.IsPair topLeft bottomRight) (hfirst : topLeft.isInstance "GeoPoint")
    (hsecond : bottomRight.isInstance "GeoPoint") (field : String) :
    let corners : Value :=
      .object [("top_left", topLeft.pointForm), ("bottom_right", bottomRight.pointForm)]
    ∃ body, c.inBox field = .ok (.atom "geo_bounding_box" body) ∧
      (body.Keeps ((field, corners) :: c.boostField) ↔ field ∉ c.boostField.names) := by
  intro corners
  refine ⟨weighted c.boost [(field, corners)], ?_, ?_⟩
  · rw [inBox, Value.sequence?_eq_pair.2 hpair]
    simp only [point_eq hfirst, point_eq hsecond]
    rfl
  · exact h.keeps_weighted [] field corners c.nodup_boostField (List.forall_mem_nil _)
      (by simp [corners, Value.object])

end Ordinary

end Condition

/-! ## Decays -/

namespace Decay

variable {d : Decay} {rename : String → String}

/-- Decays that callers make: from values that have a written form. -/
structure Ordinary (d : Decay) : Prop where
  origin : d.origin.Ordinary
  scale : d.scale.Ordinary
  offset : d.offset.Ordinary
  multiValueMode : ∃ mode, d.multiValueMode = .str mode

/-- The parameters of a decay that are written under the name of its field. -/
def params (d : Decay) : Except Failure Fields := do
  let origin ← formOf d.origin
  let scale ← formOf d.scale
  let offset ← if d.offset.isNull then .ok [] else do .ok [("offset", ← formOf d.offset)]
  .ok ([("origin", origin), ("scale", scale)] ++ offset ++ given [("decay", d.decay)])

theorem Ordinary.exists_params (h : d.Ordinary) : ∃ params, d.params = .ok params := by
  refine exists_bind h.origin.exists_formOf fun origin => ?_
  refine exists_bind h.scale.exists_formOf fun scale => ?_
  dsimp only
  split
  · exact ⟨_, rfl⟩
  · exact exists_bind h.offset.exists_formOf fun offset => ⟨_, rfl⟩

theorem body_eq (d : Decay) :
    d.body rename = d.params.map fun params => .object
      (ofList [(rename d.field, .object params), ("multi_value_mode", d.multiValueMode)]) := by
  unfold body params
  cases formOf d.origin with
  | error e => rfl
  | ok origin =>
    cases formOf d.scale with
    | error e => rfl
    | ok scale =>
      cases d.offset.isNull with
      | true => rfl
      | false => cases formOf d.offset <;> rfl

/-- How scores decay, and how several values count. -/
theorem Ordinary.keeps_body (h : d.Ordinary) (rename : String → String) :
    ∃ params body, d.params = .ok params ∧ d.body rename = .ok (.object body) ∧
      (body.Keeps [(rename d.field, .object params), ("multi_value_mode", d.multiValueMode)] ↔
        rename d.field ≠ "multi_value_mode") := by
  obtain ⟨params, hparams⟩ := h.exists_params
  refine ⟨params, _, hparams, by rw [body_eq, hparams]; rfl, ?_⟩
  have hmode : ∀ p ∈ ([("multi_value_mode", d.multiValueMode)] : Fields),
      p.2 ≠ .object params := by
    obtain ⟨mode, hmode⟩ := h.multiValueMode
    rw [hmode]
    exact List.forall_mem_singleton.2 nofun
  have hkeeps := keeps_ofList_iff [] _ (rename d.field) (by simp [names]) hmode
  simpa [names] using hkeeps

end Decay

/-! ## Orders by distance -/

namespace DistanceSort

/-- The parameters of an order by distance. -/
def options (s : DistanceSort) : Fields :=
  [("unit", .str s.unit), ("distance_type", .str s.distanceType), ("order", .str s.direction.text),
    ("mode", .str s.mode), ("ignore_unmapped", .bool s.ignoreUnmapped)]

theorem keeps_entry (s : DistanceSort) (field : String) :
    ∃ body, SortOrder.distanceEntry field s = .object [("_geo_distance", .object body)] ∧
      (body.Keeps ((field, .list [s.origin.pointForm]) :: s.options) ↔
        field ∉ s.options.names) := by
  refine ⟨_, rfl, ?_⟩
  have hnames : (names ([] ++ s.options)).Nodup := by simp [options, names]
  have hvalues : ∀ p ∈ [] ++ s.options, p.2 ≠ .list [s.origin.pointForm] := by
    simp [options]
  exact keeps_ofList_iff [] s.options field hnames hvalues

end DistanceSort

/-! ## All of them -/

/-- **Reserved names.** Whatever names fields have in documents, an object that holds the value of a
field next to parameters keeps the value and all parameters if and only if the name of the field is
none of theirs: for conditions with a value from a collection, near a point or in a box, for decays
and for orders by distance. All of these objects are there. -/
theorem keeps_iff_not_reserved (rename : String → String) (domain : Option Domain) :
    (∀ (c : Condition) (op : Operator), c.Ordinary → c.operator = .known op → op.Accepts c.value →
      let field := rename c.field
      let boost := given [("boost", c.boost)]
      (op = .oneOf ∨ op = .noneOf → ∃ vs forms body, c.value.collection? = some vs ∧
        Condition.formsOf vs = .ok forms ∧
        c.clause rename = .ok (if op = .oneOf then .atom "terms" body
          else .boolean [] [.atom "terms" body] [] .null) ∧
        (body.Keeps ((field, .list forms) :: boost) ↔ field ∉ boost.names)) ∧
      (op = .within → ∃ origin distance body, c.value.IsPair origin distance ∧
        c.clause rename = .ok (.atom "geo_distance" body) ∧
        let options := ("distance", .str (String.ofList distance.words)) :: boost
        (body.Keeps ((field, origin.pointForm) :: options) ↔ field ∉ names options)) ∧
      (op = .boundingBox → ∃ topLeft bottomRight body, c.value.IsPair topLeft bottomRight ∧
        c.clause rename = .ok (.atom "geo_bounding_box" body) ∧
        (body.Keeps ((field, .object [("top_left", topLeft.pointForm),
          ("bottom_right", bottomRight.pointForm)]) :: boost) ↔ field ∉ boost.names))) ∧
    (∀ d : Decay, d.Ordinary → ∃ params body, d.params = .ok params ∧
      d.body rename = .ok (.object body) ∧
      (body.Keeps [(rename d.field, .object params), ("multi_value_mode", d.multiValueMode)] ↔
        rename d.field ≠ "multi_value_mode")) ∧
    ∀ s : DistanceSort, SortOrder.checkField domain s.field = .ok () → ∃ body,
      SortOrder.entry domain (.distance s) = .ok (.object [("_geo_distance", .object body)]) ∧
      (body.Keeps ((fieldName domain s.field, .list [s.origin.pointForm]) :: s.options) ↔
        fieldName domain s.field ∉ s.options.names) := by
  refine ⟨?_, fun d hd => hd.keeps_body rename, ?_⟩
  · intro c op hc hop haccepts
    have hclause : c.clause rename = c.clauseOf op (rename c.field) :=
      Condition.clause_known hop haccepts
    refine ⟨?_, ?_, ?_⟩
    · rintro (rfl | rfl)
      · obtain ⟨vs, forms, body, hvs, hforms, hterms, hkeeps⟩ :=
          hc.keeps_terms haccepts (rename c.field)
        exact ⟨vs, forms, body, hvs, hforms, hclause.trans hterms, hkeeps⟩
      · obtain ⟨vs, forms, body, hvs, hforms, hterms, hkeeps⟩ :=
          hc.keeps_terms haccepts (rename c.field)
        refine ⟨vs, forms, body, hvs, hforms, ?_, hkeeps⟩
        rw [hclause, Condition.clauseOf, hterms]
        rfl
    · rintro rfl
      obtain ⟨origin, distance, hpair, horigin⟩ := haccepts
      obtain ⟨body, hwithin, hkeeps⟩ := hc.keeps_within hpair horigin (rename c.field)
      exact ⟨origin, distance, body, hpair, hclause.trans hwithin, hkeeps⟩
    · rintro rfl
      obtain ⟨topLeft, bottomRight, hpair, hfirst, hsecond⟩ := haccepts
      obtain ⟨body, hbox, hkeeps⟩ := hc.keeps_box hpair hfirst hsecond (rename c.field)
      exact ⟨topLeft, bottomRight, body, hpair, hclause.trans hbox, hkeeps⟩
  · intro s hcheck
    obtain ⟨body, hentry, hkeeps⟩ := s.keeps_entry (fieldName domain s.field)
    refine ⟨body, ?_, hkeeps⟩
    rw [SortOrder.entry, hcheck, ← hentry]
    rfl

/-- A point as callers give it. -/
private def corner : Value :=
  Standard.geoPoint.record [.float (Double.ofInt 49), .float (Double.ofInt 8)]

/-- A condition on a field with one of two numbers, with a weight. -/
private def oneOfTwo (field : String) : Condition :=
  ⟨field, .known .oneOf, .list [.int 1, .int 2], .float (Double.ofInt 2)⟩

/-- Scores that decay with the age of a field. -/
private def fading (field : String) : Decay :=
  ⟨"gauss", field, .int 0, .int 5, .null, .null, .str "MIN"⟩

theorem keeps_iff_not_reserved_names :
    (∃ body, (oneOfTwo "size").clause id = .ok (.atom "terms" body) ∧
      body.Keeps [("size", .list [.int 1, .int 2]), ("boost", .float (Double.ofInt 2))]) ∧
    (∃ params body, (fading "age").body id = .ok (.object body) ∧
      body.Keeps [("age", .object params), ("multi_value_mode", .str "MIN")]) ∧
    ∃ params body, (fading "multi_value_mode").body id = .ok (.object body) ∧
      ¬ body.Keeps [("multi_value_mode", .object params), ("multi_value_mode", .str "MIN")] := by
  obtain ⟨hconditions, hdecays, -⟩ := keeps_iff_not_reserved id none
  have hfading : ∀ field, (fading field).Ordinary := fun field =>
    ⟨.int (by decide), .int (by decide), .null, "MIN", rfl⟩
  refine ⟨?_, ?_, ?_⟩
  · have hordinary : (oneOfTwo "size").Ordinary := by
      refine ⟨.inl ⟨.oneOf, rfl⟩, .list ?_, .inr ⟨_, rfl⟩⟩
      rw [List.forall_mem_cons, List.forall_mem_singleton]
      exact ⟨.int (by decide), .int (by decide)⟩
    obtain ⟨hterms, -⟩ := hconditions (oneOfTwo "size") .oneOf hordinary rfl ⟨_, .inl rfl⟩
    obtain ⟨vs, forms, body, hvs, hforms, hclause, hkeeps⟩ := hterms (.inl rfl)
    cases hvs
    cases hforms
    exact ⟨body, hclause, hkeeps.2 (by decide)⟩
  · obtain ⟨params, body, -, hbody, hkeeps⟩ := hdecays (fading "age") (hfading "age")
    exact ⟨params, body, hbody, hkeeps.2 (by decide)⟩
  · obtain ⟨params, body, -, hbody, hkeeps⟩ :=
      hdecays (fading "multi_value_mode") (hfading "multi_value_mode")
    exact ⟨params, body, hbody, fun h => hkeeps.1 h rfl⟩

/-- **A field that is called like a parameter** loses its value to it, or the parameter is lost. -/
theorem reserved_name_replaces :
    (∃ body, (oneOfTwo "boost").clause id = .ok (.atom "terms" body) ∧
      body.get? "boost" ≠ some (.list [.int 1, .int 2])) ∧
    (∃ body, Condition.clause id ⟨"distance", .known .within, .tuple [corner, .str "1km"], .null⟩ =
        .ok (.atom "geo_distance" body) ∧ body.get? "distance" ≠ some (.str "1km")) ∧
    (∃ params body, (fading "multi_value_mode").params = .ok params ∧
      (fading "multi_value_mode").body id = .ok (.object body) ∧
      body.get? "multi_value_mode" ≠ some (.object params)) ∧
    ∃ body, SortOrder.entry none
        (.distance ⟨"unit", corner, .ascending, "m", "arc", "min", false⟩) =
        .ok (.object [("_geo_distance", .object body)]) ∧
      body.get? "unit" ≠ some (.list [corner.pointForm]) :=
  ⟨⟨_, rfl, nofun⟩, ⟨_, rfl, nofun⟩, ⟨_, _, rfl, rfl, nofun⟩, ⟨_, rfl, nofun⟩⟩

end SearchWire
