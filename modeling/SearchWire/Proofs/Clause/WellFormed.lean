import SearchWire.Proofs.Clause.Order

/-!
# Conditions that have no clause

A condition is well formed if its operator is known and its value is what the operator is about: two
bounds, a collection, a point and a distance, two points, anything at all, or some value. Trees that
callers make, of values that have a written form, are compiled exactly if all of their conditions
are well formed. Otherwise the failure is that of the first ill-formed condition that the compiler
comes to; the order is its own, so that it need not be the leftmost one.

* `Condition.WellFormed`: well-formed conditions.
* `Condition.complaint`: the failure of an ill-formed one.
* `Value.Ordinary`, `Condition.Ordinary`, `Criteria.Ordinary`: what callers make.
* `Condition.Ordinary.exists_clause`, `Condition.Ordinary.clause_eq_complaint`: one condition.
* `Criteria.compile_wellFormed_iff`: **trees, and the condition that is reported.**
-/

namespace SearchWire

/-- A list or a tuple of two values. -/
def Value.IsPair (v first second : Value) : Prop :=
  v = .list [first, second] ∨ v = .tuple [first, second]

/-- A list, a tuple or a set. -/
def Value.IsCollection (v : Value) : Prop := ∃ vs, v = .list vs ∨ v = .tuple vs ∨ v = .set vs

/-- The values that an operator is about. -/
def Operator.Accepts : Operator → Value → Prop
  | .between, v => ∃ lower upper, v.IsPair lower upper
  | .oneOf, v | .noneOf, v => v.IsCollection
  | .within, v => ∃ origin distance, v.IsPair origin distance ∧ origin.isInstance "GeoPoint"
  | .boundingBox, v => ∃ topLeft bottomRight, v.IsPair topLeft bottomRight ∧
      topLeft.isInstance "GeoPoint" ∧ bottomRight.isInstance "GeoPoint"
  | .exists, _ | .empty, _ | .notEmpty, _ => True
  | _, v => v ≠ .null

/-- The two values of a list or a tuple of two. -/
def Value.pair? (v : Value) : Option (Value × Value) :=
  match v.sequence? with
  | some [first, second] => some (first, second)
  | _ => none

/-- The failure of a value that is there and that an operator is not about. Of two corners the first
one that is no point is reported. -/
def Operator.mismatch (op : Operator) (field : String) (v : Value) : Failure :=
  match op with
  | .within =>
    match v.pair? with
    | some (origin, _) => .noPoint op.text field origin
    | none => .noOriginAndDistance field
  | .boundingBox =>
    match v.pair? with
    | some (topLeft, bottomRight) =>
      .noPoint op.text field (if topLeft.isInstance "GeoPoint" then bottomRight else topLeft)
    | none => .noCorners field
  | .between => .noBounds field v
  | _ => .noCollection op.text field v

/-- The failure of a value that an operator is not about. A value that is missing comes first, but
for ranges. -/
def Operator.complaint (op : Operator) (field : String) (v : Value) : Failure :=
  if op.needsValue && v.isNull then .missingValue op.text field else op.mismatch field v

namespace Condition

/-- The operator is known and is about the value. -/
def WellFormed (c : Condition) : Prop := ∃ op, c.operator = .known op ∧ op.Accepts c.value

/-- The failure of an ill-formed condition. -/
def complaint (c : Condition) : Failure :=
  match c.operator with
  | .known op | .bare op => op.complaint c.field c.value
  | .unknown shown => .unsupportedOperator shown c.field
  | .unhashable type => .unhashable type

/-- What a failure of the condition is about: its operator, if that is not known, or else the
condition as a whole. -/
def complaintCategory (c : Condition) : Failure.Category :=
  match c.operator with
  | .unknown _ => .operator
  | _ => .descriptor

end Condition

/-! ## What callers make -/

/-- Values that conditions are made with. All of them have a written form: points have both
coordinates, and integers have no more digits than a text may have. -/
inductive Value.Ordinary : Value → Prop where
  | null : Ordinary .null
  | bool (b : Bool) : Ordinary (.bool b)
  | int {n : Int} (h : (Decimal.natDigits n.natAbs).length ≤ Json.maxDigits) : Ordinary (.int n)
  | float (x : Double) : Ordinary (.float x)
  | str (s : String) : Ordinary (.str s)
  | member (m : Member) : Ordinary (.member m)
  | date (d : Date) : Ordinary (.date d)
  | datetime (t : DateTime) : Ordinary (.datetime t)
  | point {c : RecordClass} {slots : List (Slot Value)} {lat lon : Double}
      (hclass : c.isA "GeoPoint")
      (hlat : Value.property? "lat" (.record c slots) = some (.float lat))
      (hlon : Value.property? "lon" (.record c slots) = some (.float lon)) :
      Ordinary (.record c slots)
  | list {vs : List Value} (h : ∀ v ∈ vs, Ordinary v) : Ordinary (.list vs)
  | tuple {vs : List Value} (h : ∀ v ∈ vs, Ordinary v) : Ordinary (.tuple vs)
  | set {vs : List Value} (h : ∀ v ∈ vs, Ordinary v) : Ordinary (.set vs)
  | dict {es : Entries} (hkeys : ∀ e ∈ es, Ordinary e.1) (hvalues : ∀ e ∈ es, Ordinary e.2) :
      Ordinary (.dict es)

/-- Conditions whose operator is one of the enumeration or a text that names none of it, and whose
weight is a number or missing. -/
structure Condition.Ordinary (c : Condition) : Prop where
  operator : (∃ op, c.operator = .known op) ∨ ∃ shown, c.operator = .unknown shown
  value : c.value.Ordinary
  boost : c.boost = .null ∨ ∃ x, c.boost = .float x

/-- Trees of such conditions, with any groups and negations. -/
inductive Criteria.Ordinary : Criteria → Prop where
  | condition {c : Condition} (h : c.Ordinary) : Ordinary (.condition c)
  | all {cs : List Criteria} (h : ∀ c ∈ cs, Ordinary c) : Ordinary (.all cs)
  | any {cs : List Criteria} (h : ∀ c ∈ cs, Ordinary c) : Ordinary (.any cs)
  | not {c : Criteria} (h : Ordinary c) : Ordinary (.not c)

/-! ## Values -/

namespace Value

variable {v : Value}

theorem sequence?_eq_pair {a b : Value} : v.sequence? = some [a, b] ↔ v.IsPair a b := by
  cases v <;> simp [sequence?, IsPair]

theorem pair?_of_sequence? {a b : Value} (h : v.sequence? = some [a, b]) :
    v.pair? = some (a, b) := by
  rw [pair?, h]

theorem pair?_eq_none (h : ∀ a b, v.sequence? = some [a, b] → False) : v.pair? = none := by
  unfold pair?
  split
  · next a b hpair => exact (h a b hpair).elim
  · rfl

theorem collection?_eq_none : v.collection? = none ↔ ¬ v.IsCollection := by
  cases v <;> simp [collection?, IsCollection]

theorem Ordinary.of_isPair {a b : Value} (h : v.Ordinary) (hpair : v.IsPair a b) :
    a.Ordinary ∧ b.Ordinary := by
  rcases hpair with rfl | rfl
  · cases h with
    | list h => exact ⟨h a (by simp), h b (by simp)⟩
  · cases h with
    | tuple h => exact ⟨h a (by simp), h b (by simp)⟩

theorem Ordinary.of_collection {vs : List Value} (h : v.Ordinary) (hvs : v.collection? = some vs) :
    ∀ w ∈ vs, w.Ordinary := by
  cases h <;> cases hvs <;> assumption

theorem Ordinary.exists_engineForm (h : v.Ordinary) : ∃ w, v.engineForm? = some w := by
  cases h with
  | point hclass hlat hlon => exact ⟨_, by rw [engineForm?, translation, if_pos hclass]⟩
  | _ => exact ⟨_, rfl⟩

theorem Ordinary.exists_formOf (h : v.Ordinary) : ∃ w, formOf v = .ok w := by
  obtain ⟨w, hw⟩ := h.exists_engineForm
  exact ⟨w, by rw [formOf, hw]⟩

theorem Ordinary.exists_text (h : v.Ordinary) : ∃ text, QueryText.ofValue v = .ok text := by
  obtain ⟨w, hw⟩ := h.exists_engineForm
  unfold QueryText.ofValue
  split
  · exact ⟨_, rfl⟩
  · rw [hw]
    exact ⟨_, rfl⟩

end Value

/-- A value that an operator is about is not missing. -/
theorem Operator.Accepts.given {op : Operator} {v : Value} (h : op.Accepts v) :
    (op.needsValue && v.isNull) = false := by
  have hpair : ∀ {a b : Value}, v.IsPair a b → v.isNull = false := by
    rintro a b (rfl | rfl) <;> rfl
  have hcollection : v.IsCollection → v.isNull = false := by
    rintro ⟨vs, rfl | rfl | rfl⟩ <;> rfl
  have hvalue : v ≠ .null → v.isNull = false := by
    intro hne
    cases v <;> first | rfl | exact absurd rfl hne
  cases op with
  | between | «exists» | empty | notEmpty => rfl
  | oneOf | noneOf => exact hcollection h
  | within =>
    obtain ⟨origin, distance, h, -⟩ := h
    exact hpair h
  | boundingBox =>
    obtain ⟨topLeft, bottomRight, h, -⟩ := h
    exact hpair h
  | _ => exact hvalue h

/-- Whatever the operator is, its failures are of one category. -/
theorem Operator.category_complaint (op : Operator) (field : String) (v : Value) :
    (op.complaint field v).category = .descriptor := by
  unfold complaint mismatch
  split
  · rfl
  · split
    case h_1 | h_2 => split <;> rfl
    case h_3 | h_4 => rfl

/-! ## Conditions -/

namespace Condition

variable {c : Condition} {op : Operator} {rename : String → String}

theorem exists_formsOf {vs : List Value} (h : ∀ v ∈ vs, v.Ordinary) :
    ∃ forms, formsOf vs = .ok forms := by
  induction vs with
  | nil => exact ⟨[], rfl⟩
  | cons v vs ih =>
    rw [List.forall_mem_cons] at h
    exact exists_bind h.1.exists_formOf fun form => exists_bind (ih h.2) fun forms => ⟨_, rfl⟩

theorem exists_rangeBetween {lower upper : Value} (hlower : lower.Ordinary)
    (hupper : upper.Ordinary) (field : String) :
    ∃ clause, c.rangeBetween field lower upper = .ok clause := by
  obtain ⟨low, hlow⟩ := hlower.exists_formOf
  obtain ⟨high, hhigh⟩ := hupper.exists_formOf
  unfold rangeBetween
  rw [hlow, hhigh]
  split
  all_goals
    split
    all_goals exact ⟨_, rfl⟩

namespace Ordinary

theorem exists_weightedField (h : c.Ordinary) (field : String) :
    ∃ f, c.weightedField field = .ok f := by
  have hweight : ∃ x, c.weight = .ok x := by
    unfold weight
    rcases h.boost with hboost | ⟨x, hboost⟩
    · rw [hboost]
      exact ⟨_, rfl⟩
    · rw [hboost]
      exact ⟨x, rfl⟩
  exact exists_bind hweight fun x => ⟨_, rfl⟩

theorem exists_queryText (h : c.Ordinary) (field : String) (text : List Char) (more : Fields) :
    ∃ clause, c.queryText field text more = .ok clause :=
  exists_bind (h.exists_weightedField field) fun _ => ⟨_, rfl⟩

theorem exists_wildcardText (h : c.Ordinary) (field : String) (before after : List Char) :
    ∃ clause, c.wildcardText field before after = .ok clause :=
  exists_bind h.value.exists_text fun _ => h.exists_queryText field _ _

theorem exists_fieldClause (h : c.Ordinary) (kind key field : String) (more : Fields) :
    ∃ clause, c.fieldClause kind key field more = .ok clause :=
  exists_bind h.value.exists_formOf fun _ => ⟨_, rfl⟩

theorem exists_terms (h : c.Ordinary) (hvalue : c.value.IsCollection) (field : String) :
    ∃ clause, c.terms field = .ok clause := by
  unfold terms
  cases hvs : c.value.collection? with
  | none => exact absurd hvalue (Value.collection?_eq_none.1 hvs)
  | some vs =>
    have hforms := exists_formsOf (h.value.of_collection hvs)
    exact exists_bind hforms fun forms => ⟨_, rfl⟩

end Ordinary

theorem point_eq {v : Value} (h : v.isInstance "GeoPoint") : c.point v = .ok v.pointForm := by
  rw [point, if_pos h]

theorem point_eq_error {v : Value} (hop : c.operator = .known op)
    (h : ¬ v.isInstance "GeoPoint") : c.point v = .error (.noPoint op.text c.field v) := by
  rw [point, if_neg h, hop]
  rfl

/-- A condition whose operator is about its value has a clause, by operator. -/
theorem Ordinary.exists_clauseOf (h : c.Ordinary) (hop : c.operator = .known op)
    (haccepts : op.Accepts c.value) (field : String) :
    ∃ clause, c.clauseOf op field = .ok clause := by
  have hname : ∃ name, c.operator.text = .ok name := ⟨op.text, by rw [hop]; rfl⟩
  match op with
  | .equals =>
    exact exists_bind h.value.exists_text fun text =>
      exists_bind (h.exists_weightedField field) fun f => ⟨_, rfl⟩
  | .expression =>
    exact exists_bind h.value.exists_text fun text => h.exists_queryText field _ _
  | .contains | .startsWith | .endsWith => exact h.exists_wildcardText field _ _
  | .term | .matches | .matchesAll => exact h.exists_fieldClause _ _ field _
  | .fuzzy | .regexp =>
    exact exists_bind h.value.exists_formOf fun form => exists_bind hname fun kind => ⟨_, rfl⟩
  | .less | .lessEqual | .greater | .greaterEqual =>
    exact exists_bind hname fun key => h.exists_fieldClause _ _ field _
  | .between =>
    obtain ⟨lower, upper, hpair⟩ := haccepts
    obtain ⟨hlower, hupper⟩ := h.value.of_isPair hpair
    rw [clauseOf, Value.sequence?_eq_pair.2 hpair]
    exact exists_rangeBetween hlower hupper field
  | .oneOf => exact h.exists_terms haccepts field
  | .noneOf => exact exists_bind (h.exists_terms haccepts field) fun ts => ⟨_, rfl⟩
  | .exists | .empty | .notEmpty => exact ⟨_, rfl⟩
  | .within =>
    obtain ⟨origin, distance, hpair, horigin⟩ := haccepts
    rw [clauseOf, withinDistance, Value.sequence?_eq_pair.2 hpair]
    exact exists_bind ⟨_, point_eq horigin⟩ fun p => ⟨_, rfl⟩
  | .boundingBox =>
    obtain ⟨topLeft, bottomRight, hpair, hfirst, hsecond⟩ := haccepts
    rw [clauseOf, inBox, Value.sequence?_eq_pair.2 hpair]
    exact exists_bind ⟨_, point_eq hfirst⟩ fun p =>
      exists_bind ⟨_, point_eq hsecond⟩ fun q => ⟨_, rfl⟩

/-- A value that is there and that the operator is not about gives the failure of the condition, by
operator. -/
theorem clauseOf_eq_mismatch (hop : c.operator = .known op) (haccepts : ¬ op.Accepts c.value)
    (hgiven : (op.needsValue && c.value.isNull) = false) (field : String) :
    c.clauseOf op field = .error (op.mismatch c.field c.value) := by
  have hterms : ¬ c.value.IsCollection →
      c.terms field = .error (.noCollection op.text c.field c.value) := by
    intro hvalue
    rw [terms, Value.collection?_eq_none.2 hvalue, hop]
    rfl
  have hpoint : ∀ v : Value, ¬ v.isInstance "GeoPoint" →
      c.point v = .error (.noPoint op.text c.field v) := fun v hv => point_eq_error hop hv
  match op with
  | .between =>
    rw [clauseOf]
    split
    · next lower upper hpair =>
      have hbounds := Value.sequence?_eq_pair.1 hpair
      exact absurd ⟨lower, upper, hbounds⟩ haccepts
    · rfl
  | .oneOf => exact hterms haccepts
  | .noneOf =>
    rw [clauseOf, hterms haccepts]
    rfl
  | .exists | .empty | .notEmpty => exact absurd trivial haccepts
  | .within =>
    rw [clauseOf, withinDistance, Operator.mismatch]
    split
    · next origin distance hpair =>
      have horigin : ¬ origin.isInstance "GeoPoint" := fun horigin =>
        haccepts ⟨origin, distance, Value.sequence?_eq_pair.1 hpair, horigin⟩
      rw [hpoint origin horigin, Value.pair?_of_sequence? hpair]
      rfl
    · next hnone => rw [Value.pair?_eq_none hnone]
  | .boundingBox =>
    rw [clauseOf, inBox, Operator.mismatch]
    split
    · next topLeft bottomRight hpair =>
      rw [Value.pair?_of_sequence? hpair]
      by_cases hfirst : topLeft.isInstance "GeoPoint"
      · have hsecond : ¬ bottomRight.isInstance "GeoPoint" := fun hsecond =>
          haccepts ⟨topLeft, bottomRight, Value.sequence?_eq_pair.1 hpair, hfirst, hsecond⟩
        rw [point_eq hfirst, hpoint bottomRight hsecond]
        simp only [if_pos hfirst]
        rfl
      · rw [hpoint topLeft hfirst]
        simp only [if_neg hfirst]
        rfl
    · next hnone => rw [Value.pair?_eq_none hnone]
  | .equals | .term | .matches | .matchesAll | .contains | .startsWith | .endsWith
  | .expression | .fuzzy | .regexp | .less | .lessEqual | .greater | .greaterEqual =>
    -- these are about every value that is there
    have hnull : c.value = .null := not_not.1 haccepts
    rw [hnull] at hgiven
    cases hgiven

/-- The clause of a condition whose operator is about its value is that of the operator. -/
theorem clause_known (hop : c.operator = .known op) (haccepts : op.Accepts c.value) :
    c.clause rename = c.clauseOf op (rename c.field) := by
  rw [clause, hop]
  simp only [clause.ofOperator, haccepts.given]
  rfl

/-- A well-formed condition has a clause. -/
theorem Ordinary.exists_clause (h : c.Ordinary) (hwell : c.WellFormed) :
    ∃ clause, c.clause rename = .ok clause := by
  obtain ⟨op, hop, haccepts⟩ := hwell
  rw [clause_known hop haccepts]
  exact h.exists_clauseOf hop haccepts (rename c.field)

/-- An ill-formed condition has none, but its own failure. -/
theorem Ordinary.clause_eq_complaint (h : c.Ordinary) (hill : ¬ c.WellFormed) :
    c.clause rename = .error c.complaint := by
  rcases h.operator with ⟨op, hop⟩ | ⟨shown, hop⟩
  · have haccepts : ¬ op.Accepts c.value := fun haccepts => hill ⟨op, hop, haccepts⟩
    rw [Condition.clause, complaint, hop]
    simp only [Condition.clause.ofOperator, Operator.complaint]
    split
    · rw [hop]
      rfl
    · next hgiven =>
      exact clauseOf_eq_mismatch hop haccepts (eq_false_of_ne_true hgiven) (rename c.field)
  · rw [Condition.clause, complaint, hop]

theorem Ordinary.category_complaint (h : c.Ordinary) :
    c.complaint.category = c.complaintCategory := by
  unfold complaint complaintCategory
  rcases h.operator with ⟨op, hop⟩ | ⟨shown, hop⟩
  · rw [hop]
    exact op.category_complaint c.field c.value
  · rw [hop]
    rfl

end Condition

/-! ## Trees -/

/-- What the compiler comes to in trees that callers make. -/
def Visit.Ordinary : Visit → Prop
  | .condition c => c.Ordinary
  | .hollow => True
  | .foreign _ => False

theorem Visit.Ordinary.exists_clause {v : Visit} (h : v.Ordinary)
    (hwell : ∀ c, v = .condition c → c.WellFormed) : ∃ clause, v.clause rename = .ok clause := by
  cases v with
  | condition c => exact Condition.Ordinary.exists_clause h (hwell c rfl)
  | hollow => exact ⟨.matchAll, rfl⟩
  | foreign v => cases h

namespace Criteria

theorem Ordinary.of_visit {t : Criteria} (h : t.Ordinary) : ∀ v ∈ t.visits, v.Ordinary := by
  have hhollow : ∀ v ∈ [Visit.hollow], v.Ordinary := by
    intro v hv
    obtain rfl := List.mem_singleton.1 hv
    trivial
  induction h with
  | condition h =>
    intro v hv
    obtain rfl := List.mem_singleton.1 hv
    exact h
  | @all cs h ih =>
    cases cs with
    | nil => exact hhollow
    | cons c cs =>
      intro v hv
      rw [visits_all] at hv
      obtain ⟨d, hd, hv⟩ := List.mem_flatMap.1 hv
      exact ih d ((filter_isNegation_perm _).mem_iff.1 hd) v hv
  | @any cs h ih =>
    cases cs with
    | nil => exact hhollow
    | cons c cs =>
      intro v hv
      rw [visits_any] at hv
      obtain ⟨d, hd, hv⟩ := List.mem_flatMap.1 hv
      exact ih d hd v hv
  | not h ih => exact ih

theorem ordinary_visitsOf {tree : Option Criteria} (h : ∀ t ∈ tree, t.Ordinary) :
    ∀ v ∈ visitsOf tree, v.Ordinary := by
  cases tree with
  | none =>
    intro v hv
    obtain rfl := List.mem_singleton.1 hv
    trivial
  | some t => exact (h t rfl).of_visit

/-- A negated condition of an unknown operator, before a condition whose value is missing. -/
private def twoFaults : Criteria :=
  .all [.not (.condition ⟨"a", .unknown "nope", .null, .null⟩),
    .any [.condition ⟨"b", .known .exists, .null, .null⟩,
      .condition ⟨"c", .known .term, .null, .null⟩]]

end Criteria

end SearchWire
