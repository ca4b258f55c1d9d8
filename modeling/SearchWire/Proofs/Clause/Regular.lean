import SearchWire.Clause.Compile
import SearchWire.Proofs.Clause.Walk
import SearchWire.Proofs.Criteria.Order
import SearchWire.Proofs.Failure

/-!
# Clauses that are compiled

A clause that comes out of the compiler is regular. No data is fitted to a model on the way, so what
keeps a clause from being made is never that data does not fit. The two are shown together, one
function after the other.

* `Condition.yields_clause`: conditions, by operator.
* `Criteria.plainNodes_eq_mapM`, `Criteria.negatedNodes_eq_mapM`: the two lists that the children
  of a group are sorted into.
* `Criteria.yields_node`: trees within trees.
* `Criteria.regular_compile`, `Criteria.neverRejects_compile`: **compiled trees.**
-/

namespace SearchWire

variable {rename : String → String}

theorem neverRejects_formOf (v : Value) : NeverRejects (formOf v) := by
  unfold formOf
  split
  · trivial
  · nofun

theorem neverRejects_weightOf (v : Value) : NeverRejects (weightOf v) := by
  unfold weightOf
  split
  case h_1 => trivial
  case h_2 =>
    dsimp only
    split
    · trivial
    · nofun
  case h_3 => trivial
  case h_7 => nofun
  -- texts, members and bytes are read alike
  all_goals
    unfold weightOf.ofText
    split
    · trivial
    · nofun

theorem QueryText.neverRejects_ofValue (v : Value) : NeverRejects (QueryText.ofValue v) := by
  unfold ofValue
  split
  · trivial
  · split
    · trivial
    · nofun

theorem OperatorName.neverRejects_text (op : OperatorName) : NeverRejects op.text := by
  cases op
  · trivial
  all_goals nofun

theorem Operator.text_ne_bool (op : Operator) : op.text ≠ "bool" := by
  cases op <;> decide

theorem OperatorName.yields_text (op : OperatorName) :
    Yields (fun kind => kind ≠ "bool") op.text := by
  cases op with
  | known op => exact op.text_ne_bool
  | _ => nofun

/-! ## Conditions -/

namespace Condition

variable (c : Condition) (field : String)

theorem neverRejects_weightedField : NeverRejects (c.weightedField field) := by
  have hweight : NeverRejects c.weight := by
    unfold weight
    split
    · trivial
    · exact neverRejects_weightOf _
  exact hweight.andThen _

theorem neverRejects_formsOf (vs : List Value) : NeverRejects (formsOf vs) := by
  induction vs with
  | nil => trivial
  | cons v vs ih => exact (neverRejects_formOf v).bind fun _ _ => ih.andThen _

theorem neverRejects_point (v : Value) : NeverRejects (c.point v) := by
  unfold point
  split
  · trivial
  · exact (OperatorName.neverRejects_text _).bind fun _ _ => nofun

theorem yields_queryText (text : List Char) (more : Fields) :
    Yields Clause.Regular (c.queryText field text more) :=
  (c.neverRejects_weightedField field).bind fun _ _ => .atom _ (by decide)

theorem yields_wildcardText (before after : List Char) :
    Yields Clause.Regular (c.wildcardText field before after) :=
  (QueryText.neverRejects_ofValue _).bind fun _ _ => c.yields_queryText field _ _

theorem yields_fieldClause {kind : String} (hkind : kind ≠ "bool") (key : String) (more : Fields) :
    Yields Clause.Regular (c.fieldClause kind key field more) :=
  (neverRejects_formOf _).bind fun _ _ => .atom _ hkind

theorem yields_terms : Yields Clause.Regular (c.terms field) := by
  unfold terms
  split
  · exact (OperatorName.neverRejects_text _).bind fun _ _ => nofun
  · exact (neverRejects_formsOf _).bind fun _ _ => .atom _ (by decide)

theorem yields_rangeBetween (lower upper : Value) :
    Yields Clause.Regular (c.rangeBetween field lower upper) := by
  have hrange : ∀ body : Fields, Clause.Regular (.atom "range" body) :=
    fun body => .atom body (by decide)
  have hlower := neverRejects_formOf lower
  have hupper := neverRejects_formOf upper
  unfold rangeBetween
  split
  all_goals split
  · exact hrange _
  · exact hlower.bind fun _ _ => hrange _
  · exact hupper.bind fun _ _ => hrange _
  · exact hlower.bind fun _ _ => hupper.bind fun _ _ => hrange _

/-- The clause of a condition is regular, by operator. -/
theorem yields_clauseOf (op : Operator) : Yields Clause.Regular (c.clauseOf op field) := by
  have hatom : ∀ {kind : String} (body : Fields), kind ≠ "bool" →
      Clause.Regular (.atom kind body) := fun body hkind => .atom body hkind
  match op with
  | .equals =>
    exact (QueryText.neverRejects_ofValue _).bind fun _ _ =>
      (c.neverRejects_weightedField field).bind fun _ _ => hatom _ (by decide)
  | .expression =>
    exact (QueryText.neverRejects_ofValue _).bind fun _ _ => c.yields_queryText field _ _
  | .contains | .startsWith | .endsWith => exact c.yields_wildcardText field _ _
  | .term | .matches | .matchesAll => exact c.yields_fieldClause field (by decide) _ _
  | .fuzzy | .regexp =>
    -- the operator itself gives the kind
    exact (neverRejects_formOf _).bind fun _ _ =>
      c.operator.yields_text.bind fun _ hkind => hatom _ hkind
  | .less | .lessEqual | .greater | .greaterEqual =>
    exact (OperatorName.neverRejects_text _).bind fun _ _ =>
      c.yields_fieldClause field (by decide) _ _
  | .between =>
    rw [clauseOf]
    split
    · exact c.yields_rangeBetween field _ _
    · nofun
  | .oneOf => exact c.yields_terms field
  | .noneOf =>
    refine (c.yields_terms field).bind fun ts hts => ?_
    exact Clause.Regular.boolean _ (by simp) (by simpa using hts)
  | .exists | .notEmpty => exact hatom _ (by decide)
  | .empty =>
    refine Clause.Regular.boolean _ (by simp) ?_
    intro d hd
    simp only [List.append_nil, List.cons_append, List.nil_append, List.mem_cons,
      List.not_mem_nil, or_false] at hd
    rcases hd with rfl | rfl <;> exact hatom _ (by decide)
  | .within =>
    rw [clauseOf, withinDistance]
    split
    · exact (c.neverRejects_point _).bind fun _ _ => hatom _ (by decide)
    · nofun
  | .boundingBox =>
    rw [clauseOf, inBox]
    split
    · exact (c.neverRejects_point _).bind fun _ _ =>
        (c.neverRejects_point _).bind fun _ _ => hatom _ (by decide)
    · nofun

/-- Conditions, whatever their operators are. -/
theorem yields_clause : Yields Clause.Regular (c.clause rename) := by
  have hknown : ∀ op, Yields Clause.Regular (clause.ofOperator rename c op) := by
    intro op
    unfold clause.ofOperator
    split
    · exact (OperatorName.neverRejects_text _).bind fun _ _ => nofun
    · exact c.yields_clauseOf _ op
  unfold clause
  split
  · nofun
  · nofun
  · exact hknown _
  · exact hknown _

end Condition

/-! ## Trees -/

namespace Criteria

/-- The tree that a negation negates; other trees as they are. -/
def bare : Criteria → Criteria
  | .not c => c
  | t => t

theorem nodes_eq_mapM (cs : List Criteria) : nodes rename cs = cs.mapM (node rename) := by
  induction cs with
  | nil => rfl
  | cons c cs ih =>
    rw [nodes, ih, List.mapM_cons]
    rfl

theorem plainNodes_eq_mapM (cs : List Criteria) :
    plainNodes rename cs = (cs.filter fun c => !c.isNegation).mapM (node rename) := by
  induction cs with
  | nil => rfl
  | cons c cs ih =>
    cases c with
    | not d => exact ih
    | _ =>
      rw [plainNodes, ih, List.filter_cons_of_pos rfl, List.mapM_cons]
      · rfl
      · nofun

theorem negatedNodes_eq_mapM (cs : List Criteria) :
    negatedNodes rename cs = ((cs.filter isNegation).map bare).mapM (node rename) := by
  induction cs with
  | nil => rfl
  | cons c cs ih =>
    cases c with
    | not d =>
      rw [negatedNodes, ih, List.filter_cons_of_pos rfl, List.map_cons, List.mapM_cons]
      rfl
    | _ =>
      rw [negatedNodes, ih]
      · rfl
      · nofun

/-- Children that have regular clauses one by one have regular clauses together, of which there are
some if there are children. -/
theorem yields_mapM {cs : List Criteria} (hcs : ∀ c ∈ cs, Yields Clause.Regular (node rename c)) :
    Yields (fun clauses => (∀ clause ∈ clauses, clause.Regular) ∧ (clauses = [] → cs = []))
      (cs.mapM (node rename)) := by
  induction cs with
  | nil => exact ⟨nofun, fun _ => rfl⟩
  | cons c cs ih =>
    obtain ⟨hc, hcs⟩ := List.forall_mem_cons.1 hcs
    rw [List.mapM_cons]
    exact hc.bind fun clause hclause => (ih hcs).bind fun rest hrest =>
      ⟨List.forall_mem_cons.2 ⟨hclause, hrest.1⟩, nofun⟩

/-- What a negation negates has a regular clause, since the clause of the negation has it. -/
theorem yields_bare {c : Criteria} (hc : Yields Clause.Regular (node rename c)) :
    Yields Clause.Regular (node rename c.bare) := by
  cases c with
  | not d =>
    rw [node] at hc
    rw [bare]
    generalize node rename d = inner at hc
    cases inner with
    | error f => exact hc
    | ok clause =>
      cases hc with
      | boolean _ _ hclauses => exact hclauses clause (by simp)
  | _ => exact hc

/-- **Trees within trees.** -/
theorem yields_node (t : Criteria) : Yields Clause.Regular (node rename t) := by
  induction t using treeInduction with
  | condition c =>
    rw [node]
    exact c.yields_clause
  | all cs ih =>
    cases cs with
    | nil => exact .matchAll
    | cons c cs =>
      have hplain : ∀ d ∈ (c :: cs).filter (fun d => !d.isNegation),
          Yields Clause.Regular (node rename d) := fun d hd => ih d (List.mem_of_mem_filter hd)
      have hbare : ∀ d ∈ ((c :: cs).filter isNegation).map bare,
          Yields Clause.Regular (node rename d) := by
        intro d hd
        obtain ⟨e, he, rfl⟩ := List.mem_map.1 hd
        exact yields_bare (ih e (List.mem_of_mem_filter he))
      rw [node, plainNodes_eq_mapM, negatedNodes_eq_mapM]
      refine (yields_mapM hplain).bind fun must hmust => ?_
      refine (yields_mapM hbare).bind fun mustNot hnot => ?_
      refine Clause.Regular.boolean _ ?_ ?_
      · -- the first child is in one of the two lists
        intro hempty
        simp only [List.append_nil, List.append_eq_nil_iff] at hempty
        have hnone := List.filter_eq_nil_iff.1 (hmust.2 hempty.1) c List.mem_cons_self
        have hnegated := List.filter_eq_nil_iff.1 (List.map_eq_nil_iff.1 (hnot.2 hempty.2)) c
          List.mem_cons_self
        cases hc : c.isNegation <;> simp [hc] at hnone hnegated
      · rw [List.append_nil, List.forall_mem_append]
        exact ⟨hmust.1, hnot.1⟩
  | any cs ih =>
    cases cs with
    | nil => exact .matchAll
    | cons c cs =>
      rw [node, nodes_eq_mapM]
      refine (yields_mapM ih).bind fun should hshould => ?_
      refine Clause.Regular.boolean _ ?_ hshould.1
      exact fun hempty => List.cons_ne_nil c cs (hshould.2 hempty)
  | not c ih =>
    rw [node]
    refine ih.bind fun inner hinner => ?_
    exact Clause.Regular.boolean _ (by simp) (by simpa using hinner)
  | foreign v =>
    rw [node]
    unfold foreignFailure
    split
    all_goals nofun

theorem yields_compile (tree : Option Criteria) : Yields Clause.Regular (compile rename tree) := by
  unfold compile
  split
  · exact .matchAll
  · next c =>
    refine c.yields_clause.bind fun leaf hleaf => ?_
    exact Clause.Regular.boolean _ (by simp) (by simpa using hleaf)
  · exact yields_node _

theorem regular_compile {tree : Option Criteria} {clause : Clause}
    (h : compile rename tree = .ok clause) : clause.Regular := by
  have hyields : Yields Clause.Regular (compile rename tree) := yields_compile tree
  rw [h] at hyields
  exact hyields

theorem neverRejects_compile (tree : Option Criteria) : NeverRejects (compile rename tree) :=
  (yields_compile tree).neverRejects

end Criteria

end SearchWire
