import SearchWire.Clause.Compile
import SearchWire.Proofs.Criteria.Basic
import SearchWire.Proofs.Failure

/-!
# Names of fields in compiled criteria

The compiler asks for the name of a field in documents wherever a condition is compiled. It might
as well be given a tree that has those names: where the first succeeds the second does, with the
same clause. Failures differ, since they name fields as the conditions do.

* `Condition.follows_clause`: one condition.
* `Criteria.follows_node`: all trees, by induction; `follows_plainNodes` and `follows_negatedNodes`
  are the two lists that the children of a group are sorted into.
* `Criteria.follows_compile`: **compiling with names or compiling the renamed tree.**
-/

namespace SearchWire

namespace Condition

variable (c : Condition) (name field : String)

theorem follows_terms : Follows (c.terms field) ({ c with field := name }.terms field) := by
  unfold terms
  cases c.value.collection? with
  | none =>
    rintro clause h
    obtain ⟨text, -, h⟩ := bind_eq_ok.1 h
    cases h
  | some vs => exact .refl _

theorem follows_point (v : Value) : Follows (c.point v) ({ c with field := name }.point v) := by
  unfold point
  split
  · exact .refl _
  · intro w h
    obtain ⟨text, -, h⟩ := bind_eq_ok.1 h
    cases h

theorem follows_withinDistance :
    Follows (c.withinDistance field) ({ c with field := name }.withinDistance field) := by
  unfold withinDistance
  simp only
  split
  · exact (follows_point c name _).bind fun p => .refl _
  · exact .error _ _

theorem follows_inBox : Follows (c.inBox field) ({ c with field := name }.inBox field) := by
  unfold inBox
  simp only
  split
  · exact (follows_point c name _).bind fun p => (follows_point c name _).bind fun q => .refl _
  · exact .error _ _

/-- A condition names its field in failures only. -/
theorem follows_clauseOf (op : Operator) :
    Follows (c.clauseOf op field) ({ c with field := name }.clauseOf op field) := by
  cases op with
  | between =>
    unfold clauseOf
    simp only
    split
    · exact .refl _
    · exact .error _ _
  | oneOf => exact follows_terms c name field
  | noneOf => exact (follows_terms c name field).bind fun ts => .refl _
  | within => exact follows_withinDistance c name field
  | boundingBox => exact follows_inBox c name field
  | _ => exact .refl _

theorem follows_ofOperator (f : String → String) (op : Operator) :
    Follows (clause.ofOperator f c op) (clause.ofOperator id { c with field := f c.field } op) := by
  unfold clause.ofOperator
  simp only
  split
  · intro clause h
    obtain ⟨text, -, h⟩ := bind_eq_ok.1 h
    cases h
  · exact follows_clauseOf c (f c.field) (f c.field) op

theorem follows_clause (f : String → String) :
    Follows (c.clause f) ({ c with field := f c.field }.clause id) := by
  unfold clause
  simp only
  split
  · exact .error _ _
  · exact .refl _
  · exact follows_ofOperator c f _
  · exact follows_ofOperator c f _

end Condition

namespace Criteria

variable {f : String → String}

theorem follows_nodes {cs : List Criteria}
    (hcs : ∀ c ∈ cs, Follows (c.node f) ((c.rename f).node id)) :
    Follows (nodes f cs) (nodes id (renameAll f cs)) := by
  induction cs with
  | nil => exact .refl _
  | cons c cs ih =>
    rw [List.forall_mem_cons] at hcs
    rw [renameAll, nodes, nodes]
    exact hcs.1.bind fun clause => (ih hcs.2).bind fun rest => .refl _

theorem follows_plainNodes {cs : List Criteria}
    (hcs : ∀ c ∈ cs, Follows (c.node f) ((c.rename f).node id)) :
    Follows (plainNodes f cs) (plainNodes id (renameAll f cs)) := by
  induction cs with
  | nil => exact .refl _
  | cons c cs ih =>
    rw [List.forall_mem_cons] at hcs
    cases c with
    | not d => exact ih hcs.2
    | _ => exact hcs.1.bind fun clause => (ih hcs.2).bind fun rest => .refl _

/-- What a negation negates follows, since the clause of the negation has its clause. -/
theorem follows_negated {d : Criteria}
    (h : Follows ((Criteria.not d).node f) (((Criteria.not d).rename f).node id)) :
    Follows (d.node f) ((d.rename f).node id) := by
  intro clause hd
  have hnot : (Criteria.not d).node f = .ok (.boolean [] [clause] [] .null) := by
    rw [node, hd]
    rfl
  obtain ⟨other, hother, heq⟩ := bind_eq_ok.1 (h _ hnot)
  cases heq
  exact hother

theorem follows_negatedNodes {cs : List Criteria}
    (hcs : ∀ c ∈ cs, Follows (c.node f) ((c.rename f).node id)) :
    Follows (negatedNodes f cs) (negatedNodes id (renameAll f cs)) := by
  induction cs with
  | nil => exact .refl _
  | cons c cs ih =>
    rw [List.forall_mem_cons] at hcs
    cases c with
    -- a negation has no clause in this list, so what it negates follows by its own clause
    | not d => exact (follows_negated hcs.1).bind fun clause => (ih hcs.2).bind fun rest => .refl _
    | _ => exact ih hcs.2

theorem follows_node (f : String → String) (t : Criteria) :
    Follows (t.node f) ((t.rename f).node id) := by
  induction t using treeInduction with
  | condition c => exact c.follows_clause f
  | all cs ih =>
    cases cs with
    | nil => exact .refl _
    | cons c cs =>
      exact (follows_plainNodes ih).bind fun must =>
        (follows_negatedNodes ih).bind fun mustNot => .refl _
  | any cs ih =>
    cases cs with
    | nil => exact .refl _
    | cons c cs => exact (follows_nodes ih).bind fun should => .refl _
  | not c ih => exact ih.bind fun clause => .refl _
  | foreign v => exact .error _ _

/-- **Compiling with names or compiling the renamed tree**: where the first succeeds, the second
gives the same clause. -/
theorem follows_compile (f : String → String) (tree : Option Criteria) :
    Follows (compile f tree) (compile id (tree.map (rename f))) := by
  cases tree with
  | none => exact .refl _
  | some t =>
    cases t with
    | condition c => exact (c.follows_clause f).bind fun leaf => .refl _
    | _ => exact follows_node f _

end Criteria

end SearchWire
