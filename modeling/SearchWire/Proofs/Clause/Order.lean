import SearchWire.Proofs.Clause.Compile
import SearchWire.Proofs.Clause.Regular

/-!
# Compiling keeps every condition, once and in order

The atoms of a compiled clause are those of the clauses of its conditions, and `match_all` for each
group without children, in the order in which the compiler comes to them. So no condition is lost,
none is there twice, and none is out of place. A tree has no clause exactly if something that the
compiler comes to has none; the first such failure is the failure of the tree.

* `Visit.clause`, `Criteria.visited`: the clauses of what the compiler comes to, and their atoms.
* `Criteria.compile_visited`: **the atoms of a tree, or its failure, are those of what the compiler
  comes to.**
* `Criteria.exists_compile_iff`, `Criteria.compile_eq_error`: trees that have a clause, and the
  failure of those that have none.
* `Criteria.atoms_compile`: **conditions in compiled clauses.**
-/

namespace SearchWire

variable {rename : String → String}

/-- The clause of something that the compiler comes to. -/
def Visit.clause (rename : String → String) : Visit → Except Failure Clause
  | .condition c => c.clause rename
  | .hollow => .ok .matchAll
  | .foreign v => .error (Criteria.foreignFailure v)

namespace Criteria

/-! ## Atoms -/

/-- The atoms of what the compiler comes to, in that order, or the first failure. -/
def visited (rename : String → String) (vs : List Visit) : Except Failure (List Value) :=
  (vs.mapM (Visit.clause rename)).map (List.flatMap Clause.atoms)

theorem visited_append (vs ws : List Visit) :
    visited rename (vs ++ ws) = (do .ok ((← visited rename vs) ++ (← visited rename ws))) := by
  rw [visited, visited, visited, List.mapM_append]
  cases vs.mapM (Visit.clause rename) with
  | error f => rfl
  | ok cs =>
    cases ws.mapM (Visit.clause rename) with
    | error f => rfl
    | ok ds => exact congrArg Except.ok List.flatMap_append

/-- Children one after the other have the atoms of what the compiler comes to in them. -/
theorem mapM_visited (cs : List Criteria)
    (hcs : ∀ c ∈ cs, (node rename c).map Clause.atoms = visited rename c.visits) :
    (cs.mapM (node rename)).map (List.flatMap Clause.atoms) =
      visited rename (cs.flatMap visits) := by
  induction cs with
  | nil => rfl
  | cons c cs ih =>
    rw [List.forall_mem_cons] at hcs
    rw [List.mapM_cons, List.flatMap_cons, visited_append, ← hcs.1, ← ih hcs.2]
    cases node rename c with
    | error f => rfl
    | ok clause =>
      cases cs.mapM (node rename) with
      | error f => rfl
      | ok clauses => rfl

theorem visits_bare (c : Criteria) : c.bare.visits = c.visits := by
  cases c <;> rfl

/-- A negation has the atoms of what it negates. -/
theorem atoms_bare (c : Criteria) :
    (node rename c.bare).map Clause.atoms = (node rename c).map Clause.atoms := by
  cases c with
  | not d =>
    rw [bare, node]
    cases node rename d with
    | error f => rfl
    | ok clause =>
      have hatoms : Clause.atoms (.boolean [] [clause] [] .null) = clause.atoms := by
        rw [Clause.atoms_boolean]
        simp
      exact congrArg Except.ok hatoms.symm
  | _ => rfl

/-- **The atoms of a tree within another one, or its failure**, are those of what the compiler comes
to. -/
theorem node_visited (t : Criteria) :
    (node rename t).map Clause.atoms = visited rename t.visits := by
  induction t using treeInduction with
  | condition c =>
    rw [node, visits, visited, List.mapM_cons, Visit.clause]
    cases c.clause rename with
    | error f => rfl
    | ok clause =>
      have hatoms : clause.atoms = [clause].flatMap Clause.atoms := by simp
      exact congrArg Except.ok hatoms
  | all cs ih =>
    cases cs with
    | nil => rfl
    | cons c cs =>
      have hplain := mapM_visited ((c :: cs).filter fun d => !d.isNegation)
        fun d hd => ih d (List.mem_of_mem_filter hd)
      -- what is negated has the atoms of its negation, of which the induction speaks
      have hbare : ∀ d ∈ ((c :: cs).filter isNegation).map bare,
          (node rename d).map Clause.atoms = visited rename d.visits := by
        intro d hd
        obtain ⟨e, he, rfl⟩ := List.mem_map.1 hd
        rw [atoms_bare, visits_bare]
        exact ih e (List.mem_of_mem_filter he)
      have hnegated := mapM_visited (((c :: cs).filter isNegation).map bare) hbare
      simp only [List.flatMap_map, visits_bare] at hnegated
      rw [visits_all, List.flatMap_append, visited_append, ← hplain, ← hnegated, node,
        plainNodes_eq_mapM, negatedNodes_eq_mapM]
      cases ((c :: cs).filter fun d => !d.isNegation).mapM (node rename) with
      | error f => rfl
      | ok must =>
        cases (((c :: cs).filter isNegation).map bare).mapM (node rename) with
        | error f => rfl
        | ok mustNot =>
          have hatoms : Clause.atoms (.boolean must mustNot [] .null) =
              must.flatMap Clause.atoms ++ mustNot.flatMap Clause.atoms := by
            rw [Clause.atoms_boolean, List.flatMap_nil, List.append_nil]
          exact congrArg Except.ok hatoms
  | any cs ih =>
    cases cs with
    | nil => rfl
    | cons c cs =>
      rw [visits_any, ← mapM_visited _ ih, node, nodes_eq_mapM]
      cases (c :: cs).mapM (node rename) with
      | error f => rfl
      | ok should =>
        have hatoms : Clause.atoms (.boolean [] [] should .null) =
            should.flatMap Clause.atoms := Clause.atoms_boolean [] [] should .null
        exact congrArg Except.ok hatoms
  | not c ih =>
    have hbare : (node rename c).map Clause.atoms = (node rename (.not c)).map Clause.atoms :=
      atoms_bare (.not c)
    rw [← hbare]
    exact ih
  | foreign v => rfl

/-- **The atoms of a tree, or its failure**, are those of what the compiler comes to. -/
theorem compile_visited (tree : Option Criteria) :
    (compile rename tree).map Clause.atoms = visited rename (visitsOf tree) := by
  cases tree with
  | none => rfl
  | some t =>
    rw [visitsOf, ← node_visited]
    cases t with
    | condition c =>
      -- a condition alone stands in a boolean clause of its own
      rw [compile, node]
      cases c.clause rename with
      | error f => rfl
      | ok leaf =>
        have hatoms : Clause.atoms (.boolean [leaf] [] [] .null) = leaf.atoms := by
          rw [Clause.atoms_boolean]
          simp
        exact congrArg Except.ok hatoms
    | _ => rfl

/-- A tree is compiled exactly if everything that the compiler comes to has a clause. -/
theorem exists_compile_iff {tree : Option Criteria} :
    (∃ clause, compile rename tree = .ok clause) ↔
      ∀ v ∈ visitsOf tree, ∃ clause, v.clause rename = .ok clause := by
  have hvisited : (compile rename tree).map Clause.atoms = visited rename (visitsOf tree) :=
    compile_visited tree
  rw [← exists_mapM_iff]
  constructor
  · rintro ⟨clause, hclause⟩
    rw [hclause] at hvisited
    obtain ⟨clauses, hclauses, -⟩ := map_eq_ok.1 hvisited.symm
    exact ⟨clauses, hclauses⟩
  · rintro ⟨clauses, hclauses⟩
    rw [visited, hclauses] at hvisited
    obtain ⟨clause, hclause, -⟩ := map_eq_ok.1 hvisited
    exact ⟨clause, hclause⟩

/-- The first thing that has no clause gives the failure of the tree. -/
theorem compile_eq_error {tree : Option Criteria} {before after : List Visit} {v : Visit}
    {f : Failure} (htree : visitsOf tree = before ++ v :: after)
    (hbefore : ∀ w ∈ before, ∃ clause, w.clause rename = .ok clause)
    (hv : v.clause rename = .error f) : compile rename tree = .error f := by
  have hvisited : (compile rename tree).map Clause.atoms = visited rename (visitsOf tree) :=
    compile_visited tree
  rw [visited, htree, mapM_eq_error hbefore hv] at hvisited
  exact map_eq_error.1 hvisited

/-- **Conditions in compiled clauses.** Whatever the compiler comes to in a tree that it compiles
has a clause, and the atoms of those clauses, in the order in which it comes to them, are the atoms
of the compiled clause. Every boolean clause in it is orderly. -/
theorem atoms_compile (domain : Option Domain) (tree : Option Criteria) {clause : Clause}
    (h : compile (fieldName domain) tree = .ok clause) :
    (∃ clauses : List Clause,
      (visitsOf tree).mapM (Visit.clause (fieldName domain)) = .ok clauses ∧
        clause.toValue.atoms = clauses.flatMap fun c => c.toValue.atoms) ∧
      ∀ parts : Entries, .dict [(.str "bool", .dict parts)] ∈ clause.toValue.walk →
        Value.Orderly parts := by
  constructor
  · have hvisited : (compile (fieldName domain) tree).map Clause.atoms =
        visited (fieldName domain) (visitsOf tree) := compile_visited tree
    rw [h] at hvisited
    obtain ⟨clauses, hclauses, hatoms⟩ := map_eq_ok.1 hvisited.symm
    exact ⟨clauses, hclauses, hatoms.symm⟩
  · intro parts hparts
    exact (regular_compile h).orderly hparts

/-- A negated condition that has two atoms, before another condition and an empty group. -/
private def negatedFirst : Criteria :=
  .all [.not (.condition ⟨"a", .known .empty, .null, .null⟩),
    .condition ⟨"b", .known .exists, .null, .null⟩, .any []]

theorem atoms_compile_negatedFirst :
    ∃ clause clauses, compile (fieldName none) (some negatedFirst) = .ok clause ∧
      (visitsOf (some negatedFirst)).mapM (Visit.clause (fieldName none)) = .ok clauses ∧
      clause.toValue.atoms = (clauses.flatMap fun c => c.toValue.atoms) ∧
      clause.toValue.atoms = [.object [("exists", .object [("field", .str "b")])],
        .object [("match_all", .object [])], .object [("exists", .object [("field", .str "a")])],
        .object [("wildcard", .object [("a", .object [("value", .str "*")])])]] := by
  obtain ⟨clauses, hclauses, hatoms⟩ := (atoms_compile none (some negatedFirst) rfl).1
  exact ⟨_, clauses, rfl, hclauses, hatoms, rfl⟩

end Criteria

end SearchWire
