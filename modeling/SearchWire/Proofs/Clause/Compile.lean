import SearchWire.Clause.Compile
import SearchWire.Proofs.Clause.Truth
import SearchWire.Proofs.Criteria.Basic
import SearchWire.Proofs.Criteria.Truth
import SearchWire.Proofs.Failure

/-!
# Compiling keeps the meaning of criteria

The clause of a tree is true of the same documents as the tree: under every truth assignment to
the clauses that are not boolean, the two have the same truth value. Groups put the negations
among their children beside the others, a condition alone becomes a boolean clause, and a group
without children becomes `match_all`; none of this changes the meaning.

* `Condition.holds`: the truth of a condition is that of its own clause.
* `Criteria.Kept`: the clause of a tree, if it has one, is as true as the tree. There is one lemma
  for each kind of node (`kept_all`, `kept_any`, `kept_not`), and `kept` for all trees.
* `Criteria.holds_compile`: **the clause that is compiled from a tree has the truth value of the
  tree.**
-/

namespace SearchWire

/-- The truth of a condition is that of its own clause. A condition without a clause is in no
tree that compiles. -/
def Condition.holds (rename : String → String) (atom : Value → Bool) (c : Condition) : Bool :=
  match c.clause rename with
  | .ok clause => clause.holds atom
  | .error _ => false

namespace Criteria

variable {rename : String → String} {atom : Value → Bool}

/-- The truth of a tree whose conditions have the truth of their clauses. -/
def meaning (rename : String → String) (atom : Value → Bool) (t : Criteria) : Bool :=
  t.holds (Condition.holds rename atom) true

theorem meaning_all (cs : List Criteria) :
    meaning rename atom (.all cs) = cs.all (meaning rename atom) := by
  rw [meaning, holds, truths_eq_map, List.all_map]
  rfl

theorem meaning_any (cs : List Criteria) :
    meaning rename atom (.any cs) = (cs.isEmpty || cs.any (meaning rename atom)) := by
  rw [meaning, holds, truths_eq_map, List.any_map]
  cases cs <;> rfl

theorem meaning_not (c : Criteria) :
    meaning rename atom (.not c) = !meaning rename atom c := by
  rw [meaning, holds, meaning]

/-- The clause of a tree, if there is one, is as true as the tree. -/
def Kept (rename : String → String) (atom : Value → Bool) (t : Criteria) : Prop :=
  ∀ {clause : Clause}, t.node rename = .ok clause → clause.holds atom = t.meaning rename atom

theorem nodes_kept {cs : List Criteria} {clauses : List Clause}
    (hcs : ∀ c ∈ cs, Kept rename atom c) (h : nodes rename cs = .ok clauses) :
    clauses.map (Clause.holds atom) = cs.map (meaning rename atom) := by
  induction cs generalizing clauses with
  | nil =>
    rw [nodes] at h
    cases h
    rfl
  | cons c cs ih =>
    rw [nodes] at h
    obtain ⟨clause, hclause, h⟩ := bind_eq_ok.1 h
    obtain ⟨rest, hrest, h⟩ := bind_eq_ok.1 h
    cases h
    rw [List.forall_mem_cons] at hcs
    rw [List.map_cons, List.map_cons, hcs.1 hclause, ih hcs.2 hrest]

theorem kept_not {c : Criteria} (hc : Kept rename atom c) : Kept rename atom (.not c) := by
  intro clause h
  rw [node] at h
  obtain ⟨inner, hinner, h⟩ := bind_eq_ok.1 h
  cases h
  rw [Clause.holds_boolean, meaning_not, ← hc hinner]
  simp

/-- Of the children of a group those that are no negations go to one list. -/
theorem plainNodes_cons {c : Criteria} (hc : ∀ d, c ≠ .not d) (cs : List Criteria) :
    plainNodes rename (c :: cs) =
      (do .ok ((← node rename c) :: (← plainNodes rename cs))) := by
  cases c with
  | not d => exact absurd rfl (hc d)
  | _ => rw [plainNodes]; exact hc

theorem negatedNodes_cons {c : Criteria} (hc : ∀ d, c ≠ .not d) (cs : List Criteria) :
    negatedNodes rename (c :: cs) = negatedNodes rename cs := by
  cases c with
  | not d => exact absurd rfl (hc d)
  | _ => rw [negatedNodes]; exact hc

/-- Children beside each other: those that are no negations hold, and what the others negate
does not. -/
theorem children_kept {cs : List Criteria} {must mustNot : List Clause}
    (hcs : ∀ c ∈ cs, Kept rename atom c) (hmust : plainNodes rename cs = .ok must)
    (hnot : negatedNodes rename cs = .ok mustNot) :
    (must.all (Clause.holds atom) && mustNot.all fun c => !c.holds atom) =
      cs.all (meaning rename atom) := by
  induction cs generalizing must mustNot with
  | nil =>
    rw [plainNodes] at hmust
    rw [negatedNodes] at hnot
    cases hmust
    cases hnot
    rfl
  | cons c cs ih =>
    rw [List.forall_mem_cons] at hcs
    by_cases hc : ∃ d, c = .not d
    · -- what the child negates goes to the other list, without a clause for the negation
      obtain ⟨d, rfl⟩ := hc
      rw [plainNodes] at hmust
      rw [negatedNodes] at hnot
      obtain ⟨clause, hclause, hnot⟩ := bind_eq_ok.1 hnot
      obtain ⟨rest, hrest, hnot⟩ := bind_eq_ok.1 hnot
      cases hnot
      have hd : (!clause.holds atom) = meaning rename atom (.not d) := by
        have hnode : node rename (.not d) = .ok (.boolean [] [clause] [] .null) := by
          rw [node, hclause]
          rfl
        rw [← hcs.1 hnode, Clause.holds_boolean]
        simp
      rw [List.all_cons, List.all_cons, hd, ← ih hcs.2 hmust hrest]
      exact Bool.and_left_comm _ _ _
    · have hplain : ∀ d, c ≠ .not d := fun d h => hc ⟨d, h⟩
      rw [plainNodes_cons hplain] at hmust
      rw [negatedNodes_cons hplain] at hnot
      obtain ⟨clause, hclause, hmust⟩ := bind_eq_ok.1 hmust
      obtain ⟨rest, hrest, hmust⟩ := bind_eq_ok.1 hmust
      cases hmust
      rw [List.all_cons, List.all_cons, hcs.1 hclause, ← ih hcs.2 hrest hnot]
      exact Bool.and_assoc _ _ _

theorem kept_all {cs : List Criteria} (hcs : ∀ c ∈ cs, Kept rename atom c) :
    Kept rename atom (.all cs) := by
  intro clause h
  rw [meaning_all]
  cases cs with
  | nil =>
    rw [node] at h
    cases h
    exact Clause.holds_matchAll atom
  | cons c cs =>
    rw [node] at h
    obtain ⟨must, hmust, h⟩ := bind_eq_ok.1 h
    obtain ⟨mustNot, hnot, h⟩ := bind_eq_ok.1 h
    cases h
    rw [Clause.holds_boolean, children_kept hcs hmust hnot]
    simp

theorem kept_any {cs : List Criteria} (hcs : ∀ c ∈ cs, Kept rename atom c) :
    Kept rename atom (.any cs) := by
  intro clause h
  rw [meaning_any]
  cases cs with
  | nil =>
    rw [node] at h
    cases h
    exact Clause.holds_matchAll atom
  | cons c cs =>
    rw [node] at h
    obtain ⟨should, hshould, h⟩ := bind_eq_ok.1 h
    cases h
    have hmap := nodes_kept hcs hshould
    -- there are as many alternatives as children, so there are some
    have hany : should.any (Clause.holds atom) = (c :: cs).any (meaning rename atom) := by
      have hid := congrArg (fun ts => ts.any id) hmap
      simpa only [List.any_map, Function.id_comp] using hid
    have hempty : should.isEmpty = (c :: cs).isEmpty := by
      have hlength := congrArg List.isEmpty hmap
      simpa only [List.isEmpty_map] using hlength
    rw [Clause.holds_boolean, hempty, hany]
    simp

theorem kept (t : Criteria) : Kept rename atom t := by
  induction t using treeInduction with
  | condition c =>
    intro clause h
    rw [node] at h
    rw [meaning, holds, Condition.holds, h]
  | all cs ih => exact kept_all ih
  | any cs ih => exact kept_any ih
  | not c ih => exact kept_not ih
  | foreign v =>
    intro clause h
    rw [node] at h
    cases h

/-- **The compiled clause has the truth value of the tree**, for every tree, every domain type and
every truth assignment to the clauses that are not boolean. No tree at all is true. -/
theorem holds_compile (domain : Option Domain) (atom : Value → Bool) (tree : Option Criteria)
    {clause : Clause} (h : compile (fieldName domain) tree = .ok clause) :
    clause.toValue.holds atom = tree.all (meaning (fieldName domain) atom) := by
  cases tree with
  | none =>
    cases h
    exact Clause.holds_matchAll atom
  | some t =>
    rw [Option.all_some]
    cases t with
    | condition c =>
      -- a condition alone stands in a boolean clause of its own
      obtain ⟨leaf, hleaf, h⟩ := bind_eq_ok.1 h
      cases h
      have hc : leaf.holds atom = meaning (fieldName domain) atom (.condition c) :=
        kept (.condition c) (by rw [node]; exact hleaf)
      rw [← hc, ← Clause.holds, Clause.holds_boolean]
      simp
    | _ => exact kept _ h

/-- A domain type with one property, which has another name in documents. -/
private def namedThings : Domain :=
  ⟨⟨[.plain "Thing" [(Property.required "name" .text).called "full-name"]], []⟩, .named "Thing"⟩

/-- Alternatives of which one is a group with a negated child and a condition with a boolean
clause of its own, the other one the negation of a group without children. -/
private def nestedTree : Criteria :=
  .any [.all [.not (.condition ⟨"name", .known .exists, .null, .null⟩),
    .condition ⟨"name", .known .noneOf, .list [.str "a"], .null⟩], .not (.any [])]

theorem holds_compile_nested :
    ∃ clause, compile (fieldName (some namedThings)) (some nestedTree) = .ok clause ∧
      clause.toValue.holds (fun _ => true) =
        nestedTree.meaning (fieldName (some namedThings)) fun _ => true :=
  ⟨_, rfl, holds_compile (some namedThings) (fun _ => true) (some nestedTree) rfl⟩

end Criteria

end SearchWire
