import SearchWire.Criteria.Chain
import SearchWire.Proofs.Criteria.Record
import SearchWire.Proofs.Criteria.Truth
import SearchWire.Proofs.Failure

/-!
# Fluent chains mean their calls from left to right

A chain is made by calls: a field with any number of negations and what completes it, a whole
chain that is made the same way, a negation of all that was said so far, a weight. Such a sequence
of calls is read in two ways: as the tree that the steps of the chain make, and as truth values
that are joined from left to right. `Agrees` is the relation between the two that every call keeps;
it also says that the trees stay `WellMade`, since a chain that is joined to another one is read
back from its records, and since no group may be without children.

* `FluentCall.perform`, `FluentCall.performAll`: the tree that calls make.
* `FluentCall.value`, `FluentCall.valueAll`: their truth value, joined from left to right.
* `FluentCall.holds_performAll`: **the tree has the truth value of the calls.**
-/

namespace SearchWire

/-- A fluent call on a chain. -/
inductive FluentCall where
  /-- Joins a field, which is completed after a number of negations. -/
  | condition (connective : Connective) (field : Value) (negations : Nat) (op : Operator)
      (args : List Value)
  /-- Joins a chain that is made by calls of its own. -/
  | chain (connective : Connective) (calls : List FluentCall)
  | negate
  | boost (weight : Value)

/-- The tree of a chain. A field that waits for its condition is no chain. -/
def ChainState.tree : ChainState → Except Failure (Option Criteria)
  | .chain root => .ok root
  | .pending _ => .error .noAttribute

namespace FluentCall

mutual

/-- The tree after a call, by the steps of the chain. -/
def perform : FluentCall → Option Criteria → Except Failure (Option Criteria)
  | .condition connective field negations op args, root => do
    let steps := .join connective field ::
      (List.replicate negations .negateNext ++ [.complete op args])
    (← (ChainState.chain root).runAll steps).tree
  | .chain connective calls, root => do
    let other ← performAll calls none
    (← (ChainState.chain root).run (.joinChain connective (chainValue other))).tree
  | .negate, root => do (← (ChainState.chain root).run .negate).tree
  | .boost weight, root => do (← (ChainState.chain root).run (.boost weight)).tree

/-- The tree after some calls. -/
def performAll : List FluentCall → Option Criteria → Except Failure (Option Criteria)
  | [], root => .ok root
  | call :: calls, root => do performAll calls (← perform call root)

end

/-- The condition that a field and what completes it give. -/
def conditionOf (field : Value) (op : Operator) (args : List Value) : Except Failure Condition := do
  let v ← op.valueOf args
  match checkText field with
  | .ok a => .ok ⟨(a.value.text?).getD "", .known op, v, .null⟩
  | .error issues => .error (.rejected "Condition" (issuesUnder (.name "field") issues))

/-- An operand joined to the truth value so far; the first one is taken as it is. -/
def joined (connective : Connective) (operand : Bool) : Option Bool → Bool
  | none => operand
  | some b =>
    match connective with
    | .and => b && operand
    | .or => b || operand

mutual

/-- The truth value after a call. `truth` gives the truth of conditions by field, operator and
value. -/
def value (truth : String → OperatorName → Value → Bool) :
    FluentCall → Option Bool → Except Failure (Option Bool)
  | .condition connective field negations op args, acc => do
    let c ← conditionOf field op args
    let operand := truth c.field c.operator c.value
    .ok (some (joined connective (if negations % 2 = 1 then !operand else operand) acc))
  | .chain connective calls, acc => do
    match ← valueAll truth calls none with
    | none => .ok acc
    | some operand => .ok (some (joined connective operand acc))
  | .negate, acc => .ok (acc.map not)
  | .boost _, acc => .ok acc

/-- The truth value after some calls, from left to right. -/
def valueAll (truth : String → OperatorName → Value → Bool) :
    List FluentCall → Option Bool → Except Failure (Option Bool)
  | [], acc => .ok acc
  | call :: calls, acc => do valueAll truth calls (← value truth call acc)

end

/-! ## The steps of a call -/

theorem runAll_negations (root : Option Criteria) (field : Value) (connective : Connective)
    (negated : Bool) (n : Nat) (rest : List Call) :
    (ChainState.pending ⟨root, field, connective, negated⟩).runAll
        (List.replicate n .negateNext ++ rest) =
      (ChainState.pending ⟨root, field, connective, xor negated (n % 2 == 1)⟩).runAll rest := by
  induction n generalizing negated with
  | zero => simp
  | succ n ih =>
    have hparity : ((n + 1) % 2 == 1) = !(n % 2 == 1) := by
      rcases Nat.mod_two_eq_zero_or_one n with h | h <;> simp [Nat.add_mod, h]
    rw [List.replicate_succ, List.cons_append, ChainState.runAll, ChainState.run]
    refine (ih (!negated)).trans ?_
    rw [hparity, Bool.not_xor, Bool.xor_not]

theorem perform_condition (connective : Connective) (field : Value) (negations : Nat)
    (op : Operator) (args : List Value) (root : Option Criteria) :
    perform (.condition connective field negations op args) root = (do
      let c ← conditionOf field op args
      .ok (some (Criteria.connect root connective
        (if negations % 2 = 1 then .not (.condition c) else .condition c)))) := by
  have hsteps : (ChainState.chain root).runAll (.join connective field ::
      (List.replicate negations .negateNext ++ [.complete op args])) =
      (ChainState.pending ⟨root, field, connective, negations % 2 == 1⟩).runAll
        [.complete op args] := by
    have h := runAll_negations root field connective false negations [.complete op args]
    rw [Bool.false_xor] at h
    exact h
  rw [perform, hsteps, ChainState.runAll, ChainState.run, conditionOf]
  cases op.valueOf args with
  | error f => rfl
  | ok v =>
    simp only [Pending.condition, bind, Except.bind]
    cases checkText field with
    | error issues => rfl
    | ok a =>
      rcases Nat.mod_two_eq_zero_or_one negations with h | h <;>
        simp [h, ChainState.runAll, ChainState.tree]

/-- The condition has the operator that completes it. -/
theorem conditionOf_operator {field : Value} {op : Operator} {args : List Value} {c : Condition}
    (h : conditionOf field op args = .ok c) : c.operator = .known op := by
  obtain ⟨v, -, h⟩ := bind_eq_ok.1 h
  split at h
  · cases h
    rfl
  · cases h

/-- A chain is joined with its own tree as the operand. -/
theorem run_joinChain (root : Option Criteria) (connective : Connective) {t : Criteria}
    (ht : t.WellMade) :
    (ChainState.chain root).run (.joinChain connective (chainValue (some t))) =
      .ok (.chain (some (Criteria.connect root connective t))) := by
  have hrun : ∀ node : Value, node ≠ .null →
      (ChainState.chain root).run (.joinChain connective (.chain node)) =
        .ok (.chain (some (Criteria.connect root connective (Criteria.ofValue node)))) := by
    intro node hnull
    cases node <;> first | contradiction | rfl
  have h := hrun t.toValue (Criteria.toValue_ne_null ht)
  rw [Criteria.ofValue_toValue ht] at h
  exact h

/-! ## Trees and truth values agree -/

variable (truth : String → OperatorName → Value → Bool) (hollow : Bool)

/-- The truth of a tree whose conditions have a truth by field, operator and value. -/
def truthOf (t : Criteria) : Bool :=
  t.holds (fun c => truth c.field c.operator c.value) hollow

/-- Calls lead to a tree and to a truth value that agree: the tree is well made and has that truth
value, or both are missing for the same reason. -/
structure Agrees (tree : Except Failure (Option Criteria))
    (value : Except Failure (Option Bool)) : Prop where
  wellMade : ∀ {root}, tree = .ok root → ∀ t ∈ root, t.WellMade
  same : tree.map (Option.map (truthOf truth hollow)) = value

variable {truth hollow}

theorem Agrees.ok {root : Option Criteria} (h : ∀ t ∈ root, t.WellMade) :
    Agrees truth hollow (.ok root) (.ok (root.map (truthOf truth hollow))) := by
  constructor
  · rintro _ ⟨⟩
    exact h
  · rfl

theorem Agrees.error (f : Failure) : Agrees truth hollow (.error f) (.error f) := by
  constructor
  · rintro _ ⟨⟩
  · rfl

/-- Agreement goes through steps one after the other. -/
theorem Agrees.bind {tree : Except Failure (Option Criteria)} {value : Except Failure (Option Bool)}
    {f : Option Criteria → Except Failure (Option Criteria)}
    {g : Option Bool → Except Failure (Option Bool)} (h : Agrees truth hollow tree value)
    (hstep : ∀ root : Option Criteria, (∀ t ∈ root, t.WellMade) →
      Agrees truth hollow (f root) (g (root.map (truthOf truth hollow)))) :
    Agrees truth hollow (tree >>= f) (value >>= g) := by
  obtain ⟨hwell, rfl⟩ := h
  cases tree with
  | error f => exact .error f
  | ok root => exact hstep root (hwell rfl)

/-- Joining an operand to a tree joins its truth value. -/
theorem truthOf_connect (connective : Connective) {left : Option Criteria}
    (hleft : ∀ t ∈ left, t.WellMade) (right : Criteria) :
    truthOf truth hollow (Criteria.connect left connective right) =
      joined connective (truthOf truth hollow right) (left.map (truthOf truth hollow)) := by
  cases left with
  | none => rfl
  | some t =>
    cases connective with
    | and =>
      cases t with
      | all cs =>
        simp [Criteria.connect, truthOf, joined, Criteria.holds_all]
      | _ => simp [Criteria.connect, truthOf, joined, Criteria.holds_all]
    | or =>
      cases t with
      | any cs =>
        -- a group without children would lose its truth value `hollow` when it gets a child
        cases hleft (.any cs) rfl with
        | any _ hne hcs =>
          simp [Criteria.connect, truthOf, joined, Criteria.holds_any, hne]
      | _ => simp [Criteria.connect, truthOf, joined, Criteria.holds_any]

theorem Agrees.connect (connective : Connective) {root : Option Criteria} {operand : Criteria}
    (hroot : ∀ t ∈ root, t.WellMade) (hoperand : operand.WellMade) :
    Agrees truth hollow (.ok (some (Criteria.connect root connective operand)))
      (.ok (some (joined connective (truthOf truth hollow operand)
        (root.map (truthOf truth hollow))))) := by
  have hwell : ∀ t ∈ some (Criteria.connect root connective operand), t.WellMade := by
    rintro _ ⟨⟩
    exact .connect hroot connective hoperand
  rw [← truthOf_connect connective hroot operand]
  exact Agrees.ok hwell

/-- A call keeps the agreement of trees and truth values. -/
def Keeps (truth : String → OperatorName → Value → Bool) (hollow : Bool) (call : FluentCall) :
    Prop :=
  ∀ root : Option Criteria, (∀ t ∈ root, t.WellMade) →
    Agrees truth hollow (perform call root) (value truth call (root.map (truthOf truth hollow)))

theorem keeps_condition (connective : Connective) (field : Value) (negations : Nat)
    (op : Operator) (args : List Value) :
    Keeps truth hollow (.condition connective field negations op args) := by
  intro root hroot
  rw [perform_condition, value]
  cases hc : conditionOf field op args with
  | error f => exact .error f
  | ok c =>
    have hop := conditionOf_operator hc
    -- one negation is left of an odd number of them, none of an even one
    have hoperand : (if negations % 2 = 1 then Criteria.not (.condition c)
        else .condition c).WellMade := by
      split
      · exact .not _ (.condition c op hop)
      · exact .condition c op hop
    have htruth : truthOf truth hollow
        (if negations % 2 = 1 then Criteria.not (.condition c) else .condition c) =
        (if negations % 2 = 1 then !truth c.field c.operator c.value
          else truth c.field c.operator c.value) := by
      split <;> rfl
    have hagree : Agrees truth hollow _ _ := Agrees.connect connective hroot hoperand
    rw [htruth] at hagree
    exact hagree

theorem keeps_negate : Keeps truth hollow .negate := by
  intro root hroot
  rw [perform, value]
  have h : ∀ t ∈ root.map Criteria.not, t.WellMade := by
    intro t ht
    obtain ⟨c, hc, rfl⟩ := Option.map_eq_some_iff.1 ht
    exact .not c (hroot c hc)
  have hagree : Agrees truth hollow _ _ := Agrees.ok h
  cases root <;> exact hagree

theorem keeps_boost (weight : Value) : Keeps truth hollow (.boost weight) := by
  intro root hroot
  rw [perform, value]
  have h : ∀ t ∈ root.map (Criteria.boostLast weight), t.WellMade := by
    intro t ht
    obtain ⟨c, hc, rfl⟩ := Option.map_eq_some_iff.1 ht
    exact (hroot c hc).boostLast weight
  have hagree : Agrees truth hollow _ _ := Agrees.ok h
  cases root with
  | none => exact hagree
  | some t =>
    rw [Option.map_some, Option.map_some, truthOf,
      Criteria.holds_boostLast _ _ weight fun _ => rfl] at hagree
    exact hagree

theorem keeps_all {calls : List FluentCall} (hcalls : ∀ call ∈ calls, Keeps truth hollow call)
    (root : Option Criteria) (hroot : ∀ t ∈ root, t.WellMade) :
    Agrees truth hollow (performAll calls root)
      (valueAll truth calls (root.map (truthOf truth hollow))) := by
  induction calls generalizing root with
  | nil => exact Agrees.ok hroot
  | cons call calls ih =>
    rw [List.forall_mem_cons] at hcalls
    rw [performAll, valueAll]
    exact (hcalls.1 root hroot).bind (ih hcalls.2)

theorem keeps_chain (connective : Connective) {calls : List FluentCall}
    (hcalls : ∀ call ∈ calls, Keeps truth hollow call) :
    Keeps truth hollow (.chain connective calls) := by
  intro root hroot
  rw [perform, value]
  refine (keeps_all hcalls none (by simp)).bind ?_
  intro other hother
  cases other with
  | none => exact Agrees.ok hroot
  | some t =>
    have ht := hother t rfl
    -- the joined chain comes as records, from which its tree is read back
    rw [run_joinChain root connective ht]
    exact Agrees.connect connective hroot ht

/-- Every call keeps the agreement. -/
theorem keeps (call : FluentCall) : Keeps truth hollow call :=
  @FluentCall.rec (Keeps truth hollow) (fun calls => ∀ call ∈ calls, Keeps truth hollow call)
    keeps_condition (fun connective _ => keeps_chain connective) keeps_negate keeps_boost
    (fun _ h => absurd h List.not_mem_nil) (fun _ _ hc hcs => List.forall_mem_cons.2 ⟨hc, hcs⟩) call

/-- **The tree of a chain has the truth value of its calls**, joined strictly from left to right,
for every sequence of calls on the empty chain and every truth assignment to conditions by field,
operator and value. Where a call fails, both fail alike. -/
theorem holds_performAll (truth : String → OperatorName → Value → Bool) (hollow : Bool)
    (calls : List FluentCall) :
    (performAll calls none).map
        (Option.map fun t => t.holds (fun c => truth c.field c.operator c.value) hollow) =
      valueAll truth calls none :=
  (keeps_all (fun call _ => keeps call) none (by simp)).same

end FluentCall

end SearchWire
