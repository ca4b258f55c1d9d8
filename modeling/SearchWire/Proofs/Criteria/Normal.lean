import SearchWire.Proofs.Criteria.Fluent
import SearchWire.Proofs.Criteria.Order

/-!
# The trees that calls make

The tree of a chain is in normal form: a group has at least two children, and the first of them is
no group of the same kind, since more operands would have gone into that one. The conditions stand
in it in the order in which the calls added them, those of a joined chain where it was joined. The
two are kept by every call; `Extends` says what a call does to a tree.

* `Criteria.Normal`: the normal form. `Normal.connect` and `Normal.boostLast` keep it.
* `Criteria.Normal.conditions_boostLast`: a weight goes to the last condition.
* `Criteria.contents`: the conditions of a chain without their weights.
* `FluentCall.added`, `FluentCall.addedAll`: the conditions that calls add.
* `FluentCall.adds`: one call, `FluentCall.adds_all`: some calls.
* `FluentCall.performAll_normal`: **trees of calls are in normal form and have the conditions that
  were added, in that order.**
-/

namespace SearchWire

/-- A condition as it is added, without a weight. -/
def Condition.unweighted (c : Condition) : Condition := { c with boost := .null }

namespace Criteria

/-- The connective of a group. -/
def connective? : Criteria → Option Connective
  | .all _ => some .and
  | .any _ => some .or
  | _ => none

/-- Children that make a group with a connective: at least two, the first of which is no group with
the same connective. -/
structure Grouped (connective : Connective) (cs : List Criteria) : Prop where
  two_le : 2 ≤ cs.length
  first : ∀ c ∈ cs.head?, c.connective? ≠ some connective

/-- The normal form of trees. -/
inductive Normal : Criteria → Prop where
  | condition (c : Condition) : Normal (.condition c)
  | all (cs : List Criteria) (h : Grouped .and cs) (hcs : ∀ c ∈ cs, Normal c) : Normal (.all cs)
  | any (cs : List Criteria) (h : Grouped .or cs) (hcs : ∀ c ∈ cs, Normal c) : Normal (.any cs)
  | not (c : Criteria) (hc : Normal c) : Normal (.not c)

/-! ## Joining operands -/

theorem Grouped.pair {connective : Connective} {t : Criteria} (right : Criteria)
    (ht : t.connective? ≠ some connective) : Grouped connective [t, right] := by
  refine ⟨Nat.le_refl 2, ?_⟩
  intro c hc
  cases hc
  exact ht

theorem Grouped.append {connective : Connective} {cs : List Criteria} (h : Grouped connective cs)
    (right : Criteria) : Grouped connective (cs ++ [right]) := by
  have htwo := h.two_le
  have hne : cs ≠ [] := by
    rintro rfl
    simp at htwo
  refine ⟨?_, ?_⟩
  · rw [List.length_append]
    omega
  · rw [List.head?_append_of_ne_nil cs hne]
    exact h.first

/-- An operand joins the group that is there, or it makes a group of two. -/
theorem Normal.connect {left : Option Criteria} {right : Criteria} (hleft : ∀ t ∈ left, Normal t)
    (connective : Connective) (hright : Normal right) :
    Normal (connect left connective right) := by
  cases left with
  | none => exact hright
  | some t =>
    have ht : Normal t := hleft t rfl
    have hpair : ∀ c ∈ [t, right], Normal c :=
      List.forall_mem_cons.2 ⟨ht, List.forall_mem_singleton.2 hright⟩
    have hmore : ∀ {cs : List Criteria}, (∀ c ∈ cs, Normal c) → ∀ c ∈ cs ++ [right], Normal c :=
      fun hcs => List.forall_mem_append.2 ⟨hcs, List.forall_mem_singleton.2 hright⟩
    cases connective with
    | and =>
      cases ht with
      | all cs h hcs => exact .all _ (h.append right) (hmore hcs)
      | _ => exact .all _ (.pair right (by simp [connective?])) hpair
    | or =>
      cases ht with
      | any cs h hcs => exact .any _ (h.append right) (hmore hcs)
      | _ => exact .any _ (.pair right (by simp [connective?])) hpair

/-! ## Weights -/

theorem connective?_boostLast (boost : Value) (t : Criteria) :
    (boostLast boost t).connective? = t.connective? := by
  cases t <;> rfl

theorem Grouped.boostLastOf {connective : Connective} {cs : List Criteria}
    (h : Grouped connective cs) (boost : Value) : Grouped connective (boostLastOf boost cs) := by
  have hmap : (Criteria.boostLastOf boost cs).map connective? = cs.map connective? :=
    map_boostLastOf connective? boost fun c _ => connective?_boostLast boost c
  refine ⟨?_, ?_⟩
  · rw [length_boostLastOf]
    exact h.two_le
  · intro c hc
    -- the first child has the connective of the one that was there before
    have hhead : cs.head?.map connective? = some c.connective? := by
      rw [← List.head?_map, ← hmap, List.head?_map, hc]
      rfl
    obtain ⟨d, hd, hsame⟩ := Option.map_eq_some_iff.1 hhead
    rw [← hsame]
    exact h.first d hd

theorem Normal.boostLast {t : Criteria} (h : Normal t) (boost : Value) :
    Normal (t.boostLast boost) := by
  induction h with
  | condition c => exact .condition _
  | all cs h hcs ih => exact .all _ (h.boostLastOf boost) (forall_mem_boostLastOf hcs ih)
  | any cs h hcs ih => exact .any _ (h.boostLastOf boost) (forall_mem_boostLastOf hcs ih)
  | not c hc ih => exact .not _ ih

/-! ## Conditions -/

/-- The conditions of a chain from left to right, without their weights. -/
def contents : Option Criteria → List Condition
  | none => []
  | some t => t.conditions.map Condition.unweighted

theorem contents_connect (left : Option Criteria) (connective : Connective) (right : Criteria) :
    contents (some (connect left connective right)) = contents left ++ contents (some right) := by
  cases left with
  | none => rfl
  | some t =>
    cases connective <;> cases t <;>
      simp [connect, contents, conditions, conditionsOf, conditionsOf_eq_flatMap]

/-- **The last condition gets the weight**, and the others stay as they are. -/
theorem Normal.conditions_boostLast {t : Criteria} (h : Normal t) :
    ∃ before c, t.conditions = before ++ [c] ∧
      ∀ boost : Value, (t.boostLast boost).conditions = before ++ [{ c with boost := boost }] := by
  have hlast : ∀ {connective : Connective} {cs : List Criteria}, Grouped connective cs →
      (∀ d ∈ cs, ∃ before c, d.conditions = before ++ [c] ∧
        ∀ boost : Value, (d.boostLast boost).conditions = before ++ [{ c with boost := boost }]) →
      ∃ before c, cs.flatMap conditions = before ++ [c] ∧ ∀ boost : Value,
        (boostLastOf boost cs).flatMap conditions = before ++ [{ c with boost := boost }] := by
    intro connective cs hcs ih
    have htwo := hcs.two_le
    obtain rfl | ⟨init, last, rfl⟩ := List.eq_nil_or_concat cs
    · simp at htwo
    · rw [List.concat_eq_append] at ih ⊢
      obtain ⟨before, c, hbefore, hboost⟩ := ih last (by simp)
      -- what the children before the last one hold comes before all that it holds itself
      refine ⟨init.flatMap conditions ++ before, c, ?_, ?_⟩
      · rw [List.flatMap_append, List.flatMap_singleton, hbefore, List.append_assoc]
      · intro boost
        rw [boostLastOf_concat, List.flatMap_append, List.flatMap_singleton, hboost boost,
          List.append_assoc]
  induction h with
  | condition c => exact ⟨[], c, rfl, fun _ => rfl⟩
  | all cs h hcs ih => simpa only [Criteria.boostLast, conditions_all] using hlast h ih
  | any cs h hcs ih => simpa only [Criteria.boostLast, conditions_any] using hlast h ih
  | not c hc ih => exact ih

theorem contents_boostLast {root : Option Criteria} (hroot : ∀ t ∈ root, t.Normal)
    (boost : Value) : contents (root.map (boostLast boost)) = contents root := by
  cases root with
  | none => rfl
  | some t =>
    obtain ⟨before, c, hconditions, hboost⟩ := (hroot t rfl).conditions_boostLast
    simp only [Option.map_some, contents, hconditions, hboost boost, List.map_append]
    rfl

/-- A tree as calls make it: in normal form, and read back from its records. -/
structure Sound (t : Criteria) : Prop where
  normal : t.Normal
  wellMade : t.WellMade

end Criteria

namespace FluentCall

open Criteria

mutual

/-- The conditions that a call adds. -/
def added : FluentCall → Except Failure (List Condition)
  | .condition _ field _ op args => do .ok [← conditionOf field op args]
  | .chain _ calls => addedAll calls
  | .negate | .boost _ => .ok []

/-- The conditions that some calls add, in that order. -/
def addedAll : List FluentCall → Except Failure (List Condition)
  | [] => .ok []
  | call :: calls => do .ok ((← added call) ++ (← addedAll calls))

end

/-- A condition is added without a weight. -/
theorem unweighted_conditionOf {field : Value} {op : Operator} {args : List Value} {c : Condition}
    (h : conditionOf field op args = .ok c) : c.unweighted = c := by
  obtain ⟨v, -, h⟩ := bind_eq_ok.1 h
  split at h
  · cases h
    rfl
  · cases h

/-- What leads from a chain to another one adds some conditions at the end and makes a sound tree,
or it fails where the conditions cannot be made. -/
inductive Extends (root : Option Criteria) :
    Except Failure (Option Criteria) → Except Failure (List Condition) → Prop
  | adds {root' : Option Criteria} {cs : List Condition} (hsound : ∀ t ∈ root', t.Sound)
      (hcs : contents root' = contents root ++ cs) : Extends root (.ok root') (.ok cs)
  | fails (f : Failure) : Extends root (.error f) (.error f)

namespace Extends

variable {root : Option Criteria} {tree : Except Failure (Option Criteria)}
  {more rest : Except Failure (List Condition)}

theorem refl (hroot : ∀ t ∈ root, t.Sound) : Extends root (.ok root) (.ok []) :=
  .adds hroot (List.append_nil _).symm

theorem connect (connective : Connective) {operand : Criteria} (hroot : ∀ t ∈ root, t.Sound)
    (hoperand : operand.Sound) :
    Extends root (.ok (some (Criteria.connect root connective operand)))
      (.ok (contents (some operand))) := by
  have hnormal : ∀ t ∈ root, t.Normal := fun t ht => (hroot t ht).normal
  have hwell : ∀ t ∈ root, t.WellMade := fun t ht => (hroot t ht).wellMade
  refine .adds ?_ (contents_connect root connective operand)
  rintro _ ⟨⟩
  exact ⟨.connect hnormal connective hoperand.normal, .connect hwell connective hoperand.wellMade⟩

/-- What leads on from an extended chain adds its conditions behind the others. -/
theorem bind {f : Option Criteria → Except Failure (Option Criteria)} (h : Extends root tree more)
    (hstep : ∀ root' : Option Criteria, (∀ t ∈ root', t.Sound) → Extends root' (f root') rest) :
    Extends root (tree >>= f) (do .ok ((← more) ++ (← rest))) := by
  cases h with
  | fails e => exact .fails e
  | @adds root' cs hsound hcs =>
    have hnext : Extends root' (f root') rest := hstep root' hsound
    show Extends root (f root') (do .ok (cs ++ (← rest)))
    generalize f root' = tree' at hnext ⊢
    cases hnext with
    | fails e => exact .fails e
    | adds hsound' hds =>
      refine .adds hsound' ?_
      rw [hds, hcs, List.append_assoc]

end Extends

/-- A call adds its conditions to every sound chain. -/
def Adds (call : FluentCall) : Prop :=
  ∀ root : Option Criteria, (∀ t ∈ root, t.Sound) → Extends root (perform call root) (added call)

theorem adds_condition (connective : Connective) (field : Value) (negations : Nat) (op : Operator)
    (args : List Value) : Adds (.condition connective field negations op args) := by
  intro root hroot
  rw [perform_condition, added]
  cases hc : conditionOf field op args with
  | error f => exact .fails f
  | ok c =>
    have hleaf : (Criteria.condition c).Sound :=
      ⟨.condition c, .condition c op (conditionOf_operator hc)⟩
    -- a negation around the condition changes neither its form nor what it contains
    have hoperand : (if negations % 2 = 1 then Criteria.not (.condition c)
        else .condition c).Sound := by
      split
      · exact ⟨.not _ hleaf.normal, .not _ hleaf.wellMade⟩
      · exact hleaf
    have hcontents : contents (some (if negations % 2 = 1 then Criteria.not (.condition c)
        else .condition c)) = [c] := by
      split <;> exact congrArg (fun d => [d]) (unweighted_conditionOf hc)
    have hjoin := Extends.connect connective hroot hoperand
    rw [hcontents] at hjoin
    exact hjoin

theorem adds_negate : Adds .negate := by
  intro root hroot
  rw [perform, added]
  have hsound : ∀ t ∈ root.map Criteria.not, t.Sound := by
    intro t ht
    obtain ⟨c, hc, rfl⟩ := Option.map_eq_some_iff.1 ht
    exact ⟨.not c (hroot c hc).normal, .not c (hroot c hc).wellMade⟩
  have hcontents : contents (root.map Criteria.not) = contents root ++ [] := by
    rw [List.append_nil]
    cases root <;> rfl
  exact .adds hsound hcontents

theorem adds_boost (weight : Value) : Adds (.boost weight) := by
  intro root hroot
  rw [perform, added]
  have hsound : ∀ t ∈ root.map (Criteria.boostLast weight), t.Sound := by
    intro t ht
    obtain ⟨c, hc, rfl⟩ := Option.map_eq_some_iff.1 ht
    exact ⟨(hroot c hc).normal.boostLast weight, (hroot c hc).wellMade.boostLast weight⟩
  have hcontents : contents (root.map (Criteria.boostLast weight)) = contents root ++ [] := by
    rw [List.append_nil, contents_boostLast fun t ht => (hroot t ht).normal]
  exact .adds hsound hcontents

/-- Calls one after the other add their conditions one after the other. -/
theorem adds_all {calls : List FluentCall} (hcalls : ∀ call ∈ calls, Adds call)
    (root : Option Criteria) (hroot : ∀ t ∈ root, t.Sound) :
    Extends root (performAll calls root) (addedAll calls) := by
  induction calls generalizing root with
  | nil => exact .refl hroot
  | cons call calls ih =>
    rw [List.forall_mem_cons] at hcalls
    rw [performAll, addedAll]
    exact (hcalls.1 root hroot).bind (ih hcalls.2)

theorem adds_chain (connective : Connective) {calls : List FluentCall}
    (hcalls : ∀ call ∈ calls, Adds call) : Adds (.chain connective calls) := by
  intro root hroot
  have hother : Extends none (performAll calls none) (addedAll calls) :=
    adds_all hcalls none (by simp)
  rw [perform, added]
  generalize performAll calls none = tree at hother ⊢
  generalize addedAll calls = more at hother ⊢
  cases hother with
  | fails f => exact .fails f
  | @adds other cs hsound hcs =>
    have hcs : contents other = cs := hcs
    subst hcs
    cases other with
    | none => exact .refl hroot
    | some t =>
      have ht : t.Sound := hsound t rfl
      -- the joined chain comes as records, from which its tree is read back
      have hrun := run_joinChain root connective ht.wellMade
      have hjoin := Extends.connect connective hroot ht
      show Extends root ((ChainState.chain root).run (.joinChain connective
        (chainValue (some t))) >>= ChainState.tree) _
      rw [hrun]
      exact hjoin

/-- Every call adds its conditions. -/
theorem adds (call : FluentCall) : Adds call :=
  @FluentCall.rec Adds (fun calls => ∀ call ∈ calls, Adds call) adds_condition
    (fun connective _ => adds_chain connective) adds_negate adds_boost
    (fun _ h => absurd h List.not_mem_nil) (fun _ _ hc hcs => List.forall_mem_cons.2 ⟨hc, hcs⟩) call

/-- A chain of calls, from the empty one. -/
theorem extends_performAll (calls : List FluentCall) :
    Extends none (performAll calls none) (addedAll calls) :=
  adds_all (fun call _ => adds call) none (by simp)

/-- **The trees of calls.** They have the conditions that the calls add, in that order, those of a
joined chain where it was joined; where a call fails there is no tree. There is no tree only if
there are no conditions, and otherwise it is in normal form. -/
theorem performAll_normal (calls : List FluentCall) :
    (performAll calls none).map contents = addedAll calls ∧
      ∀ root, performAll calls none = .ok root →
        (root = none ↔ addedAll calls = .ok []) ∧ ∀ t ∈ root, t.Normal := by
  have h := extends_performAll calls
  generalize performAll calls none = tree at h ⊢
  generalize addedAll calls = more at h ⊢
  cases h with
  | fails f => exact ⟨rfl, nofun⟩
  | @adds root cs hsound hcs =>
    have hcs : contents root = cs := hcs
    subst hcs
    refine ⟨rfl, ?_⟩
    rintro _ ⟨⟩
    refine ⟨?_, fun t ht => (hsound t ht).normal⟩
    cases root with
    | none => exact ⟨fun _ => rfl, fun _ => rfl⟩
    | some t =>
      -- a tree in normal form has a last condition
      obtain ⟨before, c, hconditions, -⟩ := (hsound t rfl).normal.conditions_boostLast
      have hne : contents (some t) ≠ [] := by simp [contents, hconditions]
      exact ⟨nofun, fun hnil => absurd (Except.ok.inj hnil) hne⟩

/-- Calls with a joined chain that is adopted and goes on, a negation of all, and another joined
chain with a negated condition. -/
private def mixedCalls : List FluentCall :=
  [.chain .or [.condition .and (.str "a") 0 .exists [], .condition .or (.str "b") 0 .exists []],
    .condition .or (.str "c") 0 .equals [.int 1], .negate,
    .chain .and [.condition .and (.str "d") 3 .exists [], .boost (.int 2)]]

theorem performAll_normal_mixed :
    ∃ root, performAll mixedCalls none = .ok root ∧
      (performAll mixedCalls none).map contents = .ok
        [⟨"a", .known .exists, .null, .null⟩, ⟨"b", .known .exists, .null, .null⟩,
          ⟨"c", .known .equals, .int 1, .null⟩, ⟨"d", .known .exists, .null, .null⟩] ∧
      ∀ t ∈ root, t.Normal :=
  ⟨_, rfl, (performAll_normal mixedCalls).1, ((performAll_normal mixedCalls).2 _ rfl).2⟩

end FluentCall

end SearchWire
