import SearchWire.Criteria.Record
import SearchWire.Proofs.Criteria.Basic

/-!
# Trees as records, and back

A tree that a chain is made of is read back from its records unchanged, so a chain that is joined
to another one brings its own tree.

* `Criteria.ofValue_toValue`: reading after writing.
-/

namespace SearchWire.Criteria

theorem operatorName_member (op : Operator) : operatorName (.member op.member) = .known op := by
  cases op <;> rfl

theorem ofValue_conditionRecord {c : Condition} {op : Operator} (hop : c.operator = .known op) :
    ofValue (conditionRecord c) = .condition c := by
  obtain ⟨field, operator, value, boost⟩ := c
  subst hop
  have hread : conditionOf? [slot "kind" (.str "condition"), slot "field" (.str field),
      slot "operator" (.member op.member), slot "value" value, slot "boost" boost] =
      some ⟨field, .known op, value, boost⟩ := by
    simp [conditionOf?, slot, operatorName_member, Value.text?]
  simp [conditionRecord, ofValue, RecordClass.root, hread]

theorem ofValues_toValues {cs : List Criteria} (h : ∀ c ∈ cs, ofValue (toValue c) = c) :
    ofValues (toValues cs) = cs := by
  induction cs with
  | nil => rfl
  | cons c cs ih =>
    rw [List.forall_mem_cons] at h
    rw [toValues, ofValues, h.1, ih h.2]

/-- **Reading after writing**: the records of a tree write down the tree. -/
theorem ofValue_toValue {t : Criteria} (h : WellMade t) : ofValue (toValue t) = t := by
  induction h with
  | condition c op hop => rw [toValue, ofValue_conditionRecord hop]
  | all cs hne hcs ih =>
    simp [toValue, ofValue, RecordClass.root, slot, childrenOf, ofItems, ofValues_toValues ih]
  | any cs hne hcs ih =>
    simp [toValue, ofValue, RecordClass.root, slot, childrenOf, ofItems, ofValues_toValues ih]
  | not c hc ih => simp [toValue, ofValue, RecordClass.root, slot, childOf, ih]

/-- The records of a tree are no `null`, which stands for no tree. -/
theorem toValue_ne_null {t : Criteria} (h : WellMade t) : toValue t ≠ .null := by
  cases h <;> simp [toValue, conditionRecord]

end SearchWire.Criteria
