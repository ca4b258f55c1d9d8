import SearchWire.Clause.Basic
import SearchWire.Proofs.Value.Fields

/-!
# Clauses as predicates

A clause, written as an object, is read as a predicate once it is known which of its parts hold
that are no boolean clauses. `match_all` holds always; a boolean clause asks all of `must`, none
of `must_not` and, where there are alternatives, `minimum_should_match` of them.

* `Value.holds`: the truth of a clause under a truth assignment to the others.
* `Value.holds_matchAll`, `Value.holds_boolean`: the truth of the clauses that are put together
  here.
-/

namespace SearchWire

namespace Value

/-- How many alternatives of a boolean clause have to hold. -/
def leastAlternatives (parts : Entries) : Int :=
  match findEntry? parts "minimum_should_match" with
  | some (.int n) => n
  | _ => 1

/-- What one part of a boolean clause asks of the truth of its clauses. -/
def partHolds (least : Int) (name : String) (truths : List Bool) : Bool :=
  match name with
  | "must" => truths.all id
  | "must_not" => truths.all not
  | "should" => decide (least ≤ (truths.count true : Int))
  | _ => true

mutual

/-- The truth of a clause; `atom` gives the truth of clauses that are not boolean. -/
def holds (atom : Value → Bool) : Value → Bool
  | .dict [(.str "match_all", _)] => true
  | .dict [(.str "bool", .dict parts)] => partsHold atom (leastAlternatives parts) parts
  | v => atom v

/-- All parts of a boolean clause get what they ask for. One clause alone needs no list. -/
def partsHold (atom : Value → Bool) (least : Int) : Entries → Bool
  | [] => true
  | (.str name, .list vs) :: parts =>
    partHolds least name (truths atom vs) && partsHold atom least parts
  | (.str name, v) :: parts =>
    partHolds least name [holds atom v] && partsHold atom least parts
  | _ :: parts => partsHold atom least parts

def truths (atom : Value → Bool) : List Value → List Bool
  | [] => []
  | v :: vs => holds atom v :: truths atom vs

end

variable (atom : Value → Bool)

theorem truths_eq_map (vs : List Value) : truths atom vs = vs.map (holds atom) := by
  induction vs with
  | nil => rfl
  | cons v vs ih => rw [truths, ih, List.map_cons]

/-- A part under another name, such as a weight or a number, asks for nothing. -/
theorem partHolds_other (least : Int) {name : String} (hmust : name ≠ "must")
    (hnot : name ≠ "must_not") (hshould : name ≠ "should") (ts : List Bool) :
    partHolds least name ts = true := by
  unfold partHolds
  split <;> first | contradiction | rfl

/-- An alternative that is asked for is one that holds. -/
theorem partHolds_should (ts : List Bool) : partHolds 1 "should" ts = ts.any id := by
  rw [partHolds, Bool.eq_iff_iff, decide_eq_true_eq, List.any_eq_true]
  simp only [id, exists_eq_right]
  rw [← List.count_pos_iff]
  omega

theorem partsHold_append (least : Int) (ps qs : Entries) :
    partsHold atom least (ps ++ qs) = (partsHold atom least ps && partsHold atom least qs) := by
  induction ps with
  | nil => simp [partsHold]
  | cons p ps ih =>
    obtain ⟨k, v⟩ := p
    cases k with
    | str name => cases v <;> simp [partsHold, ih, Bool.and_assoc]
    | _ => simp [partsHold, ih]

end Value

namespace Clause

open Value

/-- The truth of a clause. -/
def holds (atom : Value → Bool) (c : Clause) : Bool := c.toValue.holds atom

variable (atom : Value → Bool)

theorem truths_toValues (cs : List Clause) : truths atom (toValues cs) = cs.map (holds atom) := by
  induction cs with
  | nil => rfl
  | cons c cs ih => rw [toValues, truths, ih, List.map_cons, holds]

/-- A list of clauses asks for what its name says; an empty one is left out. -/
theorem partsHold_listField {name : String} (least : Int) (cs : List Clause)
    (hnil : partHolds least name [] = true) :
    partsHold atom least (Fields.entries (listField name (toValues cs))) =
      partHolds least name (cs.map (holds atom)) := by
  cases cs with
  | nil => simp [listField, toValues, Fields.entries, partsHold, hnil]
  | cons c cs =>
    rw [← truths_toValues, toValues]
    simp [listField, Fields.entries, partsHold]

/-- One of the alternatives has to hold, unless there are none. -/
theorem partsHold_shouldFields (least : Int) (cs : List Clause) (hleast : cs ≠ [] → least = 1) :
    partsHold atom least (Fields.entries (shouldFields (toValues cs))) =
      (cs.isEmpty || cs.any (holds atom)) := by
  cases cs with
  | nil => rfl
  | cons c cs =>
    have htruths : truths atom (c.toValue :: toValues cs) = (c :: cs).map (holds atom) :=
      truths_toValues atom (c :: cs)
    have hnumber := partHolds_other 1 (show "minimum_should_match" ≠ "must" by decide)
      (by decide) (by decide)
    rw [hleast (List.cons_ne_nil c cs), toValues]
    simp only [shouldFields, Fields.entries, List.isEmpty_cons, Bool.false_eq_true, if_false,
      List.map_cons, List.map_nil, partsHold, htruths, partHolds_should, hnumber, Bool.false_or,
      Bool.and_true]
    rw [← List.map_cons, List.any_map, Function.id_comp]

@[simp]
theorem holds_matchAll : holds atom .matchAll = true := by
  simp [holds, toValue, object, Value.holds]

/-- The parts of a boolean clause, as its object has them. -/
def parts (must mustNot should : List Clause) (boost : Value) : Fields :=
  Fields.setGiven (listField "must" (toValues must) ++ listField "must_not" (toValues mustNot) ++
    shouldFields (toValues should)) "boost" boost

theorem parts_eq (must mustNot should : List Clause) (boost : Value) :
    parts must mustNot should boost =
      listField "must" (toValues must) ++ listField "must_not" (toValues mustNot) ++
        shouldFields (toValues should) ++ Fields.given [("boost", boost)] := by
  have hnew : "boost" ∉ Fields.names (listField "must" (toValues must) ++
      listField "must_not" (toValues mustNot) ++ shouldFields (toValues should)) := by
    simp only [Fields.names_append, List.mem_append]
    unfold listField shouldFields Fields.names
    split <;> split <;> split <;> simp
  unfold parts
  cases boost with
  | null => simp [Fields.setGiven, Fields.given]
  | _ => rw [Fields.setGiven, Fields.set_of_not_mem hnew] <;> simp [Fields.given]

/-- One alternative has to hold where there are any. -/
theorem leastAlternatives_parts (must mustNot : List Clause) (c : Clause) (should : List Clause)
    (boost : Value) :
    leastAlternatives (Fields.entries (parts must mustNot (c :: should) boost)) = 1 := by
  have hfind : ∀ rest : Entries,
      findEntry? (Fields.entries (listField "must" (toValues must) ++
        listField "must_not" (toValues mustNot) ++ shouldFields (toValues (c :: should))) ++ rest)
        "minimum_should_match" = some (.int 1) := by
    intro rest
    rw [toValues]
    unfold listField shouldFields
    split <;> split <;> simp [Fields.entries, findEntry?, text?]
  rw [leastAlternatives, parts_eq, Fields.entries_append, hfind]

/-- The weight of a boolean clause asks for nothing. -/
theorem partsHold_boost (least : Int) (boost : Value) :
    partsHold atom least (Fields.entries (Fields.given [("boost", boost)])) = true := by
  have hother := partHolds_other least (show "boost" ≠ "must" by decide) (by decide) (by decide)
  cases boost <;> simp [Fields.given, Fields.entries, partsHold, hother]

/-- **The truth of a boolean clause**: all of the first, none of the second, one of the third
unless there is none. Its weight plays no part. -/
theorem holds_boolean (must mustNot should : List Clause) (boost : Value) :
    holds atom (.boolean must mustNot should boost) =
      (must.all (holds atom) && mustNot.all (fun c => !holds atom c) &&
        (should.isEmpty || should.any (holds atom))) := by
  have hleast : should ≠ [] →
      leastAlternatives (Fields.entries (parts must mustNot should boost)) = 1 := by
    cases should with
    | nil => intro h; contradiction
    | cons c should => intro _; exact leastAlternatives_parts must mustNot c should boost
  have hread : holds atom (.boolean must mustNot should boost) =
      partsHold atom (leastAlternatives (Fields.entries (parts must mustNot should boost)))
        (Fields.entries (parts must mustNot should boost)) := by
    simp [holds, toValue, object, Value.holds, parts, Fields.entries]
  rw [hread]
  generalize leastAlternatives (Fields.entries (parts must mustNot should boost)) = least at hleast
  rw [parts_eq]
  simp only [Fields.entries_append, partsHold_append, partsHold_boost, Bool.and_true]
  rw [partsHold_listField atom least must rfl, partsHold_listField atom least mustNot rfl,
    partsHold_shouldFields atom least should hleast]
  simp [partHolds, List.all_map, Function.comp_def]

end Clause

end SearchWire
