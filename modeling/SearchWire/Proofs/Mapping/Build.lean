import Mathlib.Data.List.Nodup
import SearchWire.Proofs.Mapping.Instance
import SearchWire.Proofs.Schema.Check
import SearchWire.Schema.Declaration

/-!
# Records made from data are instances

What a model makes of data is an instance of the model, at any depth: where a property is declared
with a model, the value is a record that this model made, or one that was an instance before.

* `Shape.check_ofType`: a type that goes on with a model accepts nothing or what the model accepts.
* `Model.IsDeclared`: what is asked of models, and `TypeDeclaration.isDeclared` for domain types.
* `IsData`: data, in which records may be used that are instances already.
* `IsInstance.of_build`: **records made from data are instances.**
-/

namespace SearchWire

variable {cat : Catalogue}

theorem TypeExpr.unwrapEach_eq_map (types : List TypeExpr) :
    unwrapEach types = (types.filter fun t => !t.isNone).map unwrap := by
  induction types with
  | nil => rfl
  | cons t types ih =>
    rw [unwrapEach, ih, List.filter_cons]
    cases t.isNone <;> rfl

namespace Shape

theorem ofTypes_eq_map (types : List TypeExpr) :
    ofTypes cat types = (types.filter fun t => !t.isNone).map (ofType cat) := by
  induction types with
  | nil => rfl
  | cons t types ih =>
    rw [ofTypes, ih, List.filter_cons]
    cases t.isNone <;> rfl

/-- A union goes on with a model only if it has one member beside `null`, which goes on with it. -/
theorem ofType_union {members : List TypeExpr} {piped : Bool} {n : String}
    (h : (TypeExpr.union members piped).unwrap = (.named n, false)) :
    ∃ t ∈ members, t.unwrap = (.named n, false) ∧
      (ofType cat (.union members piped) = ofType cat t ∨
        ofType cat (.union members piped) = .optional (ofType cat t)) := by
  rw [TypeExpr.unwrap, TypeExpr.unwrapEach_eq_map] at h
  split at h
  · next r hr =>
    obtain ⟨t, ht, rfl⟩ := List.map_eq_singleton_iff.1 hr
    have hmem : t ∈ members.filter fun t => !t.isNone := by simp [ht]
    refine ⟨t, (List.mem_filter.1 hmem).1, h, ?_⟩
    rw [ofType, ofTypes_eq_map, ht]
    simp only [List.map_cons, List.map_nil]
    split
    · exact .inr rfl
    · exact .inl rfl
  · cases h

/-- A type that goes on with a model accepts nothing or what the model accepts. -/
theorem check_ofType {cat₀ : Catalogue} {n : String} (hn : ofName cat₀ n = .model n)
    {type : TypeExpr} (htype : type.unwrap = (.named n, false)) {v : Value} {a : Accepted}
    (h : check cat v (ofType cat₀ type) = .ok a) :
    a.value.isNull ∨ check cat v (.model n) = .ok a := by
  cases type with
  | named k =>
    cases htype
    rw [ofType, hn] at h
    exact .inr h
  | union members piped =>
    obtain ⟨t, ht, hunwrap, hshape | hshape⟩ := @ofType_union cat₀ _ _ _ htype
    · rw [hshape] at h
      exact check_ofType hn hunwrap h
    · rw [hshape, check_optional] at h
      split at h
      · next hnull =>
        cases h
        exact .inl hnull
      · exact check_ofType hn hunwrap h
  | tuple items => cases items <;> simp [TypeExpr.unwrap] at htype
  | _ => simp [TypeExpr.unwrap] at htype
termination_by sizeOf type
decreasing_by
  all_goals
    have hsize := List.sizeOf_lt_of_mem ht
    simp_all only [TypeExpr.union.sizeOf_spec]
    omega

end Shape

/-- The properties of a model have distinct names; one that goes on with a model accepts what its
declared type accepts, and its default is nothing or an instance. -/
structure Model.IsDeclared (cat : Catalogue) (m : Model) : Prop where
  distinct : (m.properties.map Property.name).Nodup
  typed : ∀ p ∈ m.properties, ∀ n, p.declared.unwrap = (.named n, false) →
    (cat.model? n).isSome →
    ∃ cat₀, p.shape = Shape.ofType cat₀ p.declared ∧ Shape.ofName cat₀ n = .model n
  default : ∀ p ∈ m.properties, ∀ n, p.declared.unwrap = (.named n, false) →
    (cat.model? n).isSome → ∀ v ∈ p.default, v.isNull = false → IsInstance cat n v

/-- A domain type that extends no other one is declared in this sense, if the names of models are
not those of other types and if defaults are nothing where a property goes on with a model. -/
theorem TypeDeclaration.isDeclared {cat₀ : Catalogue} {d : TypeDeclaration} {m : Model}
    (hbase : d.base = none) (hm : (cat₀.declare d).model? d.name = some m)
    (hnames : (d.fields.map FieldDeclaration.name).Nodup)
    (hmodels : ∀ n, (cat.model? n).isSome → Shape.ofName cat₀ n = .model n)
    (hdefaults : ∀ f ∈ d.fields, ∀ n, f.type.unwrap = (.named n, false) → (cat.model? n).isSome →
      ∀ v ∈ f.default, v.isNull) : m.IsDeclared cat := by
  have hproperties : m.properties = d.fields.map (·.property cat₀ d.byName) := by
    rw [Catalogue.model?, Catalogue.declare, hbase, List.find?_cons_of_pos (by simp)] at hm
    cases hm
    simp [overrideProperties]
  refine ⟨?_, ?_, ?_⟩
  · rw [hproperties, List.map_map]
    exact hnames
  · intro p hp n _ hn
    rw [hproperties] at hp
    obtain ⟨f, -, rfl⟩ := List.mem_map.1 hp
    exact ⟨cat₀, rfl, hmodels n hn⟩
  · intro p hp n htype hn v hv hset
    rw [hproperties] at hp
    obtain ⟨f, hf, rfl⟩ := List.mem_map.1 hp
    rw [hdefaults f hf n htype hn v hv] at hset
    contradiction

/-- Data in which every record is an instance of each model that it may stand for. -/
inductive IsData (cat : Catalogue) : Value → Prop where
  | object {es : Entries} (h : ∀ e ∈ es, IsData cat e.2) : IsData cat (.dict es)
  | record {c : RecordClass} {slots : List (Slot Value)}
      (h : ∀ n m, c.isA n → cat.model? n = some m → IsInstance cat n (m.view c slots)) :
      IsData cat (.record c slots)
  | plain {v : Value} (hobject : ∀ es, v ≠ .dict es) (hrecord : ∀ c slots, v ≠ .record c slots) :
      IsData cat v

/-- What is given to a property is the value of an entry. -/
theorem exists_entry_of_findGiven {keys : List String} {es : Entries} {key : String}
    {f : Shape → Verdict} (h : findGiven keys ⟨[], checkEntries cat es⟩ = some (key, f)) :
    ∃ e ∈ es, f = check cat e.2 := by
  obtain ⟨k, -, hk⟩ := List.exists_of_findSome?_eq_some h
  obtain ⟨entry, hfind, heq⟩ := Option.map_eq_some_iff.1 hk
  have hmem := List.mem_of_find?_eq_some hfind
  rw [checkEntries_eq_map] at hmem
  obtain ⟨e, he, rfl⟩ := List.mem_map.1 hmem
  cases heq
  exact ⟨e, he, rfl⟩

namespace IsInstance

/-- A record is an instance if the entries that it is made from give instances where a property
goes on with a model. -/
theorem of_buildRecord {n : String} {m : Model} {es : Entries} {a : Accepted}
    (hm : cat.model? n = some m) (hdeclared : m.IsDeclared cat)
    (hes : ∀ e ∈ es, ∀ k b, (cat.model? k).isSome → check cat e.2 (.model k) = .ok b →
      IsInstance cat k b.value)
    (h : buildRecord m ⟨[], checkEntries cat es⟩ = .ok a) : IsInstance cat n a.value := by
  obtain ⟨hok, hvalue⟩ := buildRecord_ok h
  have hname : m.name = n := by simpa using List.find?_some hm
  rw [hvalue, recordOf]
  refine .record ?_ hm ?_ ?_ ?_
  · simp [RecordClass.isA, Model.cls, hname]
  · rw [List.map_map]
    exact hdeclared.distinct
  · have hall : ∀ slots : List (Slot Value),
        (slots.filter fun s => m.cls.shows s.name) = slots := by
      simp [RecordClass.shows, Model.cls]
    rw [hall, List.map_map]
    rfl
  · intro p hp k hk hmodel s hs hsname hset
    obtain ⟨p', hp', rfl⟩ := List.mem_map.1 hs
    -- the slot is that of the property, since names are distinct
    have heq : p' = p := List.inj_on_of_nodup_map hdeclared.distinct hp' hp hsname
    subst heq
    obtain ⟨b, hb⟩ := hok p' hp
    rw [hb, valueOf] at hset ⊢
    -- the property was given or takes its default
    unfold checkProperty at hb
    split at hb
    · next key f hfind =>
      obtain ⟨e, he, rfl⟩ := exists_entry_of_findGiven hfind
      rw [under_eq_ok] at hb
      obtain ⟨cat₀, hshape, hmodel₀⟩ := hdeclared.typed p' hp k hk hmodel
      rw [hshape] at hb
      rcases Shape.check_ofType hmodel₀ hk hb with hnull | hb
      · rw [hnull] at hset
        contradiction
      · exact hes e he k b hmodel hb
    · split at hb
      · next v hv =>
        cases hb
        exact hdeclared.default p' hp k hk hmodel v hv hset
      · cases hb

/-- **What a model accepts is an instance**, where models are declared and records in the data are
instances already. -/
theorem of_check (hdeclared : ∀ n m, cat.model? n = some m → m.IsDeclared cat) {v : Value}
    (hv : IsData cat v) {n : String} (hn : (cat.model? n).isSome) {a : Accepted}
    (h : check cat v (.model n) = .ok a) : IsInstance cat n a.value := by
  obtain ⟨m, hm⟩ := Option.isSome_iff_exists.1 hn
  induction hv generalizing n m a with
  | @object es _ ih =>
    have hbuild : buildRecord m ⟨[], checkEntries cat es⟩ = .ok a := by
      rw [← h]
      have hmodel : check cat (.dict es) (.model n) =
          checkModel cat n (.dict es) ⟨[], checkEntries cat es⟩ := rfl
      rw [hmodel, checkModel, hm]
    refine of_buildRecord hm (hdeclared n m hm) ?_ hbuild
    intro e he k b hk hb
    obtain ⟨mk, hmk⟩ := Option.isSome_iff_exists.1 hk
    exact ih e he hk hb mk hmk
  | @record c slots hrecord =>
    have hmodel : check cat (.record c slots) (.model n) =
        checkModel cat n (.record c slots) noParts := rfl
    rw [hmodel, checkModel, hm] at h
    split at h
    · next hclass =>
      cases h
      exact hrecord n m hclass hm
    · cases h
  | @plain v hobject hrecord =>
    cases v with
    | dict es => exact absurd rfl (hobject es)
    | record c slots => exact absurd rfl (hrecord c slots)
    | _ => cases h

/-- **Records made from data are instances.** -/
theorem of_build (hdeclared : ∀ n m, cat.model? n = some m → m.IsDeclared cat) {name : String}
    {args : Fields} {v : Value} (hargs : ∀ f ∈ args, IsData cat f.2)
    (h : cat.build name args = .ok v) : IsInstance cat name v := by
  obtain ⟨m, a, hm, ha, rfl⟩ := build_eq_ok.1 h
  refine of_buildRecord hm (hdeclared name m hm) ?_ ha
  intro e he k b hk hb
  obtain ⟨f, hf, rfl⟩ := List.mem_map.1 he
  exact of_check hdeclared (hargs f hf) hk hb

end IsInstance

end SearchWire
