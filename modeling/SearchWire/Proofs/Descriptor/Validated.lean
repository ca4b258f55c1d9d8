import SearchWire.Descriptor.Catalogue
import SearchWire.Proofs.Request.Suits

/-!
# Descriptors that were validated

A record that is taken for a record of a model is not looked into again: what is known of its
properties is known from when it was built. A validated value is one all of whose records were built
from validated values, at whatever depth. What is taken of it for a record of a model conforms to
this model, as long as a class that extends another one has the properties of that one.

* `Validated`: values whose records were all built.
* `Catalogue.Sound`: classes have the properties and the rules of those that they extend.
* `Conforms`, `OfClass`: what is known of a record of a model, and of one of a class.
* `exists_ofClass_of_check`: what is taken for a record of a model is of a class that extends it.
* `conforms_of_build`, `conforms_of_check`: **a validated record conforms to its model**, and so
  does what is taken for a record of the model.
* `Conforms.admits`, `Conforms.required`, `Conforms.optional`, `Conforms.record_optional`: the
  values of its properties.
* `Catalogue.standard_sound`: **the catalogue of the library is sound.**
-/

namespace SearchWire

/-- Values that have no values in them; a chain of conditions is seen as a whole. -/
def Value.isSimple : Value → Bool
  | .list _ | .tuple _ | .set _ | .dict _ | .record _ _ => false
  | _ => true

/-- Values whose records were all built, from arguments that are validated themselves. -/
inductive Validated (cat : Catalogue) : Value → Prop where
  | simple {v : Value} (h : v.isSimple) : Validated cat v
  | items {v : Value} {xs : List Value} (hv : v.collection? = some xs)
      (h : ∀ x ∈ xs, Validated cat x) : Validated cat v
  | entries {es : Entries} (h : ∀ e ∈ es, Validated cat e.2) : Validated cat (.dict es)
  | built {name : String} {args : Fields} {v : Value} (hargs : ∀ f ∈ args, Validated cat f.2)
      (h : cat.build name args = .ok v) : Validated cat v

/-- The properties of every model have names of their own, and a class that extends another one has
the properties and the rule of that one. -/
structure Catalogue.Sound (cat : Catalogue) : Prop where
  names_nodup : ∀ m ∈ cat.models, (m.properties.map Property.name).Nodup
  inherits : ∀ m ∈ cat.models, ∀ name ∈ m.ancestors, ∀ base, cat.model? name = some base →
    base.properties ⊆ m.properties ∧ ∀ slots, m.rule slots = none → base.rule slots = none

theorem Catalogue.model?_name {cat : Catalogue} {name : String} {m : Model}
    (h : cat.model? name = some m) : m ∈ cat.models ∧ m.name = name :=
  ⟨List.mem_of_find?_eq_some h, by simpa using List.find?_some h⟩

namespace Validated

variable {cat : Catalogue}

theorem object {fs : Fields} (h : ∀ f ∈ fs, Validated cat f.2) : Validated cat (.object fs) :=
  .entries (List.forall_mem_map.2 h)

theorem texts (ss : List String) : Validated cat (.ofTexts ss) :=
  .items rfl (List.forall_mem_map.2 fun _ _ => .simple rfl)

theorem of_entries {es : Entries} (h : Validated cat (.dict es)) :
    ∀ e ∈ es, Validated cat e.2 := by
  cases h with
  | simple h => cases h
  | items hv h => cases hv
  | entries h => exact h
  | built hargs h =>
    obtain ⟨m, a, -, ha, hvalue⟩ := build_eq_ok.1 h
    rw [(buildRecord_ok ha).2] at hvalue
    cases hvalue

theorem of_collection {v : Value} {xs : List Value} (h : Validated cat v)
    (hv : v.collection? = some xs) : ∀ x ∈ xs, Validated cat x := by
  cases h with
  | simple h =>
    cases v with
    | list => cases h
    | tuple => cases h
    | set => cases h
    | _ => cases hv
  | items hv' h =>
    cases hv.symm.trans hv'
    exact h
  | entries h => cases hv
  | built hargs h =>
    obtain ⟨m, a, -, ha, rfl⟩ := build_eq_ok.1 h
    rw [(buildRecord_ok ha).2] at hv
    cases hv

theorem of_record {c : RecordClass} {slots : List (Slot Value)}
    (h : Validated cat (.record c slots)) :
    ∃ name args, (∀ f ∈ args, Validated cat f.2) ∧ cat.build name args = .ok (.record c slots) := by
  cases h with
  | simple h => cases h
  | items hv h => cases hv
  | built hargs h => exact ⟨_, _, hargs, h⟩

end Validated

/-! ## Records that conform -/

/-- A record is of a model, its properties took validated values or are as by default, and it meets
the rule of the model. -/
structure Conforms (cat : Catalogue) (m : Model) (v : Value) : Prop where
  isInstance : v.isInstance m.name
  property : ∀ p ∈ m.properties, (∃ w a, Validated cat w ∧ check cat w p.shape = .ok a ∧
    v.field p.name = a.value) ∨ p.default = some (v.field p.name)
  rule : ∃ slots, (∀ name, Value.slotValue slots name = v.field name) ∧ m.rule slots = none

variable {cat : Catalogue} {m : Model} {name : String} {v w : Value}

/-- A record is of the class of a model and conforms to the model. -/
structure OfClass (cat : Catalogue) (m : Model) (v : Value) : Prop where
  found : cat.model? m.name = some m
  conforms : Conforms cat m v
  isInstance_eq : ∀ name, v.isInstance name = m.cls.isA name

/-- What is known of a record holds of the record as one of a class that it extends. -/
theorem Conforms.view {c : RecordClass} {slots : List (Slot Value)} (base : Model)
    (h : Conforms cat m (.record c slots)) : Conforms cat m (base.view c slots) := by
  obtain ⟨shown, hshown, hrule⟩ := h.rule
  refine ⟨h.isInstance, fun p hp => ?_, shown, fun key => ?_, hrule⟩
  · rw [field_view]
    exact h.property p hp
  · rw [field_view]
    exact hshown key

theorem OfClass.view {c : RecordClass} {slots : List (Slot Value)} (base : Model)
    (h : OfClass cat m (.record c slots)) : OfClass cat m (base.view c slots) :=
  ⟨h.found, h.conforms.view base, h.isInstance_eq⟩

/-- A record conforms to the models of its class and of those that this class extends. -/
theorem OfClass.conforms_of_isA {base : Model} (hcat : cat.Sound)
    (hbase : cat.model? name = some base) (h : OfClass cat m v) (hisA : m.cls.isA name) :
    Conforms cat base v := by
  have hname := (cat.model?_name hbase).2
  rw [RecordClass.isA, Bool.or_eq_true] at hisA
  rcases hisA with hsame | hextends
  · have heq : m.name = name := beq_iff_eq.1 hsame
    cases hbase.symm.trans (heq ▸ h.found)
    exact h.conforms
  · have hancestor : name ∈ m.ancestors := by simpa [Model.cls] using hextends
    obtain ⟨hproperties, hrules⟩ :=
      hcat.inherits m (cat.model?_name h.found).1 name hancestor base hbase
    obtain ⟨shown, hshown, hrule⟩ := h.conforms.rule
    refine ⟨?_, fun p hp => h.conforms.property p (hproperties hp), shown, hshown, hrules _ hrule⟩
    rw [hname, h.isInstance_eq, RecordClass.isA, Bool.or_eq_true]
    exact .inr hextends

/-- A record that is made from entries with validated values is of the class of its model. -/
theorem ofClass_of_buildRecord {es : Entries} {a : Accepted} (hcat : cat.Sound)
    (hm : cat.model? name = some m) (hes : ∀ e ∈ es, Validated cat e.2)
    (h : buildRecord m ⟨[], checkEntries cat es⟩ = .ok a) : OfClass cat m a.value := by
  obtain ⟨hok, hvalue, hrule⟩ := buildRecord_ok_rule h
  obtain ⟨hmem, hname⟩ := cat.model?_name hm
  rw [hvalue]
  have hinstance : (recordOf m ⟨[], checkEntries cat es⟩).isInstance m.name := by
    simp [recordOf, Value.isInstance, RecordClass.isA, Model.cls]
  refine ⟨hname.symm ▸ hm, ⟨hinstance, ?_, _, fun _ => ?_, hrule⟩, fun _ => rfl⟩
  · intro p hp
    obtain ⟨b, hb⟩ := hok p hp
    have hfield := field_recordOf ⟨[], checkEntries cat es⟩ (hcat.names_nodup m hmem) hp
    rw [hb] at hfield
    rcases checkProperty_entries hb with ⟨e, he, ha⟩ | hdefault
    · exact .inl ⟨e.2, b, hes e he, ha, hfield⟩
    · exact .inr (by rw [hdefault, hfield]; rfl)
  · rfl

/-- A record that was built from validated arguments is of the class of its model. -/
theorem ofClass_of_build {args : Fields} (hcat : cat.Sound) (hm : cat.model? name = some m)
    (hargs : ∀ f ∈ args, Validated cat f.2) (h : cat.build name args = .ok v) :
    OfClass cat m v := by
  obtain ⟨m', a, hm', ha, rfl⟩ := build_eq_ok.1 h
  cases hm.symm.trans hm'
  exact ofClass_of_buildRecord hcat hm (List.forall_mem_map.2 hargs) ha

/-- A record that was built from validated arguments conforms to its model. -/
theorem conforms_of_build {args : Fields} (hcat : cat.Sound) (hm : cat.model? name = some m)
    (hargs : ∀ f ∈ args, Validated cat f.2) (h : cat.build name args = .ok v) :
    Conforms cat m v := (ofClass_of_build hcat hm hargs h).conforms

/-- What is taken for a record of a model is of a class that is the one of the model or extends
it, if it is validated. -/
theorem exists_ofClass_of_check {a : Accepted} (hcat : cat.Sound) (hw : Validated cat w)
    (h : check cat w (.model name) = .ok a) : ∃ m, m.cls.isA name ∧ OfClass cat m a.value := by
  cases w with
  | dict es =>
    have hcheck : check cat (.dict es) (.model name) =
        checkModel cat name (.dict es) ⟨[], checkEntries cat es⟩ := rfl
    rw [hcheck, checkModel] at h
    split at h
    · next m hm =>
      refine ⟨m, ?_, ofClass_of_buildRecord hcat hm hw.of_entries h⟩
      rw [← (cat.model?_name hm).2]
      simp [RecordClass.isA, Model.cls]
    · cases h
  | record c slots =>
    have hcheck : check cat (.record c slots) (.model name) =
        checkModel cat name (.record c slots) noParts := rfl
    rw [hcheck, checkModel] at h
    split at h
    · next hc =>
      -- the record was built of the model or of one that extends it
      obtain ⟨name', args, hargs, hbuild⟩ := hw.of_record
      obtain ⟨m, a', hm, ha', -⟩ := build_eq_ok.1 hbuild
      have hof := ofClass_of_build hcat hm hargs hbuild
      have hisA : m.cls.isA name := (hof.isInstance_eq name).symm.trans hc
      split at h
      · next base _ =>
        cases h
        exact ⟨m, hisA, hof.view base⟩
      · cases h
        exact ⟨m, hisA, hof⟩
    · cases h
  | _ => cases h

/-- **What is taken for a record of a model conforms to it**, if it is validated. -/
theorem conforms_of_check {a : Accepted} (hcat : cat.Sound) (hm : cat.model? name = some m)
    (hw : Validated cat w) (h : check cat w (.model name) = .ok a) : Conforms cat m a.value := by
  obtain ⟨m', hisA, hof⟩ := exists_ofClass_of_check hcat hw h
  exact hof.conforms_of_isA hcat hm hisA

/-! ## Properties of records that conform -/

namespace Conforms

variable {p : Property} (key : String) {inner : Shape} {m' : Model}

/-- What a record has for a property that a request may have is of its shape. -/
theorem admits (h : Conforms cat m v) (hp : p ∈ m.properties) (hwire : p.isWire) :
    p.shape.Admits (v.field p.name) := by
  rcases h.property p hp with ⟨w, a, -, ha, heq⟩ | hdefault
  · exact heq ▸ admits_of_check (Property.isWire_shape hwire) ha
  · exact Property.admits_default hwire hdefault

/-- What has to be given is of its shape. -/
theorem required (inner : Shape) (h : Conforms cat m v)
    (hp : .required key inner ∈ m.properties) :
    ∃ w a, Validated cat w ∧ check cat w inner = .ok a ∧ v.field key = a.value := by
  rcases h.property _ hp with hgiven | hdefault
  · exact hgiven
  · cases hdefault

/-- What may be given is `null` or of its shape. -/
theorem optional (h : Conforms cat m v) (hp : .optional key inner ∈ m.properties) :
    v.field key = .null ∨
      ∃ w a, Validated cat w ∧ check cat w inner = .ok a ∧ v.field key = a.value := by
  rcases h.property _ hp with ⟨w, a, hw, ha, hvalue⟩ | hdefault
  · have hoptional : check cat w (.optional inner) = .ok a := ha
    have hfield : v.field key = a.value := hvalue
    rw [check_optional] at hoptional
    split at hoptional
    · next hnull =>
      cases hoptional
      exact .inl (hfield.trans (Value.eq_null_of_isNull hnull))
    · exact .inr ⟨w, a, hw, hoptional, hfield⟩
  · exact .inl (Option.some.inj hdefault).symm

/-- A record that has to be given conforms to its model. -/
theorem record_required (base : String) (hcat : cat.Sound) (hm' : cat.model? base = some m')
    (h : Conforms cat m v) (hp : .required key (.model base) ∈ m.properties) :
    Conforms cat m' (v.field key) := by
  obtain ⟨w, a, hw, ha, hvalue⟩ := h.required key _ hp
  rw [hvalue]
  exact conforms_of_check hcat hm' hw ha

/-- A record that may be given conforms to its model. -/
theorem record_optional (base : String) (hcat : cat.Sound) (hm' : cat.model? base = some m')
    (h : Conforms cat m v) (hp : .optional key (.model base) ∈ m.properties) :
    v.field key = .null ∨ Conforms cat m' (v.field key) := by
  refine (h.optional key hp).imp id ?_
  rintro ⟨w, a, hw, ha, hvalue⟩
  rw [hvalue]
  exact conforms_of_check hcat hm' hw ha

/-- A number that had to be in bounds is a number, if it is given. -/
theorem admits_whole (low high : Option Int) (h : Conforms cat m v)
    (hp : .optional key (.integer low high) ∈ m.properties) :
    (Shape.optional .whole).Admits (v.field key) := by
  rcases h.optional key hp with hnull | ⟨w, a, -, ha, hvalue⟩
  · exact hnull ▸ .null _
  · obtain ⟨n, hn⟩ := check_integer_ok ha
    rw [hvalue, hn]
    exact .given (.whole n)

end Conforms

/-- What is read from a value that may be `null`. -/
theorem forall_of_unlessNull {α : Type} {P : α → Prop} {read : Value → Option α} {o : Option α}
    (h : v.unlessNull read = some o) (hP : v ≠ .null → ∀ a, read v = some a → P a) :
    ∀ a ∈ o, P a := by
  unfold Value.unlessNull at h
  split at h
  · cases h
    nofun
  · next hnull =>
    obtain ⟨a, ha, rfl⟩ := Option.map_eq_some_iff.1 h
    rintro b ⟨⟩
    exact hP (fun heq => hnull (heq ▸ rfl)) a ha

/-! ## The library -/

namespace Catalogue

/-- The models of the library are found by their names. -/
theorem model?_standard {m : Model} (hm : m ∈ standardModels) : standard.model? m.name = some m :=
  find?_of_nodup (by decide +kernel) hm

/-- Choices of hits, queries and requests extend others, and no other model does. -/
theorem extensions_eq : standardModels.filter (fun m => !m.ancestors.isEmpty) =
    Paging.models.tail ++ Query.models.tail.take 3 ++ RequestKind.all.map RequestKind.model := rfl

/-- **The catalogue of the library is sound.** -/
theorem standard_sound : standard.Sound where
  names_nodup := by decide +kernel
  inherits := by
    have hbases : ∀ m ∈ Paging.models.tail ++ Query.models.tail.take 3 ++
        RequestKind.all.map RequestKind.model, ∀ name ∈ m.ancestors, ∃ base,
          standard.model? name = some base ∧ base.properties ⊆ m.properties ∧
            ∀ slots, base.rule slots = none := by
      simp only [List.forall_mem_append]
      refine ⟨⟨?_, ?_⟩, ?_⟩
      · have hpageable : ∀ m : Model, ∃ base, standard.model? "Pageable" = some base ∧
            base.properties ⊆ m.properties ∧ ∀ slots, base.rule slots = none :=
          fun m => ⟨Paging.baseModel, rfl, List.nil_subset _, fun _ => rfl⟩
        simp only [Paging.models, List.tail_cons, List.forall_mem_cons]
        exact ⟨List.forall_mem_singleton.2 (hpageable _),
          List.forall_mem_singleton.2 (hpageable _),
          List.forall_mem_cons.2
            ⟨⟨Paging.pageModel, rfl, List.subset_append_left _ _, fun _ => rfl⟩,
              List.forall_mem_singleton.2 (hpageable _)⟩, List.forall_mem_nil _⟩
      · have hquery : ∀ name more, ∃ base, standard.model? "Query" = some base ∧
            base.properties ⊆ (Query.modelOf name more).properties ∧
              ∀ slots, base.rule slots = none :=
          fun _ _ => ⟨.plain "Query" Query.properties, rfl, List.subset_append_left _ _,
            fun _ => rfl⟩
        simp only [Query.models, List.tail_cons, List.take_succ_cons, List.take_zero,
          List.forall_mem_cons]
        exact ⟨List.forall_mem_singleton.2 (hquery _ _), List.forall_mem_singleton.2 (hquery _ _),
          List.forall_mem_singleton.2 (hquery _ _), List.forall_mem_nil _⟩
      · simp only [List.forall_mem_map]
        intro kind _
        exact List.forall_mem_singleton.2
          ⟨RequestKind.baseModel, rfl, List.nil_subset _, fun _ => rfl⟩
    intro m hm name hname base hbase
    have hextends : m ∈ standardModels.filter fun m => !m.ancestors.isEmpty := by
      rw [List.mem_filter]
      refine ⟨hm, ?_⟩
      cases hancestors : m.ancestors with
      | nil => simp [hancestors] at hname
      | cons a as => rfl
    rw [extensions_eq] at hextends
    obtain ⟨base', hbase', hproperties, hrule⟩ := hbases m hextends name hname
    cases hbase.symm.trans hbase'
    exact ⟨hproperties, fun slots _ => hrule slots⟩

end Catalogue

end SearchWire
