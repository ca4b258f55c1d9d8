import SearchWire.Mapping.Path

/-!
# Instances of domain types

A record is an instance of a model if documents show the properties of the model of it, under the
names that the model gives, and if the properties that are declared with a model hold instances of
that model or nothing. A path through such properties can be followed in every instance. What a
model makes of data is an instance, see `IsInstance.of_build`.

* `IsInstance`: the instances of a model. They may be of a class that extends the model.
* `Catalogue.Reaches`: the models that such paths lead through.
* `Model.NamesApart`: the names in documents tell the properties of a model apart.
* `Catalogue.walk_cons`: the first name of a path.
-/

namespace SearchWire

/-- The record is an instance of the named model: of its class or of one that extends it. A
property may go on with a model if it is declared with one, optional or not, in no collection. -/
inductive IsInstance (cat : Catalogue) : String → Value → Prop where
  | record {name : String} {c : RecordClass} {slots : List (Slot Value)} {m : Model}
      (hclass : c.isA name) (hmodel : cat.model? name = some m)
      (hdistinct : (slots.map Slot.name).Nodup)
      (hshown : (slots.filter fun s => c.shows s.name).map (fun s => (s.name, s.wire)) =
        m.properties.map fun p => (p.name, p.wire))
      (hparts : ∀ p ∈ m.properties, ∀ n, p.declared.unwrap = (.named n, false) →
        (cat.model? n).isSome → ∀ s ∈ slots, s.name = p.name → s.value.isNull = false →
        IsInstance cat n s.value) :
      IsInstance cat name (.record c slots)

theorem IsInstance.exists_model {cat : Catalogue} {name : String} {v : Value}
    (h : IsInstance cat name v) : ∃ m, cat.model? name = some m := by
  cases h with
  | record hclass hmodel => exact ⟨_, hmodel⟩

/-- Properties have names in documents, and distinct ones. -/
def Model.NamesApart (m : Model) : Prop :=
  (m.properties.map Property.wire).Nodup ∧ ∀ p ∈ m.properties, p.wire ≠ ""

instance (m : Model) : Decidable m.NamesApart := inferInstanceAs (Decidable (_ ∧ _))

namespace EntityProperty

@[simp]
theorem ofProperty_name (p : Property) : (ofProperty p).name = p.name := rfl

theorem ofProperty_type (p : Property) : (ofProperty p).type = p.declared.unwrap.1 := rfl

theorem ofProperty_isList (p : Property) : (ofProperty p).isList = p.declared.unwrap.2 := rfl

theorem ofProperty_wire {p : Property} (h : p.wire ≠ "") : (ofProperty p).wire = p.wire := by
  have hempty : p.wire.isEmpty = false := by simp [h]
  rw [ofProperty, hempty]
  rfl

end EntityProperty

namespace Catalogue

/-- Queries and documents have the same names for the properties of a model. -/
theorem wires_entityOf {cat : Catalogue} {type : TypeExpr} {m : Model} (h : m.NamesApart) :
    (cat.entityOf type m).properties.map EntityProperty.wire = m.properties.map Property.wire := by
  rw [entityOf, List.map_map]
  apply List.map_congr_left
  intro p hp
  exact EntityProperty.ofProperty_wire (h.2 p hp)

/-- The models that are reached from one through properties that are declared with a model. -/
inductive Reaches (cat : Catalogue) (root : String) : String → Prop where
  | root : Reaches cat root root
  | part {name n : String} {m : Model} {p : Property} (h : Reaches cat root name)
      (hmodel : cat.model? name = some m) (hp : p ∈ m.properties)
      (hn : p.declared.unwrap = (.named n, false)) : Reaches cat root n

variable {cat : Catalogue}

/-- The first name of a path is a property of a model; the path goes on in its type. -/
theorem walk_cons {type : TypeExpr} {name : String} {names : List String}
    {ps : List EntityProperty} (h : cat.walk type (name :: names) = some ps) :
    ∃ n m p rest, type = .named n ∧ cat.model? n = some m ∧
      m.properties.find? (·.name == name) = some p ∧
      cat.walk (EntityProperty.ofProperty p).type names = some rest ∧
      ps = EntityProperty.ofProperty p :: rest := by
  obtain ⟨e, he, h⟩ := Option.bind_eq_some_iff.1 h
  obtain ⟨ep, hep, h⟩ := Option.bind_eq_some_iff.1 h
  obtain ⟨rest, hrest, h⟩ := Option.bind_eq_some_iff.1 h
  cases h
  cases type with
  | named n =>
    obtain ⟨m, hm, rfl⟩ := Option.map_eq_some_iff.1 he
    rw [Entity.property?, entityOf, List.find?_map] at hep
    obtain ⟨p, hp, rfl⟩ := Option.map_eq_some_iff.1 hep
    exact ⟨n, m, p, rest, rfl, hm, hp, hrest, rfl⟩
  | _ => cases he

end Catalogue

theorem segments_ne_nil (cs : List Char) : segments cs ≠ [] := by
  cases cs with
  | nil => simp [segments]
  | cons c cs =>
    rw [segments]
    split
    · simp
    · split <;> simp

theorem pathNames_ne_nil (path : String) : pathNames path ≠ [] := by
  simpa [pathNames] using segments_ne_nil path.toList

end SearchWire
