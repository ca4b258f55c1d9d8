import SearchWire.Mapping.Registry

/-!
# What the registry keeps is invisible

An entity is a function of the catalogue alone, so it makes no difference whether it was kept or is
worked out now. What changes is the list of the kept entities, and only at its end.

* `Question`, `Answer`, `Registry.ask`: the calls of a resolver, as data, so that runs of them can
  be spoken of.
* `Registry.Holds`: the invariant. The entities are those of models with distinct names.
* `Catalogue.visited`: the models in which the names of a path are looked up.
* `Registry.askAll_ofTypes`: the answers of every run, and the registry after it.
-/

namespace SearchWire

/-! ## Types and entities -/

namespace TypeExpr

theorem named_beq {t : TypeExpr} {name : String} : (.named name == t) = true ↔ t = .named name := by
  change same (.named name) t = true ↔ _
  cases t with
  | named n => simp only [same, beq_iff_eq, named.injEq]; exact eq_comm
  | _ => simp [same]

end TypeExpr

namespace Catalogue

variable {cat : Catalogue} {type : TypeExpr} {name : String} {e : Entity}

theorem modelName?_eq_some :
    cat.modelName? type = some name ↔ type = .named name ∧ (cat.model? name).isSome := by
  cases type with
  | named n =>
    cases hm : cat.model? n with
    | none => simp_all [modelName?]; rintro rfl; exact hm
    | some m =>
      have hname : m.name = n := by simpa using List.find?_some hm
      simp only [modelName?, hm, Option.map_some, Option.some.injEq, hname, TypeExpr.named.injEq]
      exact ⟨by rintro rfl; exact ⟨rfl, by simp [hm]⟩, And.left⟩
  | _ => simp [modelName?]

theorem entity?_eq_none (h : cat.modelName? type = none) : cat.entity? type = none := by
  cases type with
  | named n => simpa [modelName?, entity?] using h
  | _ => rfl

theorem exists_entity? (h : cat.modelName? type = some name) :
    ∃ e, cat.entity? type = some e ∧ e.type = .named name := by
  obtain ⟨rfl, hm⟩ := modelName?_eq_some.mp h
  obtain ⟨m, hm⟩ := Option.isSome_iff_exists.mp hm
  exact ⟨cat.entityOf (.named name) m, by simp [entity?, hm], rfl⟩

/-- The models in which the names of a path are looked up: those on its way, up to the one that
does not know its name or that knows the last one. -/
def visited (cat : Catalogue) : TypeExpr → List String → List String
  | _, [] => []
  | type, name :: names =>
    (cat.modelName? type).toList ++
      match (cat.entity? type).bind (·.property? name) with
      | none => []
      | some p => visited cat p.type names

end Catalogue

/-! ## What a run adds -/

/-- The names that are met and not kept yet, each once, in the order in which they are met first. -/
def newNames (kept met : List String) : List String := (met.removeAll kept).eraseDups

theorem newNames_singleton (kept : List String) (name : String) :
    newNames kept [name] = if name ∈ kept then [] else [name] := by
  by_cases h : name ∈ kept <;> simp [newNames, List.removeAll, List.eraseDups_cons, h]

/-- To meet names in two steps is to meet them in one. -/
theorem newNames_append (kept first second : List String) :
    newNames kept (first ++ second) =
      newNames kept first ++ newNames (kept ++ newNames kept first) second := by
  have hsplit : (first ++ second).removeAll kept =
      first.removeAll kept ++ second.removeAll kept := by
    simp [List.removeAll]
  have hrest : (second.removeAll kept).removeAll (first.removeAll kept) =
      second.removeAll (kept ++ newNames kept first) := by
    simp only [List.removeAll, List.filter_filter, newNames]
    refine List.filter_congr fun name _ => ?_
    by_cases hkept : name ∈ kept <;> simp [hkept]
  rw [newNames, hsplit, List.eraseDups_append, hrest]
  rfl

/-! ## The invariant -/

namespace Registry

variable {cat : Catalogue} {r : Registry} {kept : List String}

/-- The registry has worked out the models of the given names, in this order. -/
structure Holds (cat : Catalogue) (r : Registry) (kept : List String) : Prop where
  known : ∀ e ∈ r.entities, cat.entity? e.type = some e
  types : r.types = kept.map .named
  models : ∀ name ∈ kept, cat.modelName? (.named name) = some name
  nodup : kept.Nodup

/-- A later registry: names were met in between. -/
structure Grows (cat : Catalogue) (r r' : Registry) (kept met : List String) : Prop where
  holds : r'.Holds cat (kept ++ newNames kept met)
  keeps : r.entities <+: r'.entities

theorem holds_empty (cat : Catalogue) : empty.Holds cat [] :=
  ⟨by simp [empty], rfl, by simp, List.nodup_nil⟩

theorem Holds.refl (h : r.Holds cat kept) : r.Grows cat r kept [] :=
  ⟨by simpa [newNames] using h, List.prefix_rfl⟩

theorem Grows.trans {r' r'' : Registry} {met later : List String} (h : r.Grows cat r' kept met)
    (h' : r'.Grows cat r'' (kept ++ newNames kept met) later) :
    r.Grows cat r'' kept (met ++ later) := by
  refine ⟨?_, h.keeps.trans h'.keeps⟩
  rw [newNames_append, ← List.append_assoc]
  exact h'.holds

/-- A kept entity is the one of the catalogue. -/
theorem Holds.entity?_of_find? {type : TypeExpr} {e : Entity} (h : r.Holds cat kept)
    (hfind : r.entities.find? (·.type == type) = some e) :
    cat.entity? type = some e ∧ ∃ name ∈ kept, type = .named name := by
  have he : e ∈ r.entities := List.mem_of_find?_eq_some hfind
  have htype : e.type ∈ kept.map TypeExpr.named := h.types ▸ List.mem_map_of_mem he
  obtain ⟨name, hname, heq⟩ := List.mem_map.mp htype
  have hsame : type = .named name := by
    have := List.find?_some hfind
    rwa [← heq, TypeExpr.named_beq] at this
  exact ⟨by rw [hsame, heq]; exact h.known e he, name, hname, hsame⟩

theorem Holds.not_mem_of_find? {name : String} (h : r.Holds cat kept)
    (hfind : r.entities.find? (·.type == .named name) = none) : name ∉ kept := by
  intro hname
  have htype : TypeExpr.named name ∈ r.types := h.types ▸ List.mem_map_of_mem hname
  obtain ⟨e, he, heq⟩ := List.mem_map.mp htype
  have := List.find?_eq_none.mp hfind e he
  rw [heq] at this
  exact this (TypeExpr.named_beq.mpr rfl)

/-- A new entity goes to the end. -/
theorem Holds.append {name : String} {e : Entity} (h : r.Holds cat kept) (hnew : name ∉ kept)
    (hname : cat.modelName? (.named name) = some name) (he : cat.entity? (.named name) = some e)
    (htype : e.type = .named name) : Holds cat ⟨r.entities ++ [e]⟩ (kept ++ [name]) where
  known := by
    intro x hx
    obtain hx | rfl := by simpa using hx
    · exact h.known x hx
    · rw [htype, he]
  types := by simpa [Registry.types, htype] using h.types
  models := by
    intro x hx
    obtain hx | rfl := by simpa using hx
    · exact h.models x hx
    · exact hname
  nodup := List.nodup_append.mpr
    ⟨h.nodup, by simp, fun x hx y hy => by
      obtain rfl : y = name := by simpa using hy
      exact fun heq => hnew (heq ▸ hx)⟩

theorem Holds.entity? (h : r.Holds cat kept) (type : TypeExpr) :
    (r.entity? cat type).1 = cat.entity? type ∧
      r.Grows cat (r.entity? cat type).2 kept (cat.modelName? type).toList := by
  unfold Registry.entity?
  split
  -- an entity that is kept is found, so that nothing is added
  case h_1 e hfind =>
    obtain ⟨he, name, hname, rfl⟩ := h.entity?_of_find? hfind
    refine ⟨he.symm, ?_, List.prefix_rfl⟩
    simpa [h.models name hname, newNames_singleton, hname] using h
  case h_2 hfind =>
    cases hmodel : cat.modelName? type with
    | none =>
      rw [Catalogue.entity?_eq_none hmodel]
      exact ⟨rfl, h.refl⟩
    | some name =>
      obtain ⟨rfl, -⟩ := Catalogue.modelName?_eq_some.mp hmodel
      obtain ⟨e, he, htype⟩ := Catalogue.exists_entity? hmodel
      have hnew : name ∉ kept := h.not_mem_of_find? hfind
      rw [he]
      refine ⟨rfl, ?_, List.prefix_append _ _⟩
      simpa [newNames_singleton, hnew] using h.append hnew hmodel he htype

theorem Holds.walk (h : r.Holds cat kept) (type : TypeExpr) (names : List String) :
    (r.walk cat type names).1 = cat.walk type names ∧
      r.Grows cat (r.walk cat type names).2 kept (cat.visited type names) := by
  -- The entity of the type comes first; the rest of the names go on in the registry after it.
  induction names generalizing r kept type with
  | nil => exact ⟨rfl, h.refl⟩
  | cons name names ih =>
    obtain ⟨hentity, hgrows⟩ := h.entity? type
    rw [Registry.walk, Catalogue.walk, Catalogue.visited]
    simp only [hentity]
    cases he : cat.entity? type with
    | none => exact ⟨rfl, by simpa using hgrows⟩
    | some e =>
      cases hp : e.property? name with
      | none => exact ⟨by simp [hp], by simpa [hp] using hgrows⟩
      | some p =>
        obtain ⟨hwalk, hrest⟩ := ih hgrows.holds p.type
        simp only [Option.bind_some, hp, hwalk]
        refine ⟨?_, hgrows.trans hrest⟩
        cases hw : cat.walk p.type names <;> simp [hp, hw]

end Registry

/-! ## Runs of questions -/

/-- A call of a resolver. -/
inductive Question where
  | fieldName (type : TypeExpr) (path : String)
  | fieldType (type : TypeExpr) (path : String)
  | tracksWrites (type : TypeExpr)
  | holder (type : TypeExpr)
  | entity (type : TypeExpr)

/-- What a call gives back. -/
inductive Answer where
  | name (name? : Option String)
  | type (type? : Option TypeExpr)
  | truth (b : Bool)
  | entity (entity? : Option Entity)

/-- The models that a call looks at, in the order in which it does. -/
def Question.visited (cat : Catalogue) : Question → List String
  | .fieldName type path => cat.visited type (pathNames path)
  | .fieldType type path => cat.visited type (pathNames path)
  | .tracksWrites type => (cat.modelName? type).toList
  | .holder type => (cat.modelName? type).toList
  | .entity type => (cat.modelName? type).toList

/-- The answer by the catalogue alone. -/
def Question.answer (cat : Catalogue) : Question → Answer
  | .fieldName type path => .name (cat.fieldName? type path)
  | .fieldType type path => .type (cat.fieldType? type path)
  | .tracksWrites type => .truth (cat.holder? type).isSome
  | .holder type => .name (cat.holder? type)
  | .entity type => .entity (cat.entity? type)

namespace Registry

variable {cat : Catalogue} {r : Registry} {kept : List String}

/-- The answer of a registry, and the registry after the call. -/
def ask (cat : Catalogue) (r : Registry) : Question → Answer × Registry
  | .fieldName type path => (r.fieldName? cat type path).map .name id
  | .fieldType type path => (r.fieldType? cat type path).map .type id
  | .tracksWrites type => (r.holder? cat type).map (fun name? => .truth name?.isSome) id
  | .holder type => (r.holder? cat type).map .name id
  | .entity type => (r.entity? cat type).map .entity id

/-- The answers of calls one after the other, and the registry after the last one. -/
def askAll (cat : Catalogue) : Registry → List Question → List Answer × Registry
  | r, [] => ([], r)
  | r, q :: qs =>
    let (answer, r) := r.ask cat q
    let (answers, r) := askAll cat r qs
    (answer :: answers, r)

/-- The models whose entities are kept, oldest first. -/
def models (cat : Catalogue) (r : Registry) : List String := r.types.filterMap cat.modelName?

theorem Holds.models_eq (h : r.Holds cat kept) : r.models cat = kept := by
  rw [Registry.models, h.types, List.filterMap_map]
  have hmodels := h.models
  clear h
  induction kept with
  | nil => rfl
  | cons name names ih =>
    rw [List.forall_mem_cons] at hmodels
    simpa [hmodels.1] using ih hmodels.2

theorem Holds.ask (h : r.Holds cat kept) (q : Question) :
    (r.ask cat q).1 = q.answer cat ∧ r.Grows cat (r.ask cat q).2 kept (q.visited cat) := by
  cases q with
  | fieldName type path =>
    obtain ⟨hwalk, hgrows⟩ := h.walk type (pathNames path)
    refine ⟨?_, hgrows⟩
    simp [Registry.ask, fieldName?, hwalk, Question.answer, Catalogue.fieldName?, Catalogue.path?]
  | fieldType type path =>
    obtain ⟨hwalk, hgrows⟩ := h.walk type (pathNames path)
    refine ⟨?_, hgrows⟩
    simp [Registry.ask, fieldType?, hwalk, Question.answer, Catalogue.fieldType?, Catalogue.path?]
  | tracksWrites type =>
    obtain ⟨hentity, hgrows⟩ := h.entity? type
    exact ⟨by simp [Registry.ask, holder?, hentity, Question.answer, Catalogue.holder?], hgrows⟩
  | holder type =>
    obtain ⟨hentity, hgrows⟩ := h.entity? type
    exact ⟨by simp [Registry.ask, holder?, hentity, Question.answer, Catalogue.holder?], hgrows⟩
  | entity type =>
    obtain ⟨hentity, hgrows⟩ := h.entity? type
    exact ⟨by simp [Registry.ask, hentity, Question.answer], hgrows⟩

theorem Holds.askAll (h : r.Holds cat kept) (qs : List Question) :
    (r.askAll cat qs).1 = qs.map (Question.answer cat) ∧
      r.Grows cat (r.askAll cat qs).2 kept (qs.flatMap (Question.visited cat)) := by
  induction qs generalizing r kept with
  | nil => exact ⟨rfl, h.refl⟩
  | cons q qs ih =>
    obtain ⟨hanswer, hgrows⟩ := h.ask q
    obtain ⟨hanswers, hrest⟩ := ih hgrows.holds
    exact ⟨by simp [Registry.askAll, hanswer, hanswers], hgrows.trans hrest⟩

/-- Initial entities are entities that were asked for first. -/
theorem ofTypes_eq (cat : Catalogue) (types : List TypeExpr) :
    ofTypes cat types = (empty.askAll cat (types.map .entity)).2 := by
  unfold ofTypes
  generalize empty = r
  induction types generalizing r with
  | nil => rfl
  | cons type types ih => exact ih (r.entity? cat type).2

/-- **What was kept changes no answer.** After any initial entities and any calls, every call was
answered as in a registry that is empty; every type was kept at most once, and only models; later
calls leave the kept entities where they are; and the next call keeps the models that it looks at
and that were not kept yet, each where it is met first. -/
theorem askAll_ofTypes (cat : Catalogue) (initial : List TypeExpr) (questions : List Question) :
    let (answers, r) := (ofTypes cat initial).askAll cat questions
    answers = questions.map (fun q => (empty.ask cat q).1) ∧
      r.types.Nodup ∧ (∀ type ∈ r.types, (cat.modelName? type).isSome) ∧
      (∀ later, r.entities <+: (r.askAll cat later).2.entities) ∧
      ∀ q, (r.ask cat q).2.types =
        r.types ++ (newNames (r.models cat) (q.visited cat)).map .named := by
  obtain ⟨-, hinitial⟩ := (holds_empty cat).askAll (initial.map .entity)
  rw [← ofTypes_eq] at hinitial
  obtain ⟨hanswers, hgrows⟩ := hinitial.holds.askAll questions
  have hholds := hgrows.holds
  refine ⟨?_, ?_, ?_, fun later => (hholds.askAll later).2.keeps, fun q => ?_⟩
  · rw [hanswers]
    exact List.map_congr_left fun q _ => ((holds_empty cat).ask q).1.symm
  · rw [hholds.types]
    exact List.Pairwise.map _ (fun _ _ hne heq => hne (TypeExpr.named.inj heq)) hholds.nodup
  · intro type htype
    rw [hholds.types] at htype
    obtain ⟨name, hname, rfl⟩ := List.mem_map.mp htype
    simp [hholds.models name hname]
  · rw [(hholds.ask q).2.holds.types, hholds.models_eq, hholds.types, List.map_append]

end Registry

end SearchWire
