import SearchWire.Proofs.Failure
import SearchWire.Proofs.Mapping.Instance
import SearchWire.Proofs.Request.Make
import SearchWire.Proofs.Value.Dump
import SearchWire.Write.Request

/-!
# Queries and documents use the same names

A query names a field by a path of properties, of which each has a name in documents; a document
is written property by property, at each depth anew. The two agree: the keys of a path lead through
the document of an instance to what the properties of the path lead to in the instance.

* `Value.follow`: keys through a document. `Value.attributeAt`: attributes through an instance.
* `Value.ReadsAs`: both lead to the same, and to a missing key where an attribute is not set.
* `Value.readsAs_cons`: the step, one attribute and one key. `readsAlong`: whole paths, by induction
  on their names.
* `IndexQuery.body_request`: the document is the body of its request as it was written.
* `IndexQuery.document_readsAs`: **the document of an index request has the names that queries
  use.**
-/

namespace SearchWire

/-- What is found in a document under keys that are followed one after the other. -/
inductive Reading where
  | reached (v : Value)
  /-- An object on the way does not have the key. -/
  | missing
  /-- What is on the way is no object. -/
  | blocked

namespace Value

/-- Follows keys through a document. -/
def follow : List String → Value → Reading
  | [], doc => .reached doc
  | key :: keys, .dict es =>
    match findEntry? es key with
    | some v => follow keys v
    | none => .missing
  | _ :: _, _ => .blocked

/-- The value that attributes lead to one after the other, unless one of them is `null`. -/
def attributeAt : List String → Value → Option Value
  | [], v => some v
  | name :: names, v => if (v.field name).isNull then none else attributeAt names (v.field name)

/-- Keys lead through a document to the plain form of what attributes lead to, and to a missing key
if one of the attributes is `null`. -/
def ReadsAs (doc : Value) (keys : List String) (v : Value) (names : List String) : Prop :=
  match v.attributeAt names with
  | some w => ∃ form, w.documentForm? = some form ∧ doc.follow keys = .reached form
  | none => doc.follow keys = .missing

theorem field_of_mem {c : RecordClass} {slots : List (Slot Value)} {s : Slot Value}
    (hdistinct : (slots.map Slot.name).Nodup) (hs : s ∈ slots) :
    (Value.record c slots).field s.name = s.value := by
  have hfind : slots.find? (fun t => t.name == s.name) = some s := by
    induction slots with
    | nil => cases hs
    | cons t slots ih =>
      rw [List.map_cons, List.nodup_cons] at hdistinct
      rcases List.mem_cons.1 hs with rfl | hs
      · simp
      · have hne : ¬ (t.name == s.name) := by
          have ht : t.name ≠ s.name := fun heq => hdistinct.1 (heq ▸ List.mem_map_of_mem hs)
          simp [ht]
        rw [List.find?_cons_of_neg (p := fun t : Slot Value => t.name == s.name) hne]
        exact ih hdistinct.2 hs
  rw [field, property?, hfind]
  rfl

/-- One attribute and one key: the property has to be shown under a document name of its own. -/
theorem readsAs_cons {c : RecordClass} {shows : String → Bool} {slots : List (Slot Value)}
    {fields : Fields} {s : Slot Value} {keys names : List String}
    (hdistinct : (slots.map Slot.name).Nodup)
    (hwires : ((slots.filter fun s => shows s.name).map Slot.wire).Nodup)
    (h : documentSlots? shows slots = some fields) (hs : s ∈ slots) (hshown : shows s.name)
    (hrest : ∀ doc, s.value.isNull = false → s.value.documentForm? = some doc →
      ReadsAs doc keys s.value names) :
    ReadsAs (.object (Fields.ofList fields)) (s.wire :: keys) (.record c slots)
      (s.name :: names) := by
  have hget := get?_documentSlots hwires h hs hshown
  rw [ReadsAs, attributeAt, field_of_mem hdistinct hs, Fields.object_eq, follow,
    Fields.findEntry?_entries]
  cases hnull : s.value.isNull with
  | true =>
    rw [hnull, if_pos rfl] at hget
    rw [if_pos rfl, hget]
  | false =>
    rw [hnull, if_neg Bool.false_ne_true] at hget
    obtain ⟨doc, hdoc, hget⟩ := hget
    rw [if_neg Bool.false_ne_true, hget]
    exact hrest doc hnull hdoc

end Value

variable {cat : Catalogue}

/-- The slot of a property in an instance, as documents show it. -/
theorem exists_slot {shows : String → Bool} {slots : List (Slot Value)} {m : Model} {p : Property}
    (hshown : (slots.filter fun s => shows s.name).map (fun s => (s.name, s.wire)) =
      m.properties.map fun p => (p.name, p.wire)) (hp : p ∈ m.properties) :
    ∃ s ∈ slots, s.name = p.name ∧ s.wire = p.wire ∧ shows s.name := by
  have hmem : (p.name, p.wire) ∈
      (slots.filter fun s => shows s.name).map fun s => (s.name, s.wire) := by
    rw [hshown]
    exact List.mem_map_of_mem hp
  obtain ⟨s, hs, heq⟩ := List.mem_map.1 hmem
  obtain ⟨hs, hshows⟩ := List.mem_filter.1 hs
  exact ⟨s, hs, congrArg Prod.fst heq, congrArg Prod.snd heq, hshows⟩

theorem wires_eq {shows : String → Bool} {slots : List (Slot Value)} {m : Model}
    (hshown : (slots.filter fun s => shows s.name).map (fun s => (s.name, s.wire)) =
      m.properties.map fun p => (p.name, p.wire)) :
    (slots.filter fun s => shows s.name).map Slot.wire = m.properties.map Property.wire := by
  have h := congrArg (List.map Prod.snd) hshown
  simpa only [List.map_map, Function.comp_def] using h

/-- A path goes on in the value of a property only if that is an instance of a model. -/
theorem unwrap_of_walk {p : Property} {names : List String} {rest : List EntityProperty}
    (hrest : cat.walk (EntityProperty.ofProperty p).type names = some rest) (hne : names ≠ [])
    (hlast : ∀ e ∈ (EntityProperty.ofProperty p :: rest).dropLast, e.isList = false) :
    ∃ n, p.declared.unwrap = (.named n, false) ∧ (cat.model? n).isSome ∧
      cat.walk (.named n) names = some rest ∧ ∀ e ∈ rest.dropLast, e.isList = false := by
  obtain ⟨name, names, rfl⟩ := List.exists_cons_of_ne_nil hne
  obtain ⟨n, m, q, rest, htype, hm, -, -, rfl⟩ := Catalogue.walk_cons hrest
  rw [List.dropLast_cons_cons, List.forall_mem_cons, EntityProperty.ofProperty_isList] at hlast
  rw [htype] at hrest
  rw [EntityProperty.ofProperty_type] at htype
  exact ⟨n, Prod.ext htype hlast.1, by rw [hm]; rfl, hrest, hlast.2⟩

/-- Paths with the given names lead to the same in instances and in their documents. -/
def ReadsAlong (cat : Catalogue) (root : String) (names : List String) : Prop :=
  ∀ {name v doc ps}, cat.Reaches root name → IsInstance cat name v →
    cat.walk (.named name) names = some ps → (∀ e ∈ ps.dropLast, e.isList = false) →
    v.documentForm? = some doc → doc.ReadsAs (ps.map EntityProperty.wire) v names

/-- A path of one name more, in a document that shows a part of the properties: the first name has
to be among them. -/
theorem readsAs_path {root name n : String} {names : List String} {c : RecordClass}
    {slots : List (Slot Value)} {ps : List EntityProperty} {shows : String → Bool}
    {fields : Fields}
    (hapart : ∀ k m, cat.Reaches root k → cat.model? k = some m → m.NamesApart)
    (hreach : cat.Reaches root name) (hv : IsInstance cat name (.record c slots))
    (hwalk : cat.walk (.named name) (n :: names) = some ps)
    (hlast : ∀ e ∈ ps.dropLast, e.isList = false)
    (hpart : ∀ k, shows k → c.shows k) (hfirst : c.shows n → shows n)
    (hfields : Value.documentSlots? shows slots = some fields)
    (hnames : ReadsAlong cat root names) :
    Value.ReadsAs (.object (Fields.ofList fields)) (ps.map EntityProperty.wire) (.record c slots)
      (n :: names) := by
  obtain ⟨_, m, p, rest, heq, hm, hfind, hrest, rfl⟩ := Catalogue.walk_cons hwalk
  cases heq
  have hp := List.mem_of_find?_eq_some hfind
  have hname : p.name = n := by simpa using List.find?_some hfind
  cases hv with
  | record hclass hmodel hdistinct hshown hparts =>
    rw [hm] at hmodel
    cases hmodel
    obtain ⟨hwires, hnamed⟩ := hapart name m hreach hm
    obtain ⟨s, hs, hsname, hswire, hshows⟩ := exists_slot hshown hp
    rw [← wires_eq hshown] at hwires
    -- the document may show less than the model, but names stay apart in it
    have hsub : (slots.filter fun s => shows s.name).Sublist
        (slots.filter fun s => c.shows s.name) :=
      List.monotone_filter_right slots fun s => hpart s.name
    rw [← hname, ← hsname] at hfirst
    rw [List.map_cons, EntityProperty.ofProperty_wire (hnamed p hp), ← hswire, ← hname, ← hsname]
    apply Value.readsAs_cons hdistinct ((hsub.map Slot.wire).nodup hwires) hfields hs
      (hfirst hshows)
    intro doc hset hdoc
    by_cases hne : names = []
    · -- the last property may have any type: its plain form is reached
      subst hne
      cases hrest
      exact ⟨doc, hdoc, rfl⟩
    · obtain ⟨k, hk, hmodel, hrest, hlast⟩ := unwrap_of_walk hrest hne hlast
      exact hnames (hreach.part hm hp hk) (hparts p hp k hk hmodel s hs hsname hset) hrest hlast
        hdoc

theorem readsAlong {root : String} (names : List String)
    (hapart : ∀ k m, cat.Reaches root k → cat.model? k = some m → m.NamesApart) :
    ReadsAlong cat root names := by
  induction names with
  | nil =>
    intro name v doc ps _ _ hwalk _ hdoc
    cases hwalk
    exact ⟨doc, hdoc, rfl⟩
  | cons n names ih =>
    intro name v doc ps hreach hv hwalk hlast hdoc
    cases v with
    | record c slots =>
      obtain ⟨fields, hfields, rfl⟩ := Option.map_eq_some_iff.1 hdoc
      exact readsAs_path hapart hreach hv hwalk hlast (fun _ h => h) (fun h => h) hfields ih
    | _ => cases hv

namespace IndexQuery

/-- The document of a record has all its properties but the one that tracks concurrent writes. -/
theorem document_record {q : IndexQuery} {c : RecordClass} {slots : List (Slot Value)}
    {doc : Value} {id : Option Value} (hq : q.object = .record c slots)
    (h : q.document (some cat) = .ok (doc, id)) :
    ∃ fields, Value.documentSlots? (fun name => some name != cat.holder? (.named c.name)) slots =
      some fields ∧ doc = .object (Fields.ofList fields) := by
  rw [document, hq] at h
  obtain ⟨record, hrecord, h⟩ := bind_eq_ok.1 h
  cases h
  rw [recordDocument] at hrecord
  split at hrecord
  · next fields hfields =>
    cases hrecord
    exact ⟨fields, hfields, rfl⟩
  · cases hrecord

/-- The document is the body of an index request. -/
theorem body_make {target id : Value} {doc more : Fields} {r : Request}
    (h : Request.make .index
      ([("index", target), ("id", id)] ++ ("document", .object doc) :: more) = .ok r) :
    r.body = .object (Fields.ofList doc) := by
  have hfind : RequestKind.index.properties.find?
      (·.name == (Property.required "document" .object).name) =
      some (.required "document" .object) := rfl
  have hbody : r.body = r.field (Property.required "document" .object).name := by
    obtain ⟨-, rfl⟩ := Request.make_eq_ok.1 h
    rfl
  have hnew : "document" ∉ Fields.names [("index", target), ("id", id)] := by simp [Fields.names]
  rw [hbody, Request.field_make hfind h, Request.taken_new .index rfl hnew (check_object _ doc)]

theorem body_request {q : IndexQuery} {index : Value} {r : Request} {c : RecordClass}
    {slots : List (Slot Value)} (hq : q.object = .record c slots)
    (h : q.request (some cat) index = .ok r) :
    ∃ fields, Value.documentSlots? (fun name => some name != cat.holder? (.named c.name)) slots =
      some fields ∧ r.body = .object (Fields.ofList fields) := by
  obtain ⟨requestFields, hrequest, h⟩ := bind_eq_ok.1 h
  obtain ⟨target, -, hrequest⟩ := bind_eq_ok.1 hrequest
  obtain ⟨⟨doc, id⟩, hdoc, hrequest⟩ := bind_eq_ok.1 hrequest
  obtain ⟨fields, hfields, rfl⟩ := document_record hq hdoc
  cases hrequest
  have hbody := body_make h
  rw [Fields.ofList_ofList] at hbody
  exact ⟨fields, hfields, hbody⟩

/-- The keys of a document are the document names of the properties that are set, as queries know
them, without the one that tracks concurrent writes. -/
theorem names_document {c : RecordClass} {slots : List (Slot Value)} {m : Model} {fields : Fields}
    (hm : cat.model? c.name = some m) (hapart : m.NamesApart)
    (hv : IsInstance cat c.name (.record c slots)) (hown : c.shown = none)
    (hfields : Value.documentSlots?
      (fun name => some name != (cat.entityOf (.named c.name) m).holder?) slots = some fields) :
    fields.names = ((cat.entityOf (.named c.name) m).properties.filter fun p =>
      !((Value.record c slots).field p.name).isNull &&
        some p.name != (cat.entityOf (.named c.name) m).holder?).map EntityProperty.wire := by
  generalize (cat.entityOf (.named c.name) m).holder? = holder at hfields ⊢
  cases hv with
  | record hclass hmodel hdistinct hshown hparts =>
    rw [hm] at hmodel
    cases hmodel
    have hall : slots.filter (fun s => c.shows s.name) = slots := by
      simp [RecordClass.shows, hown]
    rw [hall] at hshown
    have hwritten : slots.filter (Value.isWritten fun name => some name != holder) =
        slots.filter fun s => !((Value.record c slots).field s.name).isNull &&
          some s.name != holder := by
      apply List.filter_congr
      intro s hs
      rw [Value.isWritten, Value.field_of_mem hdistinct hs]
    have hpairs := congrArg (fun l => (l.filter fun f : String × String =>
      !((Value.record c slots).field f.1).isNull && some f.1 != holder).map Prod.snd) hshown
    simp only [List.filter_map, List.map_map, Function.comp_def] at hpairs
    rw [Value.names_documentSlots hfields, hwritten, hpairs, Catalogue.entityOf, List.filter_map,
      List.map_map]
    apply List.map_congr_left
    intro p hp
    exact (EntityProperty.ofProperty_wire (hapart.2 p (List.mem_of_mem_filter hp))).symm

/-- **Queries and documents use the same names.** The document of an index request for an instance
of a domain type has the properties that are set under the names that queries use for them, except
the one that tracks concurrent writes; and a path of properties leads to the same in the instance
and, under the names that queries use, in the document. -/
theorem document_readsAs {q : IndexQuery} {index : Value} {r : Request} {c : RecordClass}
    {slots : List (Slot Value)}
    (hapart : ∀ n m, cat.Reaches c.name n → cat.model? n = some m → m.NamesApart)
    (hv : IsInstance cat c.name (.record c slots)) (hown : c.shown = none)
    (hq : q.object = .record c slots) (h : q.request (some cat) index = .ok r) :
    (∃ e doc, cat.entity? (.named c.name) = some e ∧ r.body = .object doc ∧
      doc.names = (e.properties.filter fun p =>
        !((Value.record c slots).field p.name).isNull && some p.name != e.holder?).map
          EntityProperty.wire) ∧
    ∀ path ps, cat.path? (.named c.name) path = some ps →
      (∀ e ∈ ps.dropLast, e.isList = false) →
      (∀ e ∈ ps.head?, cat.holder? (.named c.name) ≠ some e.name) →
      cat.fieldName? (.named c.name) path = some (joinPath (ps.map EntityProperty.wire)) ∧
      r.body.ReadsAs (ps.map EntityProperty.wire) (.record c slots) (pathNames path) := by
  obtain ⟨fields, hfields, hbody⟩ := body_request hq h
  obtain ⟨m, hm⟩ := hv.exists_model
  have hentity : cat.entity? (.named c.name) = some (cat.entityOf (.named c.name) m) := by
    rw [Catalogue.entity?, hm]
    rfl
  have hholder : cat.holder? (.named c.name) = (cat.entityOf (.named c.name) m).holder? := by
    rw [Catalogue.holder?, hentity]
    rfl
  refine ⟨⟨_, Fields.ofList fields, hentity, hbody, ?_⟩, ?_⟩
  · have hm' := hapart c.name m .root hm
    rw [hholder] at hfields
    have hnames := names_document hm hm' hv hown hfields
    have hnodup : fields.names.Nodup := by
      rw [hnames]
      exact (List.filter_sublist.map _).nodup (Catalogue.wires_entityOf hm' ▸ hm'.1)
    rw [Fields.ofList_of_nodup hnodup, hnames]
  · intro path ps hpath hlast hfirst
    refine ⟨by rw [Catalogue.fieldName?, hpath]; rfl, ?_⟩
    obtain ⟨n, names, hsegments⟩ := List.exists_cons_of_ne_nil (pathNames_ne_nil path)
    rw [Catalogue.path?, hsegments] at hpath
    obtain ⟨_, m', p, rest, heq, -, hfind, -, rfl⟩ := Catalogue.walk_cons hpath
    have hname : p.name = n := by simpa using List.find?_some hfind
    rw [hbody, hsegments]
    -- only the document of the record itself leaves out the property that tracks writes
    apply readsAs_path hapart .root hv hpath hlast _ _ hfields (readsAlong names hapart)
    · intro k _
      rw [RecordClass.shows, hown]
    · intro _
      have hne := hfirst _ rfl
      rw [EntityProperty.ofProperty_name, hname] at hne
      simpa using Ne.symm hne

/-- A domain type whose instances may have another one as an attribute. -/
private def person : Model :=
  .plain "Person" [(Property.required "name" .text).called "full-name",
    ⟨"boss", .union [.named "Person", .none] false, .optional (.model "Person"), some .null,
      ["boss"], "led-by"⟩]

private def staff : Catalogue := ⟨[person], []⟩

/-- A person with a name and a boss. -/
private def personSlots (name boss : Value) : List (Slot Value) :=
  [⟨"name", "full-name", name⟩, ⟨"boss", "led-by", boss⟩]

private theorem isInstance_person {name boss : Value}
    (h : boss.isNull = false → IsInstance staff "Person" boss) :
    IsInstance staff "Person" (.record (.root "Person") (personSlots name boss)) := by
  refine .record (m := person) rfl rfl (by simp [personSlots]) rfl ?_
  intro p hp n hn hm s hs hname hset
  rcases List.mem_cons.1 hp with rfl | hp
  · cases hn
    cases hm
  · obtain rfl := List.mem_singleton.1 hp
    cases hn
    rcases List.mem_cons.1 hs with rfl | hs
    · simp at hname
    · obtain rfl := List.mem_singleton.1 hs
      exact h hset

/-- A person who is led by another one. -/
private def bob : List (Slot Value) :=
  personSlots (.str "Bob") (.record (.root "Person") (personSlots (.str "Ann") .null))

private def bobQuery : IndexQuery where
  id := .null
  object := .record (.root "Person") bob
  source := .null
  version := .null
  versionType := none
  seqNo := .null
  primaryTerm := .null
  routing := .null
  opType := none
  indexName := .null

theorem document_readsAs_boss :
    ∃ r, bobQuery.request (some staff) (.str "staff") = .ok r ∧
      r.body.ReadsAs ["led-by", "full-name"] (.record (.root "Person") bob) ["boss", "name"] := by
  have hapart : ∀ m ∈ staff.models, m.NamesApart := by decide
  have hv : IsInstance staff "Person" (.record (.root "Person") bob) :=
    isInstance_person fun _ => isInstance_person fun h => by cases h
  obtain ⟨r, hr⟩ : ∃ r, bobQuery.request (some staff) (.str "staff") = .ok r := ⟨_, rfl⟩
  have hpaths := (document_readsAs (fun n m _ hm => hapart m (List.mem_of_find?_eq_some hm)) hv rfl
    rfl hr).2
  exact ⟨r, hr, (hpaths "boss.name" _ rfl (by decide) (by decide)).2⟩

end IndexQuery

end SearchWire
