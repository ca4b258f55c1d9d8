import Mathlib.Data.List.Pairwise
import SearchWire.Proofs.Json.Data
import SearchWire.Proofs.Request.Remake
import SearchWire.Request.Timeout

/-!
# Fields that suit a request

A request is made from its fields if each of them is of the shape that the kind of the request has
under its name and none is missing that has to be given. So it is enough to look at the fields one
by one, each where it is made.

* `Shape.Takes`: a shape takes a value, whatever models there are.
* `RequestKind.shapeOf?`, `Request.Suits`: the shape that a kind has under a name; a field of it.
* `Request.exists_make`, `Request.Suited.yields_make`: **a request is made from fields that suit.**
* `admits_of_build`, `takesWhole_of_build`: what a descriptor that was built has for a property is
  taken wherever the shape of the property is asked for.
* `Document.takes_parseObject`, `yields_timeField`: documents and timeouts.
-/

namespace SearchWire

/-- A shape takes a value, whatever models there are. -/
def Shape.Takes (s : Shape) (v : Value) : Prop := ∀ cat, ∃ a, check cat v s = .ok a

namespace Shape.Takes

variable {s : Shape} {v : Value}

theorem of_admits (h : s.Admits v) : s.Takes v := fun _ => (check_of_admits h).imp fun _ ha => ha.1

theorem null (s : Shape) : (Shape.optional s).Takes .null := of_admits (.null s)

theorem given (h : s.Takes v) : (Shape.optional s).Takes v := by
  intro cat
  rw [check_optional]
  split
  · exact ⟨_, rfl⟩
  · exact h cat

/-- What is given is taken for what it is. -/
theorem of_optional (h : (Shape.optional s).Takes v) (hv : v.isNull = false) : s.Takes v := by
  intro cat
  obtain ⟨a, ha⟩ := h cat
  rw [check_optional, hv] at ha
  exact ⟨a, ha⟩

theorem text (s : String) : Shape.text.Takes (.str s) := of_admits (.text s)

theorem member (m : Member) : Shape.text.Takes (.member m) := fun _ => ⟨_, rfl⟩

theorem flag (b : Bool) : Shape.flag.Takes (.bool b) := of_admits (.flag b)

theorem whole (n : Int) : Shape.whole.Takes (.int n) := of_admits (.whole n)

theorem texts (ss : List String) : Shape.texts.Takes (.ofTexts ss) :=
  of_admits (.list (List.forall_mem_map.mpr fun s _ => .text s))

theorem object (fs : Fields) : Shape.object.Takes (.object fs) :=
  fun cat => ⟨_, check_object cat fs⟩

/-- An object stays one where a truth value may stand for it. -/
theorem flagOr (fs : Fields) : (Shape.anyOf [.flag, .object]).Takes (.object fs) :=
  fun cat => ⟨_, check_flagOr (check_object cat fs)⟩

theorem list {item : Shape} {xs : List Value} (h : ∀ x ∈ xs, item.Takes x) :
    (Shape.sequence .list item 0).Takes (.list xs) :=
  fun cat => (check_list fun x hx => h x hx cat).imp fun _ ha => ha.1

theorem mapping {fs : Fields} (h : ∀ f ∈ fs, s.Takes f.2) :
    (Shape.mapping .text s).Takes (.object fs) :=
  fun cat => (check_mapping fun f hf => h f hf cat).imp fun _ ha => ha.1

theorem of_isObject (h : v.IsObject) : Shape.object.Takes v := by
  obtain ⟨fs, -, rfl⟩ := h
  exact object fs

end Shape.Takes

namespace RequestKind

/-- The shape that the fields of a kind have under a name. -/
def shapeOf? (kind : RequestKind) (name : String) : Option Shape :=
  (kind.properties.find? fun p => p.keys.contains name).map Property.shape

/-- The fields that have to be given. -/
def required (kind : RequestKind) : List String :=
  (kind.properties.filter fun p => p.default.isNone).map Property.wire

end RequestKind

namespace Request

variable {kind : RequestKind} {fields : Fields} {p : Property}

/-- A field is of the shape that its kind has under its name. -/
def Suits (kind : RequestKind) (f : String × Value) : Prop :=
  ∀ s, kind.shapeOf? f.1 = some s → s.Takes f.2

/-- Fields of a request that suit, with those that have to be given among them. -/
structure Suited (kind : RequestKind) (fields : Fields) : Prop where
  suits : ∀ f ∈ fields, Suits kind f
  complete : ∀ name ∈ kind.required, name ∈ fields.names

theorem Suits.of {name : String} {v : Value} {s : Shape} (h : kind.shapeOf? name = some s)
    (hv : s.Takes v) : Suits kind (name, v) := by
  intro t ht
  cases h.symm.trans ht
  exact hv

theorem keys_nodup (kind : RequestKind) : (kind.properties.flatMap Property.keys).Nodup := by
  cases kind <;> decide

/-- No two properties look for fields under the same name. -/
theorem keys_disjoint {q : Property} (hp : p ∈ kind.properties) (hq : q ∈ kind.properties)
    (hne : q ≠ p) : List.Disjoint q.keys p.keys := by
  have : Std.Symm (Function.onFun List.Disjoint Property.keys) :=
    ⟨fun _ _ h _ hx hy => h hy hx⟩
  exact (List.nodup_flatMap.mp (keys_nodup kind)).2.forall hq hp hne

theorem shapeOf?_of_mem {key : String} (hp : p ∈ kind.properties) (hkey : key ∈ p.keys) :
    kind.shapeOf? key = some p.shape := by
  have hfinds : ∃ q, kind.properties.find? (fun q => q.keys.contains key) = some q := by
    rw [← Option.isSome_iff_exists, List.find?_isSome]
    exact ⟨p, hp, by simpa using hkey⟩
  obtain ⟨q, hq⟩ := hfinds
  have hsame : q = p := by
    by_contra hne
    have hkey' : key ∈ q.keys := by simpa using List.find?_some hq
    exact keys_disjoint hp (List.mem_of_find?_eq_some hq) hne hkey' hkey
  rw [RequestKind.shapeOf?, hq, hsame]
  rfl

/-- Of the properties of a kind only one is called like an optional one. -/
theorem eq_optional_or {name : String} {shape : Shape}
    (hmem : .optional name shape ∈ kind.properties) : ∀ p ∈ kind.properties,
      p = .optional name shape ∨ name ∉ p.keys ∧ p.wire ≠ name := by
  intro p hp
  by_cases hsame : p = .optional name shape
  · exact .inl hsame
  · have hname : name ∈ (Property.optional name shape).keys := List.mem_cons_self
    exact .inr ⟨fun hkey => keys_disjoint hmem hp hsame hkey hname,
      fun hwire => hsame (List.inj_on_of_nodup_map (wires_nodup kind) hp hmem hwire)⟩

/-- **A request is made from fields that suit.** -/
theorem exists_make (h : Suited kind fields) : ∃ r, make kind fields = .ok r := by
  refine ⟨_, make_eq_ok.mpr ⟨?_, rfl⟩⟩
  intro p hp
  rw [checkProperty, given, findGiven_entries]
  split
  · next key check hfind =>
    obtain ⟨k, hk, hsome⟩ := List.exists_of_findSome?_eq_some hfind
    obtain ⟨v, hv, heq⟩ := Option.map_eq_some_iff.mp hsome
    cases heq
    have htakes := h.suits _ (Fields.mem_of_get? hv) _ (shapeOf?_of_mem hp hk)
    exact (htakes ⟨[kind.model], []⟩).imp fun _ ha => under_eq_ok.mpr ha
  · next hnone =>
    split
    · exact ⟨_, rfl⟩
    · next hdefault =>
      -- it has to be given, and is under its name in documents
      have hrequired : p.wire ∈ kind.required :=
        List.mem_map.mpr ⟨p, List.mem_filter.mpr ⟨hp, by rw [hdefault]; rfl⟩, rfl⟩
      have hkey : p.wire ∈ p.keys := by
        rw [(keys_properties kind p hp).1]
        exact List.mem_cons_self
      have hmissing := List.findSome?_eq_none_iff.mp hnone p.wire hkey
      obtain ⟨f, hf, hname⟩ := List.mem_map.mp (h.complete _ hrequired)
      rw [Option.map_eq_none_iff, Fields.get?, List.lookup_eq_none_iff] at hmissing
      simpa [hname] using hmissing f hf

theorem Suited.yields_make (h : Suited kind fields) :
    Yields (fun r => r.kind = kind) (make kind fields) := by
  obtain ⟨r, hr⟩ := exists_make h
  rw [hr]
  exact kind_make hr

end Request

/-! ## Descriptors that were built -/

section Built

variable {cat : Catalogue} {m : Model} {name : String} {args : Fields} {v : Value} {p : Property}
  (hcat : cat.model? name = some m) (hnames : (m.properties.map Property.name).Nodup)
  (h : cat.build name args = .ok v)
include hcat hnames h

/-- What a descriptor that was built has for a property. -/
theorem admits_of_build (hp : p ∈ m.properties) (hwire : p.isWire) :
    p.shape.Admits (v.field p.name) := by
  rcases field_of_build hcat hnames hp h with ⟨w, a, ha, heq⟩ | hdefault
  · exact heq ▸ admits_of_check (Property.isWire_shape hwire) ha
  · exact Property.admits_default hwire hdefault

theorem takes_of_build (hp : p ∈ m.properties) (hwire : p.isWire) :
    p.shape.Takes (v.field p.name) :=
  .of_admits (admits_of_build hcat hnames h hp hwire)

/-- Numbers that had to be in bounds are numbers. -/
theorem takesWhole_of_build {key : String} {low high : Option Int}
    (hp : .optional key (.integer low high) ∈ m.properties) :
    (Shape.optional .whole).Takes (v.field key) := by
  rcases field_of_build hcat hnames hp h with ⟨w, a, ha, heq⟩ | hdefault
  · have hvalue : v.field key = a.value := heq
    have hoptional : check cat w (.optional (.integer low high)) = .ok a := ha
    rw [check_optional] at hoptional
    rw [hvalue]
    split at hoptional
    · next hnull =>
      cases hoptional
      rw [Value.eq_null_of_isNull hnull]
      exact .null _
    · obtain ⟨n, hn⟩ := check_integer_ok hoptional
      rw [hn]
      exact .given (.whole n)
  · have hnull : Value.null = v.field key := Option.some.inj hdefault
    exact hnull ▸ .null _

end Built

/-! ## Documents and timeouts -/

/-- A document that may be missing. -/
theorem Document.takes_parseObject (what : String) (v : Value) :
    Yields (Shape.optional .object).Takes (parseObject what v) := by
  refine (yields_parseObject what v).imp fun w hw => ?_
  rcases hw with hobject | ⟨rfl, -⟩
  · exact .given (.of_isObject hobject)
  · exact .null _

theorem yields_timeText (v : Value) : Yields Shape.text.Takes (timeText v) := by
  unfold timeText
  split
  · exact .member _
  · unfold TimeValue.ofValue
    split
    · exact .text _
    · exact .text _
    · exact .text _
    · nofun

/-- A timeout is a text. -/
theorem yields_timeField (name : String) (v : Value) :
    Yields (fun fs => ∀ f ∈ fs, f.1 = name ∧ Shape.text.Takes f.2) (timeField name v) := by
  unfold timeField
  split
  · exact List.forall_mem_nil _
  · exact (yields_timeText v).bind fun w hw => List.forall_mem_singleton.mpr ⟨rfl, hw⟩

namespace Request

/-- The field for a timeout suits where there is a text under its name. -/
theorem suits_timeField (kind : RequestKind) {name : String} {v : Value}
    (h : kind.shapeOf? name = some (.optional .text)) :
    Yields (fun fs => ∀ f ∈ fs, Suits kind f) (timeField name v) := by
  refine (yields_timeField name v).imp fun fs hfs => ?_
  rintro ⟨key, w⟩ hf
  obtain ⟨rfl, hw⟩ := hfs _ hf
  exact .of h (.given hw)

end Request

end SearchWire
