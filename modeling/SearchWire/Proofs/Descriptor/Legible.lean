import SearchWire.Proofs.Descriptor.Validated

/-!
# Values that can be read

What the library looks into is read from the properties of records. Whatever fits the shape of a
property can be read by the reader that goes with the shape.

* `Catalogue.Complete`, `Catalogue.standard_complete`: catalogues that have what the library
  declares; **its own catalogue** is one.
* `check_member_ok`: what is taken for a member of an enumeration.
* `Legible`: what fits a shape can be read.
* `Legible.worded`, `Legible.items`, `Legible.optional`, `Legible.model`, `Legible.ofClass`,
  `Legible.tagged`: the shapes, one by one.
* `Conforms.reads_required`, `Conforms.reads_optional`, `Conforms.reads_default`: **the properties
  of a record that conforms to its model can be read.**
-/

namespace SearchWire

/-! ## What the library declares -/

namespace Catalogue

/-- A catalogue has the models and the enumerations of the library. Other models extend none of
them but those of points and of sequence numbers, which descriptors do not look into. -/
structure Complete (cat : Catalogue) : Prop extends cat.Sound where
  found : ∀ m ∈ standardModels, cat.model? m.name = some m
  closed : ∀ m ∈ cat.models, ∀ name ∈ m.ancestors, name ∈ standardModels.map Model.name →
    name ∉ Standard.models.map Model.name → m ∈ standardModels
  declared : ∀ e ∈ standardEnumerations, cat.enumerations.find? (·.name == e.name) = some e

/-- **The catalogue of the library** has what the library declares. -/
theorem standard_complete : standard.Complete where
  toSound := standard_sound
  found _ hm := model?_standard hm
  closed _ hm _ _ _ _ := hm
  declared _ he := find?_of_nodup (by decide) he

/-- What extends a model of the library is one of its own models. -/
theorem Complete.mem_of_isA {cat : Catalogue} {m : Model} {name : String} (hcat : cat.Complete)
    (hm : cat.model? m.name = some m) (h : m.cls.isA name)
    (hname : name ∈ standardModels.map Model.name)
    (hother : name ∉ Standard.models.map Model.name) :
    m ∈ standardModels.filter (·.cls.isA name) := by
  refine List.mem_filter.2 ⟨?_, h⟩
  rw [RecordClass.isA, Bool.or_eq_true] at h
  rcases h with hsame | hextends
  · obtain ⟨base, hbase, rfl⟩ := List.mem_map.1 hname
    have heq : m.name = base.name := beq_iff_eq.1 hsame
    cases (hcat.found base hbase).symm.trans (heq ▸ hm)
    exact hbase
  · have hancestor : name ∈ m.ancestors := by simpa [Model.cls] using hextends
    exact hcat.closed m (cat.model?_name hm).1 name hancestor hname hother

end Catalogue

/-! ## What fits a shape -/

theorem exists_option_mapM {α β : Type} {f : α → Option β} {as : List α}
    (h : ∀ a ∈ as, ∃ b, f a = some b) : ∃ bs, as.mapM f = some bs := by
  induction as with
  | nil => exact ⟨[], rfl⟩
  | cons a as ih =>
    obtain ⟨⟨b, hb⟩, has⟩ := List.forall_mem_cons.1 h
    obtain ⟨bs, hbs⟩ := ih has
    exact ⟨b :: bs, by rw [List.mapM_cons, hb, hbs]; rfl⟩

theorem Value.mem_of_mem_setOf {xs ys : List Value} (h : Value.setOf xs = .set ys) :
    ∀ y ∈ ys, y ∈ xs := by
  have hfold : ∀ acc : List Value, ∀ y ∈ xs.foldl
      (fun acc x => if acc.any (·.sameKey x) then acc else acc ++ [x]) acc, y ∈ acc ∨ y ∈ xs := by
    clear h
    induction xs with
    | nil => exact fun acc y hy => .inl hy
    | cons x xs ih =>
      intro acc y hy
      rcases ih _ y hy with hacc | hxs
      · dsimp only at hacc
        split at hacc
        · exact .inl hacc
        · rcases List.mem_append.1 hacc with hacc | hx
          · exact .inl hacc
          · exact .inr (List.mem_singleton.1 hx ▸ List.mem_cons_self)
      · exact .inr (.tail _ hxs)
  cases h
  exact fun y hy => (hfold [] y hy).resolve_left (List.not_mem_nil)

variable {cat : Catalogue} {α : Type} {read : Value → Option α}

/-- What is taken for a member of an enumeration is one. -/
theorem check_member_ok {v : Value} {enumeration : String} {a : Accepted}
    (h : check cat v (.member enumeration) = .ok a) :
    ∃ m, a.value = .member m ∧ (cat.member? enumeration m.value).isSome := by
  have htext : ∀ {s : String}, checkMember.ofText cat enumeration s = .ok a →
      ∃ m, a.value = .member m ∧ (cat.member? enumeration m.value).isSome := by
    intro s hs
    unfold checkMember.ofText at hs
    split at hs
    · next m hm =>
      cases hs
      refine ⟨m, rfl, ?_⟩
      have hvalue : m.value = s := by
        simp only [Catalogue.member?, Option.bind_eq_bind, Option.bind_eq_some_iff] at hm
        obtain ⟨_, -, _, -, hm⟩ := hm
        cases hm
        rfl
      rw [hvalue, hm]
      rfl
    · cases hs
  have hmember : check cat v (.member enumeration) = checkMember cat enumeration v := by
    cases v <;> rfl
  rw [hmember] at h
  unfold checkMember at h
  split at h
  · next m =>
    split at h
    · split at h
      · next hm =>
        cases h
        exact ⟨m, rfl, by rw [hm]; rfl⟩
      · cases h
    · exact htext h
  · split at h
    · exact htext h
    · cases h

/-- Whatever fits a shape can be read. -/
def Legible (cat : Catalogue) (s : Shape) (read : Value → Option α) : Prop :=
  ∀ (w : Value) (a : Accepted), Validated cat w → check cat w s = .ok a →
    ∃ x, read a.value = some x

namespace Legible

theorem text : Legible cat .text Value.text? := by
  intro w a _ ha
  obtain ⟨s, hs⟩ := check_text_ok ha
  exact ⟨s, by rw [hs]; rfl⟩

theorem flag : Legible cat .flag Value.flag? := by
  intro w a _ ha
  obtain ⟨b, hb⟩ := check_flag_ok ha
  exact ⟨b, by rw [hb]; rfl⟩

theorem int (low high : Option Int) : Legible cat (.integer low high) Value.int? := by
  intro w a _ ha
  obtain ⟨n, hn⟩ := check_integer_ok ha
  exact ⟨n, by rw [hn]; rfl⟩

theorem nat (low : Int) (high : Option Int) (hlow : 0 ≤ low) :
    Legible cat (.integer (some low) high) Value.nat? := by
  intro w a _ ha
  obtain ⟨n, hn, hle⟩ := check_integer_low ha
  exact ⟨n.toNat, by rw [hn, Value.nat?, if_neg (by omega)]⟩

theorem classRef : Legible cat .classRef AliasParameters.className? := by
  intro w a _ ha
  cases w with
  | classRef name =>
    cases ha
    exact ⟨name, rfl⟩
  | _ => cases ha

/-- One of some texts is a text. -/
theorem words (ss : List String) : Legible cat (.choice (ss.map .str)) Value.text? := by
  intro w a _ ha
  have hchoice : check cat w (.choice (ss.map .str)) = checkChoice (ss.map .str) w := by
    cases w <;> rfl
  rw [hchoice] at ha
  unfold checkChoice at ha
  split at ha
  · next hany =>
    cases ha
    rw [List.any_map, List.any_eq_true] at hany
    obtain ⟨s, -, hs⟩ := hany
    cases w with
    | str t => exact ⟨t, rfl⟩
    | _ => cases hs
  · cases ha

/-- The words of a type of the library. -/
theorem worded (α : Type) [Worded α] (hcat : cat.Complete)
    (hα : Worded.declaration α ∈ Catalogue.standardEnumerations) :
    Legible cat (Worded.shape α) fun v => (Worded.ofValue? v : Option α) := by
  intro w a _ ha
  have hdeclared : cat.enumerations.find? (·.name == Worded.enumeration α) =
      some (Worded.declaration α) := hcat.declared _ hα
  obtain ⟨m, hm, hmember⟩ := check_member_ok ha
  obtain ⟨found, hfound⟩ := Option.isSome_iff_exists.1 hmember
  simp only [Catalogue.member?, hdeclared, Option.bind_eq_bind, Option.bind_some,
    Option.bind_eq_some_iff] at hfound
  obtain ⟨entry, hentry, -⟩ := hfound
  rw [Worded.declaration, List.find?_map] at hentry
  obtain ⟨x, hx, -⟩ := Option.map_eq_some_iff.1 hentry
  refine ⟨x, ?_⟩
  rw [hm]
  exact hx

/-- What is taken for a collection has items that were taken one by one. -/
theorem exists_collection {kind : SequenceKind} {item : Shape} {least : Nat} {w : Value}
    {a : Accepted} (hw : Validated cat w) (h : check cat w (.sequence kind item least) = .ok a) :
    ∃ ys, a.value.collection? = some ys ∧
      ∀ y ∈ ys, ∃ w b, Validated cat w ∧ check cat w item = .ok b ∧ b.value = y := by
  obtain ⟨ws, xs, hws, hxs, hitems⟩ := check_sequence_items h
  have hmake : ∃ ys, (kind.make xs).collection? = some ys ∧ ∀ y ∈ ys, y ∈ xs := by
    cases kind with
    | list => exact ⟨xs, rfl, fun _ => id⟩
    | tuple => exact ⟨xs, rfl, fun _ => id⟩
    | set => exact ⟨_, rfl, Value.mem_of_mem_setOf rfl⟩
    | frozenset => exact ⟨_, rfl, Value.mem_of_mem_setOf rfl⟩
  obtain ⟨ys, hys, hsubset⟩ := hmake
  refine ⟨ys, by rw [hxs, hys], fun y hy => ?_⟩
  obtain ⟨w', hw', b, hb, hvalue⟩ := hitems y (hsubset y hy)
  exact ⟨w', b, hw.of_collection hws w' hw', hb, hvalue⟩

theorem collection (kind : SequenceKind) (item : Shape) (least : Nat) :
    Legible cat (.sequence kind item least) Value.collection? := by
  intro w a hw ha
  obtain ⟨ys, hys, -⟩ := exists_collection hw ha
  exact ⟨ys, hys⟩

/-- The items of a collection, one by one. -/
theorem items {item : Shape} (kind : SequenceKind) (least : Nat) (h : Legible cat item read) :
    Legible cat (.sequence kind item least) fun v =>
      v.collection?.bind fun xs => xs.mapM read := by
  intro w a hw ha
  obtain ⟨ys, hys, htaken⟩ := exists_collection hw ha
  have hread : ∀ y ∈ ys, ∃ x, read y = some x := by
    intro y hy
    obtain ⟨w', b, hw', hb, rfl⟩ := htaken y hy
    exact h w' b hw' hb
  obtain ⟨xs, hxs⟩ := exists_option_mapM hread
  refine ⟨xs, ?_⟩
  dsimp only
  rw [hys]
  exact hxs

/-- The same, where there may be no collection at all. -/
theorem itemsOrNone {item : Shape} (kind : SequenceKind) (least : Nat)
    (h : Legible cat item read) : Legible cat (.sequence kind item least) fun v =>
      v.itemsOrNone?.bind fun xs => xs.mapM read := by
  intro w a hw ha
  obtain ⟨xs, hxs⟩ := items kind least h w a hw ha
  obtain ⟨ys, hys, -⟩ := exists_collection hw ha
  have hitems : a.value.itemsOrNone? = a.value.collection? := by
    cases hvalue : a.value with
    | null => rw [hvalue] at hys; cases hys
    | _ => rfl
  refine ⟨xs, ?_⟩
  dsimp only at hxs ⊢
  rw [hitems, hxs]

theorem texts (least : Nat) : Legible cat (.sequence .list .text least) Value.texts? :=
  items .list least text

theorem optional {inner : Shape} (h : Legible cat inner read) :
    Legible cat (.optional inner) (Value.unlessNull read) := by
  intro w a hw ha
  rw [check_optional] at ha
  split at ha
  · next hnull =>
    cases ha
    exact ⟨.none, if_pos hnull⟩
  · obtain ⟨x, hx⟩ := h w a hw ha
    rw [Value.unlessNull, hx]
    split
    · exact ⟨.none, rfl⟩
    · exact ⟨some x, rfl⟩

/-- A record, read whatever class it is of. -/
theorem model {m : Model} (hcat : cat.Complete) (hm : m ∈ Catalogue.standardModels)
    (h : ∀ {v}, Conforms cat m v → ∃ x, read v = some x) : Legible cat (.model m.name) read :=
  fun _ _ hw ha => h (conforms_of_check hcat.toSound (hcat.found m hm) hw ha)

/-- A record, read as its class asks for. -/
theorem ofClass {name : String} (hcat : cat.Complete)
    (h : ∀ {m v}, OfClass cat m v → m.cls.isA name → ∃ x, read v = some x) :
    Legible cat (.model name) read := by
  intro w a hw ha
  obtain ⟨m, hisA, hof⟩ := exists_ofClass_of_check hcat.toSound hw ha
  exact h hof hisA

theorem tagged {tag : String} {cases : List (String × String)}
    (h : ∀ name ∈ cases.map Prod.snd, Legible cat (.model name) read) :
    Legible cat (.tagged tag cases) read := by
  intro w a hw ha
  obtain ⟨name, hname, hcheck⟩ := check_tagged_ok ha
  exact h name hname w a hw hcheck

end Legible

/-! ## Properties of records -/

namespace Conforms

variable {m : Model} {v : Value} {s : Shape}

theorem reads_required (key : String) (h : Conforms cat m v) (hs : Legible cat s read)
    (hp : .required key s ∈ m.properties) : ∃ x, read (v.field key) = some x := by
  obtain ⟨w, a, hw, ha, hvalue⟩ := h.required key s hp
  rw [hvalue]
  exact hs w a hw ha

theorem reads_default (key : String) (d : Value) (h : Conforms cat m v) (hs : Legible cat s read)
    (hd : ∃ x, read d = some x) (hp : .withDefault key s d ∈ m.properties) :
    ∃ x, read (v.field key) = some x := by
  rcases h.property _ hp with ⟨w, a, hw, ha, hvalue⟩ | hdefault
  · have hfield : v.field key = a.value := hvalue
    rw [hfield]
    exact hs w a hw ha
  · have hfield : d = v.field key := Option.some.inj hdefault
    exact hfield ▸ hd

theorem reads_optional (key : String) (h : Conforms cat m v) (hs : Legible cat s read)
    (hp : .optional key s ∈ m.properties) : ∃ x, (v.field key).unlessNull read = some x :=
  h.reads_default key .null hs.optional ⟨none, rfl⟩ hp

end Conforms

end SearchWire
