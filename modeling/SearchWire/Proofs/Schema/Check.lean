import SearchWire.Proofs.Value.Fields
import SearchWire.Schema.Check

/-!
# Fitting data to shapes

* `gather_eq_ok`: parts fit together if each of them fits.
* `buildRecord_ok_rule`, `buildRecord_ok`, `exists_buildRecord`: **a record is made from what its
  properties take**, one by one, unless a rule is against it.
* `build_eq_ok`, `build_eq_record`: records from named arguments.
* `check_any`, `check_object`: what fits as it is.
* `check_optional`, `check_firstOf`, `isRecord_of_check`: alternatives and records.
* `check_mapping`, `check_fields`, `check_mapping_ok`, `isObject_of_check`: dictionaries with texts
  as keys.
* `check_collection`, `check_list`, `check_items`, `check_sequence_items`, `check_list_ok`: a
  collection fits if each of its items does.
* `findGiven_entries`, `checkProperty_entries`, `checkProperty_cases`: what is given under one of
  some names, and what a property takes.
* `checkProperty_set`: a property that does not see that a field is written.
-/

namespace SearchWire

theorem gather_eq_ok {rs : List Verdict} {as : List Accepted} :
    gather rs = .ok as ↔ rs = as.map .ok := by
  induction rs generalizing as with
  | nil => cases as <;> simp [gather]
  | cons r rs ih =>
    cases hrs : gather rs with
    | error is =>
      have hne : ∀ bs : List Accepted, rs ≠ bs.map .ok := fun bs h => by simp [← ih, hrs] at h
      cases r <;> cases as <;> simp [gather, hrs, hne]
    | ok bs =>
      obtain rfl := ih.1 hrs
      cases r <;> cases as <;> simp [gather, hrs, List.map_inj_right]

theorem under_eq_ok {step : Place} {r : Verdict} {a : Accepted} :
    r.under step = .ok a ↔ r = .ok a := by
  cases r with
  | error issues => exact ⟨nofun, nofun⟩
  | ok b => exact Iff.rfl

/-! ## Records -/

/-- The value that was accepted, if any was. -/
def valueOf : Verdict → Value
  | .ok a => a.value
  | .error _ => .null

theorem exists_map_ok {α : Type} {xs : List α} {f : α → Verdict} :
    (∃ as : List Accepted, xs.map f = as.map .ok) ↔ ∀ x ∈ xs, ∃ a, f x = .ok a := by
  induction xs with
  | nil => exact ⟨fun _ => by simp, fun _ => ⟨[], rfl⟩⟩
  | cons x xs ih =>
    rw [List.forall_mem_cons, ← ih]
    constructor
    · rintro ⟨as, has⟩
      cases as with
      | nil => cases has
      | cons a as =>
        rw [List.map_cons, List.map_cons, List.cons.injEq] at has
        exact ⟨⟨a, has.1⟩, as, has.2⟩
    · rintro ⟨⟨a, ha⟩, as, has⟩
      exact ⟨a :: as, by rw [List.map_cons, List.map_cons, ha, has]⟩

/-- The slots of properties that all take a value. -/
theorem slotsOf_accepted {ps : List Property} {f : Property → Verdict} {as : List Accepted}
    (h : ps.map f = as.map .ok) :
    slotsOf ps (as.map Accepted.value) = ps.map fun p => ⟨p.name, p.wire, valueOf (f p)⟩ := by
  induction ps generalizing as with
  | nil => rfl
  | cons p ps ih =>
    cases as with
    | nil => cases h
    | cons a as =>
      rw [List.map_cons, List.map_cons, List.cons.injEq] at h
      have htail := ih h.2
      rw [slotsOf] at htail ⊢
      rw [List.map_cons, List.zip_cons_cons, List.map_cons, List.map_cons, htail, h.1]
      rfl

/-- The record of a model whose properties take what is given. -/
def recordOf (m : Model) (parts : Parts) : Value :=
  .record m.cls (m.properties.map fun p => ⟨p.name, p.wire, valueOf (checkProperty p parts)⟩)

/-- **A record is made from what its properties take**, and meets its rule. -/
theorem buildRecord_ok_rule {m : Model} {parts : Parts} {a : Accepted}
    (h : buildRecord m parts = .ok a) :
    (∀ p ∈ m.properties, ∃ b, checkProperty p parts = .ok b) ∧ a.value = recordOf m parts ∧
      m.rule (m.properties.map fun p => ⟨p.name, p.wire, valueOf (checkProperty p parts)⟩) =
        none := by
  unfold buildRecord at h
  cases has : gather (m.properties.map fun p => checkProperty p parts) with
  | error issues =>
    rw [has] at h
    cases h
  | ok as =>
    rw [has] at h
    simp only [bind, Except.bind] at h
    rw [gather_eq_ok] at has
    rw [slotsOf_accepted has] at h
    split at h
    · cases h
    · next hrule =>
      cases h
      exact ⟨exists_map_ok.1 ⟨as, has⟩, rfl, hrule⟩

theorem buildRecord_ok {m : Model} {parts : Parts} {a : Accepted}
    (h : buildRecord m parts = .ok a) :
    (∀ p ∈ m.properties, ∃ b, checkProperty p parts = .ok b) ∧ a.value = recordOf m parts := by
  obtain ⟨hok, hvalue, -⟩ := buildRecord_ok_rule h
  exact ⟨hok, hvalue⟩

/-- Without a rule nothing else is asked for. -/
theorem exists_buildRecord {m : Model} {parts : Parts} (hrule : ∀ slots, m.rule slots = none)
    (h : ∀ p ∈ m.properties, ∃ b, checkProperty p parts = .ok b) :
    ∃ a, buildRecord m parts = .ok a := by
  obtain ⟨as, has⟩ := exists_map_ok.2 h
  unfold buildRecord
  rw [gather_eq_ok.2 has]
  simp only [bind, Except.bind, hrule]
  exact ⟨_, rfl⟩

theorem build_eq_ok {cat : Catalogue} {name : String} {args : Fields} {v : Value} :
    cat.build name args = .ok v ↔ ∃ m a, cat.model? name = some m ∧
      buildRecord m ⟨[], checkEntries cat args.entries⟩ = .ok a ∧ a.value = v := by
  unfold Catalogue.build
  constructor
  · intro h
    split at h
    · cases h
    · next m hm =>
      split at h
      · next a ha =>
        cases h
        exact ⟨m, a, hm, ha, rfl⟩
      · cases h
  · rintro ⟨m, a, hm, ha, rfl⟩
    rw [hm]
    simp only
    rw [Fields.entries] at ha
    rw [ha]

/-- Without a rule a record has what its properties take. -/
theorem build_eq_record {cat : Catalogue} {name : String} {args : Fields} {m : Model}
    (as : List Accepted) (hm : cat.model? name = some m) (hrule : ∀ slots, m.rule slots = none)
    (h : m.properties.map (fun p => checkProperty p ⟨[], checkEntries cat args.entries⟩) =
      as.map .ok) :
    cat.build name args = .ok (m.record (as.map Accepted.value)) := by
  have hbuild : ∃ a, buildRecord m ⟨[], checkEntries cat args.entries⟩ = .ok a ∧
      a.value = m.record (as.map Accepted.value) := by
    rw [buildRecord, gather_eq_ok.2 h]
    simp only [bind, Except.bind, hrule]
    exact ⟨_, rfl, rfl⟩
  obtain ⟨a, ha, hvalue⟩ := hbuild
  exact build_eq_ok.2 ⟨m, a, hm, ha, hvalue⟩

/-! ## Data -/

theorem checkEntries_eq_map (cat : Catalogue) (es : Entries) :
    checkEntries cat es = es.map fun e => (e.1, check cat e.1, check cat e.2) := by
  induction es with
  | nil => rfl
  | cons e es ih => rw [checkEntries, ih, List.map_cons]

/-- A property looks for the first entry that has one of its names. -/
theorem findGiven_entries (cat : Catalogue) (fields : Fields) (keys : List String) :
    findGiven keys ⟨[], checkEntries cat fields.entries⟩ =
      keys.findSome? fun key => (fields.get? key).map fun v => (key, check cat v) := by
  have hfind : ∀ key, ((checkEntries cat fields.entries).find? fun e => e.1.text? == some key).map
      (fun e => (key, e.2.2)) = (fields.get? key).map fun v => (key, check cat v) := by
    intro key
    have hentry : fields.entries.find? ((fun e => e.1.text? == some key) ∘
        fun e => (e.1, check cat e.1, check cat e.2)) =
        (fields.get? key).map fun v => (.str key, v) := Fields.find?_entries fields key
    rw [checkEntries_eq_map, List.find?_map, hentry, Option.map_map, Option.map_map]
    rfl
  exact congrArg (keys.findSome? ·) (funext hfind)

/-- What a property takes from entries is the value of one of them, if that fits, or its default. -/
theorem checkProperty_entries {cat : Catalogue} {es : Entries} {p : Property} {a : Accepted}
    (h : checkProperty p ⟨[], checkEntries cat es⟩ = .ok a) :
    (∃ e ∈ es, check cat e.2 p.shape = .ok a) ∨ p.default = some a.value := by
  rw [checkProperty] at h
  split at h
  · next key check hfind =>
    obtain ⟨k, -, hk⟩ := List.exists_of_findSome?_eq_some hfind
    obtain ⟨part, hpart, heq⟩ := Option.map_eq_some_iff.1 hk
    cases heq
    have hmem := List.mem_of_find?_eq_some hpart
    rw [checkEntries_eq_map] at hmem
    obtain ⟨e, he, rfl⟩ := List.mem_map.1 hmem
    exact .inl ⟨e, he, under_eq_ok.1 h⟩
  · split at h
    · next v hdefault =>
      cases h
      exact .inr hdefault
    · cases h

/-- What a property takes from an object is what fits its shape, or its default. -/
theorem checkProperty_cases {cat : Catalogue} {fields : Fields} {p : Property} {a : Accepted}
    (h : checkProperty p ⟨[], checkEntries cat fields.entries⟩ = .ok a) :
    (∃ key v, (key, v) ∈ fields ∧ check cat v p.shape = .ok a) ∨ p.default = some a.value := by
  refine (checkProperty_entries h).imp ?_ id
  rintro ⟨e, he, ha⟩
  obtain ⟨⟨key, v⟩, hf, rfl⟩ := List.mem_map.1 he
  exact ⟨key, v, hf, ha⟩

/-- A property that has one name takes what is given under this name, if that fits. -/
theorem checkProperty_of_get? {cat : Catalogue} {fields : Fields} {p : Property} {name : String}
    {v : Value} {a : Accepted} (hkeys : p.keys = [name]) (hget : fields.get? name = some v)
    (ha : check cat v p.shape = .ok a) :
    checkProperty p ⟨[], checkEntries cat fields.entries⟩ = .ok a := by
  rw [checkProperty, findGiven_entries, hkeys, List.findSome?_cons, hget]
  exact under_eq_ok.2 ha

/-- A property that does not have the name of a field does not see that the field is written. -/
theorem checkProperty_set (cat : Catalogue) (fields : Fields) {p : Property} {name : String}
    (h : name ∉ p.keys) (v : Value) :
    checkProperty p ⟨[], checkEntries cat (fields.set name v).entries⟩ =
      checkProperty p ⟨[], checkEntries cat fields.entries⟩ := by
  have hfind : findGiven p.keys ⟨[], checkEntries cat (fields.set name v).entries⟩ =
      findGiven p.keys ⟨[], checkEntries cat fields.entries⟩ := by
    rw [findGiven_entries, findGiven_entries]
    generalize p.keys = keys at h
    induction keys with
    | nil => rfl
    | cons key keys ih =>
      rw [List.mem_cons, not_or] at h
      rw [List.findSome?_cons, List.findSome?_cons, ih h.2, Fields.get?_set,
        if_neg (Ne.symm h.1)]
  rw [checkProperty, checkProperty, hfind]

theorem check_any (cat : Catalogue) (v : Value) : check cat v .any = Verdict.loose v := by
  cases v <;> rfl

theorem check_optional {cat : Catalogue} (v : Value) (inner : Shape) :
    check cat v (.optional inner) = if v.isNull then Verdict.exact v else check cat v inner := by
  cases v <;> rfl

theorem check_firstOf_eq {cat : Catalogue} (v : Value) (s t : Shape) :
    check cat v (.firstOf [s, t]) =
      firstOf [] [(s.label, check cat v s), (t.label, check cat v t)] := by
  cases v <;> rfl

/-- Of two alternatives the first one that fits is taken. -/
theorem check_firstOf {cat : Catalogue} {v : Value} {s t : Shape} {a : Accepted}
    (h : check cat v (.firstOf [s, t]) = .ok a) :
    check cat v s = .ok a ∨ check cat v t = .ok a := by
  rw [check_firstOf_eq] at h
  cases hs : check cat v s with
  | ok b =>
    rw [hs] at h
    exact .inl h
  | error issues =>
    rw [hs] at h
    cases ht : check cat v t with
    | ok b =>
      rw [ht] at h
      exact .inr h
    | error issues =>
      rw [ht] at h
      cases h

/-- What is taken for a record of a model is a record. -/
theorem isRecord_of_check {cat : Catalogue} {v : Value} {name : String} {a : Accepted}
    (h : check cat v (.model name) = .ok a) : ∃ c slots, a.value = .record c slots := by
  cases v with
  | dict es =>
    have hmodel : check cat (.dict es) (.model name) =
        checkModel cat name (.dict es) ⟨[], checkEntries cat es⟩ := rfl
    rw [hmodel, checkModel] at h
    split at h
    · exact ⟨_, _, (buildRecord_ok h).2⟩
    · cases h
  | record c slots =>
    have hmodel : check cat (.record c slots) (.model name) =
        checkModel cat name (.record c slots) noParts := rfl
    rw [hmodel, checkModel] at h
    split at h
    · split at h <;> cases h <;> exact ⟨_, _, rfl⟩
    · cases h
  | _ => cases h

/-- What the entries of an object with texts as keys are taken for, key and value alternating. -/
def takenEntries (fs : Fields) : List Accepted :=
  fs.flatMap fun f => [⟨.str f.1, .exact, none⟩, ⟨f.2, .loose, none⟩]

theorem entriesOf_takenEntries (fs : Fields) :
    checkMapping.entriesOf (takenEntries fs) = .object (Fields.ofList fs) := by
  have hpairs : checkMapping.pairUp ((takenEntries fs).map Accepted.value) = fs.entries := by
    induction fs with
    | nil => rfl
    | cons f fs ih => exact congrArg (List.cons _) ih
  rw [checkMapping.entriesOf, hpairs, Fields.dictOf_entries]

/-- What the keys and the values of a dictionary with texts as keys are taken for, key and value
alternating. -/
def entryVerdicts (cat : Catalogue) (value : Shape) (es : Entries) : List Verdict :=
  es.flatMap fun e => [((check cat e.1 .text).under (.name "[key]")).under (keyPlace e.1),
    (check cat e.2 value).under (keyPlace e.1)]

theorem check_dict (cat : Catalogue) (value : Shape) (es : Entries) :
    check cat (.dict es) (.mapping .text value) = (do
      let as ← gather (entryVerdicts cat value es)
      .ok ⟨checkMapping.entriesOf as, overall .exact as, totalGiven as⟩) := by
  have hverdicts : entryVerdicts cat value es = ((checkEntries cat es).map fun e =>
      (((e.2.1 .text).under (.name "[key]")).under (keyPlace e.1),
        (e.2.2 value).under (keyPlace e.1))).flatMap fun p => [p.1, p.2] := by
    rw [checkEntries_eq_map, List.map_map, List.flatMap_map]
    rfl
  rw [hverdicts]
  rfl

/-- An object with texts as keys fits as it is. -/
theorem check_object (cat : Catalogue) (fs : Fields) :
    check cat (.object fs) .object = .ok ⟨.object (Fields.ofList fs),
      overall .exact (takenEntries fs), totalGiven (takenEntries fs)⟩ := by
  have hverdicts : entryVerdicts cat .any fs.entries = (takenEntries fs).map .ok := by
    induction fs with
    | nil => rfl
    | cons f fs ih =>
      have hvalue : (check cat f.2 .any).under (keyPlace (.str f.1)) =
          .ok ⟨f.2, .loose, none⟩ := by
        rw [check_any]
        rfl
      have hpair := congrArg (fun r => [.ok ⟨.str f.1, .exact, none⟩, r]) hvalue
      exact congr (congrArg HAppend.hAppend hpair) ih
  rw [Fields.object_eq, Shape.object, check_dict, gather_eq_ok.2 hverdicts,
    ← entriesOf_takenEntries]
  rfl

/-- An object whose fields have distinct names is taken as it is. -/
theorem check_isObject (cat : Catalogue) {v : Value} (h : v.IsObject) :
    ∃ a, check cat v .object = .ok a ∧ a.value = v := by
  obtain ⟨fs, hnames, rfl⟩ := h
  refine ⟨_, check_object cat fs, ?_⟩
  rw [Fields.ofList_of_nodup hnames]

/-- An object fits if each of its values does. -/
theorem check_mapping {cat : Catalogue} {value : Shape} {fs : Fields}
    (h : ∀ f ∈ fs, ∃ a, check cat f.2 value = .ok a) :
    ∃ a, check cat (.object fs) (.mapping .text value) = .ok a ∧
      a.value = .object (Fields.ofList (fs.map fun f => (f.1, valueOf (check cat f.2 value)))) := by
  have hparts : ∃ as : List Accepted, entryVerdicts cat value fs.entries = as.map .ok ∧
      checkMapping.pairUp (as.map Accepted.value) =
        Fields.entries (fs.map fun f => (f.1, valueOf (check cat f.2 value))) := by
    induction fs with
    | nil => exact ⟨[], rfl, rfl⟩
    | cons f fs ih =>
      obtain ⟨hf, hfs⟩ := List.forall_mem_cons.1 h
      obtain ⟨a, ha⟩ := hf
      obtain ⟨as, has, hpairs⟩ := ih hfs
      refine ⟨⟨.str f.1, .exact, none⟩ :: a :: as, ?_, ?_⟩
      · have hentry : (check cat f.2 value).under (keyPlace (.str f.1)) = .ok a :=
          under_eq_ok.2 ha
        have hpair := congrArg (fun r => [.ok ⟨.str f.1, .exact, none⟩, r]) hentry
        exact congr (congrArg HAppend.hAppend hpair) has
      · rw [List.map_cons, List.map_cons, checkMapping.pairUp, hpairs, List.map_cons, ha]
        rfl
  obtain ⟨as, has, hpairs⟩ := hparts
  rw [Fields.object_eq, check_dict, gather_eq_ok.2 has]
  refine ⟨_, rfl, ?_⟩
  rw [checkMapping.entriesOf, hpairs, Fields.dictOf_entries]

/-- An object whose values fit as they are is taken as it is, too. -/
theorem check_fields {cat : Catalogue} {value : Shape} {fs : Fields} (hnames : fs.names.Nodup)
    (h : ∀ f ∈ fs, ∃ a, check cat f.2 value = .ok a ∧ a.value = f.2) :
    ∃ a, check cat (.object fs) (.mapping .text value) = .ok a ∧ a.value = .object fs := by
  have hsame : (fs.map fun f => (f.1, valueOf (check cat f.2 value))) = fs.map id := by
    apply List.map_congr_left
    intro f hf
    obtain ⟨a, ha, hvalue⟩ := h f hf
    rw [ha, valueOf, hvalue]
    rfl
  obtain ⟨a, ha, hvalue⟩ := check_mapping fun f hf => (h f hf).imp fun a ha => ha.1
  refine ⟨a, ha, ?_⟩
  rw [hvalue, hsame, List.map_id, Fields.ofList_of_nodup hnames]

theorem check_text_ok {cat : Catalogue} {v : Value} {a : Accepted}
    (h : check cat v .text = .ok a) : ∃ s, a.value = .str s := by
  have htext : check cat v .text = checkText v := by cases v <;> rfl
  rw [htext] at h
  unfold checkText at h
  split at h <;> cases h <;> exact ⟨_, rfl⟩

/-- The keys that are taken are texts, in front of their values. -/
theorem pairUp_taken {cat : Catalogue} {value : Shape} {es : Entries} {as : List Accepted}
    (h : entryVerdicts cat value es = as.map .ok) :
    ∃ fs : Fields, checkMapping.pairUp (as.map Accepted.value) = fs.entries ∧
      ∀ f ∈ fs, ∃ w a, check cat w value = .ok a ∧ a.value = f.2 := by
  induction es generalizing as with
  | nil =>
    rw [entryVerdicts, List.flatMap_nil, eq_comm, List.map_eq_nil_iff] at h
    exact ⟨[], by rw [h]; rfl, List.forall_mem_nil _⟩
  | cons e es ih =>
    rw [entryVerdicts, List.flatMap_cons] at h
    obtain _ | ⟨k, _ | ⟨w, as⟩⟩ := as
    · simp at h
    · simp at h
    · simp only [List.cons_append, List.nil_append, List.map_cons, List.cons.injEq] at h
      obtain ⟨hk, hw, h⟩ := h
      obtain ⟨s, hs⟩ := check_text_ok (under_eq_ok.1 (under_eq_ok.1 hk))
      obtain ⟨fs, hfs, hvalues⟩ := ih h
      refine ⟨(s, w.value) :: fs, ?_, List.forall_mem_cons.2 ⟨?_, hvalues⟩⟩
      · rw [List.map_cons, List.map_cons, checkMapping.pairUp, hs, hfs]
        rfl
      · exact ⟨e.2, w, under_eq_ok.1 hw, rfl⟩

/-- What is taken for a dictionary with texts as keys is an object whose fields have distinct names
and values that fit. -/
theorem check_mapping_ok {cat : Catalogue} {value : Shape} {v : Value} {a : Accepted}
    (h : check cat v (.mapping .text value) = .ok a) :
    ∃ fs : Fields, fs.names.Nodup ∧ a.value = .object fs ∧
      ∀ f ∈ fs, ∃ w b, check cat w value = .ok b ∧ b.value = f.2 := by
  cases v with
  | dict es =>
    rw [check_dict] at h
    cases hgather : gather (entryVerdicts cat value es) with
    | error issues =>
      rw [hgather] at h
      cases h
    | ok as =>
      rw [hgather] at h
      cases h
      obtain ⟨fs, hfs, hvalues⟩ := pairUp_taken (gather_eq_ok.1 hgather)
      refine ⟨Fields.ofList fs, Fields.nodup_ofList fs, ?_, ?_⟩
      · rw [checkMapping.entriesOf, hfs, Fields.dictOf_entries]
      · exact fun f hf => hvalues f (Fields.mem_of_mem_ofList hf)
  | _ => cases h

/-- What is taken for an object has distinct texts as keys. -/
theorem isObject_of_check {cat : Catalogue} {v : Value} {a : Accepted}
    (h : check cat v .object = .ok a) : a.value.IsObject := by
  obtain ⟨fs, hnames, heq, -⟩ := check_mapping_ok h
  exact ⟨fs, hnames, heq⟩

theorem checkAll_eq_map (cat : Catalogue) (xs : List Value) :
    checkAll cat xs = xs.map (check cat) := by
  induction xs with
  | nil => rfl
  | cons x xs ih => rw [checkAll, ih, List.map_cons]

theorem placed_eq_ok {n : Nat} {rs : List Verdict} {as : List Accepted} :
    placed n rs = as.map .ok ↔ rs = as.map .ok := by
  induction rs generalizing n as with
  | nil => exact Iff.rfl
  | cons r rs ih =>
    cases as with
    | nil => simp [placed]
    | cons a as =>
      rw [placed, List.map_cons, List.cons.injEq, List.cons.injEq, under_eq_ok, ih]

/-- The items of a collection are checked at their places. -/
theorem check_collection (cat : Catalogue) {v : Value} {ws : List Value}
    (h : v.collection? = some ws) (kind : SequenceKind) (item : Shape) (least : Nat) :
    check cat v (.sequence kind item least) = (do
      let as ← gather (placed 0 (ws.map fun w => check cat w item))
      if as.length < least then Verdict.refuse .tooShort
      else .ok ⟨kind.make (as.map Accepted.value), overall (kind.closeness v) as,
        totalGiven as⟩) := by
  have hchecks : (ws.map fun w => check cat w item) =
      (checkAll cat ws).map fun check => check item := by
    rw [checkAll_eq_map, List.map_map]
    rfl
  rw [hchecks]
  cases v with
  | list xs =>
    cases h
    rfl
  | tuple xs =>
    cases h
    rfl
  | set xs =>
    cases h
    rfl
  | _ => cases h

/-- A list fits if each of its items does. -/
theorem check_list {cat : Catalogue} {xs : List Value} {item : Shape}
    (h : ∀ x ∈ xs, ∃ a, check cat x item = .ok a) :
    ∃ a, check cat (.list xs) (.sequence .list item 0) = .ok a ∧
      a.value = .list (xs.map fun x => valueOf (check cat x item)) := by
  obtain ⟨as, has⟩ := exists_map_ok.2 h
  have hvalues : (xs.map fun x => valueOf (check cat x item)) = as.map Accepted.value := by
    have := congrArg (List.map valueOf) has
    rw [List.map_map, List.map_map] at this
    exact this
  rw [check_collection cat rfl, gather_eq_ok.2 (placed_eq_ok.2 has), hvalues]
  exact ⟨_, rfl, rfl⟩

theorem exists_collection_of_check {cat : Catalogue} {v : Value} {kind : SequenceKind}
    {item : Shape} {least : Nat} {a : Accepted}
    (h : check cat v (.sequence kind item least) = .ok a) : ∃ ws, v.collection? = some ws := by
  cases v with
  | list ws => exact ⟨ws, rfl⟩
  | tuple ws => exact ⟨ws, rfl⟩
  | set ws => exact ⟨ws, rfl⟩
  | _ => cases h

/-- What is taken for a collection of a kind is made of what is taken for items of a collection. -/
theorem check_sequence_items {cat : Catalogue} {v : Value} {kind : SequenceKind} {item : Shape}
    {least : Nat} {a : Accepted} (h : check cat v (.sequence kind item least) = .ok a) :
    ∃ ws xs, v.collection? = some ws ∧ a.value = kind.make xs ∧
      ∀ x ∈ xs, ∃ w ∈ ws, ∃ b, check cat w item = .ok b ∧ b.value = x := by
  obtain ⟨ws, hws⟩ := exists_collection_of_check h
  rw [check_collection cat hws] at h
  cases hgather : gather (placed 0 (ws.map fun w => check cat w item)) with
  | error issues =>
    rw [hgather] at h
    cases h
  | ok as =>
    have hchecks := placed_eq_ok.1 (gather_eq_ok.1 hgather)
    rw [hgather] at h
    simp only [bind, Except.bind] at h
    split at h
    · cases h
    · cases h
      refine ⟨ws, _, hws, rfl, fun x hx => ?_⟩
      obtain ⟨b, hb, hvalue⟩ := List.mem_map.1 hx
      have hmem : .ok b ∈ ws.map fun w => check cat w item := hchecks ▸ List.mem_map_of_mem hb
      obtain ⟨w, hw, hok⟩ := List.mem_map.1 hmem
      exact ⟨w, hw, b, hok, hvalue⟩

/-- What is taken for a list has the items that are taken of a collection. -/
theorem check_list_items {cat : Catalogue} {v : Value} {item : Shape} {least : Nat} {a : Accepted}
    (h : check cat v (.sequence .list item least) = .ok a) :
    ∃ ws xs, v.collection? = some ws ∧ a.value = .list xs ∧
      ∀ x ∈ xs, ∃ w ∈ ws, ∃ b, check cat w item = .ok b ∧ b.value = x :=
  check_sequence_items h

/-- What is taken for a list has items that fit. -/
theorem check_list_ok {cat : Catalogue} {v : Value} {item : Shape} {a : Accepted}
    (h : check cat v (.sequence .list item 0) = .ok a) :
    ∃ xs, a.value = .list xs ∧ ∀ x ∈ xs, ∃ w b, check cat w item = .ok b ∧ b.value = x := by
  obtain ⟨ws, xs, -, hxs, hitems⟩ := check_list_items h
  refine ⟨xs, hxs, fun x hx => ?_⟩
  obtain ⟨w, -, hb⟩ := hitems x hx
  exact ⟨w, hb⟩

/-- A list is taken as it is if each of its items is. -/
theorem check_items {cat : Catalogue} {xs : List Value} {item : Shape}
    (h : ∀ x ∈ xs, ∃ a, check cat x item = .ok a ∧ a.value = x) :
    ∃ a, check cat (.list xs) (.sequence .list item 0) = .ok a ∧ a.value = .list xs := by
  have hsame : (xs.map fun x => valueOf (check cat x item)) = xs.map id := by
    apply List.map_congr_left
    intro x hx
    obtain ⟨a, ha, hvalue⟩ := h x hx
    rw [ha]
    exact hvalue
  obtain ⟨a, ha, hvalue⟩ := check_list fun x hx => (h x hx).imp fun a ha => ha.1
  refine ⟨a, ha, ?_⟩
  rw [hvalue, hsame, List.map_id]

/-- A list of objects is taken as it is. -/
theorem check_objects (cat : Catalogue) {xs : List Value} (h : ∀ x ∈ xs, x.IsObject) :
    ∃ a, check cat (.list xs) (.sequence .list .object 0) = .ok a ∧ a.value = .list xs :=
  check_items fun x hx => check_isObject cat (h x hx)

end SearchWire
