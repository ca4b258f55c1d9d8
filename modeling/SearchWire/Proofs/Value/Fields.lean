import SearchWire.Value.Basic

/-!
# Fields with distinct names

Writing a field under a new name puts it at the end, so fields with distinct names are written
down as they are.

* `Fields.entries`: the fields as the entries of a dictionary.
* `Fields.set_of_not_mem`: writing a field under a new name.
* `Fields.ofList_of_nodup`: fields with distinct names, written one after the other.
* `Fields.dictOf_entries`: an object that is put together again.
* `Fields.find?_entries`: reading a field or looking for its entry.
* `Fields.filter_given`, `Fields.map_given`: the fields that are set among some, or under other
  names.
* `Fields.get?_insert`, `Fields.get?_new`: reading where one field more was put in between.
* `Fields.get?_ofList`, `Fields.mem_of_mem_ofList`: of several fields with one name the last one is
  read, and fields that are written are some of those.
* `Value.IsObject`: objects whose fields have distinct names.
-/

namespace SearchWire

namespace Fields

/-- The entries of the object with the given fields. -/
def entries (fs : Fields) : Entries := fs.map fun f => (.str f.1, f.2)

theorem object_eq (fs : Fields) : Value.object fs = .dict fs.entries := rfl

theorem entries_append (fs gs : Fields) : entries (fs ++ gs) = entries fs ++ entries gs :=
  List.map_append

theorem names_append (fs gs : Fields) : names (fs ++ gs) = names fs ++ names gs :=
  List.map_append

theorem set_of_not_mem {fs : Fields} {name : String} (h : name ∉ fs.names) (v : Value) :
    fs.set name v = fs ++ [(name, v)] := by
  induction fs with
  | nil => rfl
  | cons f fs ih =>
    rw [names, List.map_cons, List.mem_cons, not_or] at h
    rw [set, if_neg (Ne.symm h.1), ih h.2, List.cons_append]

/-- Fields with new and distinct names go to the end in their order. -/
theorem setAll_of_nodup {fs more : Fields} (h : (fs ++ more).names.Nodup) :
    fs.setAll more = fs ++ more := by
  induction more generalizing fs with
  | nil => rw [List.append_nil]; rfl
  | cons f more ih =>
    have hf : f.1 ∉ fs.names := by
      intro hmem
      rw [names_append, List.nodup_append] at h
      exact h.2.2 f.1 hmem f.1 (by simp [names]) rfl
    rw [List.append_cons] at h ⊢
    rw [← ih h, ← set_of_not_mem hf]
    rfl

theorem ofList_of_nodup {fs : Fields} (h : fs.names.Nodup) : ofList fs = fs := by
  rw [ofList, setAll_of_nodup (by simpa using h), List.nil_append]

theorem mem_names_set {fs : Fields} {name m : String} {v : Value} (h : m ∈ (fs.set name v).names) :
    m ∈ fs.names ∨ m = name := by
  induction fs with
  | nil => exact .inr (by simpa [set, names] using h)
  | cons f fs ih =>
    rw [set] at h
    split at h
    · exact .inl h
    · rw [names, List.map_cons, List.mem_cons] at h ⊢
      rcases h with h | h
      · exact .inl (.inl h)
      · rcases ih h with h | h
        · exact .inl (.inr h)
        · exact .inr h

theorem forall_mem_set {P : Value → Prop} {fs : Fields} {v : Value} (h : ∀ f ∈ fs, P f.2)
    (hv : P v) (name : String) : ∀ f ∈ fs.set name v, P f.2 := by
  induction fs with
  | nil => exact List.forall_mem_singleton.2 hv
  | cons f fs ih =>
    obtain ⟨hf, hfs⟩ := List.forall_mem_cons.1 h
    rw [set]
    split
    · exact List.forall_mem_cons.2 ⟨hv, hfs⟩
    · exact List.forall_mem_cons.2 ⟨hf, ih hfs⟩

/-- Writing a field keeps the names distinct. -/
theorem nodup_set {fs : Fields} (h : fs.names.Nodup) (name : String) (v : Value) :
    (fs.set name v).names.Nodup := by
  induction fs with
  | nil => simp [set, names]
  | cons f fs ih =>
    rw [set]
    split
    · exact h
    · next hne =>
      rw [names, List.map_cons, List.nodup_cons] at h ⊢
      refine ⟨?_, ih h.2⟩
      intro hmem
      rcases mem_names_set hmem with hmem | heq
      · exact h.1 hmem
      · exact hne heq

theorem nodup_setAll {fs : Fields} (h : fs.names.Nodup) (more : Fields) :
    (fs.setAll more).names.Nodup := by
  induction more generalizing fs with
  | nil => exact h
  | cons f more ih => exact ih (nodup_set h f.1 f.2)

theorem nodup_ofList (fs : Fields) : (ofList fs).names.Nodup := by
  have hnil : (names []).Nodup := List.nodup_nil
  exact nodup_setAll hnil fs

theorem ofList_ofList (fs : Fields) : ofList (ofList fs) = ofList fs :=
  ofList_of_nodup (nodup_ofList fs)

/-- Writing an entry with a text as key is writing a field. -/
theorem putEntry_entries (fs : Fields) (name : String) (v : Value) :
    Value.putEntry fs.entries (.str name) v = (fs.set name v).entries := by
  induction fs with
  | nil => rfl
  | cons f fs ih =>
    obtain ⟨n, w⟩ := f
    have hkey : (Value.str n).sameKey (.str name) = (n == name) := rfl
    rw [set, entries, List.map_cons, Value.putEntry, hkey]
    split
    · next h => rw [if_pos (beq_iff_eq.1 h)]; rfl
    · next h => rw [if_neg fun heq => h (beq_iff_eq.2 heq)]; exact congrArg _ ih

theorem dictOf_entries (fs : Fields) : Value.dictOf fs.entries = .object (ofList fs) := by
  have hfold : ∀ (more acc : Fields), (entries more).foldl
      (fun acc e => Value.putEntry acc e.1 e.2) acc.entries = (acc.setAll more).entries := by
    intro more
    induction more with
    | nil => intro acc; rfl
    | cons f more ih =>
      intro acc
      have hcons : entries (f :: more) = (.str f.1, f.2) :: entries more := rfl
      rw [hcons, List.foldl_cons, putEntry_entries]
      exact ih _
  exact congrArg Value.dict (hfold fs [])

/-- The entry of a field has the name of the field as its key. -/
theorem find?_entries (fs : Fields) (name : String) :
    (fs.entries.find? fun e => e.1.text? == some name) =
      (fs.get? name).map fun v => (.str name, v) := by
  induction fs with
  | nil => rfl
  | cons f fs ih =>
    obtain ⟨n, v⟩ := f
    rw [entries, List.map_cons, List.find?_cons, get?, List.lookup_cons]
    by_cases hn : n = name
    · simp [Value.text?, hn]
    · have hne : (name == n) = false := by simp [Ne.symm hn]
      have htext : ((Value.str n).text? == some name) = false := by simp [Value.text?, hn]
      rw [hne, htext]
      exact ih

theorem findEntry?_entries (fs : Fields) (name : String) :
    Value.findEntry? fs.entries name = fs.get? name := by
  rw [Value.findEntry?, find?_entries, Option.map_map]
  exact Option.map_id'

theorem get?_of_not_mem {fs : Fields} {name : String} (h : name ∉ fs.names) :
    fs.get? name = none := by
  rw [get?, List.lookup_eq_none_iff]
  intro f hf
  have hne : name ≠ f.1 := fun heq => h (List.mem_map.2 ⟨f, hf, heq.symm⟩)
  simp [hne]

theorem get?_of_mem {fs : Fields} {name : String} {v : Value} (h : fs.names.Nodup)
    (hmem : (name, v) ∈ fs) : fs.get? name = some v := by
  induction fs with
  | nil => cases hmem
  | cons f fs ih =>
    rw [names, List.map_cons, List.nodup_cons] at h
    rcases List.mem_cons.1 hmem with rfl | hmem
    · simp [get?]
    · have hne : (name == f.1) = false := by
        have hf : name ≠ f.1 := fun heq => h.1 (heq ▸ List.mem_map.2 ⟨_, hmem, rfl⟩)
        simp [hf]
      rw [get?, List.lookup_cons, hne]
      exact ih h.2 hmem

theorem mem_of_get? {fs : Fields} {name : String} {v : Value} (h : fs.get? name = some v) :
    (name, v) ∈ fs := by
  induction fs with
  | nil => cases h
  | cons f fs ih =>
    rw [get?, List.lookup_cons] at h
    split at h
    · next heq =>
      cases h
      rw [beq_iff_eq.1 heq]
      exact List.mem_cons_self
    · exact .tail f (ih h)

/-- A name is one of the fields if it is read there. -/
theorem mem_names_iff {fs : Fields} {name : String} :
    name ∈ fs.names ↔ ∃ v, fs.get? name = some v := by
  constructor
  · intro h
    obtain ⟨f, hf, rfl⟩ := List.mem_map.1 h
    cases hget : fs.get? f.1 with
    | none =>
      rw [get?, List.lookup_eq_none_iff] at hget
      simpa using hget f hf
    | some v => exact ⟨v, rfl⟩
  · rintro ⟨v, hv⟩
    exact List.mem_map.2 ⟨_, mem_of_get? hv, rfl⟩

/-! ## Fields that are set -/

theorem given_eq_filter (fs : Fields) : fs.given = fs.filter fun f => !f.2.isNull := by
  apply List.filter_congr
  intro f _
  obtain ⟨name, v⟩ := f
  cases v <;> rfl

theorem forall_mem_given {P : String × Value → Prop} {fs : Fields} (h : ∀ f ∈ fs, P f) :
    ∀ f ∈ fs.given, P f :=
  fun f hf => h f (List.mem_filter.1 hf).1

theorem names_given_sublist (fs : Fields) : fs.given.names.Sublist fs.names :=
  List.filter_sublist.map Prod.fst

theorem given_append (fs gs : Fields) : given (fs ++ gs) = fs.given ++ gs.given :=
  List.filter_append fs gs

theorem perm_given {fs gs : Fields} (h : fs.Perm gs) : fs.given.Perm gs.given := h.filter _

/-- Which fields are set does not depend on which fields are looked at. -/
theorem filter_given (keep : String → Bool) (fs : Fields) :
    (fs.given.filter fun f => keep f.1) = given (fs.filter fun f => keep f.1) := by
  rw [given_eq_filter, given_eq_filter, List.filter_filter, List.filter_filter]
  apply List.filter_congr
  intro f _
  exact Bool.and_comm _ _

/-- Fields that are set are so under other names, too. -/
theorem map_given (rename : String → String) (fs : Fields) :
    (fs.given.map fun f => (rename f.1, f.2)) = given (fs.map fun f => (rename f.1, f.2)) := by
  rw [given_eq_filter, given_eq_filter, List.filter_map]
  rfl

/-! ## Reading where fields were put in -/

variable {before after : Fields} {name : String} {v : Value}

theorem get?_insert {key : String} (h : key ≠ name) :
    get? (before ++ (name, v) :: after) key = get? (before ++ after) key := by
  have hne : (key == name) = false := by simp [h]
  simp [get?, List.lookup_append, List.lookup_cons, hne]

theorem get?_new (h : name ∉ names before) :
    get? (before ++ (name, v) :: after) name = some v := by
  have hbefore := get?_of_not_mem h
  rw [get?] at hbefore ⊢
  simp [List.lookup_append, hbefore]

theorem get?_cons (f : String × Value) (fs : Fields) (key : String) :
    get? (f :: fs) key = if key = f.1 then some f.2 else fs.get? key := by
  rw [get?, List.lookup_cons]
  by_cases h : key = f.1
  · simp [h]
  · have hne : (key == f.1) = false := by simp [h]
    rw [hne, if_neg h, get?]

theorem get?_append (fs gs : Fields) (key : String) :
    get? (fs ++ gs) key = (fs.get? key).or (gs.get? key) := List.lookup_append

theorem get?_mapValues (f : Value → Value) (fs : Fields) (name : String) :
    get? (fs.map fun e => (e.1, f e.2)) name = (fs.get? name).map f := by
  induction fs with
  | nil => rfl
  | cons e fs ih =>
    rw [List.map_cons, get?_cons, get?_cons, ih]
    split <;> rfl

theorem get?_set (fs : Fields) (name key : String) (v : Value) :
    (fs.set name v).get? key = if key = name then some v else fs.get? key := by
  induction fs with
  | nil => rw [set, get?_cons]
  | cons f fs ih =>
    rw [set]
    by_cases hf : f.1 = name
    · rw [if_pos hf, get?_cons, get?_cons, hf]
      by_cases h : key = name <;> simp [h]
    · rw [if_neg hf, get?_cons, get?_cons, ih]
      by_cases h : key = f.1
      · simp [h, hf]
      · simp [h]

/-- Of several fields with one name the last one is read. -/
theorem get?_ofList (fs : Fields) (key : String) : (ofList fs).get? key = get? fs.reverse key := by
  have hall : ∀ more acc : Fields,
      (acc.setAll more).get? key = (get? more.reverse key).or (acc.get? key) := by
    intro more
    induction more with
    | nil => intro acc; rfl
    | cons f more ih =>
      intro acc
      have hstep : acc.setAll (f :: more) = (acc.set f.1 f.2).setAll more := rfl
      rw [hstep, ih, get?_set, List.reverse_cons, get?_append, get?_cons, Option.or_assoc]
      by_cases h : key = f.1 <;> simp [h, get?]
  rw [ofList, hall]
  exact Option.or_none

/-- Fields that are written one after the other, and no others. -/
theorem mem_of_mem_ofList {fs : Fields} {f : String × Value} (h : f ∈ ofList fs) : f ∈ fs := by
  have hget := get?_of_mem (nodup_ofList fs) h
  rw [get?_ofList] at hget
  exact List.mem_reverse.1 (mem_of_get? hget)

/-- A field that is there once is read, whatever else is written. -/
theorem get?_ofList_new (hbefore : name ∉ names after) :
    (ofList (before ++ (name, v) :: after)).get? name = some v := by
  have hnew : name ∉ names after.reverse := by
    rw [names, List.map_reverse, List.mem_reverse]
    exact hbefore
  rw [get?_ofList, List.reverse_append, List.reverse_cons, List.append_assoc]
  exact get?_new hnew

end Fields

/-- An object whose fields have distinct names. -/
def Value.IsObject (v : Value) : Prop := ∃ fs : Fields, fs.names.Nodup ∧ v = .object fs

theorem Value.isObject_ofList (fs : Fields) : (object (Fields.ofList fs)).IsObject :=
  ⟨_, Fields.nodup_ofList fs, rfl⟩

theorem Value.isObject_singleton (key : String) (v : Value) : (object [(key, v)]).IsObject := by
  refine ⟨[(key, v)], ?_, rfl⟩
  simp [Fields.names]

end SearchWire
