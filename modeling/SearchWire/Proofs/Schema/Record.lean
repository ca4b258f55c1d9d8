import SearchWire.Proofs.Schema.Check
import SearchWire.Value.Reading

/-!
# Records that are built

A property of a record that was built from arguments has a value that fits its shape, or its
default.

* `find?_of_nodup`: an item that is found by its name.
* `field_recordOf`, `field_of_build`, `field_view`: what a record has as the value of a property.
* `bestOf_eq_ok`, `check_anyOf_ok`: of several alternatives one that fits is taken.
* `check_integer_ok`, `check_flag_ok`, `check_number_ok`: what is taken for values without parts.
* `check_integer_low`, `check_integer_of_le`: numbers with a lower bound.
* `check_tagged_ok`: records whose model is told by a tag.
* `check_timeout_ok`: what is taken for a timeout.
-/

namespace SearchWire

/-- Of items with names of their own each is found by its name. -/
theorem find?_of_nodup {α : Type} {name : α → String} {xs : List α} {x : α}
    (h : (xs.map name).Nodup) (hx : x ∈ xs) : xs.find? (name · == name x) = some x := by
  induction xs with
  | nil => cases hx
  | cons y xs ih =>
    rw [List.map_cons, List.nodup_cons] at h
    rw [List.find?_cons]
    rcases List.mem_cons.1 hx with rfl | hx
    · rw [beq_self_eq_true]
    · have hne : (name y == name x) = false := by
        have hname : name y ≠ name x := fun heq => h.1 (heq ▸ List.mem_map.2 ⟨x, hx, rfl⟩)
        simp [hname]
      rw [hne]
      exact ih h.2 hx

theorem Property.find?_name {ps : List Property} {p : Property} (h : (ps.map Property.name).Nodup)
    (hp : p ∈ ps) : ps.find? (·.name == p.name) = some p := find?_of_nodup h hp

/-- What a record has as the value of a property is what the property takes. -/
theorem field_recordOf {m : Model} {p : Property} (parts : Parts)
    (hnames : (m.properties.map Property.name).Nodup) (hp : p ∈ m.properties) :
    (recordOf m parts).field p.name = valueOf (checkProperty p parts) := by
  rw [recordOf, Value.field, Value.property?, List.find?_map]
  have hfind : m.properties.find? ((fun s : Slot Value => s.name == p.name) ∘
      fun p => ⟨p.name, p.wire, valueOf (checkProperty p parts)⟩) = some p :=
    Property.find?_name hnames hp
  rw [hfind]
  rfl

/-- What a built record has as the value of a property fits its shape, or is its default. -/
theorem field_of_build {cat : Catalogue} {name : String} {args : Fields} {v : Value} {m : Model}
    {p : Property} (hcat : cat.model? name = some m)
    (hnames : (m.properties.map Property.name).Nodup) (hp : p ∈ m.properties)
    (h : cat.build name args = .ok v) :
    (∃ w a, check cat w p.shape = .ok a ∧ v.field p.name = a.value) ∨
      p.default = some (v.field p.name) := by
  obtain ⟨m', a, hm', ha, rfl⟩ := build_eq_ok.1 h
  cases hcat.symm.trans hm'
  obtain ⟨hok, hvalue⟩ := buildRecord_ok ha
  obtain ⟨b, hb⟩ := hok p hp
  have hfield : a.value.field p.name = b.value := by
    rw [hvalue, field_recordOf _ hnames hp, hb]
    rfl
  rcases checkProperty_cases hb with ⟨-, w, -, hw⟩ | hdefault
  · exact .inl ⟨w, b, hw, hfield⟩
  · exact .inr (by rw [hdefault, hfield])

/-- A record that stands for one of a model has its properties. -/
theorem field_view (m : Model) (c : RecordClass) (slots : List (Slot Value)) (name : String) :
    (m.view c slots).field name = (Value.record c slots).field name := by
  rw [Model.view, Value.field, Value.field, Value.property?, Value.property?, List.find?_map,
    Option.map_map]
  rfl

theorem record_of_build {cat : Catalogue} {name : String} {args : Fields} {v : Value} {m : Model}
    (hcat : cat.model? name = some m) (h : cat.build name args = .ok v) :
    ∃ slots, v = .record m.cls slots := by
  obtain ⟨m', a, hm', ha, rfl⟩ := build_eq_ok.1 h
  cases hcat.symm.trans hm'
  exact ⟨_, (buildRecord_ok ha).2⟩

theorem Value.eq_of_ofClass? {name : String} {v w : Value} (h : v.ofClass? name = some w) :
    w = v := by
  unfold ofClass? at h
  split at h <;> cases h
  rfl

/-- Of several alternatives one that fits is taken. -/
theorem bestOf_eq_ok {best : Option Accepted} {issues : List Issue}
    {rs : List (String × Verdict)} {a : Accepted} (h : bestOf best issues rs = .ok a) :
    best = some a ∨ ∃ label, (label, .ok a) ∈ rs := by
  induction rs generalizing best issues with
  | nil =>
    unfold bestOf at h
    split at h <;> cases h
    exact .inl rfl
  | cons r rs ih =>
    obtain ⟨label, r⟩ := r
    unfold bestOf at h
    split at h
    · next b =>
      split at h
      · cases h
        exact .inr ⟨label, List.mem_cons_self⟩
      · split at h
        · next c =>
          rcases ih h with hbest | ⟨label', hmem⟩
          · split at hbest <;> cases hbest
            · exact .inr ⟨label, List.mem_cons_self⟩
            · exact .inl rfl
          · exact .inr ⟨label', .tail _ hmem⟩
        · rcases ih h with hbest | ⟨label', hmem⟩
          · cases hbest
            exact .inr ⟨label, List.mem_cons_self⟩
          · exact .inr ⟨label', .tail _ hmem⟩
    · rcases ih h with hbest | ⟨label', hmem⟩
      · exact .inl hbest
      · exact .inr ⟨label', .tail _ hmem⟩

theorem check_integer_ok {cat : Catalogue} {v : Value} {low high : Option Int} {a : Accepted}
    (h : check cat v (.integer low high) = .ok a) : ∃ n, a.value = .int n := by
  have hwhole : check cat v (.integer low high) = checkWhole low high v := by cases v <;> rfl
  rw [hwhole] at h
  unfold checkWhole bounded at h
  split at h
  · cases h
  · simp only [bind, Except.bind] at h
    split at h
    · split at h <;> cases h
      exact ⟨_, rfl⟩
    · cases h

/-- What is taken for a number with a lower bound is not below it. -/
theorem check_integer_low {cat : Catalogue} {v : Value} {low : Int} {high : Option Int}
    {a : Accepted} (h : check cat v (.integer (some low) high) = .ok a) :
    ∃ n, a.value = .int n ∧ low ≤ n := by
  have hwhole : check cat v (.integer (some low) high) = checkWhole (some low) high v := by
    cases v <;> rfl
  rw [hwhole] at h
  unfold checkWhole bounded at h
  split at h
  · cases h
  · next n c _ =>
    simp only [bind, Except.bind, Option.map_some, Option.getD_some, decide_eq_true_eq] at h
    split at h
    · split at h
      · next hlow =>
        cases h
        exact ⟨n, rfl, hlow⟩
      · cases h
    · cases h

/-- A number that is not below a bound is taken as it is. -/
theorem check_integer_of_le (cat : Catalogue) {low n : Int} (h : low ≤ n) :
    check cat (.int n) (.integer (some low) none) = Verdict.exact (.int n) := by
  have hwhole : check cat (.int n) (.integer (some low) none) =
      checkWhole (some low) none (.int n) := rfl
  rw [hwhole]
  simp [checkWhole, wholeOf, bounded, h, bind, Except.bind, Verdict.exact]

theorem check_flag_ok {cat : Catalogue} {v : Value} {a : Accepted}
    (h : check cat v .flag = .ok a) : ∃ b, a.value = .bool b := by
  have hflag : check cat v .flag = checkFlag v := by cases v <;> rfl
  rw [hflag] at h
  unfold checkFlag at h
  repeat' split at h
  all_goals cases h
  all_goals exact ⟨_, rfl⟩

theorem check_number_ok {cat : Catalogue} {v : Value} {low high : Option Int} {a : Accepted}
    (h : check cat v (.number low high) = .ok a) : ∃ x, a.value = .float x := by
  have hnumber : check cat v (.number low high) = checkDecimal low high v := by cases v <;> rfl
  rw [hnumber] at h
  unfold checkDecimal bounded at h
  simp only [bind, Except.bind] at h
  repeat' split at h
  all_goals cases h
  exact ⟨_, rfl⟩

theorem check_duration_ok {cat : Catalogue} {v : Value} {a : Accepted}
    (h : check cat v .duration = .ok a) : ∃ d, a.value = .duration d := by
  have hduration : check cat v .duration = checkDuration v := by cases v <;> rfl
  rw [hduration] at h
  unfold checkDuration checkDuration.ofOption at h
  split at h
  · cases h
    exact ⟨_, rfl⟩
  all_goals first
    | cases h
    | (split at h <;> cases h; exact ⟨_, rfl⟩)

theorem check_anyOf (cat : Catalogue) (v : Value) (s t : Shape) : check cat v (.anyOf [s, t]) =
    bestOf none [] [(s.label, check cat v s), (t.label, check cat v t)] := by
  cases v <;> rfl

/-- Of two alternatives one that fits is taken. -/
theorem check_anyOf_ok {cat : Catalogue} {v : Value} {s t : Shape} {a : Accepted}
    (h : check cat v (.anyOf [s, t]) = .ok a) : check cat v s = .ok a ∨ check cat v t = .ok a := by
  rw [check_anyOf] at h
  rcases bestOf_eq_ok h with hnone | ⟨label, hmem⟩
  · cases hnone
  · simp only [List.mem_cons, Prod.mk.injEq, List.not_mem_nil, or_false] at hmem
    exact hmem.imp (fun h => h.2.symm) fun h => h.2.symm

/-- A value is looked at with the same parts for every shape. -/
theorem exists_parts (cat : Catalogue) (v : Value) :
    ∃ parts, ∀ s, check cat v s = judge cat v parts s := by
  cases v <;> exact ⟨_, fun _ => rfl⟩

/-- What is taken where a tag tells the model is taken for a record of one of the models. -/
theorem check_tagged_ok {cat : Catalogue} {v : Value} {tag : String}
    {cases : List (String × String)} {a : Accepted} (h : check cat v (.tagged tag cases) = .ok a) :
    ∃ name ∈ cases.map Prod.snd, check cat v (.model name) = .ok a := by
  obtain ⟨parts, hparts⟩ := exists_parts cat v
  rw [hparts] at h
  have htagged : checkTagged cat tag cases v parts = .ok a := h
  unfold checkTagged at htagged
  split at htagged
  · cases htagged
  · cases htagged
  · split at htagged
    · split at htagged
      · next name hlookup =>
        obtain ⟨before, after, hcases, -⟩ := List.lookup_eq_some_iff.1 hlookup
        refine ⟨name, by simp [hcases], ?_⟩
        rw [hparts]
        exact under_eq_ok.1 htagged
      · cases htagged
    · cases htagged

/-- What is taken for a timeout is nothing, a duration or a text. -/
theorem check_timeout_ok {cat : Catalogue} {v : Value} {a : Accepted}
    (h : check cat v .timeout = .ok a) :
    a.value = .null ∨ (∃ d, a.value = .duration d) ∨ ∃ s, a.value = .str s := by
  rw [Shape.timeout, check_optional] at h
  split at h
  · next hnull =>
    cases h
    cases v <;> first | contradiction | exact .inl rfl
  · rcases check_anyOf_ok h with h | h
    · exact .inr (.inl (check_duration_ok h))
    · exact .inr (.inr (check_text_ok h))

end SearchWire
