import SearchWire.Proofs.Schema.Record
import SearchWire.Proofs.Value.Wire

/-!
# Shapes of requests

The fields of requests have shapes of a few kinds: texts, numbers, truth values, lists, objects, and
two alternatives. What such a shape makes of a value is of the shape, and what is of the shape stays
as it is, also after it was turned into its wire form.

* `Shape.isWire`: the shapes.
* `Shape.Admits`: a value is of a shape.
* `admits_of_check`: **what is taken is of the shape.**
* `check_of_admits`: **what is of the shape is taken as it is.**
* `Shape.Admits.wireForm`: the wire form of a value is of the same shape.
-/

namespace SearchWire

namespace Shape

/-- Texts, truth values and numbers without bounds. -/
def isAtom : Shape → Bool
  | .text => true
  | .flag => true
  | .integer Option.none Option.none => true
  | .number Option.none Option.none => true
  | _ => false

/-- Two alternatives, of which a value that is of one is not brought into the other. -/
def isChoice : Shape → Shape → Bool
  | .flag, .mapping .text .any => true
  | s, t => s.isAtom && t.isAtom

/-- The shapes of the fields of requests. -/
def isWire : Shape → Bool
  | .any => true
  | .sequence .list item 0 => isWire item
  | .mapping .text value => isWire value
  | .optional inner => isWire inner
  | .anyOf [s, t] => isChoice s t
  | s => s.isAtom

/-- A value is of a shape. -/
inductive Admits : Shape → Value → Prop
  | any (v : Value) : Admits .any v
  | text (s : String) : Admits .text (.str s)
  | flag (b : Bool) : Admits .flag (.bool b)
  | whole (n : Int) : Admits (.integer Option.none Option.none) (.int n)
  | decimal (x : Double) : Admits (.number Option.none Option.none) (.float x)
  | list {item : Shape} {xs : List Value} (h : ∀ x ∈ xs, Admits item x) :
      Admits (.sequence .list item 0) (.list xs)
  | object {value : Shape} {fs : Fields} (hnames : fs.names.Nodup)
      (h : ∀ f ∈ fs, Admits value f.2) : Admits (.mapping .text value) (.object fs)
  | null (inner : Shape) : Admits (.optional inner) .null
  | given {inner : Shape} {v : Value} (h : Admits inner v) : Admits (.optional inner) v
  | first {s t : Shape} {v : Value} (hchoice : isChoice s t) (h : Admits s v) :
      Admits (.anyOf [s, t]) v
  | second {s t : Shape} {v : Value} (hchoice : isChoice s t) (h : Admits t v) :
      Admits (.anyOf [s, t]) v

theorem isChoice_cases {s t : Shape} (h : isChoice s t) :
    s.isAtom ∧ (t.isAtom ∨ s = .flag ∧ t = .object) := by
  unfold isChoice at h
  split at h
  · exact ⟨rfl, .inr ⟨rfl, rfl⟩⟩
  · rw [Bool.and_eq_true] at h
    exact ⟨h.1, .inl h.2⟩

end Shape

open Shape (Admits)

variable {cat : Catalogue} {s t : Shape} {v : Value} {a : Accepted}

/-! ## Atoms -/

theorem admits_of_check_atom (hs : s.isAtom) (h : check cat v s = .ok a) : s.Admits a.value := by
  unfold Shape.isAtom at hs
  split at hs
  · obtain ⟨b, hb⟩ := check_text_ok h
    exact hb ▸ .text b
  · obtain ⟨b, hb⟩ := check_flag_ok h
    exact hb ▸ .flag b
  · obtain ⟨n, hn⟩ := check_integer_ok h
    exact hn ▸ .whole n
  · obtain ⟨x, hx⟩ := check_number_ok h
    exact hx ▸ .decimal x
  · cases hs

/-- An atom is taken exactly as it is. -/
theorem check_atom (hs : s.isAtom) (h : s.Admits v) : check cat v s = .exact v := by
  cases h <;> first | cases hs; done | rfl

theorem wholeOf_exact {n : Int} (h : wholeOf v = .ok (n, .exact)) : v = .int n := by
  unfold wholeOf at h
  repeat' split at h
  all_goals cases h
  rfl

theorem decimalOf_exact {x : Double} (h : decimalOf v = .ok (x, .exact)) : v = .float x := by
  unfold decimalOf at h
  split at h
  · cases h
    rfl
  · dsimp only at h
    split at h <;> cases h
  · cases h
  · repeat' split at h
    all_goals cases h

/-- What is taken exactly for an atom is one. -/
theorem value_of_exact (hs : s.isAtom) (h : check cat v s = .ok a) (ha : a.closeness = .exact) :
    a.value = v := by
  unfold Shape.isAtom at hs
  split at hs
  · cases v <;> cases h <;> first | rfl | cases ha
  · have hflag : check cat v .flag = checkFlag v := by cases v <;> rfl
    rw [hflag] at h
    unfold checkFlag at h
    repeat' split at h
    all_goals cases h
    all_goals first | rfl | cases ha
  · have hwhole : check cat v .whole = checkWhole none none v := by cases v <;> rfl
    rw [Shape.whole] at hwhole
    rw [hwhole, checkWhole] at h
    split at h
    · cases h
    · next n c hn =>
      cases h
      cases ha
      exact (wholeOf_exact hn).symm
  · have hdecimal : check cat v .decimal = checkDecimal none none v := by cases v <;> rfl
    rw [Shape.decimal] at hdecimal
    rw [hdecimal, checkDecimal] at h
    split at h
    · cases h
    · next x c hx =>
      cases h
      cases ha
      exact (decimalOf_exact hx).symm
  · cases hs

/-! ## Alternatives -/

theorem bestOf_exact (issues : List Issue) (best : Option Accepted) (label : String) (v : Value)
    (rs : List (String × Verdict)) : bestOf best issues ((label, .exact v) :: rs) = .exact v := rfl

theorem bestOf_last (issues : List Issue) (label : String) (a : Accepted) :
    bestOf none issues [(label, .ok a)] = .ok a := by
  rw [bestOf]
  split <;> rfl

/-- What is of the first alternative is taken as it is. -/
theorem check_first (hs : s.isAtom) (h : s.Admits v) : check cat v (.anyOf [s, t]) = .exact v := by
  rw [check_anyOf, check_atom hs h, bestOf_exact]

/-- What is of the second alternative is taken as it is, whatever the first one makes of it. -/
theorem check_second (hs : s.isAtom) (ht : t.isAtom) (h : t.Admits v) :
    ∃ a, check cat v (.anyOf [s, t]) = .ok a ∧ a.value = v := by
  rw [check_anyOf, check_atom ht h]
  cases hr : check cat v s with
  | error issues =>
    rw [bestOf, bestOf_exact]
    exact ⟨_, rfl, rfl⟩
  | ok b =>
    rw [bestOf]
    split
    · next hexact => exact ⟨b, rfl, value_of_exact hs hr hexact.1⟩
    · exact ⟨_, rfl, rfl⟩

/-- No object is a truth value. -/
theorem check_flagOr {fs : Fields} (h : check cat (.object fs) .object = .ok a) :
    check cat (.object fs) (.anyOf [.flag, .object]) = .ok a := by
  have hflag : check cat (.object fs) .flag = .refuse .flagType := rfl
  rw [check_anyOf, hflag, h]
  exact bestOf_last _ (Shape.label .object) a

/-! ## What fits -/

theorem admits_object : Shape.object.Admits v ↔ v.IsObject := by
  constructor
  · rintro (⟨⟩ | ⟨⟩)
    next fs hnames h => exact ⟨fs, hnames, rfl⟩
  · rintro ⟨fs, hnames, rfl⟩
    exact .object hnames fun f _ => .any f.2

/-- **What is taken is of the shape.** -/
theorem admits_of_check : ∀ {s : Shape}, s.isWire → check cat v s = .ok a → s.Admits a.value := by
  intro s
  fun_induction Shape.isWire s generalizing v a with
  | case1 => exact fun _ _ => .any _
  | case2 item ih =>
    intro hs h
    obtain ⟨xs, hvalue, hxs⟩ := check_list_ok h
    rw [hvalue]
    refine .list fun x hx => ?_
    obtain ⟨w, b, hb, rfl⟩ := hxs x hx
    exact ih hs hb
  | case3 value ih =>
    intro hs h
    obtain ⟨fs, hnames, hvalue, hfs⟩ := check_mapping_ok h
    rw [hvalue]
    refine .object hnames fun f hf => ?_
    obtain ⟨w, b, hb, heq⟩ := hfs f hf
    exact heq ▸ ih hs hb
  | case4 inner ih =>
    intro hs h
    rw [check_optional] at h
    split at h
    · next hnull =>
      cases h
      cases v <;> first | contradiction | exact .null inner
    · exact .given (ih hs h)
  | case5 s t =>
    intro hs h
    obtain ⟨hfirst, hsecond⟩ := Shape.isChoice_cases hs
    rcases check_anyOf_ok h with h | h
    · exact .first hs (admits_of_check_atom hfirst h)
    · rcases hsecond with hatom | ⟨-, rfl⟩
      · exact .second hs (admits_of_check_atom hatom h)
      · exact .second hs (admits_object.mpr (isObject_of_check h))
  | case6 s => exact fun hs h => admits_of_check_atom hs h

/-- **What is of the shape is taken as it is.** -/
theorem check_of_admits (h : s.Admits v) : ∃ a, check cat v s = .ok a ∧ a.value = v := by
  induction h with
  | any v => exact ⟨_, check_any cat v, rfl⟩
  | text s => exact ⟨_, rfl, rfl⟩
  | flag b => exact ⟨_, rfl, rfl⟩
  | whole n => exact ⟨_, rfl, rfl⟩
  | decimal x => exact ⟨_, rfl, rfl⟩
  | list h ih => exact check_items ih
  | object hnames h ih => exact check_fields hnames ih
  | null inner => exact ⟨_, rfl, rfl⟩
  | @given inner v h ih =>
    rw [check_optional]
    split
    · exact ⟨_, rfl, rfl⟩
    · exact ih
  | first hchoice h => exact ⟨_, check_first (Shape.isChoice_cases hchoice).1 h, rfl⟩
  | @second s t v hchoice h ih =>
    obtain ⟨hs, ht | ⟨rfl, rfl⟩⟩ := Shape.isChoice_cases hchoice
    · exact check_second hs ht h
    · obtain ⟨fs, -, rfl⟩ := admits_object.mp h
      obtain ⟨a, ha, hvalue⟩ := ih
      exact ⟨a, check_flagOr ha, hvalue⟩

/-- The wire form of a value is of the same shape. -/
theorem Shape.Admits.wireForm (h : s.Admits v) : s.Admits v.wireForm := by
  induction h with
  | any v => exact .any _
  | text s => exact .text s
  | flag b => exact .flag b
  | whole n => exact .whole n
  | decimal x => exact .decimal x
  | list h ih =>
    rw [Value.wireForm, Value.wireForms_eq_map]
    exact .list (List.forall_mem_map.mpr ih)
  | @object value fs hnames h ih =>
    rw [Value.wireForm_object]
    refine .object ?_ (List.forall_mem_map.mpr ih)
    rw [Fields.names, List.map_map]
    exact hnames
  | null inner => exact .null inner
  | given h ih => exact .given ih
  | first hchoice h ih => exact .first hchoice ih
  | second hchoice h ih => exact .second hchoice ih

end SearchWire
