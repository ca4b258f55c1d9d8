import SearchWire.Failure

/-!
# Results that may fail

A computation in steps succeeds if every step does. Of two computations the second one follows the
first if it has the same result whenever the first one has any; their failures may differ.

* `bind_eq_ok`: two steps.
* `mapError_eq_ok`, `map_eq_ok`, `map_eq_error`: a failure or a result in other words.
* `getElem?_mapM`, `exists_of_mem_mapM`: items that are translated one by one.
* `all_ok_or_first_error`: the first item that fails.
* `exists_mapM_iff`, `mapM_eq_error`, `exists_error_of_mapM`: when a list of items is translated,
  and how it fails.
* `option_mapM_eq_ok`: what may be missing.
* `Follows`: the relation, which goes through steps (`Follows.bind`) and lists (`Follows.mapM`).
* `SameUnless`: the same outcome, but for one reason to fail.
* `Yields`: a result with a property, or a failure that is no matter of data that does not fit.
-/

namespace SearchWire

variable {ε α β γ : Type}

theorem bind_eq_ok {x : Except ε α} {f : α → Except ε β} {b : β} :
    (x >>= f) = .ok b ↔ ∃ a, x = .ok a ∧ f a = .ok b := by
  cases x with
  | error e => simp [bind, Except.bind]
  | ok a => simp [bind, Except.bind]

/-- Other words for a failure do not matter to a result. -/
theorem mapError_eq_ok {δ : Type} {x : Except ε α} {f : ε → δ} {a : α} :
    x.mapError f = .ok a ↔ x = .ok a := by
  cases x with
  | error e => exact ⟨nofun, nofun⟩
  | ok b =>
    constructor
    all_goals
      intro h
      cases h
      rfl

theorem map_eq_ok {x : Except ε α} {f : α → β} {b : β} :
    x.map f = .ok b ↔ ∃ a, x = .ok a ∧ f a = b := by
  cases x with
  | error e => exact ⟨nofun, nofun⟩
  | ok a => simp [Except.map]

theorem map_eq_error {x : Except ε α} {f : α → β} {e : ε} : x.map f = .error e ↔ x = .error e := by
  cases x with
  | error e' => simp [Except.map]
  | ok a => exact ⟨nofun, nofun⟩

/-- An item is translated to the item at its place. -/
theorem getElem?_mapM {f : α → Except ε β} {as : List α} {bs : List β} {n : Nat} {a : α}
    (h : as.mapM f = .ok bs) (ha : as[n]? = some a) : ∃ b, f a = .ok b ∧ bs[n]? = some b := by
  induction as generalizing bs n with
  | nil => cases ha
  | cons a' as ih =>
    rw [List.mapM_cons] at h
    obtain ⟨b, hb, h⟩ := bind_eq_ok.1 h
    obtain ⟨rest, hrest, h⟩ := bind_eq_ok.1 h
    cases h
    cases n with
    | zero =>
      cases ha
      exact ⟨b, hb, rfl⟩
    | succ n =>
      have htail := ih hrest ha
      exact htail

/-- All items come from a translation. -/
theorem exists_of_mem_mapM {f : α → Except ε β} {as : List α} {bs : List β} {b : β}
    (h : as.mapM f = .ok bs) (hb : b ∈ bs) : ∃ a ∈ as, f a = .ok b := by
  induction as generalizing bs with
  | nil =>
    cases h
    cases hb
  | cons a as ih =>
    rw [List.mapM_cons] at h
    obtain ⟨b', hb', h⟩ := bind_eq_ok.1 h
    obtain ⟨rest, hrest, h⟩ := bind_eq_ok.1 h
    cases h
    rcases List.mem_cons.1 hb with rfl | hb
    · exact ⟨a, List.mem_cons_self, hb'⟩
    · obtain ⟨a', ha', hb⟩ := ih hrest hb
      exact ⟨a', List.mem_cons_of_mem a ha', hb⟩

/-- The same where there is no failure but nothing. -/
theorem exists_of_mem_option_mapM {f : α → Option β} {as : List α} {bs : List β}
    {b : β} (h : as.mapM f = some bs) (hb : b ∈ bs) : ∃ a ∈ as, f a = some b := by
  induction as generalizing bs with
  | nil =>
    cases h
    cases hb
  | cons a as ih =>
    rw [List.mapM_cons] at h
    obtain ⟨b', hb', h⟩ := Option.bind_eq_some_iff.1 h
    obtain ⟨rest, hrest, h⟩ := Option.bind_eq_some_iff.1 h
    cases h
    rcases List.mem_cons.1 hb with rfl | hb
    · exact ⟨a, List.mem_cons_self, hb'⟩
    · obtain ⟨a', ha', hfa'⟩ := ih hrest hb
      exact ⟨a', .tail _ ha', hfa'⟩

/-- Either all items of a list succeed or there is a first one that fails. -/
theorem all_ok_or_first_error (f : α → Except ε β) (as : List α) :
    (∀ a ∈ as, ∃ b, f a = .ok b) ∨ ∃ before a after e, as = before ++ a :: after ∧
      (∀ a' ∈ before, ∃ b, f a' = .ok b) ∧ f a = .error e := by
  induction as with
  | nil => exact .inl nofun
  | cons a as ih =>
    cases ha : f a with
    | error e => exact .inr ⟨[], a, as, e, rfl, nofun, ha⟩
    | ok b =>
      rcases ih with hall | ⟨before, a', after, e, rfl, hbefore, ha'⟩
      · exact .inl (List.forall_mem_cons.2 ⟨⟨b, ha⟩, hall⟩)
      · exact .inr ⟨a :: before, a', after, e, rfl, List.forall_mem_cons.2 ⟨⟨b, ha⟩, hbefore⟩, ha'⟩

theorem exists_bind {x : Except ε α} {f : α → Except ε β} (hx : ∃ a, x = .ok a)
    (hf : ∀ a, ∃ b, f a = .ok b) : ∃ b, (x >>= f) = .ok b := by
  obtain ⟨a, ha⟩ := hx
  obtain ⟨b, hb⟩ := hf a
  exact ⟨b, bind_eq_ok.2 ⟨a, ha, hb⟩⟩

/-- A list is translated exactly if all of its items are. -/
theorem exists_mapM_iff {f : α → Except ε β} {as : List α} :
    (∃ bs, as.mapM f = .ok bs) ↔ ∀ a ∈ as, ∃ b, f a = .ok b := by
  induction as with
  | nil => exact ⟨fun _ => nofun, fun _ => ⟨[], rfl⟩⟩
  | cons a as ih =>
    rw [List.forall_mem_cons, ← ih, List.mapM_cons]
    constructor
    · rintro ⟨bs, h⟩
      obtain ⟨b, hb, h⟩ := bind_eq_ok.1 h
      obtain ⟨rest, hrest, -⟩ := bind_eq_ok.1 h
      exact ⟨⟨b, hb⟩, rest, hrest⟩
    · rintro ⟨hb, hrest⟩
      exact exists_bind hb fun b => exists_bind hrest fun rest => ⟨b :: rest, rfl⟩

/-- The first item that fails gives the failure of the list. -/
theorem mapM_eq_error {f : α → Except ε β} {before after : List α} {a : α} {e : ε}
    (hbefore : ∀ a' ∈ before, ∃ b, f a' = .ok b) (ha : f a = .error e) :
    (before ++ a :: after).mapM f = .error e := by
  induction before with
  | nil =>
    rw [List.nil_append, List.mapM_cons, ha]
    rfl
  | cons a' before ih =>
    obtain ⟨⟨b, hb⟩, hrest⟩ := List.forall_mem_cons.1 hbefore
    rw [List.cons_append, List.mapM_cons, hb, ih hrest]
    rfl

/-- A list fails only as one of its items does. -/
theorem exists_error_of_mapM {f : α → Except ε β} {as : List α} {e : ε}
    (h : as.mapM f = .error e) : ∃ a ∈ as, f a = .error e := by
  rcases all_ok_or_first_error f as with hall | ⟨before, a, after, e', rfl, hbefore, ha⟩
  · obtain ⟨bs, hbs⟩ := exists_mapM_iff.2 hall
    cases hbs.symm.trans h
  · cases (mapM_eq_error hbefore ha).symm.trans h
    exact ⟨a, List.mem_append_right before List.mem_cons_self, ha⟩

theorem mapM_congr {f g : α → Except ε β} {as : List α} (h : ∀ a ∈ as, f a = g a) :
    as.mapM f = as.mapM g := by
  induction as with
  | nil => rfl
  | cons a as ih =>
    obtain ⟨ha, has⟩ := List.forall_mem_cons.1 h
    rw [List.mapM_cons, List.mapM_cons, ha, ih has]

/-- Items that are made from others, each with its outcome. -/
theorem mapM_map_eq_ok {f : α → Except ε β} {g : γ → α} {h : γ → β} {cs : List γ}
    (hf : ∀ c ∈ cs, f (g c) = .ok (h c)) : (cs.map g).mapM f = .ok (cs.map h) := by
  induction cs with
  | nil => rfl
  | cons c cs ih =>
    obtain ⟨hc, hcs⟩ := List.forall_mem_cons.1 hf
    rw [List.map_cons, List.mapM_cons, hc, ih hcs]
    rfl

theorem option_mapM_some (f : α → Except ε β) (a : α) : (some a).mapM f = (f a).map some := rfl

/-- What may be missing is translated if it is there. -/
theorem option_mapM_eq_ok {f : α → Except ε β} {o : Option α} {b : Option β}
    (h : o.mapM f = .ok b) :
    o = none ∧ b = none ∨ ∃ x y, o = some x ∧ f x = .ok y ∧ b = some y := by
  cases o with
  | none =>
    cases h
    exact .inl ⟨rfl, rfl⟩
  | some x =>
    rw [option_mapM_some] at h
    obtain ⟨y, hy, rfl⟩ := map_eq_ok.1 h
    exact .inr ⟨x, y, rfl, hy, rfl⟩

/-- The second computation has the result of the first one if that has any. -/
def Follows (x y : Except Failure α) : Prop := ∀ a, x = .ok a → y = .ok a

theorem Follows.refl (x : Except Failure α) : Follows x x := fun _ h => h

theorem Follows.error (f : Failure) (y : Except Failure α) : Follows (.error f) y := by
  intro a h
  cases h

theorem Follows.bind {x y : Except Failure α} {f g : α → Except Failure β} (h : Follows x y)
    (hstep : ∀ a, Follows (f a) (g a)) : Follows (x >>= f) (y >>= g) := by
  intro b hb
  obtain ⟨a, ha, hb⟩ := bind_eq_ok.1 hb
  exact bind_eq_ok.2 ⟨a, h a ha, hstep a b hb⟩

/-- Items that are translated one by one, those of the second list being made from the others. -/
theorem Follows.mapM {f : α → Except Failure γ} {g : β → Except Failure γ} {change : α → β}
    (h : ∀ a, Follows (f a) (g (change a))) (as : List α) :
    Follows (as.mapM f) ((as.map change).mapM g) := by
  induction as with
  | nil => exact .refl _
  | cons a as ih =>
    rw [List.map_cons, List.mapM_cons, List.mapM_cons]
    exact (h a).bind fun b => ih.bind fun bs => .refl _

/-- The second computation has the outcome of the first one, unless that fails for the reason. -/
def SameUnless (reason : ε) (x y : Except ε α) : Prop := x = .error reason ∨ y = x

namespace SameUnless

variable {reason : ε} {x y : Except ε α}

theorem refl (reason : ε) (x : Except ε α) : SameUnless reason x x := .inr rfl

theorem bind {f g : α → Except ε β} (h : SameUnless reason x y)
    (hstep : ∀ a, SameUnless reason (f a) (g a)) : SameUnless reason (x >>= f) (y >>= g) := by
  rcases h with rfl | rfl
  · exact .inl rfl
  · cases y with
    | error e => exact .inr rfl
    | ok a => exact hstep a

theorem map (h : SameUnless reason x y) (f : α → β) : SameUnless reason (x.map f) (y.map f) := by
  rcases h with rfl | rfl
  · exact .inl rfl
  · exact .refl _ _

theorem mapError {δ : Type} (h : SameUnless reason x y) (f : ε → δ) :
    SameUnless (f reason) (x.mapError f) (y.mapError f) := by
  rcases h with rfl | rfl
  · exact .inl rfl
  · exact .refl _ _

/-- Where more of something is as good or better, an amount that is enough has the outcome of every
other amount. -/
theorem of_le (outcome : Nat → Except ε α) {enough : Nat}
    (hmore : ∀ {n m}, n ≤ m → SameUnless reason (outcome n) (outcome m))
    (henough : outcome enough ≠ .error reason) (n : Nat) :
    SameUnless reason (outcome n) (outcome enough) := by
  rcases Nat.le_total n enough with h | h
  · exact hmore h
  · rcases hmore h with hreason | heq
    · exact absurd hreason henough
    · exact .inr heq.symm

theorem mapM {f g : α → Except ε β} {as : List α} (h : ∀ a ∈ as, SameUnless reason (f a) (g a)) :
    SameUnless reason (as.mapM f) (as.mapM g) := by
  induction as with
  | nil => exact .refl _ _
  | cons a as ih =>
    obtain ⟨ha, has⟩ := List.forall_mem_cons.1 h
    rw [List.mapM_cons, List.mapM_cons]
    exact ha.bind fun b => (ih has).bind fun bs => .refl _ _

end SameUnless

/-! ## What a computation yields -/

/-- A computation has a result with some property, or it fails for another reason than that data
does not fit a model. -/
def Yields (P : α → Prop) : Except Failure α → Prop
  | .ok a => P a
  | .error e => e.category ≠ .validation

/-- Whatever the result is. -/
abbrev NeverRejects (x : Except Failure α) : Prop := Yields (fun _ => True) x

namespace Yields

variable {P : α → Prop} {Q : β → Prop} {x : Except Failure α} {f : α → Except Failure β}

theorem imp {P' : α → Prop} (h : Yields P x) (himp : ∀ a, P a → P' a) : Yields P' x := by
  cases x with
  | error e => exact h
  | ok a => exact himp a h

theorem neverRejects (h : Yields P x) : NeverRejects x := h.imp fun _ _ => trivial

/-- The property may be shown of the result alone. -/
theorem of_ok (h : NeverRejects x) (hok : ∀ a, x = .ok a → P a) : Yields P x := by
  cases x with
  | error e => exact h
  | ok a => exact hok a rfl

theorem bind (h : Yields P x) (hf : ∀ a, P a → Yields Q (f a)) : Yields Q (x >>= f) := by
  cases x with
  | error e => exact h
  | ok a => exact hf a h

theorem map {g : α → β} (h : Yields (fun a => Q (g a)) x) : Yields Q (x.map g) := by
  cases x <;> exact h

theorem mapM {as : List α} (h : ∀ a ∈ as, Yields Q (f a)) :
    Yields (fun bs => ∀ b ∈ bs, Q b) (as.mapM f) := by
  induction as with
  | nil => exact List.forall_mem_nil Q
  | cons a as ih =>
    obtain ⟨ha, has⟩ := List.forall_mem_cons.1 h
    rw [List.mapM_cons]
    exact ha.bind fun b hb => (ih has).bind fun bs hbs => List.forall_mem_cons.2 ⟨hb, hbs⟩

end Yields

/-- A step that cannot fail may follow. -/
theorem NeverRejects.andThen {x : Except Failure α} (h : NeverRejects x) (f : α → β) :
    NeverRejects (x >>= fun a => .ok (f a)) :=
  h.bind fun _ _ => trivial

theorem yields_iff {P : α → Prop} {x : Except Failure α} :
    Yields P x ↔ (∃ a, x = .ok a ∧ P a) ∨ ∃ e, x = .error e ∧ e.category ≠ .validation := by
  cases x with
  | error e => simp [Yields]
  | ok a => simp [Yields]

end SearchWire
