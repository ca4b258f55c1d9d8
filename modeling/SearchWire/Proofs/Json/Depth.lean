import SearchWire.Json.Reader
import SearchWire.Proofs.Failure

/-!
# How deep a text is read

The reader takes one unit of room for every bracket that is open. So room matters to nothing but how
deep it can go, and it can go as deep as the brackets of the text nest.

* `Json.deepest`, `Json.nesting`: how deep the brackets of a text nest.
* `Json.readsAlike`, `Json.readChars_sameUnless`: **with more room the outcome is the same, unless
  there was too little.**
* `Json.nests`, `Json.readChars_ne_tooDeep`: **a text that nests no deeper than there is room is not
  too deep.**
-/

namespace SearchWire.Json

/-! ## More room -/

variable {fuel room room' : Nat}

theorem sameUnless_enter {α : Type} {f g : Nat → Except Stop α} (hroom : room ≤ room')
    (h : ∀ r r', r ≤ r' → SameUnless .tooDeep (f r) (g r')) :
    SameUnless .tooDeep (enter room >>= f) (enter room' >>= g) := by
  cases room with
  | zero => exact .inl rfl
  | succ r =>
    obtain ⟨r', rfl⟩ : ∃ r', room' = r' + 1 := ⟨room' - 1, by omega⟩
    exact h r r' (by omega)

/-- With more room the readers of the parts do the same. -/
structure ReadsAlike (fuel room room' : Nat) : Prop where
  value : ∀ cs, SameUnless .tooDeep (readValue fuel room cs) (readValue fuel room' cs)
  members : ∀ cs, SameUnless .tooDeep (readMembers fuel room cs) (readMembers fuel room' cs)
  items : ∀ cs, SameUnless .tooDeep (readItems fuel room cs) (readItems fuel room' cs)

section Step

variable (h : ∀ {r r' : Nat}, r ≤ r' → ReadsAlike fuel r r') (hroom : room ≤ room')
  (cs : List Char)
include h hroom

theorem sameUnless_readValue :
    SameUnless .tooDeep (readValue (fuel + 1) room cs) (readValue (fuel + 1) room' cs) := by
  unfold readValue
  split
  · exact .refl _ _
  · refine sameUnless_enter hroom fun r r' hr => ?_
    split
    · exact .refl _ _
    · exact ((h hr).members _).bind fun _ => .refl _ _
  · refine sameUnless_enter hroom fun r r' hr => ?_
    split
    · exact .refl _ _
    · exact ((h hr).items _).bind fun _ => .refl _ _
  · exact .refl _ _

theorem sameUnless_readMembers :
    SameUnless .tooDeep (readMembers (fuel + 1) room cs) (readMembers (fuel + 1) room' cs) := by
  unfold readMembers
  split
  · refine SameUnless.bind (.refl _ _) fun ⟨name, r⟩ => ?_
    dsimp only
    split
    · refine ((h hroom).value _).bind fun ⟨v, r⟩ => ?_
      dsimp only
      split
      · exact .refl _ _
      · exact ((h hroom).members _).bind fun _ => .refl _ _
      · exact .refl _ _
    · exact .refl _ _
  · exact .refl _ _

theorem sameUnless_readItems :
    SameUnless .tooDeep (readItems (fuel + 1) room cs) (readItems (fuel + 1) room' cs) := by
  unfold readItems
  refine ((h hroom).value _).bind fun ⟨v, r⟩ => ?_
  dsimp only
  split
  · exact .refl _ _
  · exact ((h hroom).items _).bind fun _ => .refl _ _
  · exact .refl _ _

end Step

theorem readsAlike (fuel : Nat) :
    ∀ {room room' : Nat}, room ≤ room' → ReadsAlike fuel room room' := by
  induction fuel with
  | zero => exact fun _ => ⟨fun _ => .refl _ _, fun _ => .refl _ _, fun _ => .refl _ _⟩
  | succ fuel ih =>
    exact fun hroom => ⟨sameUnless_readValue ih hroom, sameUnless_readMembers ih hroom,
      sameUnless_readItems ih hroom⟩

theorem sameUnless_readAll (hroom : room ≤ room') (cs : List Char) :
    SameUnless .tooDeep (readAll room cs) (readAll room' cs) :=
  ((readsAlike _ hroom).value _).bind fun _ => .refl _ _

/-! ## Brackets -/

/-- Where a character stands: outside the strings of a text, in one, or after a backslash there. -/
inductive Quoting where
  | outside
  | inside
  | escaped

/-- How deep the brackets of a text nest if `depth` of them are open where it starts. Brackets in
strings do not count. -/
def deepest : Quoting → (depth : Nat) → List Char → Nat
  | _, depth, [] => depth
  | .outside, depth, c :: cs =>
    if c = '"' then deepest .inside depth cs
    else if c = '[' ∨ c = '\x7b' then deepest .outside (depth + 1) cs
    else if c = ']' ∨ c = '\x7d' then max depth (deepest .outside (depth - 1) cs)
    else deepest .outside depth cs
  | .inside, depth, c :: cs =>
    if c = '"' then deepest .outside depth cs
    else if c = '\\' then deepest .escaped depth cs
    else deepest .inside depth cs
  | .escaped, depth, _ :: cs => deepest .inside depth cs

/-- How deep the brackets of a text nest. -/
def nesting (cs : List Char) : Nat := deepest .outside 0 cs

theorem le_deepest (quoting : Quoting) (depth : Nat) (cs : List Char) :
    depth ≤ deepest quoting depth cs := by
  fun_induction deepest quoting depth cs <;> omega

theorem deepest_le (quoting : Quoting) (depth : Nat) (cs : List Char) :
    deepest quoting depth cs ≤ depth + cs.length := by
  fun_induction deepest quoting depth cs <;> simp only [List.length_cons, List.length_nil] <;> omega

/-- No text nests deeper than it is long. -/
theorem nesting_le (cs : List Char) : nesting cs ≤ cs.length := by
  have hle := deepest_le .outside 0 cs
  rwa [Nat.zero_add] at hle

/-- A character that is no quote and no bracket. -/
def Bare (c : Char) : Prop := c ≠ '"' ∧ c ≠ '[' ∧ c ≠ '\x7b' ∧ c ≠ ']' ∧ c ≠ '\x7d'

instance (c : Char) : Decidable (Bare c) := inferInstanceAs (Decidable (_ ∧ _))

theorem Bare.of_isDigit {c : Char} (h : c.isDigit) : Bare c := by
  refine ⟨?_, ?_, ?_, ?_, ?_⟩
  all_goals
    rintro rfl
    contradiction

theorem Bare.of_isSpace {c : Char} (h : isSpace c) : Bare c := by
  simp only [isSpace, Bool.or_eq_true, beq_iff_eq] at h
  rcases h with ((rfl | rfl) | rfl) | rfl <;> decide

/-- A text is the rest of another one, after nothing but bare characters. -/
def BareBefore (cs r : List Char) : Prop := ∃ front, cs = front ++ r ∧ ∀ c ∈ front, Bare c

namespace BareBefore

variable {as bs cs r : List Char}

theorem refl (cs : List Char) : BareBefore cs cs := ⟨[], rfl, nofun⟩

theorem trans (h : BareBefore as bs) (h' : BareBefore bs cs) : BareBefore as cs := by
  obtain ⟨front, rfl, hfront⟩ := h
  obtain ⟨front', rfl, hfront'⟩ := h'
  exact ⟨front ++ front', (List.append_assoc ..).symm, List.forall_mem_append.2 ⟨hfront, hfront'⟩⟩

theorem cons {c : Char} (hc : Bare c) (h : BareBefore as bs) : BareBefore (c :: as) bs := by
  obtain ⟨front, rfl, hfront⟩ := h
  exact ⟨c :: front, rfl, List.forall_mem_cons.2 ⟨hc, hfront⟩⟩

theorem dropWhile {p : Char → Bool} (h : ∀ c, p c → Bare c) (cs : List Char) :
    BareBefore cs (cs.dropWhile p) := by
  refine ⟨cs.takeWhile p, List.takeWhile_append_dropWhile.symm, fun c hc => h c ?_⟩
  exact List.all_eq_true.1 List.all_takeWhile c hc

/-- Bare characters nest nothing. -/
theorem deepest_eq (h : BareBefore cs r) (depth : Nat) :
    deepest .outside depth cs = deepest .outside depth r := by
  obtain ⟨front, rfl, hfront⟩ := h
  induction front with
  | nil => rfl
  | cons c front ih =>
    obtain ⟨⟨hquote, hopen, hbrace, hclose, hbrace'⟩, hfront⟩ := List.forall_mem_cons.1 hfront
    simp [deepest, hquote, hopen, hbrace, hclose, hbrace', ih hfront]

end BareBefore

theorem deepest_quote (depth : Nat) (cs : List Char) :
    deepest .outside depth ('"' :: cs) = deepest .inside depth cs := by
  simp [deepest]

theorem deepest_open {c : Char} (hc : c = '[' ∨ c = '\x7b') (depth : Nat) (cs : List Char) :
    deepest .outside depth (c :: cs) = deepest .outside (depth + 1) cs := by
  rcases hc with rfl | rfl <;> simp [deepest]

theorem deepest_close {c : Char} (hc : c = ']' ∨ c = '\x7d') (depth : Nat) (cs : List Char) :
    deepest .outside (depth + 1) (c :: cs) = max (depth + 1) (deepest .outside depth cs) := by
  rcases hc with rfl | rfl <;> simp [deepest]

theorem le_deepest_close {c : Char} (hc : c = ']' ∨ c = '\x7d') (depth : Nat) (cs : List Char) :
    deepest .outside depth cs ≤ deepest .outside (depth + 1) (c :: cs) := by
  rw [deepest_close hc]
  exact Nat.le_max_right _ _

theorem bareBefore_skipSpace (cs : List Char) : BareBefore cs (skipSpace cs) :=
  .dropWhile (fun _ => .of_isSpace) cs

/-! ## Atoms and strings -/

theorem bareBefore_splitDigits (cs : List Char) : BareBefore cs (splitDigits cs).2 :=
  .dropWhile (fun _ => .of_isDigit) cs

theorem bareBefore_splitWhole (cs : List Char) : BareBefore cs (splitWhole cs).2 := by
  unfold splitWhole
  split
  · exact .cons (by decide) (.refl _)
  · exact bareBefore_splitDigits _

theorem bareBefore_splitFraction (cs : List Char) : BareBefore cs (splitFraction cs).2 := by
  unfold splitFraction
  split
  · split
    · exact .refl _
    · exact .cons (by decide) (bareBefore_splitDigits _)
  · exact .refl _

theorem bareBefore_splitSign (cs : List Char) : BareBefore cs (Numeral.splitSign cs).2 := by
  unfold Numeral.splitSign
  split
  · exact .cons (by decide) (.refl _)
  · exact .cons (by decide) (.refl _)
  · exact .refl _

theorem bareBefore_splitExponent (cs : List Char) : BareBefore cs (splitExponent cs).2 := by
  unfold splitExponent
  split
  · next c rest =>
    split
    · next hc =>
      have hbare : Bare c := by
        simp only [Bool.or_eq_true, beq_iff_eq] at hc
        rcases hc with rfl | rfl <;> decide
      have hsign := bareBefore_splitSign rest
      split
      next negative rest' hsplit =>
      rw [hsplit] at hsign
      have hdigits := bareBefore_splitDigits rest'
      split
      · exact .refl _
      · next hds =>
        rw [hds] at hdigits
        exact .cons hbare (hsign.trans hdigits)
    · exact .refl _
  · exact .refl _

theorem bareBefore_readNumber {cs r : List Char} {v : Value} (h : readNumber cs = .ok (v, r)) :
    BareBefore cs r := by
  unfold readNumber at h
  split at h
  next negative digits hsplit =>
  have hsign : BareBefore cs digits := by
    split at hsplit
    · cases hsplit
      exact .cons (by decide) (.refl _)
    · cases hsplit
      exact .refl _
  have hwhole := bareBefore_splitWhole digits
  split at h
  · cases h
  next whole rest _ heq =>
  rw [heq] at hwhole
  have hfraction := bareBefore_splitFraction rest
  have hexponent := bareBefore_splitExponent (splitFraction rest).2
  have hr : r = (splitExponent (splitFraction rest).2).2 := by
    dsimp only at h
    repeat' split at h
    all_goals
      cases h
      try rfl
  rw [hr]
  exact ((hsign.trans hwhole).trans hfraction).trans hexponent

theorem readNumber_ne_tooDeep (cs : List Char) : readNumber cs ≠ .error .tooDeep := by
  unfold readNumber
  dsimp only
  repeat' split
  all_goals nofun

theorem bareBefore_afterWord {w cs r : List Char} (hw : ∀ c ∈ w, Bare c)
    (h : afterWord? w cs = some r) : BareBefore cs r := by
  fun_induction afterWord? w cs with
  | case1 cs =>
    cases h
    exact .refl _
  | case2 w ws cs ih =>
    obtain ⟨hc, hws⟩ := List.forall_mem_cons.1 hw
    exact .cons hc (ih hws h)
  | case3 => cases h
  | case4 => cases h

theorem bareBefore_readAtom {cs r : List Char} {v : Value} (h : readAtom cs = .ok (v, r)) :
    BareBefore cs r := by
  unfold readAtom at h
  split at h
  · next step hstep =>
    cases h
    obtain ⟨⟨w, v'⟩, hw, hrest⟩ := List.exists_of_findSome?_eq_some hstep
    obtain ⟨rest, hafter, heq⟩ := Option.map_eq_some_iff.1 hrest
    cases heq
    have hwords : wordValues.all fun w => w.1.all fun c => decide (Bare c) := by decide
    have hbare := List.all_eq_true.1 (List.all_eq_true.1 hwords _ hw)
    exact bareBefore_afterWord (fun c hc => of_decide_eq_true (hbare c hc)) hafter
  · exact bareBefore_readNumber h

theorem readAtom_ne_tooDeep (cs : List Char) : readAtom cs ≠ .error .tooDeep := by
  unfold readAtom
  split
  · nofun
  · exact readNumber_ne_tooDeep cs

theorem fourHex?_ne {a b c d : Char} {n : Nat} (h : fourHex? a b c d = some n) :
    ∀ x ∈ [a, b, c, d], x ≠ '"' ∧ x ≠ '\\' := by
  simp only [List.mem_cons, List.not_mem_nil, or_false]
  intro x hx
  constructor
  all_goals
    rintro rfl
    rcases hx with rfl | rfl | rfl | rfl <;> simp [fourHex?] at h

/-- A string is read up to the quote at its end. -/
theorem deepest_readString {opening : Nat} {high : Option Nat} {cs s r : List Char}
    (h : readString opening high cs = .ok (s, r)) (depth : Nat) :
    deepest .inside depth cs = deepest .outside depth r := by
  fun_induction readString opening high cs generalizing s with
  | case1 => cases h
  | case2 =>
    cases h
    simp [deepest]
  | case3 => cases h
  | case4 => cases h
  | case5 high a b c d rest n hn cs high' hcs ih =>
    obtain ⟨⟨s', r'⟩, hstep, heq⟩ := map_eq_ok.1 h
    cases heq
    have hhex : fourHex? a b c d = some n := by
      split at hn
      · cases hn
      · exact hn
    obtain ⟨ha, hb, hc, hd, -⟩ : _ ∧ _ ∧ _ ∧ _ ∧ _ := by
      simpa only [List.forall_mem_cons] using fourHex?_ne hhex
    simp [deepest, ha, hb, hc, hd, ih hstep]
  | case6 => cases h
  | case7 => cases h
  | case8 high c rest _ _ x hx ih =>
    obtain ⟨⟨s', r'⟩, hstep, heq⟩ := map_eq_ok.1 h
    cases heq
    simp [deepest, ih hstep]
  | case9 => cases h
  | case10 high c rest hquote hend _ _ hescape hcontrol ih =>
    obtain ⟨⟨s', r'⟩, hstep, heq⟩ := map_eq_ok.1 h
    cases heq
    have hquote : c ≠ '"' := hquote
    have hbackslash : c ≠ '\\' := by
      rintro rfl
      cases rest with
      | nil => exact hend rfl rfl
      | cons c' rest => exact hescape c' rest rfl rfl
    simp only [deepest, if_neg hquote, if_neg hbackslash]
    exact ih hstep

theorem readString_ne_tooDeep (opening : Nat) (high : Option Nat) (cs : List Char) :
    readString opening high cs ≠ .error .tooDeep := by
  have hafter : ∀ front step, step ≠ .error .tooDeep → after front step ≠ .error .tooDeep :=
    fun front step h heq => h (map_eq_error.1 heq)
  fun_induction readString opening high cs with
  | case5 _ _ _ _ _ _ _ _ _ _ _ ih => exact hafter _ _ ih
  | case8 _ _ _ _ _ _ _ ih => exact hafter _ _ ih
  | case10 _ _ _ _ _ _ _ _ _ ih => exact hafter _ _ ih
  | _ => nofun

/-! ## Values -/

section Outcomes

variable {α : Type}

/-- What a reader may do with a text at one depth and the room that is left there: leave a rest at
another depth that nests no deeper, or find that the text nests deeper than there is room. -/
def Nests (room start finish : Nat) (cs : List Char) : Except Stop (α × List Char) → Prop
  | .ok (_, r) => deepest .outside finish r ≤ deepest .outside start cs
  | .error e => e = .tooDeep → start + room < deepest .outside start cs

variable {start finish : Nat} {cs : List Char}

theorem Nests.bind {β : Type} {x : Except Stop (α × List Char)}
    {f : α × List Char → Except Stop (β × List Char)} (hx : Nests room start start cs x)
    (hf : ∀ a r, Nests room start finish r (f (a, r))) : Nests room start finish cs (x >>= f) := by
  cases x with
  | error e => exact hx
  | ok step =>
    obtain ⟨a, r⟩ := step
    have hle : deepest .outside start r ≤ deepest .outside start cs := hx
    have hstep := hf a r
    cases hy : f (a, r) with
    | error e =>
      rw [hy] at hstep
      rw [show ((Except.ok (a, r) : Except Stop _) >>= f) = .error e from hy]
      exact fun he => Nat.lt_of_lt_of_le (hstep he) hle
    | ok step =>
      rw [hy] at hstep
      rw [show ((Except.ok (a, r) : Except Stop _) >>= f) = .ok step from hy]
      exact Nat.le_trans hstep hle

/-- What is made of a value does not change the rest. -/
theorem Nests.andThen {β : Type} {x : Except Stop (α × List Char)}
    (h : Nests room start finish cs x) (g : α → β) :
    Nests room start finish cs (x >>= fun step => .ok (g step.1, step.2)) := by
  cases x <;> exact h

theorem Nests.at {cause : Cause} {left : Nat} :
    Nests room start finish cs (.error (.at cause left) : Except Stop (α × List Char)) := nofun

theorem Nests.of_skipSpace {x : Except Stop (α × List Char)}
    (h : Nests room start finish (skipSpace cs) x) : Nests room start finish cs x := by
  unfold Nests at h ⊢
  rw [(bareBefore_skipSpace cs).deepest_eq]
  exact h

/-- A bracket takes one unit of room. -/
theorem Nests.enter {c : Char} (hc : c = '[' ∨ c = '\x7b') {f : Nat → Except Stop (α × List Char)}
    (hf : ∀ r, Nests r (start + 1) finish cs (f r)) :
    Nests room start finish (c :: cs) (enter room >>= f) := by
  have heq := deepest_open hc start cs
  cases room with
  | zero =>
    intro _
    have hle := le_deepest .outside (start + 1) cs
    omega
  | succ r =>
    have hinner := hf r
    change Nests (r + 1) start finish (c :: cs) (f r)
    unfold Nests at hinner ⊢
    rw [heq]
    split at hinner
    · exact hinner
    · intro he
      have hlt := hinner he
      omega

/-- What is between two brackets ends with the second one. -/
theorem Nests.close {c : Char} {r : List Char} (hc : c = ']' ∨ c = '\x7d')
    (heq : skipSpace cs = c :: r) (a : α) : Nests room (start + 1) start cs (.ok (a, r)) := by
  have hle := le_deepest_close hc start r
  rwa [← heq, ← (bareBefore_skipSpace cs).deepest_eq] at hle

/-- A comma or a colon and blanks nest nothing. -/
theorem Nests.next {c : Char} {r : List Char} (hc : Bare c) (heq : skipSpace cs = c :: r)
    {x : Except Stop (α × List Char)} (h : Nests room start finish (skipSpace r) x) :
    Nests room start finish cs x := by
  refine Nests.of_skipSpace ?_
  have hinner := h.of_skipSpace
  unfold Nests at hinner ⊢
  rw [heq, (BareBefore.cons hc (.refl r)).deepest_eq]
  exact hinner

end Outcomes

theorem nests_readString (start opening : Nat) (high : Option Nat) (cs : List Char) :
    Nests room start start ('"' :: cs) (readString opening high cs) := by
  cases h : readString opening high cs with
  | error e =>
    rintro rfl
    exact absurd h (readString_ne_tooDeep opening high cs)
  | ok step =>
    have heq := deepest_readString h start
    rw [← deepest_quote] at heq
    exact Nat.le_of_eq heq.symm

theorem nests_readAtom (start : Nat) (cs : List Char) :
    Nests room start start cs (readAtom cs) := by
  cases h : readAtom cs with
  | error e =>
    rintro rfl
    exact absurd h (readAtom_ne_tooDeep cs)
  | ok step =>
    exact Nat.le_of_eq ((bareBefore_readAtom h).deepest_eq start).symm

/-- What the readers of the parts do with some fuel. Members and items end at the depth around
them. -/
structure Nesting (fuel : Nat) : Prop where
  value : ∀ room depth cs, Nests room depth depth cs (readValue fuel room cs)
  members : ∀ room depth cs, Nests room (depth + 1) depth cs (readMembers fuel room cs)
  items : ∀ room depth cs, Nests room (depth + 1) depth cs (readItems fuel room cs)

section Step

variable (h : Nesting fuel) (room depth : Nat) (cs : List Char)
include h

theorem Nesting.value_succ : Nests room depth depth cs (readValue (fuel + 1) room cs) := by
  unfold readValue
  split
  · exact (nests_readString depth _ none _).andThen fun s => Value.str (String.ofList s)
  · refine .enter (by decide) fun r => ?_
    split
    · next heq => exact .close (by decide) heq _
    · exact ((h.members r depth _).andThen fun fs => Value.object (Fields.ofList fs)).of_skipSpace
  · refine .enter (by decide) fun r => ?_
    split
    · next heq => exact .close (by decide) heq _
    · exact ((h.items r depth _).andThen Value.list).of_skipSpace
  · exact nests_readAtom depth _

theorem Nesting.members_succ :
    Nests room (depth + 1) depth cs (readMembers (fuel + 1) room cs) := by
  unfold readMembers
  split
  · refine (nests_readString (depth + 1) _ none _).bind fun name r => ?_
    dsimp only
    split
    · next heq =>
      refine .next (by decide) heq ?_
      refine (h.value room (depth + 1) _).bind fun v r => ?_
      dsimp only
      split
      · next heq => exact .close (by decide) heq _
      · next heq =>
        refine .next (by decide) heq ?_
        exact (h.members room depth _).andThen ((String.ofList name, v) :: ·)
      · exact .at
    · exact .at
  · exact .at

theorem Nesting.items_succ : Nests room (depth + 1) depth cs (readItems (fuel + 1) room cs) := by
  unfold readItems
  refine (h.value room (depth + 1) _).bind fun v r => ?_
  dsimp only
  split
  · next heq => exact .close (by decide) heq _
  · next heq => exact .next (by decide) heq ((h.items room depth _).andThen (v :: ·))
  · exact .at

end Step

theorem nests (fuel : Nat) : Nesting fuel := by
  -- values, members and items read each other, always with less fuel
  induction fuel with
  | zero => exact ⟨fun _ _ _ => .at, fun _ _ _ => .at, fun _ _ _ => .at⟩
  | succ fuel ih => exact ⟨ih.value_succ, ih.members_succ, ih.items_succ⟩

/-- **A text that nests no deeper than there is room is not too deep.** -/
theorem readAll_ne_tooDeep {cs : List Char} (h : nesting cs ≤ room) :
    readAll room cs ≠ .error .tooDeep := by
  have hvalue := (nests (2 * cs.length + 1)).value room 0 (skipSpace cs)
  unfold readAll
  cases hread : readValue (2 * cs.length + 1) room (skipSpace cs) with
  | error e =>
    rw [hread] at hvalue
    intro he
    cases he
    have hlt := hvalue rfl
    rw [← (bareBefore_skipSpace cs).deepest_eq] at hlt
    unfold nesting at h
    omega
  | ok step =>
    simp only [bind, Except.bind]
    split <;> nofun

/-! ## Whole texts -/

theorem toFault_eq_tooDeep {cs : List Char} {e : Stop} :
    e.toFault cs = .tooDeep ↔ e = .tooDeep := by
  cases e <;> simp [Stop.toFault]

theorem mapError_toFault_eq {cs : List Char} {x : Except Stop Value} :
    x.mapError (Stop.toFault cs) = .error .tooDeep ↔ x = .error .tooDeep := by
  constructor
  · intro h
    cases x with
    | ok v => cases h
    | error e =>
      have he : e.toFault cs = .tooDeep := Except.error.inj h
      rw [toFault_eq_tooDeep.1 he]
  · rintro rfl
    rfl

theorem readChars_ne_tooDeep {cs : List Char} (h : nesting cs ≤ room) :
    readChars room cs ≠ .error .tooDeep := by
  unfold readChars
  split
  · nofun
  · exact fun he => readAll_ne_tooDeep h (mapError_toFault_eq.1 he)

theorem readBytesWithin_ne_tooDeep {s : String} (h : s.length ≤ room) :
    readBytesWithin room s ≠ .error .tooDeep := by
  rw [← String.length_toList] at h
  refine fun he => readAll_ne_tooDeep ?_ (mapError_toFault_eq.1 he)
  refine Nat.le_trans (nesting_le _) (Nat.le_trans ?_ h)
  split
  · exact List.length_drop ▸ Nat.sub_le _ _
  · exact Nat.le_refl _

/-- **With as much room as it takes the outcome is the same, unless there was too little.** -/
theorem readChars_sameUnless (room : Nat) (cs : List Char) :
    SameUnless .tooDeep (readChars room cs) (readChars cs.length cs) := by
  refine SameUnless.of_le (readChars · cs) (fun hroom => ?_)
    (readChars_ne_tooDeep (nesting_le cs)) room
  unfold readChars
  split
  · exact .refl _ _
  · exact (sameUnless_readAll hroom cs).mapError (Stop.toFault cs)

theorem readWithin_sameUnless (room : Nat) (s : String) :
    SameUnless .tooDeep (readWithin room s) (read s) := by
  rw [read, ← String.length_toList]
  exact readChars_sameUnless room s.toList

theorem readBytesWithin_sameUnless (room : Nat) (s : String) :
    SameUnless .tooDeep (readBytesWithin room s) (readBytes s) := by
  refine SameUnless.of_le (readBytesWithin · s) (fun hroom => ?_)
    (readBytesWithin_ne_tooDeep (Nat.le_refl _)) room
  exact (sameUnless_readAll hroom _).mapError (Stop.toFault _)

end SearchWire.Json
