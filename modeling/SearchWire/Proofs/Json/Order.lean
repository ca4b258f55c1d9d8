import Mathlib.Data.List.Nodup
import SearchWire.Proofs.Json.RoundTrip

/-!
# Objects in the order of their keys

Sorting moves the entries of an object and loses none, and keys that are texts can always be
sorted. So a value that is written with sorted entries is read back as the same data: its objects
have the same names with the same data at them, in another order.

* `Json.HasTextKeys`, `Json.sortByKey_ok`: entries with texts as keys are sorted.
* `Json.SameData`: values that differ in the order of entries at most.
* `Json.Writes`: what a value is written as, and what that is read as.
* `Json.exists_writes`: **every value is written, sorted or not, as one line that is read as the
  same data.**
-/

namespace SearchWire.Json

/-! ## Sorting -/

section

variable {α : Type} {e : Value × α} {es fs : List (Value × α)}

/-- The keys of all entries are texts. -/
def HasTextKeys (es : List (Value × α)) : Prop := ∀ e ∈ es, ∃ s, e.1 = .str s

theorem HasTextKeys.of_perm (h : HasTextKeys es) (hperm : fs.Perm es) : HasTextKeys fs :=
  fun e he => h e (hperm.mem_iff.mp he)

theorem HasTextKeys.cons_iff : HasTextKeys (e :: es) ↔ (∃ s, e.1 = .str s) ∧ HasTextKeys es :=
  List.forall_mem_cons

theorem HasTextKeys.append_iff : HasTextKeys (es ++ fs) ↔ HasTextKeys es ∧ HasTextKeys fs :=
  List.forall_mem_append

theorem keyLess_text {k l : Value} (hk : ∃ s, k = .str s) (hl : ∃ s, l = .str s) :
    ∃ b, keyLess k l = .ok b := by
  obtain ⟨s, rfl⟩ := hk
  obtain ⟨t, rfl⟩ := hl
  exact ⟨_, rfl⟩

theorem ascending_ok (he : ∃ s, e.1 = .str s) (hes : HasTextKeys es) :
    ∃ run rest, ascending e es = .ok (run, rest) ∧ run ++ rest = es := by
  induction es generalizing e with
  | nil => exact ⟨[], [], rfl, rfl⟩
  | cons f es ih =>
    obtain ⟨hf, hes⟩ := HasTextKeys.cons_iff.mp hes
    obtain ⟨less, hless⟩ := keyLess_text hf he
    obtain ⟨run, rest, hrun, rfl⟩ := ih hf hes
    cases less with
    | true => exact ⟨[], f :: (run ++ rest), by rw [ascending, hless]; rfl, rfl⟩
    | false => exact ⟨f :: run, rest, by rw [ascending, hless, hrun]; rfl, rfl⟩

theorem descending_ok (he : ∃ s, e.1 = .str s) (hes : HasTextKeys es) :
    ∃ run rest, descending e es = .ok (run, rest) ∧ run ++ rest = es := by
  induction es generalizing e with
  | nil => exact ⟨[], [], rfl, rfl⟩
  | cons f es ih =>
    obtain ⟨hf, hes⟩ := HasTextKeys.cons_iff.mp hes
    obtain ⟨less, hless⟩ := keyLess_text hf he
    obtain ⟨run, rest, hrun, rfl⟩ := ih hf hes
    cases less with
    | true => exact ⟨f :: run, rest, by rw [descending, hless, hrun]; rfl, rfl⟩
    | false => exact ⟨[], f :: (run ++ rest), by rw [descending, hless]; rfl, rfl⟩

theorem insertByKey_ok (he : ∃ s, e.1 = .str s) (hes : HasTextKeys es) :
    ∃ sorted, insertByKey e es = .ok sorted ∧ sorted.Perm (e :: es) := by
  -- the induction is that of the bisection: on the half in which the entry belongs
  induction es using insertByKey.induct with
  | case1 es hafter =>
    have hempty : es = [] := by
      have := congrArg List.length hafter
      rw [List.length_drop, List.length_nil] at this
      exact List.eq_nil_of_length_eq_zero (by omega)
    subst hempty
    have hstep : insertByKey e [] = .ok [e] := by
      rw [insertByKey]
      split
      · rfl
      · next heq => simp at heq
    exact ⟨[e], hstep, .refl _⟩
  | case2 es f after hafter before ih ih' =>
    have hsplit : before ++ f :: after = es := by
      rw [← hafter, List.take_append_drop]
    rw [← hsplit, HasTextKeys.append_iff, HasTextKeys.cons_iff] at hes
    obtain ⟨hbefore, hf, hafter'⟩ := hes
    obtain ⟨left, hleft, hperm⟩ := ih hbefore
    obtain ⟨right, hright, hperm'⟩ := ih' hafter'
    obtain ⟨less, hless⟩ := keyLess_text he hf
    have hstep : insertByKey e es =
        .ok (if less then left ++ f :: after else before ++ f :: right) := by
      rw [insertByKey]
      split
      · next heq => simp [hafter] at heq
      · next heq =>
        obtain ⟨rfl, rfl⟩ := List.cons.inj (hafter.symm.trans heq)
        have hleft' : insertByKey e (es.take (es.length / 2)) = .ok left := hleft
        cases less <;> simp [hless, bind, Except.bind, hright, hleft', before]
    refine ⟨_, hstep, ?_⟩
    rw [← hsplit]
    cases less with
    | true => exact hperm.append_right (f :: after)
    | false =>
      calc before ++ f :: right
        List.Perm _ (before ++ f :: e :: after) := (hperm'.cons f).append_left before
        List.Perm _ (before ++ e :: f :: after) := (List.Perm.swap e f after).append_left before
        List.Perm _ (e :: (before ++ f :: after)) := List.perm_middle

theorem insertAll_ok (hes : HasTextKeys es) (hfs : HasTextKeys fs) :
    ∃ sorted, insertAll es fs = .ok sorted ∧ sorted.Perm (es ++ fs) := by
  induction fs generalizing es with
  | nil => exact ⟨es, rfl, by simp⟩
  | cons f fs ih =>
    obtain ⟨hf, hfs⟩ := HasTextKeys.cons_iff.mp hfs
    obtain ⟨es', hes', hperm⟩ := insertByKey_ok hf hes
    have htext : HasTextKeys es' := (HasTextKeys.cons_iff.mpr ⟨hf, hes⟩).of_perm hperm
    obtain ⟨sorted, hsorted, hperm'⟩ := ih htext hfs
    refine ⟨sorted, by rw [insertAll, hes']; exact hsorted, ?_⟩
    calc sorted
      List.Perm _ (es' ++ fs) := hperm'
      List.Perm _ (f :: es ++ fs) := hperm.append_right fs
      List.Perm _ (es ++ f :: fs) := List.perm_middle.symm

/-- Entries with texts as keys are sorted, and none is lost. -/
theorem sortByKey_ok (hes : HasTextKeys es) :
    ∃ sorted, sortByKey es = .ok sorted ∧ sorted.Perm es := by
  match es with
  | [] => exact ⟨[], rfl, .refl _⟩
  | [e] => exact ⟨[e], rfl, .refl _⟩
  | e :: f :: fs =>
    obtain ⟨he, hf, hfs⟩ := by simpa only [HasTextKeys.cons_iff] using hes
    obtain ⟨less, hless⟩ := keyLess_text hf he
    rw [sortByKey, hless]
    -- the first two keys decide whether the run at the start goes down and is reversed
    cases less with
    | true =>
      obtain ⟨run, rest, hrun, rfl⟩ := descending_ok hf hfs
      obtain ⟨hkeys, hrest⟩ := HasTextKeys.append_iff.mp hfs
      have hperm : (run.reverse ++ [f, e]).Perm (e :: f :: run) := by
        calc run.reverse ++ [f, e]
          List.Perm _ ([f, e] ++ run.reverse) := List.perm_append_comm
          List.Perm _ ([f, e] ++ run) := (List.reverse_perm run).append_left _
          List.Perm _ (e :: f :: run) := List.Perm.swap e f run
      have hstart : HasTextKeys (run.reverse ++ [f, e]) :=
        (HasTextKeys.cons_iff.mpr ⟨he, HasTextKeys.cons_iff.mpr ⟨hf, hkeys⟩⟩).of_perm hperm
      obtain ⟨sorted, hsorted, hperm'⟩ := insertAll_ok hstart hrest
      refine ⟨sorted, ?_, hperm'.trans (hperm.append_right rest)⟩
      simpa only [bind, Except.bind, if_true, hrun] using hsorted
    | false =>
      obtain ⟨run, rest, hrun, rfl⟩ := ascending_ok hf hfs
      obtain ⟨hkeys, hrest⟩ := HasTextKeys.append_iff.mp hfs
      have hstart : HasTextKeys (e :: f :: run) :=
        HasTextKeys.cons_iff.mpr ⟨he, HasTextKeys.cons_iff.mpr ⟨hf, hkeys⟩⟩
      obtain ⟨sorted, hsorted, hperm⟩ := insertAll_ok hstart hrest
      refine ⟨sorted, ?_, hperm⟩
      simpa only [bind, Except.bind, Bool.false_eq_true, if_false, hrun] using hsorted

end

/-! ## Line feeds -/

theorem newline_ne_digitChar {d : Nat} (h : d < 16) : '\n' ≠ Nat.digitChar d := by
  rcases d with _ | _ | _ | _ | _ | _ | _ | _ | _ | _ | _ | _ | _ | _ | _ | _ | d
  all_goals first | decide | omega

theorem newline_not_mem_unitEscape (n : Nat) : '\n' ∉ unitEscape n := by
  have hlt : ∀ m, m % 16 < 16 := fun m => Nat.mod_lt m (by decide)
  simp [unitEscape_eq, newline_ne_digitChar (hlt _)]

theorem newline_not_mem_charEscape (c : Char) : '\n' ∉ charEscape c := by
  simp only [charEscape]
  split
  · exact newline_not_mem_unitEscape _
  · rw [List.mem_append]
    exact not_or.mpr ⟨newline_not_mem_unitEscape _, newline_not_mem_unitEscape _⟩

/-- A line feed is written as a letter after a backslash. -/
theorem newline_not_mem_writeChar (ascii : Bool) (c : Char) : '\n' ∉ writeChar ascii c := by
  unfold writeChar
  repeat' split
  all_goals first
    | decide
    | exact newline_not_mem_unitEscape _
    | exact newline_not_mem_charEscape c
    | rw [List.mem_singleton, eq_comm]; assumption

theorem newline_not_mem_writeString (ascii : Bool) (s : String) : '\n' ∉ writeString ascii s := by
  have hchars : '\n' ∉ s.toList.flatMap (writeChar ascii) := by
    rw [List.mem_flatMap]
    rintro ⟨c, -, hc⟩
    exact newline_not_mem_writeChar ascii c hc
  simp [writeString, hchars]

theorem newline_not_mem_intDigits (n : Int) : '\n' ∉ Decimal.intDigits n := by
  have hdigits : '\n' ∉ Decimal.natDigits n.natAbs := fun h =>
    absurd (Decimal.isDigit_of_mem_natDigits h) (by decide)
  unfold Decimal.intDigits
  split <;> simp [hdigits]

theorem not_mem_joinWith {c : Char} {separator : List Char} {texts : List (List Char)}
    (hseparator : c ∉ separator) (htexts : ∀ t ∈ texts, c ∉ t) :
    c ∉ joinWith separator texts := by
  induction texts with
  | nil => exact List.not_mem_nil
  | cons t ts ih =>
    obtain ⟨ht, hts⟩ := List.forall_mem_cons.mp htexts
    cases ts with
    | nil => exact ht
    | cons u us => simpa [joinWith_cons_cons, ht, hseparator] using ih hts

/-! ## The same data -/

/-- Values that differ in the order of the entries of their objects at most. -/
inductive SameData : Value → Value → Prop
  | refl (v : Value) : SameData v v
  | list {vs ws : List Value} (hlength : vs.length = ws.length)
      (h : ∀ (i : Nat) (v w : Value), vs[i]? = some v → ws[i]? = some w → SameData v w) :
      SameData (.list vs) (.list ws)
  | object {fs gs : Fields} (hnames : fs.names.Perm gs.names)
      (h : ∀ name v w, (name, v) ∈ fs → (name, w) ∈ gs → SameData v w) :
      SameData (.object fs) (.object gs)

/-- A list and a permutation of it, item by item. -/
theorem exists_map_of_perm {α β : Type} {f : α → β} {as : List α} {bs : List β}
    (h : bs.Perm (as.map f)) : ∃ as' : List α, as'.Perm as ∧ as'.map f = bs := by
  induction as generalizing bs with
  | nil => exact ⟨[], .refl _, (List.perm_nil.mp h).symm⟩
  | cons a as ih =>
    obtain ⟨left, right, rfl⟩ := List.append_of_mem (h.mem_iff.mpr List.mem_cons_self)
    obtain ⟨as', hperm, heq⟩ := ih (List.perm_middle.symm.trans h).cons_inv
    obtain ⟨left', right', rfl, rfl, rfl⟩ := List.map_eq_append_iff.mp heq
    exact ⟨left' ++ a :: right', List.perm_middle.trans (hperm.cons a), by simp⟩

/-! ## Writing in a style -/

/-- A style with nothing but blanks after commas and colons, and no line feeds among them. -/
structure Style.OneLine (style : Style) : Prop where
  keeps : Style.Keeps { style with sorted := false }
  comma : '\n' ∉ style.comma
  colon : '\n' ∉ style.colon

theorem Style.oneLine_compact : Style.compact.OneLine :=
  ⟨Style.keeps_compact, by simp [Style.compact], by simp [Style.compact]⟩

theorem Style.oneLine_spaced : Style.spaced.OneLine := by
  have hblank : ∀ c ∈ [' '], isSpace c := List.forall_mem_singleton.mpr rfl
  exact ⟨⟨⟨[' '], rfl, hblank⟩, ⟨[' '], rfl, hblank⟩, rfl⟩, by simp [Style.spaced],
    by simp [Style.spaced]⟩

/-- A value is written as a text without line feeds, and that is read as another value: the same
one if entries keep their order, else one with the same data. -/
structure Writes (style : Style) (v : Value) (text : List Char) (w : Value) : Prop where
  written : write style v = .ok text
  reads : Reads v.height text w
  flat : '\n' ∉ text
  same : SameData v w
  ordered : style.sorted = false → w = v

variable {style : Style} {v : Value}

variable {parts : List ((List Char × Value) × Value)}

theorem writes_list (hstyle : style.OneLine) (h : ∀ p ∈ parts, Writes style p.2 p.1.1 p.1.2) :
    Writes style (.list (parts.map Prod.snd))
      ('[' :: joinWith style.comma (parts.map fun p => p.1.1) ++ [']'])
      (.list (parts.map fun p => p.1.2)) where
  written := by
    have hparts : ∀ q ∈ parts.map fun p => (p.1.1, p.2), write style q.2 = .ok q.1 :=
      List.forall_mem_map.mpr fun p hp => (h p hp).written
    have htexts := writeAll_parts hparts
    rw [List.map_map, List.map_map] at htexts
    have htexts' : writeAll style (parts.map Prod.snd) = .ok (parts.map fun p => p.1.1) := htexts
    rw [write, htexts']
    rfl
  reads := by
    have hdepth := Value.heightAll_le_iff.1 (Nat.le_refl (Value.heightAll (parts.map Prod.snd)))
    have hparts : ∀ q ∈ parts.map Prod.fst,
        Reads (Value.heightAll (parts.map Prod.snd)) q.1 q.2 :=
      List.forall_mem_map.mpr fun p hp =>
        (h p hp).reads.mono (hdepth _ (List.mem_map_of_mem hp))
    have hreads := reads_list hstyle.keeps hparts
    rwa [List.map_map, List.map_map] at hreads
  flat := by
    have hjoin : '\n' ∉ joinWith style.comma (parts.map fun p => p.1.1) :=
      not_mem_joinWith hstyle.comma (List.forall_mem_map.mpr fun p hp => (h p hp).flat)
    simp [hjoin]
  same := by
    refine .list (by simp) fun i v w hv hw => ?_
    rw [List.getElem?_map, Option.map_eq_some_iff] at hv hw
    obtain ⟨p, hp, rfl⟩ := hv
    obtain ⟨q, hq, rfl⟩ := hw
    cases hp.symm.trans hq
    exact (h p (List.mem_of_getElem? hp)).same
  ordered := by
    intro hsorted
    exact congrArg Value.list (List.map_congr_left fun p hp => (h p hp).ordered hsorted)

/-- The entries of an object in the order of a style, each with its text. -/
theorem exists_inOrder {α : Type} (style : Style) (key : α → String) (text : α → List Char)
    (as : List α) :
    ∃ as' : List α, as'.Perm as ∧ (style.sorted = false → as' = as) ∧
      (inOrder style (as.map fun a => (.str (key a), .ok (text a))) >>= List.mapM Prod.snd) =
        .ok (as'.map text) := by
  have htexts : ∀ as' : List α, (as'.map fun a =>
      (Value.str (key a), (.ok (text a) : Except WriteFault _))).mapM Prod.snd =
        .ok (as'.map text) := by
    intro as'
    induction as' with
    | nil => rfl
    | cons a as' ih =>
      rw [List.map_cons, List.mapM_cons, ih]
      rfl
  unfold inOrder
  cases hsorted : style.sorted with
  | false => exact ⟨as, .refl as, fun _ => rfl, htexts as⟩
  | true =>
    have hkeys : HasTextKeys (as.map fun a =>
        (.str (key a), (.ok (text a) : Except WriteFault _))) :=
      List.forall_mem_map.mpr fun a _ => ⟨key a, rfl⟩
    obtain ⟨sorted, hsort, hperm⟩ := sortByKey_ok hkeys
    obtain ⟨as', hperm', rfl⟩ := exists_map_of_perm hperm
    refine ⟨as', hperm', nofun, ?_⟩
    rw [if_pos rfl, hsort]
    exact htexts as'

variable {parts parts' : List ((List Char × Value) × String × Value)}

theorem writeEntries_eq_map (h : ∀ p ∈ parts, write style p.2.2 = .ok p.1.1) :
    writeEntries style (Fields.entries (parts.map Prod.snd)) =
      parts.map fun p => (.str p.2.1, .ok (memberText style p.2.1 p.1.1)) := by
  induction parts with
  | nil => rfl
  | cons p parts ih =>
    obtain ⟨hp, hparts⟩ := List.forall_mem_cons.mp h
    have hentry : entryText style (.str p.2.1) (write style p.2.2) =
        .ok (memberText style p.2.1 p.1.1) := by
      rw [hp]
      rfl
    have hcons : writeEntries style (Fields.entries ((p :: parts).map Prod.snd)) =
        (.str p.2.1, entryText style (.str p.2.1) (write style p.2.2)) ::
          writeEntries style (Fields.entries (parts.map Prod.snd)) := rfl
    rw [hcons, hentry, ih hparts]
    rfl

/-- Objects whose members were moved have the same data. -/
theorem sameData_object (hperm : parts'.Perm parts)
    (hnames : (Fields.names (parts.map Prod.snd)).Nodup)
    (h : ∀ p ∈ parts, SameData p.2.2 p.1.2) :
    SameData (.object (parts.map Prod.snd)) (.object (parts'.map fun p => (p.2.1, p.1.2))) := by
  have hkeys : (parts.map fun p => p.2.1).Nodup := by
    simpa [Fields.names, Function.comp_def] using hnames
  refine .object ?_ fun name v w hv hw => ?_
  · simpa [Fields.names, Function.comp_def] using hperm.symm.map fun p => p.2.1
  · obtain ⟨p, hp, hpv⟩ := List.mem_map.mp hv
    obtain ⟨q, hq, hqw⟩ := List.mem_map.mp hw
    have hkey : p.2.1 = q.2.1 := (congrArg Prod.fst hpv).trans (congrArg Prod.fst hqw).symm
    -- as names are distinct, entries with the same name are the same entry
    obtain rfl := List.inj_on_of_nodup_map hkeys hp (hperm.mem_iff.mp hq) hkey
    have hsame := h p hp
    rwa [hpv, (congrArg Prod.snd hqw : p.1.2 = w)] at hsame

theorem exists_writes_object (hstyle : style.OneLine)
    (hnames : (Fields.names (parts.map Prod.snd)).Nodup)
    (h : ∀ p ∈ parts, Writes style p.2.2 p.1.1 p.1.2) :
    ∃ made : List Char × Value, Writes style (.object (parts.map Prod.snd)) made.1 made.2 := by
  obtain ⟨parts', hperm, hsame, horder⟩ := exists_inOrder style (fun p => p.2.1)
    (fun p => memberText style p.2.1 p.1.1) parts
  have hparts' : ∀ p ∈ parts', Writes style p.2.2 p.1.1 p.1.2 :=
    fun p hp => h p (hperm.mem_iff.mp hp)
  have hnames' : (Fields.names (parts'.map fun p => (p.2.1, p.1.2))).Nodup := by
    refine (List.Perm.nodup_iff ?_).mp hnames
    simpa [Fields.names, Function.comp_def] using hperm.symm.map fun p => p.2.1
  refine ⟨('\x7b' :: joinWith style.comma (parts'.map fun p => memberText style p.2.1 p.1.1) ++
    ['\x7d'], .object (parts'.map fun p => (p.2.1, p.1.2))), ?_, ?_, ?_, ?_, ?_⟩
  · rw [Fields.object_eq, write, writeEntries_eq_map fun p hp => (h p hp).written]
    rw [← bind_assoc, horder]
    rfl
  · have hdepth := Value.height_object_le_iff.1
      (Nat.le_refl (Value.object (parts.map Prod.snd)).height)
    have hmembers : ∀ q ∈ parts'.map fun p => (p.1.1, p.2.1, p.1.2),
        Reads (Value.heightEntries (Fields.entries (parts.map Prod.snd))) q.1 q.2.2 :=
      List.forall_mem_map.mpr fun p hp =>
        (hparts' p hp).reads.mono (hdepth _ (List.mem_map_of_mem (hperm.mem_iff.mp hp)))
    have hreads := reads_object hstyle.keeps hmembers
    rw [List.map_map, List.map_map] at hreads
    -- as the names are distinct, no member takes the place of another one
    rw [← Fields.ofList_of_nodup hnames']
    exact hreads
  · have hjoin : '\n' ∉ joinWith style.comma
        (parts'.map fun p => memberText style p.2.1 p.1.1) := by
      refine not_mem_joinWith hstyle.comma (List.forall_mem_map.mpr fun p hp => ?_)
      simp [memberText, newline_not_mem_writeString, hstyle.colon, (hparts' p hp).flat]
    simp [hjoin]
  · exact sameData_object hperm hnames fun p hp => (h p hp).same
  · intro hsorted
    rw [hsame hsorted]
    refine congrArg Value.object (List.map_congr_left fun p hp => ?_)
    rw [(h p hp).ordered hsorted]

theorem exists_writes_self {text : List Char} (hwritten : write style v = .ok text)
    (hreads : Reads v.height text v) (hflat : '\n' ∉ text) :
    ∃ made : List Char × Value, Writes style v made.1 made.2 :=
  ⟨(text, v), hwritten, hreads, hflat, .refl v, fun _ => rfl⟩

/-- **Every value is written as one line that is read as the same data.** -/
theorem exists_writes (hstyle : style.OneLine) (h : IsJson v) :
    ∃ made : List Char × Value, Writes style v made.1 made.2 := by
  induction h with
  | null => exact exists_writes_self rfl reads_null (by decide)
  | bool b => exact exists_writes_self rfl (reads_bool b) (by cases b <;> decide)
  | int h => exact exists_writes_self rfl (reads_int h) (newline_not_mem_intDigits _)
  | str s =>
    exact exists_writes_self rfl (reads_str style.ascii s) (newline_not_mem_writeString _ s)
  | list _ ih =>
    obtain ⟨parts, rfl, hparts⟩ := exists_texts ih
    exact ⟨(_, _), writes_list hstyle hparts⟩
  | object hnames _ ih =>
    obtain ⟨parts, rfl, hparts⟩ := exists_texts ih
    exact exists_writes_object hstyle hnames hparts

end SearchWire.Json
