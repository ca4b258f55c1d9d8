import SearchWire.Proofs.Json.Data
import SearchWire.Proofs.Json.Float

/-!
# Documents that are given as mappings

A document may be given with values that JSON does not have: choices, dates, points and tuples are
translated, keys become texts, and of two keys with one text the later value counts. Sets, bytes and
durations cannot be written, and neither can keys that have no text, as keys are not translated;
nothing else is refused.

* `Json.IsKey`, `Json.KeyText`: keys that have a text, and the text.
* `Value.Raw`: data as callers have it.
* `Value.Blocked`: what cannot be written.
* `Value.Becomes`: what a value becomes.
* `Json.settled_raw`: **a value is written as the text of what it becomes, unless something in it
  cannot be written.**
* `Document.parse_raw`: **documents that are given as mappings and as texts.**
-/

namespace SearchWire

/-! ## Keys -/

namespace Json

/-- Keys that have a text: texts and members that are texts, numbers, truth values and `null`. -/
inductive IsKey : Value → Prop
  | null : IsKey .null
  | bool (b : Bool) : IsKey (.bool b)
  | int (n : Int) : IsKey (.int n)
  | float (x : Double) : IsKey (.float x)
  | str (s : String) : IsKey (.str s)
  | member (m : Member) : IsKey (.member m)

/-- The text of a key: texts stand for themselves, and other keys are as they are written. -/
inductive KeyText : Value → String → Prop
  | text {k : Value} {s : String} (h : k.text? = some s) : KeyText k s
  | written {k : Value} {cs : List Char} (hkey : IsKey k) (htext : k.text? = none)
      (hwrite : write .compact k = .ok cs) : KeyText k (String.ofList cs)

theorem keyText?_of_isKey {k : Value} (h : IsKey k) :
    ∃ name, keyText? k = some name ∧ KeyText k name := by
  cases h with
  | str s => exact ⟨s, rfl, .text rfl⟩
  | member m => exact ⟨m.value, rfl, .text rfl⟩
  | null =>
    have htext : KeyText .null (String.ofList "null".toList) := .written .null rfl rfl
    rw [String.ofList_toList] at htext
    exact ⟨_, rfl, htext⟩
  | bool b =>
    have htext : KeyText (.bool b) (String.ofList (if b then "true" else "false").toList) :=
      .written (.bool b) rfl rfl
    rw [String.ofList_toList] at htext
    exact ⟨_, rfl, htext⟩
  | int n => exact ⟨_, rfl, .written (.int n) rfl rfl⟩
  | float x => exact ⟨_, rfl, .written (.float x) rfl rfl⟩

theorem keyText?_of_not_isKey {k : Value} (h : ¬ IsKey k) : keyText? k = none := by
  cases k with
  | null => exact absurd .null h
  | bool b => exact absurd (.bool b) h
  | int n => exact absurd (.int n) h
  | float x => exact absurd (.float x) h
  | str s => exact absurd (.str s) h
  | member m => exact absurd (.member m) h
  | _ => rfl

theorem keyText_of_eq {k : Value} {name : String} (h : keyText? k = some name) :
    IsKey k ∧ KeyText k name := by
  by_cases hkey : IsKey k
  · obtain ⟨name', hname, htext⟩ := keyText?_of_isKey hkey
    rw [h] at hname
    cases hname
    exact ⟨hkey, htext⟩
  · rw [keyText?_of_not_isKey hkey] at h
    cases h

end Json

/-! ## Data as callers have it -/

namespace Value

/-- Data as callers have it, of any depth. Integers have no more digits than can be read. -/
inductive Raw : Value → Prop
  | null : Raw .null
  | bool (b : Bool) : Raw (.bool b)
  | int {n : Int} (h : (Decimal.natDigits n.natAbs).length ≤ Json.maxDigits) : Raw (.int n)
  | float {x : Double} (h : x.Valid) : Raw (.float x)
  | str (s : String) : Raw (.str s)
  | member (m : Member) : Raw (.member m)
  | choice (enumeration label : String) {v : Value} (h : Raw v) :
      Raw (.choice enumeration label v)
  | date (d : Date) : Raw (.date d)
  | datetime (t : DateTime) : Raw (.datetime t)
  | point {c : RecordClass} {slots : List (Slot Value)} {lat lon : Double}
      (hclass : c.isA "GeoPoint") (hvalid : lat.Valid ∧ lon.Valid)
      (hlat : property? "lat" (.record c slots) = some (.float lat))
      (hlon : property? "lon" (.record c slots) = some (.float lon)) : Raw (.record c slots)
  | bytes (s : String) : Raw (.bytes s)
  | duration (d : Duration) : Raw (.duration d)
  | set {xs : List Value} (h : ∀ x ∈ xs, Raw x) : Raw (.set xs)
  | list {xs : List Value} (h : ∀ x ∈ xs, Raw x) : Raw (.list xs)
  | tuple {xs : List Value} (h : ∀ x ∈ xs, Raw x) : Raw (.tuple xs)
  | dict {es : Entries} (hkeys : ∀ e ∈ es, Raw e.1) (hvalues : ∀ e ∈ es, Raw e.2) : Raw (.dict es)

/-- Something in a value cannot be written: a set, bytes or a duration as a value at any depth, or a
key that has no text. -/
inductive Blocked : Value → Prop
  | set (xs : List Value) : Blocked (.set xs)
  | bytes (s : String) : Blocked (.bytes s)
  | duration (d : Duration) : Blocked (.duration d)
  | choice (enumeration label : String) {v : Value} (h : Blocked v) :
      Blocked (.choice enumeration label v)
  | item {xs : List Value} {x : Value} (hx : x ∈ xs) (h : Blocked x) : Blocked (.list xs)
  | part {xs : List Value} {x : Value} (hx : x ∈ xs) (h : Blocked x) : Blocked (.tuple xs)
  | key {es : Entries} {e : Value × Value} (he : e ∈ es) (h : ¬ Json.IsKey e.1) :
      Blocked (.dict es)
  | value {es : Entries} {e : Value × Value} (he : e ∈ es) (h : Blocked e.2) : Blocked (.dict es)

/-- What a value becomes as plain data. Of the entries of a dictionary that have keys with one text
the last one counts. -/
inductive Becomes : Value → Value → Prop
  | null : Becomes .null .null
  | bool (b : Bool) : Becomes (.bool b) (.bool b)
  | int (n : Int) : Becomes (.int n) (.int n)
  | float (x : Double) : Becomes (.float x) (.float x)
  | str (s : String) : Becomes (.str s) (.str s)
  | member (m : Member) : Becomes (.member m) (.str m.value)
  | choice (enumeration label : String) {v w : Value} (h : Becomes v w) :
      Becomes (.choice enumeration label v) w
  | date (d : Date) : Becomes (.date d) (.str (String.ofList d.text))
  | datetime (t : DateTime) : Becomes (.datetime t) (.str (String.ofList t.text))
  | point {c : RecordClass} {slots : List (Slot Value)} {lat lon : Double}
      (hclass : c.isA "GeoPoint") (hlat : property? "lat" (.record c slots) = some (.float lat))
      (hlon : property? "lon" (.record c slots) = some (.float lon)) :
      Becomes (.record c slots) (.object [("lat", .float lat), ("lon", .float lon)])
  | list {xs ys : List Value} (hlength : ys.length = xs.length)
      (h : ∀ (n : Nat) (x y : Value), xs[n]? = some x → ys[n]? = some y → Becomes x y) :
      Becomes (.list xs) (.list ys)
  | tuple {xs ys : List Value} (hlength : ys.length = xs.length)
      (h : ∀ (n : Nat) (x y : Value), xs[n]? = some x → ys[n]? = some y → Becomes x y) :
      Becomes (.tuple xs) (.list ys)
  | dict {es : Entries} {named fs : Fields} (hlength : named.length = es.length)
      (hkeys : ∀ (n : Nat) (e : Value × Value) (f : String × Value),
        es[n]? = some e → named[n]? = some f → Json.KeyText e.1 f.1)
      (hvalues : ∀ (n : Nat) (e : Value × Value) (f : String × Value),
        es[n]? = some e → named[n]? = some f → Becomes e.2 f.2)
      (hnames : fs.names.Nodup) (hlast : ∀ name, fs.get? name = Fields.get? named.reverse name) :
      Becomes (.dict es) (.object fs)

theorem eq_of_becomes_str {s : String} {w : Value} (h : Becomes (.str s) w) : w = .str s := by
  cases h
  rfl

/-- A point is translated to its coordinates. -/
theorem translation_point {c : RecordClass} {slots : List (Slot Value)} {lat lon : Double}
    (hclass : c.isA "GeoPoint") (hlat : property? "lat" (.record c slots) = some (.float lat))
    (hlon : property? "lon" (.record c slots) = some (.float lon)) :
    translation (.record c slots) = .form (.object [("lat", .float lat), ("lon", .float lon)]) := by
  rw [translation, if_pos hclass, pointForm, hlat, hlon]
  rfl

end Value

open Value (Raw Blocked Becomes heightAll_le_iff heightEntries_le_iff)

namespace Json

/-! ## Values that are written -/

variable {room : Nat} {v w : Value} {e : Value × Value} {es : Entries} {xs : List Value}

/-- The text of a value in a document. -/
def writeDocument (room : Nat) (v : Value) : Except WriteFault (List Char) :=
  writeWith Value.translation .document room v

/-- A value is written as the text of what it becomes. -/
structure Written (room : Nat) (text : List Char) (w v : Value) : Prop where
  free : ¬ v.Blocked
  becomes : v.Becomes w
  write_eq : writeDocument room v = .ok text
  reads : Reads room text w

/-- A value is written, or something in it cannot be. -/
inductive Settled (room : Nat) (v : Value) : Prop
  | refused {fault : WriteFault} (hblocked : v.Blocked) (h : writeDocument room v = .error fault)
  | written {text : List Char} {w : Value} (h : Written room text w v)

theorem Settled.of_atom {text : List Char} (hatom : isAtom v)
    (htext : unlessTooLong v (writeAtom .document v) = .ok text) (hfree : ¬ v.Blocked)
    (hbecomes : v.Becomes w) (hreads : Reads 0 text w) : Settled room v := by
  have hwrite : writeDocument room v = .ok text := (writeWith_atom hatom).trans htext
  exact .written ⟨hfree, hbecomes, hwrite, hreads.mono (Nat.zero_le room)⟩

/-- A value that is translated is settled as what it is translated to. -/
theorem Settled.of_translation (hother : IsOther v) (htranslation : v.translation = .form w)
    (hblocked : v.Blocked ↔ w.Blocked) (hbecomes : ∀ u, w.Becomes u → v.Becomes u)
    (h : Settled room w) : Settled (room + 1) v := by
  have hwrite : writeDocument (room + 1) v = writeDocument room w := by
    rw [writeDocument, writeWith_other hother, htranslation]
    rfl
  cases h with
  | refused hw h => exact .refused (hblocked.2 hw) (hwrite.trans h)
  | written h =>
    exact .written ⟨mt hblocked.1 h.free, hbecomes _ h.becomes, hwrite.trans h.write_eq,
      h.reads.mono (Nat.le_succ room)⟩

/-- A value that stays in its place is not written. -/
theorem Settled.of_kept (hother : IsOther v) (htranslation : v.translation = .kept)
    (hblocked : v.Blocked) : Settled (room + 1) v := by
  have hwrite : writeDocument (room + 1) v = .error .circular := by
    rw [writeDocument, writeWith_other hother, htranslation]
    rfl
  exact .refused hblocked hwrite

/-- All of some values are written, or one of them is not. -/
theorem exists_parts {α β : Type} {P : β → α → Prop} {Bad : α → Prop}
    {f : α → Except WriteFault (List Char)} {as : List α}
    (h : ∀ a ∈ as, (Bad a ∧ ∃ fault, f a = .error fault) ∨ ∃ b, P b a) :
    (∃ a ∈ as, Bad a ∧ ∃ fault, as.mapM f = .error fault) ∨
      ∃ parts : List (β × α), parts.map Prod.snd = as ∧ ∀ p ∈ parts, P p.1 p.2 := by
  by_cases hall : ∀ a ∈ as, ∃ b, P b a
  · exact .inr (exists_texts hall)
  · simp only [not_forall] at hall
    obtain ⟨a, ha, hnone⟩ := hall
    obtain ⟨hbad, fault, hfault⟩ := (h a ha).resolve_right hnone
    refine .inl ⟨a, ha, hbad, ?_⟩
    cases hmap : as.mapM f with
    | error fault => exact ⟨fault, rfl⟩
    | ok texts =>
      obtain ⟨text, htext⟩ := exists_mapM_iff.1 ⟨texts, hmap⟩ a ha
      cases hfault.symm.trans htext

/-- What stands at a place of one list and at the same place of another comes from one part. -/
theorem getElem?_parts {α β γ : Type} {parts : List γ} {f : γ → α} {g : γ → β} {n : Nat} {a : α}
    {b : β} (ha : (parts.map f)[n]? = some a) (hb : (parts.map g)[n]? = some b) :
    ∃ p ∈ parts, f p = a ∧ g p = b := by
  rw [List.getElem?_map] at ha hb
  obtain ⟨p, hp, hfp⟩ := Option.map_eq_some_iff.1 ha
  rw [hp] at hb
  exact ⟨p, List.mem_of_getElem? hp, hfp, Option.some.inj hb⟩

/-! ## Lists -/

/-- Lists and tuples, of which those are blocked that have a blocked item. -/
theorem Settled.of_items (hwrite : writeDocument (room + 1) v = writeDocument (room + 1) (.list xs))
    (hblocked : v.Blocked ↔ ∃ x ∈ xs, x.Blocked)
    (hbecomes : ∀ ys : List Value, ys.length = xs.length →
      (∀ (n : Nat) (x y : Value), xs[n]? = some x → ys[n]? = some y → x.Becomes y) →
      v.Becomes (.list ys))
    (hsettled : ∀ x ∈ xs, Settled room x) : Settled (room + 1) v := by
  have hlist : writeDocument (room + 1) v = (xs.mapM (writeDocument room)).map
      fun texts => '[' :: joinWith Style.document.comma texts ++ [']'] :=
    hwrite.trans (writeWith_list xs)
  have hitems : ∀ x ∈ xs, (x.Blocked ∧ ∃ fault, writeDocument room x = .error fault) ∨
      ∃ part : List Char × Value, Written room part.1 part.2 x := by
    intro x hx
    cases hsettled x hx with
    | refused hblocked h => exact .inl ⟨hblocked, _, h⟩
    | @written text w h => exact .inr ⟨(text, w), h⟩
  rcases exists_parts hitems with ⟨x, hx, hx', fault, hfault⟩ | ⟨parts, rfl, hparts⟩
  · rw [hfault] at hlist
    exact .refused (hblocked.2 ⟨x, hx, hx'⟩) hlist
  · have htexts : (parts.map Prod.snd).mapM (writeDocument room) =
        .ok (parts.map fun p => p.1.1) :=
      mapM_map_eq_ok fun p hp => (hparts p hp).write_eq
    have hreads := reads_list Document.keeps_document
      (List.forall_mem_map.2 fun p hp => (hparts p hp).reads : ∀ q ∈ parts.map Prod.fst, _)
    rw [List.map_map, List.map_map] at hreads
    rw [htexts] at hlist
    have hwritten : writeDocument (room + 1) v = .ok ('[' ::
        joinWith Style.document.comma (parts.map fun p => p.1.1) ++ [']']) := hlist
    refine .written ⟨?_, hbecomes _ ?_ ?_, hwritten, hreads⟩
    · rw [hblocked]
      rintro ⟨x, hx, hx'⟩
      obtain ⟨p, hp, rfl⟩ := List.mem_map.1 hx
      exact (hparts p hp).free hx'
    · rw [List.length_map, List.length_map]
    · intro n x y hx hy
      obtain ⟨p, hp, rfl, rfl⟩ := getElem?_parts hx hy
      exact (hparts p hp).becomes

/-! ## Dictionaries -/

/-- An entry is written as the text of a member. -/
structure EntryWritten (room : Nat) (part : List Char × String × Value) (e : Value × Value) :
    Prop where
  key : keyText? e.1 = some part.2.1
  value : Written room part.1 part.2.2 e.2

/-- The text of an entry in a document. -/
def writeEntry (room : Nat) (e : Value × Value) : Except WriteFault (List Char) :=
  entryWith Value.translation .document room e

theorem unlessTooLong_of_raw {k : Value} (h : k.Raw) (text : Except WriteFault (List Char)) :
    unlessTooLong k text = text := by
  cases h with
  | int h => exact unlessTooLong_of_length h text
  | _ => rfl

theorem EntryWritten.write_eq {part : List Char × String × Value} (hraw : e.1.Raw)
    (h : EntryWritten room part e) :
    writeEntry room e = .ok (memberText .document part.2.1 part.1) := by
  have hvalue : writeWith Value.translation .document room e.2 = .ok part.1 := h.value.write_eq
  rw [writeEntry, entryWith, unlessTooLong_of_raw hraw, entryText, h.key, hvalue]
  rfl

/-- An entry is written, or its key or its value cannot be. -/
theorem settled_entry (hraw : e.1.Raw) (hsettled : Settled room e.2) :
    ((¬ IsKey e.1 ∨ e.2.Blocked) ∧ ∃ fault, writeEntry room e = .error fault) ∨
      ∃ part, EntryWritten room part e := by
  cases hkey : keyText? e.1 with
  | none =>
    have hnot : ¬ IsKey e.1 := by
      intro h
      obtain ⟨name, hname, -⟩ := keyText?_of_isKey h
      cases hkey.symm.trans hname
    refine .inl ⟨.inl hnot, .key e.1, ?_⟩
    rw [writeEntry, entryWith, unlessTooLong_of_raw hraw, entryText, hkey]
  | some name =>
    cases hsettled with
    | @refused fault hblocked h =>
      have hvalue : writeWith Value.translation .document room e.2 = .error fault := h
      refine .inl ⟨.inr hblocked, fault, ?_⟩
      rw [writeEntry, entryWith, unlessTooLong_of_raw hraw, entryText, hkey, hvalue]
      rfl
    | @written text w h => exact .inr ⟨(text, name, w), hkey, h⟩

/-- The texts of entries are written and read as an object. -/
theorem write_entries {parts : List ((List Char × String × Value) × (Value × Value))}
    (hraw : ∀ p ∈ parts, p.2.1.Raw) (hparts : ∀ p ∈ parts, EntryWritten room p.1 p.2) :
    ∃ text, writeDocument (room + 1) (.dict (parts.map Prod.snd)) = .ok text ∧
      Reads (room + 1) text (.object (Fields.ofList (parts.map fun p => p.1.2))) := by
  have htexts : (parts.map Prod.snd).mapM (writeEntry room) =
      .ok (parts.map fun p => memberText .document p.1.2.1 p.1.1) :=
    mapM_map_eq_ok fun p hp => (hparts p hp).write_eq (hraw p hp)
  have hdict : writeDocument (room + 1) (.dict (parts.map Prod.snd)) =
      ((parts.map Prod.snd).mapM (writeEntry room)).map
        fun texts => '\x7b' :: joinWith Style.document.comma texts ++ ['\x7d'] :=
    writeWith_dict rfl _
  rw [htexts] at hdict
  have hreads := reads_object Document.keeps_document
    (List.forall_mem_map.2 fun p hp => (hparts p hp).value.reads : ∀ q ∈ parts.map Prod.fst, _)
  rw [List.map_map, List.map_map] at hreads
  exact ⟨_, hdict, hreads⟩

theorem Settled.of_entries (hraw : ∀ e ∈ es, e.1.Raw) (hsettled : ∀ e ∈ es, Settled room e.2) :
    Settled (room + 1) (.dict es) := by
  rcases exists_parts fun e he => settled_entry (hraw e he) (hsettled e he) with
    ⟨e, he, hbad, fault, hfault⟩ | ⟨parts, rfl, hparts⟩
  · have hdict : writeDocument (room + 1) (.dict es) = .error fault := by
      rw [writeDocument, writeWith_dict rfl]
      exact map_eq_error.2 hfault
    exact .refused (hbad.elim (.key he) (.value he)) hdict
  · obtain ⟨text, hwrite, hreads⟩ :=
      write_entries (fun p hp => hraw _ (List.mem_map_of_mem hp)) hparts
    have hkeys : ∀ p ∈ parts, IsKey p.2.1 ∧ KeyText p.2.1 p.1.2.1 :=
      fun p hp => keyText_of_eq (hparts p hp).key
    refine .written ⟨?_, .dict ?_ ?_ ?_ (Fields.nodup_ofList _) (Fields.get?_ofList _), hwrite,
      hreads⟩
    · intro hblocked
      cases hblocked with
      | key he h =>
        obtain ⟨p, hp, rfl⟩ := List.mem_map.1 he
        exact h (hkeys p hp).1
      | value he h =>
        obtain ⟨p, hp, rfl⟩ := List.mem_map.1 he
        exact (hparts p hp).value.free h
    · rw [List.length_map, List.length_map]
    · intro n e f he hf
      obtain ⟨p, hp, rfl, rfl⟩ := getElem?_parts he hf
      exact (hkeys p hp).2
    · intro n e f he hf
      obtain ⟨p, hp, rfl, rfl⟩ := getElem?_parts he hf
      exact (hparts p hp).value.becomes

/-! ## Data as callers have it -/

theorem written_float {x : Double} (h : x.Valid) (room : Nat) :
    Written room (writeFloat x) (.float x) (.float x) :=
  ⟨nofun, .float x, writeWith_atom rfl, (reads_float h).mono (Nat.zero_le room)⟩

/-- A point is written as its coordinates. -/
theorem Settled.of_point {c : RecordClass} {slots : List (Slot Value)} {lat lon : Double}
    (hclass : c.isA "GeoPoint") (hvalid : lat.Valid ∧ lon.Valid)
    (hlat : Value.property? "lat" (.record c slots) = some (.float lat))
    (hlon : Value.property? "lon" (.record c slots) = some (.float lon)) :
    Settled (room + 2) (.record c slots) := by
  have hparts : ∀ p ∈ [((writeFloat lat, "lat", Value.float lat), (Value.str "lat", .float lat)),
      ((writeFloat lon, "lon", .float lon), (.str "lon", .float lon))],
      p.2.1.Raw ∧ EntryWritten room p.1 p.2 :=
    List.forall_mem_cons.2 ⟨⟨.str _, rfl, written_float hvalid.1 room⟩,
      List.forall_mem_singleton.2 ⟨.str _, rfl, written_float hvalid.2 room⟩⟩
  obtain ⟨text, hwrite, hreads⟩ :=
    write_entries (fun p hp => (hparts p hp).1) fun p hp => (hparts p hp).2
  have htranslated : writeDocument (room + 2) (.record c slots) = .ok text := by
    rw [writeDocument, writeWith_other (.record c slots),
      Value.translation_point hclass hlat hlon]
    exact hwrite
  exact .written ⟨nofun, .point hclass hlat hlon, htranslated, hreads.mono (Nat.le_succ _)⟩

theorem exists_room {n : Nat} (h : n + 1 ≤ room) : ∃ r, room = r + 1 ∧ n ≤ r :=
  ⟨room - 1, by omega, by omega⟩

/-- **A value is written as the text of what it becomes, unless something in it cannot be
written.** -/
theorem settled_raw (h : v.Raw) (hroom : v.height ≤ room) : Settled room v := by
  induction h generalizing room with
  | null => exact .of_atom rfl rfl nofun .null reads_null
  | bool b => exact .of_atom rfl rfl nofun (.bool b) (reads_bool b)
  | int h => exact .of_atom rfl (unlessTooLong_of_length h _) nofun (.int _) (reads_int h)
  | float h => exact .written (written_float h room)
  | str s => exact .of_atom rfl rfl nofun (.str s) (reads_str true s)
  | member m => exact .of_atom rfl rfl nofun (.member m) (reads_str true m.value)
  | choice enumeration label _ ih =>
    obtain ⟨r, rfl, hr⟩ := exists_room hroom
    refine .of_translation (.choice ..) rfl ⟨?_, .choice _ _⟩ (fun _ => .choice _ _) (ih hr)
    rintro ⟨⟩
    assumption
  | date d =>
    obtain ⟨r, rfl, -⟩ := exists_room hroom
    refine .of_translation (.date d) rfl ⟨nofun, nofun⟩ ?_
      (.of_atom rfl rfl nofun (.str _) (reads_str true _))
    intro u hu
    rw [Value.eq_of_becomes_str hu]
    exact .date d
  | datetime t =>
    obtain ⟨r, rfl, -⟩ := exists_room hroom
    refine .of_translation (.datetime t) rfl ⟨nofun, nofun⟩ ?_
      (.of_atom rfl rfl nofun (.str _) (reads_str true _))
    intro u hu
    rw [Value.eq_of_becomes_str hu]
    exact .datetime t
  | point hclass hvalid hlat hlon =>
    obtain ⟨r, rfl, hr⟩ := exists_room hroom
    obtain ⟨r, rfl, -⟩ := exists_room hr
    exact .of_point hclass hvalid hlat hlon
  | bytes s =>
    obtain ⟨r, rfl, -⟩ := exists_room hroom
    exact .of_kept (.bytes s) rfl (.bytes s)
  | duration d =>
    obtain ⟨r, rfl, -⟩ := exists_room hroom
    exact .of_kept (.duration d) rfl (.duration d)
  | set =>
    obtain ⟨r, rfl, -⟩ := exists_room hroom
    exact .of_kept (.set _) rfl (.set _)
  | list _ ih =>
    obtain ⟨r, rfl, hr⟩ := exists_room hroom
    refine .of_items rfl ⟨?_, fun ⟨x, hx, h⟩ => .item hx h⟩ (fun _ => .list)
      fun x hx => ih x hx (heightAll_le_iff.1 hr x hx)
    rintro ⟨⟩
    exact ⟨_, ‹_›, ‹_›⟩
  | tuple _ ih =>
    obtain ⟨r, rfl, hr⟩ := exists_room hroom
    refine .of_items (writeWith_tuple _) ⟨?_, fun ⟨x, hx, h⟩ => .part hx h⟩ (fun _ => .tuple)
      fun x hx => ih x hx (heightAll_le_iff.1 hr x hx)
    rintro ⟨⟩
    exact ⟨_, ‹_›, ‹_›⟩
  | dict hkeys _ _ ih =>
    obtain ⟨r, rfl, hr⟩ := exists_room hroom
    exact .of_entries hkeys fun e he => ih e he (heightEntries_le_iff.1 hr e he)

/-! ## Too deep -/

/-- Where there is less room than brackets are open a text is too deep. -/
theorem readValue_brackets {fuel n : Nat} (hn : room < n) (hfuel : 2 * room < fuel) :
    readValue fuel room (List.replicate n '[') = .error .tooDeep := by
  induction room generalizing fuel n with
  | zero =>
    obtain ⟨n, rfl⟩ : ∃ k, n = k + 1 := ⟨n - 1, by omega⟩
    obtain ⟨fuel, rfl⟩ : ∃ k, fuel = k + 1 := ⟨fuel - 1, by omega⟩
    rfl
  | succ r ih =>
    obtain ⟨n, rfl⟩ : ∃ k, n = k + 2 := ⟨n - 2, by omega⟩
    -- a list and its first item take two units of fuel, and one of room
    obtain ⟨fuel, rfl⟩ : ∃ k, fuel = k + 2 := ⟨fuel - 2, by omega⟩
    have hitem : readValue fuel r (List.replicate (n + 1) '[') = .error .tooDeep :=
      ih (by omega) (by omega)
    rw [List.replicate_succ, List.replicate_succ, readValue_bracket (by decide), readItems,
      ← List.replicate_succ, hitem]
    rfl

end Json

namespace Document

open Json

variable {room : Option Nat} {what : String}

/-- Room that is no less than some number, if there is a bound. -/
def Suffices (room : Option Nat) (n : Nat) : Prop := ∀ r, room = some r → n ≤ r

theorem le_getD {n m : Nat} (h : Suffices room n) (hm : n ≤ m) : n ≤ room.getD m := by
  cases room with
  | none => exact hm
  | some r => exact h r rfl

/-- A text that is open too often is not refused as a document. -/
theorem parseWithin_brackets {r n : Nat} (hn : r < n) (what : String) :
    parseWithin (some r) what (.str (String.ofList (List.replicate n '['))) = .error .tooDeep := by
  obtain ⟨k, rfl⟩ : ∃ k, n = k + 1 := ⟨n - 1, by omega⟩
  have hread : readChars r (List.replicate (k + 1) '[') = .error .tooDeep := by
    have hvalue : readAll r (List.replicate (k + 1) '[') = .error .tooDeep := by
      rw [readAll, List.replicate_succ, skipSpace_cons rfl, ← List.replicate_succ,
        List.length_replicate, readValue_brackets hn (by omega)]
      rfl
    rw [readChars, hvalue, if_neg (by simp [List.replicate_succ, byteOrderMark])]
    rfl
  rw [parseWithin, Option.getD_some, readWithin, String.toList_ofList, hread]
  rfl

/-! ## Documents -/

/-- A mapping is refused if something in it cannot be written, else it is plain data. -/
theorem parse_mapping {es : Entries} (hraw : (Value.dict es).Raw)
    (hroom : Suffices room (Value.dict es).height) :
    (Value.dict es).Blocked ∧
        (∃ e, parseWithin room what (.dict es) = .error e ∧ e.category = .document) ∨
      ¬ (Value.dict es).Blocked ∧ ∃ fs, parseWithin room what (.dict es) = .ok (some fs) ∧
        (Value.dict es).Becomes (.object fs) := by
  have hle := le_getD hroom (Nat.le_refl (Value.dict es).height)
  rw [parseWithin]
  cases settled_raw hraw hle with
  | @refused fault hblocked h =>
    refine .inl ⟨hblocked, ?_⟩
    rcases written_outcome what (writeWith_ne_tooDeep rfl hle) with ⟨text, hok⟩ | ⟨e, he, hdoc⟩
    · cases h.symm.trans (mapError_eq_ok.1 hok)
    · rw [he]
      exact ⟨e, rfl, hdoc⟩
  | @written text w h =>
    refine .inr ⟨h.free, ?_⟩
    have hwritten : written (room.getD (Value.dict es).height) what es = .ok text :=
      mapError_eq_ok.2 h.write_eq
    have hread : readChars (room.getD text.length) text = .ok w := by
      cases room with
      | none => exact h.reads.readChars_length
      | some r => exact h.reads.readChars_eq (Nat.le_refl r)
    cases h.becomes with
    | @dict _ named fs hlength hkeys hvalues hnames hlast =>
      refine ⟨fs, ?_, .dict hlength hkeys hvalues hnames hlast⟩
      rw [hwritten]
      exact congrArg (Except.map some) (ofReading_object hread)

/-- A text gives plain data, or it is refused as a document. -/
theorem parse_text {v : Value} {s : String} (h : v.text? = some s)
    (hroom : Suffices room (nesting s.toList)) :
    (∃ fs, parseWithin room what v = .ok (some fs) ∧ (Value.object fs).IsPlain) ∨
      ∃ e, parseWithin room what v = .error e ∧ e.category = .document := by
  have hparse : parseWithin room what v =
      (ofReading what (readWithin (room.getD s.length) s)).map some := by
    cases v <;> cases h <;> rfl
  have hle : nesting s.toList ≤ room.getD s.length := by
    refine le_getD hroom ?_
    rw [← String.length_toList]
    exact nesting_le s.toList
  rcases ofReading_outcome what (readChars_ne_tooDeep hle) with ⟨fs, hfs⟩ | ⟨e, he, hdoc⟩
  · have hok : parseWithin room what v = .ok (some fs) := by
      rw [hparse, readWithin, hfs]
      rfl
    exact .inl ⟨fs, hok, isPlain_of_parseWithin hok⟩
  · refine .inr ⟨e, ?_, hdoc⟩
    rw [hparse, readWithin, he]
    rfl

/-- **Documents that are given as mappings and as texts**, no deeper than there is room for. A
mapping is refused if and only if something in it cannot be written; otherwise it is plain data, as
its parts become it. A text gives plain data or is refused. What is refused is so as a document. -/
theorem parse_raw (room : Option Nat) (what : String) :
    (∀ es : Entries, (Value.dict es).Raw → Suffices room (Value.dict es).height →
      ((∃ e, parseWithin room what (.dict es) = .error e ∧ e.category = .document) ↔
        (Value.dict es).Blocked) ∧
      (¬ (Value.dict es).Blocked → ∃ fs, parseWithin room what (.dict es) = .ok (some fs) ∧
        (Value.object fs).IsPlain ∧ (Value.dict es).Becomes (.object fs))) ∧
    ∀ (v : Value) (s : String), v.text? = some s → Suffices room (nesting s.toList) →
      (∃ fs, parseWithin room what v = .ok (some fs) ∧ (Value.object fs).IsPlain) ∨
        ∃ e, parseWithin room what v = .error e ∧ e.category = .document := by
  refine ⟨fun es hraw hroom => ?_, fun v s h hroom => parse_text h hroom⟩
  rcases parse_mapping hraw hroom with ⟨hblocked, hrefused⟩ | ⟨hfree, fs, hok, hbecomes⟩
  · exact ⟨⟨fun _ => hblocked, fun _ => hrefused⟩, fun hfree => absurd hblocked hfree⟩
  · refine ⟨⟨?_, fun hblocked => absurd hblocked hfree⟩,
      fun _ => ⟨fs, hok, isPlain_of_parseWithin hok, hbecomes⟩⟩
    rintro ⟨e, he, -⟩
    cases hok.symm.trans he

/-- Entries of which two have the same key text, one of them with a pair. -/
private def colours : Entries :=
  [(.int 1, .tuple [.member ⟨"Colour", "RED", "red"⟩, .null]),
    (.str "1", .list [.bool true, .choice "Shade" "DARK" (.tuple [.int 2])])]

/-- What they become. -/
private def coloursRead : Fields := [("1", .list [.bool true, .list [.int 2]])]

/-- An entry with a set inside a list. -/
private def nested : Entries := [(.str "colours", .list [.null, .set []])]

theorem parse_raw_colours :
    parseWithin (some 4) "document" (.dict colours) = .ok (some coloursRead) ∧
      (Value.dict colours).Becomes (.object coloursRead) ∧
      (∃ e, parseWithin none "document" (.dict nested) = .error e ∧ e.category = .document) ∧
      ∃ e, parseWithin (some 1) "document" (.str "[]") = .error e ∧ e.category = .document := by
  have hcolours : (Value.dict colours).Raw := by
    refine .dict (List.forall_mem_cons.2 ⟨.int (by decide), List.forall_mem_singleton.2 (.str _)⟩)
      (List.forall_mem_cons.2 ⟨.tuple ?_, List.forall_mem_singleton.2 (.list ?_)⟩)
    · exact List.forall_mem_cons.2 ⟨.member _, List.forall_mem_singleton.2 .null⟩
    · refine List.forall_mem_cons.2 ⟨.bool true, List.forall_mem_singleton.2 (.choice _ _ ?_)⟩
      exact .tuple (List.forall_mem_singleton.2 (.int (by decide)))
  have hnested : (Value.dict nested).Raw := by
    refine .dict (List.forall_mem_singleton.2 (.str _)) (List.forall_mem_singleton.2 (.list ?_))
    refine List.forall_mem_cons.2 ⟨.null, List.forall_mem_singleton.2 (.set ?_)⟩
    exact List.forall_mem_nil _
  have hroom : Suffices (some 4) (Value.dict colours).height := by
    rintro r ⟨⟩
    decide
  have hbrackets : Suffices (some 1) (nesting "[]".toList) := by
    rintro r ⟨⟩
    decide
  have hparse : parseWithin (some 4) "document" (.dict colours) = .ok (some coloursRead) := rfl
  have hrefused : ∃ e, parseWithin (some 1) "document" (.str "[]") = .error e := ⟨_, rfl⟩
  obtain ⟨hmapping, htext⟩ := parse_raw (some 1) "document"
  obtain ⟨hiff, hfree⟩ := (parse_raw (some 4) "document").1 colours hcolours hroom
  obtain ⟨hiff', -⟩ := (parse_raw none "document").1 nested hnested nofun
  refine ⟨hparse, ?_, hiff'.2 (.value List.mem_cons_self (.item (by simp) (.set []))), ?_⟩
  · have hunblocked : ¬ (Value.dict colours).Blocked := by
      intro hblocked
      obtain ⟨e, he, -⟩ := hiff.2 hblocked
      cases hparse.symm.trans he
    obtain ⟨fs, hfs, -, hbecomes⟩ := hfree hunblocked
    cases hparse.symm.trans hfs
    exact hbecomes
  · obtain ⟨e, he⟩ := hrefused
    rcases htext (.str "[]") "[]" rfl hbrackets with ⟨fs, hfs, -⟩ | herror
    · cases he.symm.trans hfs
    · exact herror

/-- An entry with a choice as its key. -/
private def chosen : Entries := [(.choice "Shade" "DARK" (.str "dark"), .int 1)]

/-- A choice is no key, although it is a value, and too many brackets are not refused as a
document. -/
theorem parse_choice_brackets :
    ((∃ e, parse "document" (.dict chosen) = .error e ∧ e.category = .document) ∧
      ∀ e ∈ chosen, (∃ enumeration label v, e.1 = .choice enumeration label v) ∧ ¬ e.2.Blocked) ∧
    parseWithin (some 1000) "document" (.str (String.ofList (List.replicate 20000 '['))) =
        .error .tooDeep ∧ Failure.tooDeep.category ≠ .document := by
  refine ⟨⟨⟨_, rfl, rfl⟩, ?_⟩, parseWithin_brackets (by decide) _, nofun⟩
  exact List.forall_mem_singleton.2 ⟨⟨_, _, _, rfl⟩, nofun⟩

end Document

end SearchWire
