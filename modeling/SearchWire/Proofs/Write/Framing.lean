import SearchWire.Proofs.Json.Order
import SearchWire.Proofs.Write.Bulk
import SearchWire.Request.Text

/-!
# The framing of bulk requests

The body of a bulk request is sent as lines of JSON. A line feed ends every line, and none is inside
one, as in texts it is written as an escape and in UTF-8 no part of another character looks like
it. So the bytes between line feeds are the lines.

* `Text.utf8`, `Json.byteLines`, `Json.parse?`: bytes, their parts that end with a line feed, and
  what a part is read as.
* `Json.Frames`: bytes that hold values, each in its own segment.
* `Json.frames_linesText`: the lines of values are such bytes.
* `Request.frames_bulk`: **so are bulk requests, in both styles.**
-/

namespace SearchWire

/-! ## Bytes -/

/-- The byte of a line feed. -/
def newline : UInt8 := 10

/-- A text as bytes. -/
def Text.utf8 (s : String) : List UInt8 := s.toUTF8.data.toList

theorem Text.utf8_ofList (cs : List Char) :
    Text.utf8 (String.ofList cs) = cs.flatMap String.utf8EncodeChar := by
  simp [Text.utf8, List.utf8Encode]

/-- The bytes of a character outside ASCII are from the upper half. -/
theorem newline_ne_ofNat {n : Nat} (hlow : 0x80 ≤ n) (hhigh : n < 0x100) :
    newline ≠ UInt8.ofNat n := by
  intro h
  have hnat : 10 = n % 256 := congrArg UInt8.toNat h
  omega

/-- Only a line feed has its byte. -/
theorem newline_mem_utf8EncodeChar {c : Char} (h : newline ∈ String.utf8EncodeChar c) :
    c = '\n' := by
  simp only [String.utf8EncodeChar] at h
  split at h
  · have hnat : 10 = c.val.toNat % 256 := congrArg UInt8.toNat (List.mem_singleton.mp h)
    apply Char.toNat_inj.mp
    change c.val.toNat = 10
    omega
  -- what is left is longer than a byte, and all of it is from the upper half
  repeat' split at h
  all_goals simp only [List.mem_cons, List.not_mem_nil, or_false] at h
  · rcases h with h | h
    all_goals exact absurd h (newline_ne_ofNat (by omega) (by omega))
  · rcases h with h | h | h
    all_goals exact absurd h (newline_ne_ofNat (by omega) (by omega))
  · rcases h with h | h | h | h
    all_goals exact absurd h (newline_ne_ofNat (by omega) (by omega))

theorem newline_not_mem_utf8 {cs : List Char} (h : '\n' ∉ cs) :
    newline ∉ Text.utf8 (String.ofList cs) := by
  rw [Text.utf8_ofList, List.mem_flatMap]
  rintro ⟨c, hc, hmem⟩
  exact h (newline_mem_utf8EncodeChar hmem ▸ hc)

namespace Json

/-- The parts of some bytes that end with a line feed, without it. -/
def byteLines (bytes : List UInt8) : List (List UInt8) := (bytes.splitOn newline).dropLast

/-- The value that some bytes are the JSON text of. -/
def parse? (bytes : List UInt8) : Option Value :=
  (String.fromUTF8? ⟨bytes.toArray⟩).bind fun s => (readBytes s).toOption

theorem parse?_utf8 {s : String} {v : Value} (h : readBytes s = .ok v) :
    parse? (Text.utf8 s) = some v := by
  have hdecode : String.fromUTF8? ⟨(Text.utf8 s).toArray⟩ = some s := by
    simp only [Text.utf8, Array.toArray_toList, String.fromUTF8?, String.toUTF8_eq_toByteArray,
      dif_pos s.isValidUTF8]
    rfl
  rw [parse?, hdecode, Option.bind_some, h]
  rfl

theorem mapM_parse? {parts : List ((List Char × Value) × Value)}
    (h : ∀ p ∈ parts, Reads p.2.height p.1.1 p.1.2) :
    (parts.map fun p => Text.utf8 (String.ofList p.1.1)).mapM parse? =
      some (parts.map fun p => p.1.2) := by
  induction parts with
  | nil => rfl
  | cons p parts ih =>
    obtain ⟨hp, hparts⟩ := List.forall_mem_cons.mp h
    rw [List.map_cons, List.mapM_cons, parse?_utf8 hp.read_eq.2, ih hparts]
    rfl

/-- Parts with a line feed after each are split at the line feeds. -/
theorem splitOn_flatMap {parts : List (List UInt8)} (h : ∀ part ∈ parts, newline ∉ part) :
    (parts.flatMap fun part => part ++ [newline]).splitOn newline = parts ++ [[]] := by
  induction parts with
  | nil => rfl
  | cons part parts ih =>
    obtain ⟨hpart, hparts⟩ := List.forall_mem_cons.mp h
    rw [List.flatMap_cons, List.append_assoc, List.singleton_append,
      List.splitOn_append_cons_self_of_not_mem hpart, ih hparts, List.cons_append]

theorem count_flatMap {parts : List (List UInt8)} (h : ∀ part ∈ parts, newline ∉ part) :
    (parts.flatMap fun part => part ++ [newline]).count newline = parts.length := by
  induction parts with
  | nil => rfl
  | cons part parts ih =>
    obtain ⟨hpart, hparts⟩ := List.forall_mem_cons.mp h
    rw [List.flatMap_cons, List.count_append, List.count_append, ih hparts,
      List.count_eq_zero.mpr hpart, List.count_singleton_self, List.length_cons]
    omega

theorem getLast?_flatMap {parts : List (List UInt8)} (hne : parts ≠ []) :
    (parts.flatMap fun part => part ++ [newline]).getLast? = some newline := by
  obtain ⟨before, part, rfl⟩ := List.eq_nil_or_concat parts |>.resolve_left hne
  simp

/-! ## Lines -/

/-- Bytes that hold some values: a line feed is at their end, and there is one for each value; the
part of each value is its JSON text; and what is read from the parts are the values, in a
style with sorted entries up to the order of entries. -/
structure Frames (style : Style) (lines : List Value) (bytes : List UInt8) : Prop where
  ends : bytes.getLast? = some newline
  count : bytes.count newline = lines.length
  texts : ∃ texts : List (List Char), lines.map (write style) = texts.map .ok ∧
    byteLines bytes = texts.map fun text => Text.utf8 (String.ofList text)
  values : ∃ vs, (byteLines bytes).mapM parse? = some vs ∧
    SameData (.list lines) (.list vs) ∧ (style.sorted = false → vs = lines)

end Json

namespace Request

open Json

theorem linesText_parts {style : Style} {parts : List ((List Char × Value) × Value)}
    (h : ∀ p ∈ parts, write style p.2 = .ok p.1.1) :
    linesText style (parts.map Prod.snd) = .ok (parts.flatMap fun p => p.1.1 ++ ['\n']) := by
  induction parts with
  | nil => rfl
  | cons p parts ih =>
    obtain ⟨hp, hparts⟩ := List.forall_mem_cons.mp h
    rw [List.map_cons, linesText, hp, ih hparts, List.flatMap_cons, List.append_assoc]
    rfl

/-- **The lines of values are read back.** -/
theorem frames_linesText {style : Style} (hstyle : style.OneLine) {lines : List Value}
    (hne : lines ≠ []) (hlines : ∀ line ∈ lines, IsJson line) :
    ∃ text, linesText style lines = .ok text ∧
      Frames style lines (Text.utf8 (String.ofList text)) := by
  -- each line with its text and with the value that is read from it, which may be another one
  -- where entries are sorted
  obtain ⟨parts, rfl, hparts⟩ := exists_texts fun line hline =>
    exists_writes hstyle (hlines line hline)
  refine ⟨_, linesText_parts fun p hp => (hparts p hp).written, ?_⟩
  have hbytes : Text.utf8 (String.ofList (parts.flatMap fun p => p.1.1 ++ ['\n'])) =
      (parts.map fun p => Text.utf8 (String.ofList p.1.1)).flatMap (· ++ [newline]) := by
    simp only [Text.utf8_ofList, List.flatMap_assoc, List.flatMap_map, List.flatMap_append]
    rfl
  have hflat : ∀ part ∈ parts.map fun p => Text.utf8 (String.ofList p.1.1), newline ∉ part :=
    List.forall_mem_map.mpr fun p hp => newline_not_mem_utf8 (hparts p hp).flat
  have hbyteLines : byteLines
      (Text.utf8 (String.ofList (parts.flatMap fun p => p.1.1 ++ ['\n']))) =
      parts.map fun p => Text.utf8 (String.ofList p.1.1) := by
    rw [byteLines, hbytes, splitOn_flatMap hflat, List.dropLast_concat]
  refine ⟨?_, ?_, ?_, ?_⟩
  · rw [hbytes, getLast?_flatMap (by simpa using hne)]
  · rw [hbytes, count_flatMap hflat, List.length_map, List.length_map]
  · refine ⟨parts.map fun p => p.1.1, ?_, by rw [hbyteLines, List.map_map]; rfl⟩
    rw [List.map_map, List.map_map]
    exact List.map_congr_left fun p hp => (hparts p hp).written
  · have hlist := writes_list hstyle hparts
    refine ⟨parts.map fun p => p.1.2, ?_, hlist.same, fun h => Value.list.inj (hlist.ordered h)⟩
    rw [hbyteLines]
    exact mapM_parse? fun p hp => (hparts p hp).reads

/-- The text of a bulk request with lines. -/
theorem jsonText_bulk {r : Request} (hkind : r.kind = .bulk) (hne : r.lines ≠ []) (style : Style) :
    r.jsonText style = linesText style r.lines := by
  have : r.lines.isEmpty = false := by simpa using hne
  rw [jsonText, hkind, this]
  rfl

end Request

/-! ## The lines of a batch -/

section

variable {resolver : Option Catalogue} {index : Value} {options : Option BulkOptions}
  {queries : List WriteQuery}

theorem length_bulkLines {lines : List Value} (h : bulkLines resolver index queries = .ok lines) :
    lines.length = 2 * queries.length := by
  induction queries generalizing lines with
  | nil =>
    cases h
    rfl
  | cons q qs ih =>
    rw [bulkLines] at h
    obtain ⟨own, hown, h⟩ := bind_eq_ok.mp h
    obtain ⟨rest, hrest, h⟩ := bind_eq_ok.mp h
    cases h
    have htwo : own.length = 2 := by
      cases q with
      | index q =>
        obtain ⟨r, -, h⟩ := bind_eq_ok.mp hown
        cases h
        rfl
      | update q =>
        obtain ⟨r, -, h⟩ := bind_eq_ok.mp hown
        cases h
        rfl
      | foreign v => cases hown
    rw [List.length_append, htwo, ih hrest, List.length_cons]
    omega

end

/-- **Bulk requests are framed.** A batch has two lines for each item. Every bulk request with lines
is sent in both styles as bytes that hold its lines, and the lines are its body. -/
theorem Request.frames_bulk (r : Request) :
    (∀ resolver queries index options, bulkRequest resolver queries index options = .ok r →
      r.lines.length = 2 * queries.length) ∧
    (r.kind = .bulk → r.lines ≠ [] → (∀ line ∈ r.lines, Json.IsJson line) →
      r.body = .list r.lines ∧
      (∃ s, r.json = .ok s ∧ Json.Frames .compact r.lines (Text.utf8 s)) ∧
      (∃ s, r.spacedJson = .ok s ∧ Json.Frames .spaced r.lines (Text.utf8 s))) := by
  constructor
  · intro resolver queries index options h
    exact length_bulkLines (bulkLines_of_bulkRequest h)
  · intro hkind hne hlines
    obtain ⟨compact, hcompact, hframes⟩ := frames_linesText Json.Style.oneLine_compact hne hlines
    obtain ⟨spaced, hspaced, hframes'⟩ := frames_linesText Json.Style.oneLine_spaced hne hlines
    refine ⟨by rw [body, hkind], ⟨_, ?_, hframes⟩, ⟨_, ?_, hframes'⟩⟩
    · rw [json, jsonText_bulk hkind hne, hcompact]
    · rw [spacedJson, jsonText_bulk hkind hne, hspaced]

/-- A document with a line feed in a key and in a text. -/
private def multiline : IndexQuery where
  id := .str "1"
  object := .object [("first\nline", .str "a\r\nb\u2028c")]
  source := .null
  version := .null
  versionType := none
  seqNo := .null
  primaryTerm := .null
  routing := .null
  opType := none
  indexName := .null

theorem Request.frames_bulk_multiline : ∃ r s,
    bulkRequest none [.index multiline] (.str "things") none = .ok r ∧ r.lines.length = 2 ∧
      r.json = .ok s ∧ (Text.utf8 s).count newline = 2 ∧
      (Json.byteLines (Text.utf8 s)).mapM Json.parse? = some r.lines := by
  have hdocument : multiline.document none =
      .ok (.object [("first\nline", .str "a\r\nb\u2028c")], none) := rfl
  have hown : bulkLines none (.str "things") [.index multiline] = .ok [
      .object [("index", .object [("_index", .str "things"), ("_id", .str "1")])],
      .object [("first\nline", .str "a\r\nb\u2028c")]] := by
    rw [bulkLines, WriteQuery.lines, IndexQuery.request, IndexQuery.requestFields, hdocument]
    rfl
  obtain ⟨r, hr⟩ : ∃ r, bulkRequest none [.index multiline] (.str "things") none = .ok r := by
    rw [bulkRequest, hown]
    exact ⟨_, rfl⟩
  obtain ⟨hlength, hframes⟩ := Request.frames_bulk r
  have htwo : r.lines.length = 2 := hlength _ _ _ _ hr
  have hlines := Except.ok.inj ((bulkLines_of_bulkRequest hr).symm.trans hown)
  have hjson : ∀ line ∈ r.lines, Json.IsJson line := by
    rw [hlines]
    simp only [List.forall_mem_cons]
    refine ⟨.object (by decide) ?_, .object (by decide) ?_, List.forall_mem_nil _⟩
    all_goals simp only [List.forall_mem_cons]
    · exact ⟨.object (by decide) (by simp [Json.IsJson.str]), List.forall_mem_nil _⟩
    · exact ⟨.str _, List.forall_mem_nil _⟩
  have hne : r.lines ≠ [] := List.ne_nil_of_length_pos (by omega)
  have hkind : r.kind = .bulk := by
    obtain ⟨_, _, _, _, hmake⟩ := bulkRequest_eq_ok.mp hr
    exact Request.kind_make hmake
  obtain ⟨-, ⟨s, hs, hframes⟩, -⟩ := hframes hkind hne hjson
  obtain ⟨vs, hread, -, hsame⟩ := hframes.values
  exact ⟨r, s, hr, htwo, hs, hframes.count.trans htwo, by rw [hread, hsame rfl]⟩

end SearchWire
