import Mathlib.Data.List.Basic
import SearchWire.Proofs.Clause.WellFormed

/-!
# What query texts say

A query text is read from left to right. A backslash takes the meaning away from the character after
it, an asterisk that stands bare is a wildcard, and every other bare character with a meaning of its
own is an operator. An escaped text is read as its own characters, whatever stands behind it; so a
condition on a part of a text asks for that part and nothing else.

* `QueryText.Token`, `QueryText.tokens`: query texts as they are read.
* `QueryText.tokens_escapeChars`: **an escaped text is read as its characters.**
* `Placement`, `Placement.pattern`: where a text is looked for, and what a query text has to say.
* `Placement.pattern_injective`: different questions say different things.
* `Condition.Seeks.exists_clause`: the query text of a condition.
* `QueryText.tokens_queryText`: **conditions on parts of texts, unescaping and escaping.**
-/

namespace SearchWire

namespace QueryText

/-! ## Reading query texts -/

/-- A character of a query text as it is read. -/
inductive Token where
  | literal (c : Char)
  | wildcard
  | operator (c : Char)
  deriving DecidableEq, Repr

/-- A character with no backslash before it. -/
def bare (c : Char) : Token :=
  if c = '*' then .wildcard else if isSpecial c then .operator c else .literal c

/-- A query text from left to right. -/
def tokens : List Char → List Token
  | '\\' :: c :: cs => .literal c :: tokens cs
  | c :: cs => bare c :: tokens cs
  | [] => []

def Token.char : Token → Char
  | literal c => c
  | wildcard => '*'
  | operator c => c

/-- A query text without the backslashes that take a meaning away. -/
def unescape (s : String) : String := String.ofList ((tokens s.toList).map Token.char)

theorem tokens_bare {c : Char} (h : c ≠ '\\') (cs : List Char) :
    tokens (c :: cs) = bare c :: tokens cs := by
  rw [tokens]
  intro d ds hd
  exact absurd hd h

/-- An escaped character is read as itself: it has a backslash if it has a meaning of its own. -/
theorem tokens_escapeChar (c : Char) (cs : List Char) :
    tokens (escapeChar c ++ cs) = .literal c :: tokens cs := by
  unfold escapeChar
  split
  · rfl
  · next hplain =>
    have hbackslash : c ≠ '\\' := by
      rintro rfl
      exact hplain rfl
    have hstar : c ≠ '*' := by
      rintro rfl
      exact hplain rfl
    rw [List.singleton_append, tokens_bare hbackslash, bare, if_neg hstar, if_neg hplain]

/-- **An escaped text is read as its characters**, whatever stands behind it. -/
theorem tokens_escapeChars (cs rest : List Char) :
    tokens (escapeChars cs ++ rest) = cs.map .literal ++ tokens rest := by
  induction cs with
  | nil => rfl
  | cons c cs ih =>
    have hcons : escapeChars (c :: cs) = escapeChar c ++ escapeChars cs := rfl
    rw [hcons, List.append_assoc, tokens_escapeChar, ih, List.map_cons, List.cons_append]

theorem unescape_escape (s : String) : unescape (escape s) = s := by
  have htokens := tokens_escapeChars s.toList []
  rw [List.append_nil, tokens, List.append_nil] at htokens
  have hchars : (s.toList.map Token.literal).map Token.char = s.toList := by
    rw [List.map_map]
    exact List.map_id s.toList
  rw [unescape, escape, String.toList_ofList, htokens, hchars, String.ofList_toList]

theorem escape_append (s t : String) : escape (s ++ t) = escape s ++ escape t := by
  rw [escape, String.toList_append, escapeChars, List.flatMap_append, String.ofList_append]
  rfl

end QueryText

/-! ## Where a text is looked for -/

open QueryText (Token)

/-- Where in a text another one is looked for. -/
inductive Placement where
  | anywhere
  | start
  | «end»
  deriving DecidableEq, Repr

namespace Placement

def operator : Placement → Operator
  | anywhere => .contains
  | start => .startsWith
  | «end» => .endsWith

/-- The characters that are looked for, and a wildcard on each side that may be anything. -/
def pattern : Placement → List Char → List Token
  | anywhere, cs => .wildcard :: cs.map .literal ++ [.wildcard]
  | start, cs => cs.map .literal ++ [.wildcard]
  | «end», cs => .wildcard :: cs.map .literal

/-- What stands before and after the text in a query text. -/
def before : Placement → List Char
  | start => []
  | anywhere | «end» => ['*']

def after : Placement → List Char
  | «end» => []
  | anywhere | start => ['*']

variable {p q : Placement} {cs ds : List Char}

/-- Asterisks around an escaped text are wildcards, also behind a backslash of the text. -/
theorem tokens_around (p : Placement) (cs : List Char) :
    QueryText.tokens (p.before ++ QueryText.escapeChars cs ++ p.after) = p.pattern cs := by
  have hbare : ∀ rest, QueryText.tokens ('*' :: rest) = .wildcard :: QueryText.tokens rest :=
    QueryText.tokens_bare (by decide)
  have hescaped := QueryText.tokens_escapeChars cs
  cases p with
  | anywhere =>
    rw [before, after, List.append_assoc, List.singleton_append, hbare, hescaped, hbare]
    rfl
  | start =>
    rw [before, after, List.nil_append, hescaped, hbare]
    rfl
  | «end» =>
    rw [before, after, List.append_assoc, List.singleton_append, hbare, hescaped]
    exact congrArg _ (List.append_nil _)

theorem operator_not_mem_pattern (p : Placement) (cs : List Char) (c : Char) :
    .operator c ∉ p.pattern cs := by
  cases p <;> simp [pattern]

theorem literals_injective (h : cs.map Token.literal = ds.map .literal) : cs = ds :=
  List.map_injective_iff.2 (fun _ _ hc => Token.literal.inj hc) h

/-- Characters are no wildcard. -/
theorem wildcard_not_mem_literals (cs : List Char) : .wildcard ∉ cs.map Token.literal := by
  simp

/-- What starts with a character does not start with a wildcard. -/
theorem literals_append_ne (hcs : cs ≠ []) (rest tokens : List Token) :
    cs.map .literal ++ rest ≠ .wildcard :: tokens := by
  obtain ⟨c, cs, rfl⟩ := List.exists_cons_of_ne_nil hcs
  nofun

/-- **Different questions say different things**, if a character at least is looked for. -/
theorem pattern_injective (hcs : cs ≠ []) (hds : ds ≠ []) (h : p.pattern cs = q.pattern ds) :
    p = q ∧ cs = ds := by
  cases p with
  | anywhere =>
    cases q with
    | anywhere => exact ⟨rfl, literals_injective (List.append_cancel_right (List.cons.inj h).2)⟩
    | start => exact absurd h.symm (literals_append_ne hds _ _)
    | «end» =>
      -- the wildcard behind the text would be one of its characters
      have htail := (List.cons.inj h).2
      exact absurd (htail ▸ List.mem_append_right _ List.mem_cons_self)
        (wildcard_not_mem_literals ds)
  | start =>
    cases q with
    | anywhere => exact absurd h (literals_append_ne hcs _ _)
    | start => exact ⟨rfl, literals_injective (List.append_cancel_right h)⟩
    | «end» => exact absurd h (literals_append_ne hcs _ _)
  | «end» =>
    cases q with
    | anywhere =>
      have htail := (List.cons.inj h).2
      exact absurd (htail ▸ List.mem_append_right _ List.mem_cons_self)
        (wildcard_not_mem_literals cs)
    | start => exact absurd h.symm (literals_append_ne hds _ _)
    | «end» => exact ⟨rfl, literals_injective (List.cons.inj h).2⟩

end Placement

/-! ## Conditions on parts of texts -/

/-- The query text of a clause that has one. -/
def Clause.queryText? : Clause → Option (List Char)
  | .atom "query_string" body => ((body.get? "query").bind Value.text?).map String.toList
  | _ => none

namespace Condition

/-- A condition that looks for a text at a place; if it has a weight, then a number. -/
structure Seeks (c : Condition) (p : Placement) (s : String) : Prop where
  operator : c.operator = .known p.operator
  value : c.value = .str s
  weight : ∃ w, c.weight = .ok w

variable {c : Condition} {p : Placement} {s : String} {rename : String → String} {clause : Clause}

/-- A value that is looked for as a text is escaped. -/
theorem wildcardText_eq {cs : List Char} {w : Double} (hvalue : QueryText.ofValue c.value = .ok cs)
    (hweight : c.weight = .ok w) (field : String) (before after : List Char) :
    ∃ clause, c.wildcardText field before after = .ok clause ∧
      clause.queryText? = some (before ++ QueryText.escapeChars cs ++ after) := by
  have htext : (String.ofList (before ++ QueryText.escapeChars cs ++ after)).toList =
      before ++ QueryText.escapeChars cs ++ after := String.toList_ofList
  have hfield : c.weightedField field = .ok (.str (field ++ "^" ++ String.ofList w.text)) :=
    bind_eq_ok.2 ⟨w, hweight, rfl⟩
  exact ⟨_, bind_eq_ok.2 ⟨cs, hvalue, bind_eq_ok.2 ⟨_, hfield, rfl⟩⟩, congrArg some htext⟩

/-- The query text asks for the text that is looked for, at its place. -/
theorem Seeks.exists_clause (h : c.Seeks p s) (rename : String → String) :
    ∃ clause text, c.clause rename = .ok clause ∧ clause.queryText? = some text ∧
      QueryText.tokens text = p.pattern s.toList := by
  have hvalue : QueryText.ofValue c.value = .ok s.toList := by
    rw [h.value]
    rfl
  have haccepts : p.operator.Accepts c.value := by
    rw [h.value]
    cases p <;> nofun
  have hclause : c.clause rename = c.wildcardText (rename c.field) p.before p.after := by
    rw [clause_known h.operator haccepts]
    cases p <;> rfl
  obtain ⟨w, hweight⟩ := h.weight
  obtain ⟨clause, hok, htext⟩ := wildcardText_eq hvalue hweight (rename c.field) p.before p.after
  exact ⟨clause, _, hclause.trans hok, htext, p.tokens_around s.toList⟩

/-- The pattern of a place is what the clause of the condition says, whichever clause it is. -/
theorem Seeks.eq_pattern (h : c.Seeks p s) (hclause : c.clause rename = .ok clause) :
    ∃ text, clause.queryText? = some text ∧ QueryText.tokens text = p.pattern s.toList := by
  obtain ⟨clause', text, hok, htext, htokens⟩ := h.exists_clause rename
  cases hok.symm.trans hclause
  exact ⟨text, htext, htokens⟩

/-- Conditions with one query text look for the same text at the same place. -/
theorem Seeks.eq_of_queryText {d : Condition} {q : Placement} {t : String}
    {rename' : String → String} {clause' : Clause} (hc : c.Seeks p s) (hd : d.Seeks q t)
    (hs : s ≠ "") (ht : t ≠ "") (hclause : c.clause rename = .ok clause)
    (hclause' : d.clause rename' = .ok clause') (h : clause.queryText? = clause'.queryText?) :
    p = q ∧ s = t := by
  obtain ⟨text, htext, htokens⟩ := hc.eq_pattern hclause
  obtain ⟨text', htext', htokens'⟩ := hd.eq_pattern hclause'
  have hsame : text = text' := Option.some.inj ((htext.symm.trans h).trans htext')
  have hpattern : p.pattern s.toList = q.pattern t.toList := by rw [← htokens, hsame, htokens']
  have hne : ∀ {u : String}, u ≠ "" → u.toList ≠ [] := fun hu hnil =>
    hu (String.toList_eq_nil_iff.1 hnil)
  obtain ⟨hplace, hchars⟩ := Placement.pattern_injective (hne hs) (hne ht) hpattern
  exact ⟨hplace, String.toList_inj.1 hchars⟩

end Condition

namespace QueryText

/-- **Texts are looked for as they are.** The query text of a condition on a part of a text is read
as the characters of the part with wildcards where the rest of the text is, and no operator is read
in it. So escaping can be undone and goes part by part, and two conditions on parts that are not
empty have one query text only if they look for the same at the same place. -/
theorem tokens_queryText :
    (∀ c p s rename, Condition.Seeks c p s → ∃ clause text, c.clause rename = .ok clause ∧
      clause.queryText? = some text ∧ tokens text = p.pattern s.toList ∧
      ∀ o, .operator o ∉ tokens text) ∧
    (∀ s, unescape (escape s) = s) ∧
    (∀ s t, escape (s ++ t) = escape s ++ escape t) ∧
    ∀ c d p q s t rename rename' clause clause', Condition.Seeks c p s → Condition.Seeks d q t →
      s ≠ "" → t ≠ "" → c.clause rename = .ok clause → d.clause rename' = .ok clause' →
      clause.queryText? = clause'.queryText? → p.operator = q.operator ∧ c.value = d.value := by
  refine ⟨?_, unescape_escape, escape_append, ?_⟩
  · intro c p s rename h
    obtain ⟨clause, text, hclause, htext, htokens⟩ := h.exists_clause rename
    refine ⟨clause, text, hclause, htext, htokens, fun o => ?_⟩
    rw [htokens]
    exact p.operator_not_mem_pattern s.toList o
  · intro c d p q s t rename rename' clause clause' hc hd hs ht hclause hclause' h
    obtain ⟨rfl, rfl⟩ := hc.eq_of_queryText hd hs ht hclause hclause' h
    exact ⟨rfl, hc.value.trans hd.value.symm⟩

/-- A path that ends in a backslash, before which an asterisk stands. -/
private def path (boost : Value) : Condition := ⟨"path", .known .startsWith, .str "a*\\", boost⟩

theorem tokens_queryText_backslash :
    ∃ clause clause', (path .null).clause id = .ok clause ∧
      (path (.int 2)).clause id = .ok clause' ∧
      clause.queryText? = some "a\\*\\\\*".toList ∧
      clause'.queryText? = some "a\\*\\\\*".toList ∧
      tokens "a\\*\\\\*".toList = [.literal 'a', .literal '*', .literal '\\', .wildcard] ∧
      (path .null).value = (path (.int 2)).value := by
  obtain ⟨hreading, -, -, hinjective⟩ := tokens_queryText
  have hplain : (path .null).Seeks .start "a*\\" := ⟨rfl, rfl, _, rfl⟩
  have hweighted : (path (.int 2)).Seeks .start "a*\\" := ⟨rfl, rfl, _, rfl⟩
  obtain ⟨clause, text, hclause, htext, htokens, -⟩ := hreading _ _ _ id hplain
  obtain ⟨clause', hclause'⟩ : ∃ clause', (path (.int 2)).clause id = .ok clause' := ⟨_, rfl⟩
  have hwritten : clause.queryText? = some "a\\*\\\\*".toList := by
    cases hclause
    rfl
  have hwritten' : clause'.queryText? = some "a\\*\\\\*".toList := by
    cases hclause'
    rfl
  have hread : text = "a\\*\\\\*".toList := Option.some.inj (htext.symm.trans hwritten)
  exact ⟨clause, clause', hclause, hclause', hwritten, hwritten', hread ▸ htokens,
    (hinjective _ _ _ _ _ _ id id _ _ hplain hweighted (by decide) (by decide) hclause hclause'
      (hwritten.trans hwritten'.symm)).2⟩

end QueryText

end SearchWire
