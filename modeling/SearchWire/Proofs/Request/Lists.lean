import Mathlib.Data.List.Forall2
import SearchWire.Proofs.Admin.Aliases
import SearchWire.Proofs.Search.Options

/-!
# Lists that are translated entry by entry

The engine goes through alias actions, sort orders, rescorers and the functions of a function score
in their order. Each of them has one entry in the array of its request or clause, at its own place,
and the entry is the same whatever stands before and after it. So lists may be put together before
or after they are translated.

* `EntryByEntry`: what it is for a builder to translate a list entry by entry.
* `EntryByEntry.of_mapM`: **a builder that does something for each descriptor does so.**
* `AliasAction.parts`, `Rescorer.queryParts`, `ScoreFunction.parts`: the parts of entries, and when
  they are there.
* `AliasAction.IsEntry`, `Rescorer.IsEntry`, `ScoreFunction.IsEntry`: the entries.
* `AliasAction.isEntry_iff`, `Rescorer.isEntry_iff`, `ScoreFunction.isEntry_iff`: these are the ones
  that are made.
* `entryByEntry_listFields`: **lists among the fields of a search request.**
* `lists_entry_by_entry`: **all four kinds of lists.**
-/

namespace SearchWire

open Fields (present)

/-! ## Translating a list -/

section Translating

variable {α β ε : Type} {g : α → Except ε β} {xs ys : List α} {bs : List β}

/-- Items are translated one by one. -/
theorem mapM_eq_ok_iff : xs.mapM g = .ok bs ↔ List.Forall₂ (fun x b => g x = .ok b) xs bs := by
  induction xs generalizing bs with
  | nil =>
    rw [List.forall₂_nil_left_iff]
    exact ⟨fun h => by cases h; rfl, fun h => by rw [h]; rfl⟩
  | cons x xs ih =>
    rw [List.mapM_cons, bind_eq_ok, List.forall₂_cons_left_iff]
    constructor
    · rintro ⟨b, hb, h⟩
      obtain ⟨rest, hrest, h⟩ := bind_eq_ok.1 h
      cases h
      exact ⟨b, rest, hb, ih.1 hrest, rfl⟩
    · rintro ⟨b, rest, hb, hrest, rfl⟩
      exact ⟨b, hb, bind_eq_ok.2 ⟨rest, ih.2 hrest, rfl⟩⟩

/-- Items one after the other. -/
theorem mapM_append_eq_ok : (xs ++ ys).mapM g = .ok bs ↔
    ∃ as cs, xs.mapM g = .ok as ∧ ys.mapM g = .ok cs ∧ bs = as ++ cs := by
  rw [List.mapM_append, bind_eq_ok]
  constructor
  · rintro ⟨as, has, h⟩
    obtain ⟨cs, hcs, h⟩ := bind_eq_ok.1 h
    cases h
    exact ⟨as, cs, has, hcs, rfl⟩
  · rintro ⟨as, cs, has, hcs, rfl⟩
    exact ⟨as, has, bind_eq_ok.2 ⟨cs, hcs, rfl⟩⟩

end Translating

/-- What stands for a list: the list, unless an empty one is left out. -/
def listPart (named : Bool) (es : List Value) : Option Value :=
  if es.isEmpty && !named then none else some (.list es)

/-- A builder translates a list of descriptors one by one and shows the entries in an array. -/
structure EntryByEntry {α β : Type} (build : List α → Except Failure β)
    (array : β → Option Value) (named : Bool) (IsEntry : α → Value → Prop) : Prop where
  /-- Nothing but the descriptors themselves matters besides what has to be right anyway. -/
  succeeds : ∀ xs, (∃ b, build xs = .ok b) ↔
    (∃ b, build [] = .ok b) ∧ ∀ x ∈ xs, ∃ e, IsEntry x e
  /-- Each descriptor has one entry, at its place, the same that it has in a list of its own. -/
  entries : ∀ xs b, build xs = .ok b → ∃ es, array b = listPart named es ∧
    List.Forall₂ (fun x e => IsEntry x e ∧
      ∃ b', build [x] = .ok b' ∧ array b' = some (.list [e])) xs es
  /-- The entries for two lists are those for the one and then those for the other. -/
  append : ∀ xs ys b, build (xs ++ ys) = .ok b → ∃ c d es fs, build xs = .ok c ∧
    build ys = .ok d ∧ array c = listPart named es ∧ array d = listPart named fs ∧
      array b = listPart named (es ++ fs)

/-- **A builder works entry by entry** if it succeeds when everything else is right and each
descriptor is translated, and shows what they are translated to. -/
theorem EntryByEntry.of_mapM {α β γ : Type} {build : List α → Except Failure β}
    {array : β → Option Value} {named : Bool} {IsEntry : α → Value → Prop} {Rest : Prop}
    {entry : α → Except Failure γ} (shown : γ → Value)
    (hbuild : ∀ xs, (∃ b, build xs = .ok b) ↔ Rest ∧ ∃ es, xs.mapM entry = .ok es)
    (harray : ∀ xs b es, build xs = .ok b → xs.mapM entry = .ok es →
      array b = listPart named (es.map shown))
    (hentry : ∀ x e, IsEntry x e ↔ ∃ v, entry x = .ok v ∧ shown v = e) :
    EntryByEntry build array named IsEntry where
  succeeds xs := by
    have hempty : (∃ b, build [] = .ok b) ↔ Rest :=
      (hbuild []).trans ⟨And.left, fun hrest => ⟨hrest, [], rfl⟩⟩
    rw [hbuild, hempty, exists_mapM_iff]
    refine and_congr_right fun _ => forall₂_congr fun x _ => ?_
    constructor
    · rintro ⟨v, hv⟩
      exact ⟨shown v, (hentry x _).2 ⟨v, hv, rfl⟩⟩
    · rintro ⟨e, he⟩
      obtain ⟨v, hv, -⟩ := (hentry x e).1 he
      exact ⟨v, hv⟩
  entries xs b h := by
    obtain ⟨hrest, es, hes⟩ := (hbuild xs).1 ⟨b, h⟩
    refine ⟨es.map shown, harray xs b es h hes, ?_⟩
    rw [List.forall₂_map_right_iff]
    refine (mapM_eq_ok_iff.1 hes).imp fun x e he => ⟨(hentry x _).2 ⟨e, he, rfl⟩, ?_⟩
    have hsingle : [x].mapM entry = .ok [e] := mapM_eq_ok_iff.2 (.cons he .nil)
    obtain ⟨b', hb'⟩ := (hbuild [x]).2 ⟨hrest, [e], hsingle⟩
    exact ⟨b', hb', harray [x] b' [e] hb' hsingle⟩
  append xs ys b h := by
    obtain ⟨hrest, all, hall⟩ := (hbuild _).1 ⟨b, h⟩
    obtain ⟨es, fs, hes, hfs, rfl⟩ := mapM_append_eq_ok.1 hall
    obtain ⟨c, hc⟩ := (hbuild xs).2 ⟨hrest, es, hes⟩
    obtain ⟨d, hd⟩ := (hbuild ys).2 ⟨hrest, fs, hfs⟩
    refine ⟨c, d, es.map shown, fs.map shown, hc, hd, harray xs c es hc hes,
      harray ys d fs hd hfs, ?_⟩
    rw [harray _ b _ h hall, List.map_append]

/-- Fields in wire form. -/
def wired (fs : List (String × Option Value)) : List (String × Option Value) :=
  fs.map fun f => (f.1, f.2.map Value.wireForm)

/-! ## Alias actions -/

namespace AliasAction

/-- A list of names, unless it is empty. -/
def namesPart (names : List String) : Option Value :=
  if names.isEmpty then none else some (.ofTexts names)

/-- What an action holds under its key: to remove indices only these, and else the indices and the
aliases that there are, the filter, about the domain type of its own, and the options. -/
def parts (resolver : Option Catalogue) (a : AliasAction) :
    Except Failure (List (String × Option Value)) :=
  match a.kind with
  | .removeIndex => .ok [("indices", some (.ofTexts a.parameters.indices))]
  | _ => (a.parameters.filterClause resolver).map fun clause =>
    [("indices", namesPart a.parameters.indices), ("aliases", namesPart a.parameters.aliases)] ++
      a.parameters.parts (clause.map Clause.toValue)

theorem names_eq (p : AliasParameters) : p.names =
    present [("indices", namesPart p.indices), ("aliases", namesPart p.aliases)] := by
  rw [AliasParameters.names, AliasParameters.namesField, AliasParameters.namesField, namesPart,
    namesPart]
  cases p.indices.isEmpty <;> cases p.aliases.isEmpty <;> rfl

theorem entry_eq (resolver : Option Catalogue) (a : AliasAction) :
    a.entry resolver = (a.parts resolver).map fun parts =>
      .object [(a.kind.text, .object (present parts))] := by
  have hlisted : ∀ p : AliasParameters,
      (p.body resolver >>= fun fs => .ok (Value.object (p.names ++ fs))) =
        ((p.filterClause resolver).map fun clause =>
          [("indices", namesPart p.indices), ("aliases", namesPart p.aliases)] ++
            p.parts (clause.map Clause.toValue)).map fun parts => .object (present parts) := by
    intro p
    rw [p.body_eq, names_eq]
    cases p.filterClause resolver with
    | error e => rfl
    | ok clause => exact congrArg (fun fs => Except.ok (Value.object fs)) Fields.present_append.symm
  have hbody : a.body resolver = (a.parts resolver).map fun parts => .object (present parts) := by
    obtain ⟨kind, p⟩ := a
    cases kind with
    | add => exact hlisted p
    | remove => exact hlisted p
    | removeIndex => rfl
  rw [entry, hbody]
  cases a.parts resolver <;> rfl

/-- The entry of an action has one key, that of the action. -/
def IsEntry (resolver : Option Catalogue) (a : AliasAction) (e : Value) : Prop :=
  ∃ parts, a.parts resolver = .ok parts ∧
    e = .object [(a.kind.text, .object (present (wired parts)))]

theorem isEntry_iff (resolver : Option Catalogue) (a : AliasAction) (e : Value) :
    a.IsEntry resolver e ↔ ∃ v, a.entry resolver = .ok v ∧ v.wireForm = e := by
  have hwire : ∀ parts, (Value.object [(a.kind.text, .object (present parts))]).wireForm =
      .object [(a.kind.text, .object (present (wired parts)))] := by
    intro parts
    rw [Value.wireForm_object, List.map_singleton, Fields.wireForm_present]
    rfl
  simp only [IsEntry, entry_eq, map_eq_ok, ← hwire]
  constructor
  · rintro ⟨parts, hparts, rfl⟩
    exact ⟨_, ⟨parts, hparts, rfl⟩, rfl⟩
  · rintro ⟨v, ⟨parts, hparts, rfl⟩, rfl⟩
    exact ⟨parts, hparts, rfl⟩

end AliasAction

/-! ## Rescorers -/

namespace Rescorer

/-- The parts of the query of a second scoring; the usual way to put scores together is not one. -/
def queryParts (r : Rescorer Query) (clause : Value) : List (String × Option Value) :=
  [("rescore_query", some clause), ("query_weight", r.queryWeight.present?),
    ("rescore_query_weight", r.rescoreQueryWeight.present?),
    ("score_mode", if r.mode = .default then none else some (.str r.mode.text))]

theorem modeField_eq (r : Rescorer Query) :
    (if r.mode = .default then [] else [("score_mode", Value.str r.mode.text)]) =
      present [("score_mode", if r.mode = .default then none else some (.str r.mode.text))] := by
  split <;> rfl

theorem entry_eq (rename : String → String) (r : Rescorer Query) :
    r.entry rename = (r.query.clause rename).map fun clause =>
      .object (present [("window_size", r.windowSize.present?),
        ("query", some (.object (present (r.queryParts clause.toValue))))]) := by
  rw [entry, modeField_eq, Fields.given_eq_present, Fields.given_eq_present]
  cases r.query.clause rename with
  | error e => rfl
  | ok clause =>
    have hquery : [("rescore_query", clause.toValue)] ++
        present [("query_weight", r.queryWeight.present?),
          ("rescore_query_weight", r.rescoreQueryWeight.present?)] ++
        present [("score_mode", if r.mode = .default then none else some (.str r.mode.text))] =
          present (r.queryParts clause.toValue) := by
      change present [("rescore_query", some clause.toValue)] ++ _ ++ _ = _
      rw [← Fields.present_append, ← Fields.present_append]
      rfl
    simp only [Except.map, bind, Except.bind, List.map_cons, List.map_nil, hquery]
    change Except.ok (Value.object (_ ++ present [("query", some (.object _))])) = _
    rw [← Fields.present_append]
    rfl

/-- The entry of a rescorer has its window, if that is set, and the parts of its query. -/
def IsEntry (rename : String → String) (r : Rescorer Query) (e : Value) : Prop :=
  ∃ clause, r.query.clause rename = .ok clause ∧
    e = .object (present [("window_size", r.windowSize.present?.map Value.wireForm),
      ("query", some (.object (present (wired (r.queryParts clause.toValue)))))])

theorem isEntry_iff (rename : String → String) (r : Rescorer Query) (e : Value) :
    r.IsEntry rename e ↔ ∃ v, r.entry rename = .ok v ∧ v.wireForm = e := by
  have hwire : ∀ clause, (Value.object (present [("window_size", r.windowSize.present?),
      ("query", some (.object (present (r.queryParts clause))))])).wireForm =
        .object (present [("window_size", r.windowSize.present?.map Value.wireForm),
          ("query", some (.object (present (wired (r.queryParts clause)))))]) := by
    intro clause
    rw [Fields.wireForm_present, List.map_cons, List.map_singleton, Option.map_some,
      Fields.wireForm_present]
    rfl
  simp only [IsEntry, entry_eq, map_eq_ok, ← hwire]
  constructor
  · rintro ⟨clause, hclause, rfl⟩
    exact ⟨_, ⟨clause, hclause, rfl⟩, rfl⟩
  · rintro ⟨v, ⟨clause, hclause, rfl⟩, rfl⟩
    exact ⟨clause, hclause, rfl⟩

end Rescorer

/-! ## Functions of a function score -/

namespace ScoreFunction

/-- The filter, the weight and the decay of a function, those that it has. -/
def parts (f : ScoreFunction ClauseSource) (filter decay : Option Value) :
    List (String × Option Value) :=
  [("filter", filter), ("weight", f.weight.present?),
    ((f.decay.map Decay.kind).getD "decay", decay)]

/-- The entry of a function has what the function has. -/
def IsEntry (rename : String → String) (f : ScoreFunction ClauseSource) (e : Value) : Prop :=
  ∃ filter decay, f.filter.mapM (ClauseSource.compile rename) = .ok filter ∧
    f.decay.mapM (Decay.body rename) = .ok decay ∧
      e = .object (present (f.parts (filter.map Clause.toValue) decay))

theorem filterFields_eq (rename : String → String) (filter : Option ClauseSource) :
    ClauseSource.filterFields rename filter =
      (filter.mapM (ClauseSource.compile rename)).map fun clause =>
        present [("filter", clause.map Clause.toValue)] := by
  cases filter with
  | none => rw [ClauseSource.filterFields]; rfl
  | some source =>
    rw [ClauseSource.filterFields, option_mapM_some]
    cases source.compile rename <;> rfl

theorem entry_eq (rename : String → String) (f : ScoreFunction ClauseSource) :
    ClauseSource.functionEntry rename f =
      f.filter.mapM (ClauseSource.compile rename) >>= fun filter =>
        (f.decay.mapM (Decay.body rename)).map fun decay =>
          .object (present (f.parts (filter.map Clause.toValue) decay)) := by
  obtain ⟨filter, weight, decay⟩ := f
  have hweight : Fields.given [("weight", weight)] = present [("weight", weight.present?)] :=
    Fields.given_eq_present _
  have hparts : ∀ clause key body, present [("filter", clause)] ++
      present [("weight", weight.present?)] ++ present [(key, body)] =
        present [("filter", clause), ("weight", weight.present?), (key, body)] := by
    intro clause key body
    rw [← Fields.present_append, ← Fields.present_append]
    rfl
  rw [ClauseSource.functionEntry, filterFields_eq, hweight]
  cases filter.mapM (ClauseSource.compile rename) with
  | error e => rfl
  | ok clause =>
    cases decay with
    | none => exact congrArg (fun fs => Except.ok (Value.object fs)) (hparts _ "decay" none)
    | some d =>
      dsimp only
      rw [option_mapM_some]
      cases d.body rename with
      | error e => rfl
      | ok body =>
        exact congrArg (fun fs => Except.ok (Value.object fs)) (hparts _ d.kind (some body))

theorem isEntry_iff (rename : String → String) (f : ScoreFunction ClauseSource) (e : Value) :
    f.IsEntry rename e ↔ ∃ v, ClauseSource.functionEntry rename f = .ok v ∧ id v = e := by
  simp only [IsEntry, entry_eq, bind_eq_ok, map_eq_ok, id]
  constructor
  · rintro ⟨filter, decay, hfilter, hdecay, rfl⟩
    exact ⟨_, ⟨filter, hfilter, decay, hdecay, rfl⟩, rfl⟩
  · rintro ⟨v, ⟨filter, hfilter, decay, hdecay, rfl⟩, rfl⟩
    exact ⟨filter, decay, hfilter, hdecay, rfl⟩

end ScoreFunction

theorem functionEntries_eq_mapM (rename : String → String)
    (functions : List (ScoreFunction ClauseSource)) :
    ClauseSource.functionEntries rename functions =
      functions.mapM (ClauseSource.functionEntry rename) := by
  induction functions with
  | nil => rw [ClauseSource.functionEntries]; rfl
  | cons f fs ih =>
    rw [ClauseSource.functionEntries, ih, List.mapM_cons]
    rfl

/-! ## Builders -/

/-- A request shows a list of objects with these in wire form. -/
theorem Request.part?_list {kind : RequestKind} {fields : Fields} {r : Request} {p : Property}
    {name : String} {es : List Value} (hkind : kind.hasOwnBody = false) (hp : p ∈ kind.properties)
    (hparam : kind.paramKeys.contains p.wire = false) (hkeys : p.keys = [name])
    (hget : fields.get? name = some (.list es)) (hadmits : p.shape.Admits (.list es))
    (h : make kind fields = .ok r) :
    r.body.part? [.name p.wire] = some (.list (es.map Value.wireForm)) := by
  obtain ⟨a, ha, hvalue⟩ : ∃ a, check ⟨[kind.model], []⟩ (.list es) p.shape = .ok a ∧
      a.value = .list es := check_of_admits hadmits
  have hwhole : a.value.part? [] = some (.list es) := by
    rw [hvalue]
    rfl
  rw [part?_body_of_get? hkind hp hparam hkeys hget ha (by rw [hvalue]; rfl) h hwhole,
    Value.wireForm, Value.wireForms_eq_map]

/-- **Alias actions** are translated entry by entry. -/
theorem entryByEntry_aliasRequest (resolver : Option Catalogue) :
    EntryByEntry (aliasRequest resolver) (fun r => r.body.part? [.name "actions"]) true
      (AliasAction.IsEntry resolver) := by
  have hadmits : ∀ {actions : List AliasAction} {es},
      actions.mapM (AliasAction.entry resolver) = .ok es →
        RequestKind.objects.Admits (.list es) := by
    intro actions es hes
    refine .list fun e he => admits_object.2 ?_
    obtain ⟨a, -, ha⟩ := exists_of_mem_mapM hes he
    obtain ⟨body, -, h⟩ := bind_eq_ok.1 ha
    cases h
    exact Value.isObject_singleton _ _
  have hrequired : RequestKind.aliasActions.required = ["actions"] := rfl
  have hbuild : ∀ actions : List AliasAction, (∃ r, aliasRequest resolver actions = .ok r) ↔
      True ∧ ∃ es, actions.mapM (AliasAction.entry resolver) = .ok es := by
    intro actions
    rw [true_and]
    constructor
    · rintro ⟨r, h⟩
      obtain ⟨es, hes, -⟩ := bind_eq_ok.1 h
      exact ⟨es, hes⟩
    · rintro ⟨es, hes⟩
      have hsuited : Request.Suited .aliasActions [("actions", .list es)] :=
        ⟨List.forall_mem_singleton.2 (.of rfl (.of_admits (hadmits hes))),
          by simp [hrequired, Fields.names]⟩
      obtain ⟨r, hr⟩ := Request.exists_make hsuited
      exact ⟨r, bind_eq_ok.2 ⟨es, hes, hr⟩⟩
  refine .of_mapM Value.wireForm hbuild ?_ (AliasAction.isEntry_iff resolver)
  intro actions r es h hes
  obtain ⟨es', hes', hmake⟩ := bind_eq_ok.1 h
  cases hes.symm.trans hes'
  have hpart := Request.part?_list (p := .required "actions" RequestKind.objects) rfl
    (by simp [RequestKind.properties]) rfl rfl rfl (hadmits hes) hmake
  rw [listPart, Bool.not_true, Bool.and_false]
  exact hpart

/-! ## Lists in search requests -/

section Search

variable {name : String} {front back : Fields} {es : List Value}
  (hmem : .optional name RequestKind.objects ∈ RequestKind.search.properties)
  (hnew : name ∉ Fields.names (front ++ back)) (hes : ∀ e ∈ es, e.IsObject)
include hmem hnew hes

/-- A list of objects does not matter to whether the request is made. -/
theorem exists_make_listFields :
    (∃ r, Request.make .search (front ++ (Query.listFields name es ++ back)) = .ok r) ↔
      ∃ r, Request.make .search (front ++ back) = .ok r := by
  have hproperty := Request.eq_optional_or hmem
  unfold Query.listFields
  split
  · rw [List.nil_append]
  · -- the list is one field more, which only its own property looks for
    constructor
    · rintro ⟨r, h⟩
      obtain ⟨r', h', -⟩ := Request.make_without hproperty hnew h
      exact ⟨r', h'⟩
    · rintro ⟨r, h⟩
      have hfront : name ∉ front.names := by
        rw [Fields.names_append, List.mem_append, not_or] at hnew
        exact hnew.1
      have hadmits : (Shape.optional RequestKind.objects).Admits (.list es) :=
        .given (.list fun e he => admits_object.2 (hes e he))
      obtain ⟨a, ha⟩ := Shape.Takes.of_admits hadmits ⟨[RequestKind.search.model], []⟩
      exact Request.make_with hproperty hfront ⟨a, ha⟩ h

/-- The request shows the list, unless it is empty. -/
theorem part?_listFields
    (hparam : RequestKind.search.paramKeys.contains name = false) {r : Request}
    (h : Request.make .search (front ++ (Query.listFields name es ++ back)) = .ok r) :
    r.body.part? [.name name] = listPart false (es.map Value.wireForm) := by
  cases es with
  | nil =>
    have hmake : Request.make .search (front ++ back) = .ok r := h
    have hmissing := Request.field_missing hmem hnew hmake
    have hpart : r.body.part? [.name name] = (r.field name).present?.map Value.wireForm :=
      Request.part?_body_eq (p := .optional name RequestKind.objects) rfl hmem hparam hmake
    rw [hpart, hmissing]
    rfl
  | cons e es =>
    have hget : (front ++ (name, .list (e :: es)) :: back).get? name = some (.list (e :: es)) := by
      rw [Fields.names_append, List.mem_append, not_or] at hnew
      exact Fields.get?_new hnew.1
    exact Request.part?_list (p := .optional name RequestKind.objects) rfl hmem hparam rfl hget
      (.given (.list fun e he => admits_object.2 (hes e he))) h

end Search

/-- A search request works entry by entry on a list that is one of its fields, if the others do not
depend on the list. -/
theorem entryByEntry_listFields {α : Type} {name : String} {Others : Fields → Fields → Prop}
    {build : List α → Except Failure Request} {entry : α → Except Failure Value}
    {IsEntry : α → Value → Prop}
    (hmem : .optional name RequestKind.objects ∈ RequestKind.search.properties)
    (hparam : RequestKind.search.paramKeys.contains name = false)
    (hnew : ∀ front back, Others front back → name ∉ Fields.names (front ++ back))
    (hbuild : ∀ xs r, build xs = .ok r ↔ ∃ front back es, Others front back ∧
      xs.mapM entry = .ok es ∧
        Request.make .search (front ++ (Query.listFields name es ++ back)) = .ok r)
    (hobject : ∀ x v, entry x = .ok v → v.IsObject)
    (hentry : ∀ x e, IsEntry x e ↔ ∃ v, entry x = .ok v ∧ v.wireForm = e) :
    EntryByEntry build (fun r => r.body.part? [.name name]) false IsEntry := by
  have hobjects : ∀ {xs : List α} {es}, xs.mapM entry = .ok es → ∀ e ∈ es, e.IsObject := by
    intro xs es hes e he
    obtain ⟨x, -, hx⟩ := exists_of_mem_mapM hes he
    exact hobject x e hx
  have hbuild' : ∀ xs, (∃ r, build xs = .ok r) ↔
      (∃ front back, Others front back ∧ ∃ r, Request.make .search (front ++ back) = .ok r) ∧
        ∃ es, xs.mapM entry = .ok es := by
    intro xs
    constructor
    · rintro ⟨r, h⟩
      obtain ⟨front, back, es, hothers, hes, hmake⟩ := (hbuild xs r).1 h
      exact ⟨⟨front, back, hothers,
        (exists_make_listFields hmem (hnew _ _ hothers) (hobjects hes)).1 ⟨r, hmake⟩⟩, es, hes⟩
    · rintro ⟨⟨front, back, hothers, hmake⟩, es, hes⟩
      obtain ⟨r, hr⟩ :=
        (exists_make_listFields hmem (hnew _ _ hothers) (hobjects hes)).2 hmake
      exact ⟨r, (hbuild xs r).2 ⟨front, back, es, hothers, hes, hr⟩⟩
  refine .of_mapM Value.wireForm hbuild' ?_ hentry
  intro xs r es h hes
  obtain ⟨front, back, es', hothers, hes', hmake⟩ := (hbuild xs r).1 h
  cases hes.symm.trans hes'
  exact part?_listFields hmem (hnew _ _ hothers) (hobjects hes) hparam hmake

namespace Query

variable (settings : Settings) (domain : Option Domain) (q : Query) (index : IndexCoordinates)

/-- The fields of a search request before and after its sort orders. -/
def AroundSort (front back : Fields) : Prop :=
  ∃ clause rescore timeout searchAfter, q.mainClause (fieldName domain) = .ok clause ∧
    q.rescorers.mapM (Rescorer.entry (fieldName domain)) = .ok rescore ∧
    timeField "timeout" q.timeout = .ok timeout ∧ q.searchAfterFields = .ok searchAfter ∧
    front = leading settings q index clause ++ concurrencyFields domain ∧
    back = listFields "rescore" rescore ++ remaining (fieldName domain) q timeout searchAfter

/-- The fields of a search request before and after its rescorers. -/
def AroundRescore (front back : Fields) : Prop :=
  ∃ clause sort timeout searchAfter, q.mainClause (fieldName domain) = .ok clause ∧
    SortOrder.entries domain q.sort = .ok sort ∧
    timeField "timeout" q.timeout = .ok timeout ∧ q.searchAfterFields = .ok searchAfter ∧
    front = leading settings q index clause ++ concurrencyFields domain ++ listFields "sort" sort ∧
    back = remaining (fieldName domain) q timeout searchAfter

theorem not_mem_concurrencyFields {m : String} (h : m ≠ mark) :
    m ∉ Fields.names (concurrencyFields domain) := by
  rcases concurrencyFields_cases domain with hnone | hsome
  · simp [hnone, Fields.names]
  · simp [hsome, Fields.names, h]

/-- **Sort orders** are translated entry by entry. -/
theorem entryByEntry_sort :
    EntryByEntry
      (fun orders => ({ q with sort := orders } : Query).searchRequest settings domain index)
      (fun r => r.body.part? [.name "sort"]) false
      fun s e => ∃ v, s.entry domain = .ok v ∧ v.wireForm = e := by
  have hnew : ∀ front back, AroundSort settings domain q index front back →
      "sort" ∉ Fields.names (front ++ back) := by
    rintro front back ⟨clause, rescore, timeout, searchAfter, -, -, htimeout, hafter, rfl, rfl⟩
    simp only [Fields.names_append, List.mem_append, not_or]
    exact ⟨⟨not_mem_leading settings q index clause (by decide),
      not_mem_concurrencyFields domain (by decide)⟩, not_mem_listFields (by decide) rescore,
      not_mem_remaining htimeout hafter (by decide)⟩
  refine entryByEntry_listFields (by simp [RequestKind.properties]) rfl hnew ?_
    (fun _ _ => isObject_sort) fun _ _ => .rfl
  intro orders r
  rw [searchRequest_eq_ok]
  constructor
  · rintro ⟨clause, sort, rescore, timeout, searchAfter, hclause, hsort, hrescore, htimeout, hafter,
      h⟩
    exact ⟨_, _, sort, ⟨clause, rescore, timeout, searchAfter, hclause, hrescore, htimeout, hafter,
      rfl, rfl⟩, hsort, h⟩
  · rintro ⟨front, back, sort, ⟨clause, rescore, timeout, searchAfter, hclause, hrescore, htimeout,
      hafter, rfl, rfl⟩, hsort, h⟩
    exact ⟨clause, sort, rescore, timeout, searchAfter, hclause, hsort, hrescore, htimeout, hafter,
      h⟩

/-- **Rescorers** are translated entry by entry. -/
theorem entryByEntry_rescorers :
    EntryByEntry
      (fun rescorers =>
        ({ q with rescorers := rescorers } : Query).searchRequest settings domain index)
      (fun r => r.body.part? [.name "rescore"]) false (Rescorer.IsEntry (fieldName domain)) := by
  have hnew : ∀ front back, AroundRescore settings domain q index front back →
      "rescore" ∉ Fields.names (front ++ back) := by
    rintro front back ⟨clause, sort, timeout, searchAfter, -, -, htimeout, hafter, rfl, rfl⟩
    simp only [Fields.names_append, List.mem_append, not_or]
    exact ⟨⟨⟨not_mem_leading settings q index clause (by decide),
      not_mem_concurrencyFields domain (by decide)⟩, not_mem_listFields (by decide) sort⟩,
      not_mem_remaining htimeout hafter (by decide)⟩
  refine entryByEntry_listFields (by simp [RequestKind.properties]) rfl hnew ?_
    (fun _ _ => isObject_rescore) (Rescorer.isEntry_iff (fieldName domain))
  intro rescorers r
  rw [searchRequest_eq_ok]
  constructor
  · rintro ⟨clause, sort, rescore, timeout, searchAfter, hclause, hsort, hrescore, htimeout, hafter,
      h⟩
    refine ⟨_, _, rescore, ⟨clause, sort, timeout, searchAfter, hclause, hsort, htimeout, hafter,
      rfl, rfl⟩, hrescore, ?_⟩
    -- the sort orders stand before the rescorers
    rw [List.append_assoc _ (listFields "sort" sort)]
    exact h
  · rintro ⟨front, back, rescore, ⟨clause, sort, timeout, searchAfter, hclause, hsort, htimeout,
      hafter, rfl, rfl⟩, hrescore, h⟩
    rw [List.append_assoc _ (listFields "sort" sort)] at h
    exact ⟨clause, sort, rescore, timeout, searchAfter, hclause, hsort, hrescore, htimeout, hafter,
      h⟩

end Query

/-- **Functions** of a function score are translated entry by entry. -/
theorem entryByEntry_functions (rename : String → String) (inner : ClauseSource)
    (options : ScoreOptions) :
    EntryByEntry (fun functions => ClauseSource.compile rename (.scored inner functions options))
      (fun c => c.toValue.part? [.name "function_score", .name "functions"]) true
      (ScoreFunction.IsEntry rename) := by
  have hbuild : ∀ functions,
      (∃ c, ClauseSource.compile rename (.scored inner functions options) = .ok c) ↔
        (∃ c, inner.compile rename = .ok c) ∧
          ∃ es, functions.mapM (ClauseSource.functionEntry rename) = .ok es := by
    intro functions
    simp only [ClauseSource.compile, functionEntries_eq_mapM, bind_eq_ok]
    constructor
    · rintro ⟨c, inner', hinner, es, hes, -⟩
      exact ⟨⟨inner', hinner⟩, es, hes⟩
    · rintro ⟨⟨inner', hinner⟩, es, hes⟩
      exact ⟨_, inner', hinner, es, hes, rfl⟩
  refine .of_mapM id hbuild ?_ (ScoreFunction.isEntry_iff rename)
  intro functions c es h hes
  rw [ClauseSource.compile] at h
  obtain ⟨inner', -, h⟩ := bind_eq_ok.1 h
  rw [functionEntries_eq_mapM, hes] at h
  cases h
  rw [List.map_id, Clause.toValue, Value.part?_object]
  change Value.part? [.name "functions"] (.object _) = _
  rw [Value.part?_object, listPart, Bool.not_true, Bool.and_false]
  rfl

end SearchWire
