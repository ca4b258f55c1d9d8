import SearchWire.Proofs.Admin.Suits
import SearchWire.Proofs.Descriptor.Reading
import SearchWire.Proofs.Request.Calls
import SearchWire.Proofs.Request.Shows

/-!
# Aliases that come with indices

Templates and new indices take a batch of alias actions for the aliases that they have. All of them
have to be additions, and none may name indices. They are carried out in order, and the last one
that lists an alias counts: its filter and those of its options that are set are all that the alias
has, whatever earlier actions said.

* `AliasParameters.parts`, `AliasParameters.body_eq`: the body of an alias.
* `AliasAction.offence?`: what is wrong with an action where an index is created.
* `addAliases_append`, `exists_addAliases_iff`, `addAliases_eq_error`: actions one after the other,
  when they are accepted, and the failure if they are not.
* `get?_addAliases_last`, `mem_names_addAliases`: which action an alias has its body from.
* `AliasParameters.Admitted`, `AliasAction.admitted_of_batch`: batches that were validated.
* `LastActions`: the aliases in a request.
* `Creation`: a template or an index with its aliases.
* `Creation.last_action_counts`: **the last action on an alias counts.**
-/

namespace SearchWire

open Fields (present)

variable {resolver : Option Catalogue}

/-! ## The body of an alias -/

namespace AliasParameters

/-- The clause of the filter, about the domain type of the filter. -/
def filterClause (resolver : Option Catalogue) (p : AliasParameters) :
    Except Failure (Option Clause) :=
  p.filter.mapM (Query.clause (fieldName (p.domain resolver)))

/-- The fields of an alias in a request: the filter, and the options that are set. -/
def parts (p : AliasParameters) (filter : Option Value) : List (String × Option Value) :=
  [("filter", filter), ("routing", p.routing.present?), ("index_routing", p.indexRouting.present?),
    ("search_routing", p.searchRouting.present?), ("is_hidden", p.isHidden.present?),
    ("is_write_index", p.isWriteIndex.present?)]

theorem filterFields_eq (resolver : Option Catalogue) (p : AliasParameters) :
    p.filterFields resolver = (p.filterClause resolver).map fun clause =>
      present [("filter", clause.map Clause.toValue)] := by
  unfold filterFields filterClause
  cases p.filter with
  | none => rfl
  | some q =>
    rw [option_mapM_some]
    dsimp only
    cases q.clause (fieldName (p.domain resolver)) <;> rfl

/-- The body of an alias has a filter if one is set, and the options that are. -/
theorem body_eq (resolver : Option Catalogue) (p : AliasParameters) :
    p.body resolver = (p.filterClause resolver).map fun clause =>
      present (p.parts (clause.map Clause.toValue)) := by
  rw [body, filterFields_eq, options, Fields.given_eq_present]
  cases p.filterClause resolver with
  | error e => rfl
  | ok clause => exact congrArg Except.ok Fields.present_append.symm

theorem isObject_parts (p : AliasParameters) (filter : Option Value) :
    (Value.object (present (p.parts filter))).IsObject :=
  Fields.isObject_present (by simp [parts])

end AliasParameters

/-! ## Aliases by name -/

/-- Every name that is listed gets the body, and no other one does. -/
theorem get?_nameAliases (aliases : Fields) (names : List String) (body : Fields) (key : String) :
    (nameAliases aliases names body).get? key =
      if key ∈ names then some (.object body) else aliases.get? key := by
  unfold nameAliases
  induction names generalizing aliases with
  | nil => rfl
  | cons name names ih =>
    rw [List.foldl_cons, ih, Fields.get?_set]
    by_cases hrest : key ∈ names
    · simp [hrest]
    · by_cases hname : key = name <;> simp [hrest, hname]

theorem nodup_nameAliases {aliases : Fields} (h : aliases.names.Nodup) (names : List String)
    (body : Fields) : (nameAliases aliases names body).names.Nodup := by
  unfold nameAliases
  induction names generalizing aliases with
  | nil => exact h
  | cons name names ih => exact ih (Fields.nodup_set h name (.object body))

namespace AliasAction

/-- What is wrong with an action where an index is created, if anything is. -/
def offence? (a : AliasAction) : Option Failure :=
  if a.kind ≠ .add then some (.templateAction a.kind.text)
  else if !a.parameters.indices.isEmpty then some .templateIndices
  else none

theorem offence?_eq_none {a : AliasAction} :
    a.offence? = none ↔ a.kind = .add ∧ a.parameters.indices = [] := by
  unfold offence?
  split
  · next h => simp [h]
  · next h => simp [not_not.1 h]

/-- An action is wrong as a part of a descriptor. -/
theorem category_of_offence? {a : AliasAction} {e : Failure} (h : a.offence? = some e) :
    e.category = .descriptor := by
  unfold offence? at h
  split at h
  · cases h
    rfl
  · split at h <;> cases h
    rfl

end AliasAction

variable {actions before after : List AliasAction} {a : AliasAction} {acc fs : Fields}

/-- One action after the other. -/
theorem addAliases_cons (resolver : Option Catalogue) (acc : Fields) (a : AliasAction)
    (actions : List AliasAction) :
    addAliases resolver acc (a :: actions) =
      match a.offence? with
      | some e => .error e
      | none => a.parameters.body resolver >>= fun body =>
        addAliases resolver (nameAliases acc a.parameters.aliases body) actions := by
  rw [addAliases, AliasAction.offence?]
  split
  · rfl
  · split <;> rfl

theorem addAliases_append (resolver : Option Catalogue) (acc : Fields)
    (before after : List AliasAction) :
    addAliases resolver acc (before ++ after) =
      addAliases resolver acc before >>= fun fs => addAliases resolver fs after := by
  induction before generalizing acc with
  | nil => rfl
  | cons a before ih =>
    rw [List.cons_append, addAliases_cons, addAliases_cons]
    cases a.offence? with
    | some e => rfl
    | none =>
      dsimp only
      cases a.parameters.body resolver with
      | error e => rfl
      | ok body => exact ih _

/-- An action that adds its aliases. -/
theorem addAliases_cons_eq_ok : addAliases resolver acc (a :: actions) = .ok fs ↔
    a.offence? = none ∧ ∃ body, a.parameters.body resolver = .ok body ∧
      addAliases resolver (nameAliases acc a.parameters.aliases body) actions = .ok fs := by
  rw [addAliases_cons]
  cases a.offence? with
  | some e => simp
  | none => simp [bind_eq_ok]

/-- A name that no action lists keeps its body. -/
theorem get?_addAliases_of_not_mem {name : String} (h : addAliases resolver acc actions = .ok fs)
    (hname : ∀ a ∈ actions, name ∉ a.parameters.aliases) : fs.get? name = acc.get? name := by
  induction actions generalizing acc with
  | nil =>
    cases h
    rfl
  | cons a actions ih =>
    obtain ⟨ha, hactions⟩ := List.forall_mem_cons.1 hname
    obtain ⟨-, body, -, hrest⟩ := addAliases_cons_eq_ok.1 h
    rw [ih hrest hactions, get?_nameAliases, if_neg ha]

/-- **The last action counts** of those that list a name. -/
theorem get?_addAliases_last {name : String}
    (h : addAliases resolver acc (before ++ a :: after) = .ok fs)
    (hname : name ∈ a.parameters.aliases)
    (hlast : ∀ b ∈ after, name ∉ b.parameters.aliases) :
    ∃ body, a.parameters.body resolver = .ok body ∧ fs.get? name = some (.object body) := by
  rw [addAliases_append] at h
  -- what the actions before made of the name is lost, and those after it leave it alone
  obtain ⟨acc', -, h⟩ := bind_eq_ok.1 h
  obtain ⟨-, body, hbody, hrest⟩ := addAliases_cons_eq_ok.1 h
  refine ⟨body, hbody, ?_⟩
  rw [get?_addAliases_of_not_mem hrest hlast, get?_nameAliases, if_pos hname]

/-- The names are those that some action lists, besides the ones that were there. -/
theorem mem_names_addAliases {name : String} (h : addAliases resolver acc actions = .ok fs) :
    name ∈ fs.names ↔ name ∈ acc.names ∨ ∃ a ∈ actions, name ∈ a.parameters.aliases := by
  induction actions generalizing acc with
  | nil =>
    cases h
    simp
  | cons a actions ih =>
    obtain ⟨-, body, -, hrest⟩ := addAliases_cons_eq_ok.1 h
    have hnamed : name ∈ (nameAliases acc a.parameters.aliases body).names ↔
        name ∈ a.parameters.aliases ∨ name ∈ acc.names := by
      rw [Fields.mem_names_iff, Fields.mem_names_iff, get?_nameAliases]
      by_cases hmem : name ∈ a.parameters.aliases <;> simp [hmem]
    rw [ih hrest, hnamed]
    simp only [List.mem_cons, exists_eq_or_imp]
    tauto

/-- Aliases are objects with names of their own. -/
theorem isObject_addAliases (h : addAliases resolver acc actions = .ok fs)
    (hnames : acc.names.Nodup) (hacc : ∀ f ∈ acc, f.2.IsObject) :
    fs.names.Nodup ∧ ∀ f ∈ fs, f.2.IsObject := by
  induction actions generalizing acc with
  | nil =>
    cases h
    exact ⟨hnames, hacc⟩
  | cons a actions ih =>
    obtain ⟨-, body, hbody, hrest⟩ := addAliases_cons_eq_ok.1 h
    rw [AliasParameters.body_eq] at hbody
    obtain ⟨clause, -, rfl⟩ := map_eq_ok.1 hbody
    exact ih hrest (nodup_nameAliases hnames _ _)
      (forall_mem_nameAliases hacc (a.parameters.isObject_parts _) _)

/-- **Actions are accepted** if nothing is wrong with any of them. -/
theorem exists_addAliases_iff
    (hbodies : ∀ a ∈ actions, ∃ body, a.parameters.body resolver = .ok body) :
    (∃ fs, addAliases resolver acc actions = .ok fs) ↔ ∀ a ∈ actions, a.offence? = none := by
  induction actions generalizing acc with
  | nil => exact ⟨fun _ => List.forall_mem_nil _, fun _ => ⟨acc, rfl⟩⟩
  | cons a actions ih =>
    obtain ⟨⟨body, hbody⟩, hrest⟩ := List.forall_mem_cons.1 hbodies
    have hactions : (∃ fs, addAliases resolver (nameAliases acc a.parameters.aliases body) actions =
        .ok fs) ↔ ∀ b ∈ actions, b.offence? = none := ih hrest
    rw [List.forall_mem_cons, ← hactions]
    simp [addAliases_cons_eq_ok, hbody]

/-- **The first action that is wrong** gives the failure. -/
theorem addAliases_eq_error {e : Failure}
    (hbodies : ∀ b ∈ before, ∃ body, b.parameters.body resolver = .ok body)
    (hbefore : ∀ b ∈ before, b.offence? = none) (ha : a.offence? = some e) :
    addAliases resolver acc (before ++ a :: after) = .error e := by
  obtain ⟨fs, hfs⟩ : ∃ fs, addAliases resolver acc before = .ok fs :=
    (exists_addAliases_iff hbodies).2 hbefore
  rw [addAliases_append, hfs]
  have hcons := addAliases_cons resolver fs a after
  rw [ha] at hcons
  exact hcons

/-- A batch is accepted if there is none, or if nothing is wrong with its actions. -/
theorem exists_templateAliases_iff {batch : Option (List AliasAction)}
    (hbodies : ∀ as ∈ batch, ∀ a ∈ as, ∃ body, a.parameters.body resolver = .ok body) :
    (∃ v, templateAliases resolver batch = .ok v) ↔
      ∀ as ∈ batch, ∀ a ∈ as, a.kind = .add ∧ a.parameters.indices = [] := by
  cases batch with
  | none => exact ⟨fun _ => nofun, fun _ => ⟨.null, rfl⟩⟩
  | some as =>
    have haccepted : (∃ fs, addAliases resolver [] as = .ok fs) ↔ ∀ a ∈ as, a.offence? = none :=
      exists_addAliases_iff (hbodies as rfl)
    simp only [Option.mem_some_iff, forall_eq', ← AliasAction.offence?_eq_none]
    rw [← haccepted]
    simp [templateAliases, bind_eq_ok]

/-! ## Batches that were validated -/

/-- The options of an alias are texts and truth values. -/
structure AliasParameters.Admitted (p : AliasParameters) : Prop where
  routing : (Shape.optional .text).Admits p.routing
  indexRouting : (Shape.optional .text).Admits p.indexRouting
  searchRouting : (Shape.optional .text).Admits p.searchRouting
  isHidden : (Shape.optional .flag).Admits p.isHidden
  isWriteIndex : (Shape.optional .flag).Admits p.isWriteIndex

/-- The options are shown as they are. -/
theorem AliasParameters.Admitted.wireForm_parts {p : AliasParameters} (hp : p.Admitted)
    (filter : Option Value) : (Value.object (present (p.parts filter))).wireForm =
      .object (present (p.parts (filter.map Value.wireForm))) := by
  rw [Fields.wireForm_present]
  simp only [parts, List.map_cons, List.map_nil,
    Value.map_wireForm_present? (hp.routing.wireForm_eq rfl),
    Value.map_wireForm_present? (hp.indexRouting.wireForm_eq rfl),
    Value.map_wireForm_present? (hp.searchRouting.wireForm_eq rfl),
    Value.map_wireForm_present? (hp.isHidden.wireForm_eq rfl),
    Value.map_wireForm_present? (hp.isWriteIndex.wireForm_eq rfl)]

section Conforms

variable {cat : Catalogue} {v : Value}

/-- What is taken for parameters has validated options. -/
theorem AliasParameters.admitted_of_conforms {p : AliasParameters} (h : Conforms cat model v)
    (hp : ofValue? v = some p) : p.Admitted := by
  simp only [ofValue?, Option.bind_eq_bind, Option.bind_eq_some_iff] at hp
  obtain ⟨_, -, _, -, _, -, _, -, hp⟩ := hp
  cases hp
  exact {
    routing := h.admits (p := .optional "routing" .text) (by simp [model, Model.plain]) rfl
    indexRouting := h.admits (p := .optional "index_routing" .text)
      (by simp [model, Model.plain]) rfl
    searchRouting := h.admits (p := .optional "search_routing" .text)
      (by simp [model, Model.plain]) rfl
    isHidden := h.admits (p := .optional "is_hidden" .flag) (by simp [model, Model.plain]) rfl
    isWriteIndex := h.admits (p := .optional "is_write_index" .flag)
      (by simp [model, Model.plain]) rfl }

namespace AliasAction

variable (hcat : cat.Sound) (hmodels : ∀ m ∈ models, cat.model? m.name = some m)
include hcat hmodels

/-- What is taken for an action has validated parameters. -/
theorem admitted_of_check {w : Value} {b : Accepted} {a : AliasAction} (hw : Validated cat w)
    (h : check cat w (.tagged "type" (kinds.map fun k => (k.1.text, k.2))) = .ok b)
    (ha : ofValue? b.value = some a) : a.parameters.Admitted := by
  obtain ⟨name, hname, hcheck⟩ := check_tagged_ok h
  obtain ⟨kind, hkind, rfl⟩ : ∃ k ∈ kinds, k.2 = name := by simpa using hname
  have hm : cat.model? kind.2 = some (modelOf kind.1 kind.2) :=
    hmodels (modelOf kind.1 kind.2) (by simp [models]; exact .inr (.inl ⟨_, _, hkind, rfl⟩))
  have hparameters : cat.model? "AliasActionParameters" = some AliasParameters.model :=
    hmodels AliasParameters.model (by simp [models])
  have hconforms := (conforms_of_check hcat hm hw hcheck).record_required "parameters"
    "AliasActionParameters" hcat hparameters (by simp [modelOf, Model.plain])
  simp only [ofValue?, Option.bind_eq_bind, Option.bind_eq_some_iff] at ha
  obtain ⟨_, -, p, hp, ha⟩ := ha
  cases ha
  exact AliasParameters.admitted_of_conforms hconforms hp

/-- **The actions of a validated batch** have validated parameters. -/
theorem admitted_of_batch {actions : List AliasAction} (h : Conforms cat batchModel v)
    (hv : batch? v = some actions) : ∀ a ∈ actions, a.parameters.Admitted := by
  intro a ha
  obtain ⟨xs, hxs, hactions⟩ := Option.bind_eq_some_iff.1 hv
  obtain ⟨x, hx, hread⟩ := exists_of_mem_option_mapM hactions ha
  -- without actions of its own the batch has those by default, which are none
  rcases h.property _ List.mem_cons_self with ⟨w, b, hw, hb, hfield⟩ | hdefault
  · have hvalue : v.field "actions" = b.value := hfield
    obtain ⟨ws, xs', hws, hxs', hitems⟩ := check_list_items hb
    rw [hvalue, hxs'] at hxs
    cases hxs
    obtain ⟨w', hw', b', hb', rfl⟩ := hitems x hx
    exact admitted_of_check hcat hmodels (hw.of_collection hws w' hw') hb' hread
  · have hvalue : v.field "actions" = .list [] := (Option.some.inj hdefault).symm
    rw [hvalue] at hxs
    cases hxs
    cases hx

end AliasAction

end Conforms

/-! ## Aliases in a request -/

/-- Aliases by name as a request shows them: those that some action adds, each with what the last
action that lists it says. -/
structure LastActions (resolver : Option Catalogue) (actions : List AliasAction)
    (aliases : Fields) : Prop where
  nodup : aliases.names.Nodup
  mem_names : ∀ name, name ∈ aliases.names ↔ ∃ a ∈ actions, name ∈ a.parameters.aliases
  get? : ∀ before a after, actions = before ++ a :: after → ∀ name ∈ a.parameters.aliases,
    (∀ b ∈ after, name ∉ b.parameters.aliases) →
      ∃ clause, a.parameters.filterClause resolver = .ok clause ∧
        aliases.get? name = some (.object (present
          (a.parameters.parts (clause.map fun c => c.toValue.wireForm))))

/-- Aliases that were added are as the last actions on them say. -/
theorem lastActions_of_addAliases (hadmitted : ∀ a ∈ actions, a.parameters.Admitted)
    (h : addAliases resolver [] actions = .ok fs) :
    LastActions resolver actions (fs.map fun f => (f.1, f.2.wireForm)) := by
  have hnames : Fields.names (fs.map fun f => (f.1, f.2.wireForm)) = fs.names := by
    rw [Fields.names, List.map_map]
    rfl
  refine ⟨?_, fun name => ?_, ?_⟩
  · rw [hnames]
    exact (isObject_addAliases h .nil (List.forall_mem_nil _)).1
  · rw [hnames, mem_names_addAliases h]
    simp [Fields.names]
  · rintro before a after rfl name hname hlast
    obtain ⟨body, hbody, hget⟩ := get?_addAliases_last h hname hlast
    rw [AliasParameters.body_eq] at hbody
    obtain ⟨clause, hclause, rfl⟩ := map_eq_ok.1 hbody
    have hshown := (hadmitted a (by simp)).wireForm_parts (clause.map Clause.toValue)
    refine ⟨clause, hclause, ?_⟩
    rw [Fields.get?_mapValues, hget, Option.map_some, hshown, Option.map_map]
    rfl

/-! ## Creating with aliases -/

/-- The two ways in which aliases come with indices: those that a template makes, and one that is
created. The descriptors are records. -/
inductive Creation where
  | template (descriptor : Value)
  | index (target settings mappings batch : Value)

namespace Creation

/-- The request. -/
def run (resolver : Option Catalogue) : Creation → Except Failure Request
  | .template descriptor => do
    let t ← legible (IndexTemplate.ofValue? descriptor)
    t.request resolver
  | .index target settings mappings batch => do
    let actions ← legible (batch.unlessNull AliasAction.batch?)
    createIndexRequest resolver target settings mappings actions

def settings : Creation → Value
  | .template descriptor => descriptor.field "settings"
  | .index _ settings _ _ => settings

def mappings : Creation → Value
  | .template descriptor => descriptor.field "mappings"
  | .index _ _ mappings _ => mappings

/-- The batch of alias actions; `null` where there is none. -/
def batch : Creation → Value
  | .template descriptor => descriptor.field "alias_actions"
  | .index _ _ _ batch => batch

/-- The descriptors were built from validated values, and a target is an index. -/
def Built (cat : Catalogue) : Creation → Prop
  | .template descriptor => ∃ args, (∀ f ∈ args, Validated cat f.2) ∧
      cat.build "IndexTemplate" args = .ok descriptor
  | .index target _ _ batch => (batch = .null ∨ ∃ args, (∀ f ∈ args, Validated cat f.2) ∧
      cat.build "AliasActions" args = .ok batch) ∧ RequestCall.IsTarget target

/-- All that a request takes but for the aliases is there. -/
structure Prepared (resolver : Option Catalogue) (c : Creation)
    (actions : Option (List AliasAction)) (kind : RequestKind) (fields : Fields) : Prop where
  property : .optional "aliases" RequestKind.objectsByName ∈ kind.properties
  hasOwnBody : kind.hasOwnBody = false
  isParam : kind.paramKeys.contains "aliases" = false
  not_mem : "aliases" ∉ fields.names
  suited : ∀ aliases, (Shape.optional RequestKind.objectsByName).Takes aliases →
    Request.Suited kind (fields ++ [("aliases", aliases)])
  run_eq : c.run resolver = templateAliases resolver actions >>= fun aliases =>
    Request.make kind (fields ++ [("aliases", aliases)])

variable {cat : Catalogue} {c : Creation} {actions : Option (List AliasAction)}
  {s m : Value}

/-- A template that was built is read if its batch is. -/
theorem exists_template {v : Value} (h : Conforms cat IndexTemplate.model v)
    (hactions : (v.field "alias_actions").unlessNull AliasAction.batch? = some actions) :
    ∃ t, IndexTemplate.ofValue? v = some t ∧ t.settings = v.field "settings" ∧
      t.mappings = v.field "mappings" ∧ t.aliasActions = actions := by
  obtain ⟨patterns, hpatterns⟩ := h.reads_required "index_patterns" (.texts 1)
    (by simp [IndexTemplate.model, Model.plain])
  have hclass : v.ofClass? "IndexTemplate" = some v := h.ofClass?_eq
  simp only [IndexTemplate.ofValue?, hclass, Option.bind_eq_bind, Option.bind_some, hpatterns,
    hactions]
  exact ⟨_, rfl, rfl, rfl, rfl⟩

/-- Once the settings and the mappings are read, only the aliases may be refused. -/
theorem Built.exists_prepared (hcat : cat.Sound)
    (hmodel : cat.model? "IndexTemplate" = some IndexTemplate.model) (hc : c.Built cat)
    (hactions : c.batch.unlessNull AliasAction.batch? = some actions)
    (hsettings : Document.parseObject "settings" c.settings = .ok s)
    (hmappings : Document.parseObject "mappings" c.mappings = .ok m)
    (resolver : Option Catalogue) : ∃ kind fields, c.Prepared resolver actions kind fields := by
  have hs := Document.takes_parseObject "settings" c.settings
  have hm := Document.takes_parseObject "mappings" c.mappings
  rw [hsettings] at hs
  rw [hmappings] at hm
  cases c with
  | template descriptor =>
    obtain ⟨args, hargs, hbuild⟩ := hc
    obtain ⟨t, ht, hts, htm, hta⟩ :=
      exists_template (conforms_of_build hcat hmodel hargs hbuild) hactions
    have hchecked := IndexTemplate.checked_of_build hmodel hbuild ht
    refine ⟨.putTemplate, [("name", t.name), ("index_patterns", .ofTexts t.indexPatterns),
      ("order", t.order), ("version", t.version), ("settings", s),
      ("mappings", m)], ?_⟩
    exact {
      property := by simp [RequestKind.properties]
      hasOwnBody := rfl
      isParam := rfl
      not_mem := by simp [Fields.names]
      suited := fun aliases haliases => by
        have hrequired : RequestKind.putTemplate.required = ["name", "index_patterns"] := rfl
        refine ⟨?_, by simp [hrequired, Fields.names]⟩
        simp only [List.cons_append, List.nil_append, List.forall_mem_cons]
        exact ⟨.of rfl hchecked.name, .of rfl (.texts _), .of rfl hchecked.order,
          .of rfl hchecked.version, .of rfl hs, .of rfl hm, .of rfl haliases,
          List.forall_mem_nil _⟩
      run_eq := by
        rw [Creation.settings, ← hts] at hsettings
        rw [Creation.mappings, ← htm] at hmappings
        rw [run, ht]
        change t.request resolver = _
        rw [IndexTemplate.request, hsettings, hmappings, hta]
        rfl }
  | index target settings mappings batch =>
    obtain ⟨-, coordinates, htarget⟩ := hc
    refine ⟨.createIndex, [("index", .str coordinates.first), ("settings", s),
      ("mappings", m)], ?_⟩
    exact {
      property := by simp [RequestKind.properties]
      hasOwnBody := rfl
      isParam := rfl
      not_mem := by simp [Fields.names]
      suited := fun aliases haliases => by
        have hrequired : RequestKind.createIndex.required = ["index"] := rfl
        refine ⟨?_, by simp [hrequired, Fields.names]⟩
        simp only [List.cons_append, List.nil_append, List.forall_mem_cons]
        exact ⟨.of rfl (.text _), .of rfl hs, .of rfl hm, .of rfl haliases, List.forall_mem_nil _⟩
      run_eq := by
        rw [Creation.settings] at hsettings
        rw [Creation.mappings] at hmappings
        rw [Creation.batch] at hactions
        rw [run, hactions]
        change createIndexRequest resolver target settings mappings actions = _
        rw [createIndexRequest, htarget, hsettings, hmappings]
        rfl }

/-- The actions that come with indices have validated parameters. -/
theorem Built.admitted (hcat : cat.Sound)
    (htemplate : cat.model? "IndexTemplate" = some IndexTemplate.model)
    (hmodels : ∀ m ∈ AliasAction.models, cat.model? m.name = some m) (hc : c.Built cat)
    (hactions : c.batch.unlessNull AliasAction.batch? = some actions) :
    ∀ as ∈ actions, ∀ a ∈ as, a.parameters.Admitted := by
  have hbatch : cat.model? "AliasActions" = some AliasAction.batchModel :=
    hmodels _ AliasAction.batchModel_mem
  have hconforms : c.batch = .null ∨ Conforms cat AliasAction.batchModel c.batch := by
    cases c with
    | template descriptor =>
      obtain ⟨args, hargs, hbuild⟩ := hc
      exact (conforms_of_build hcat htemplate hargs hbuild).record_optional "alias_actions"
        "AliasActions" hcat hbatch (by simp [IndexTemplate.model, Model.plain])
    | index target settings mappings batch =>
      refine hc.1.imp id ?_
      rintro ⟨args, hargs, hbuild⟩
      exact conforms_of_build hcat hbatch hargs hbuild
  exact forall_of_unlessNull hactions fun hset as hread =>
    AliasAction.admitted_of_batch hcat hmodels (hconforms.resolve_left hset) hread

/-- What a request shows for aliases that it took. -/
theorem Prepared.part?_aliases {kind : RequestKind} {fields : Fields} {v : Value} {r : Request}
    (hp : c.Prepared resolver actions kind fields) (hv : templateAliases resolver actions = .ok v)
    (htaken : ∃ a, check ⟨[kind.model], []⟩ v (.optional RequestKind.objectsByName) = .ok a ∧
      a.value = v)
    (h : c.run resolver = .ok r) :
    r.body.part? [.name "aliases"] = v.present?.map Value.wireForm := by
  rw [hp.run_eq, hv] at h
  have hmake : Request.make kind (fields ++ [("aliases", v)]) = .ok r := h
  have hget : (fields ++ [("aliases", v)]).get? "aliases" = some v := by
    rw [Fields.get?_append, Fields.get?_of_not_mem hp.not_mem]
    rfl
  obtain ⟨a, ha, hvalue⟩ := htaken
  have hfield : r.field "aliases" = v := by
    rw [← hvalue]
    exact Request.field_of_get? (p := .optional "aliases" RequestKind.objectsByName) hp.property
      rfl hget ha hmake
  rw [← hfield]
  exact Request.part?_body_eq (p := .optional "aliases" RequestKind.objectsByName) hp.hasOwnBody
    hp.property hp.isParam hmake

/-- The aliases of a batch are what its last actions say. -/
theorem Prepared.lastActions {as : List AliasAction} {kind : RequestKind} {fields : Fields}
    {r : Request} (hp : c.Prepared resolver (some as) kind fields)
    (hadmitted : ∀ a ∈ as, a.parameters.Admitted) (h : c.run resolver = .ok r) :
    ∃ aliases, LastActions resolver as aliases ∧
      r.body.part? [.name "aliases"] = some (.object aliases) ∧ (as = [] → aliases = []) := by
  obtain ⟨v, hv, -⟩ := bind_eq_ok.1 (hp.run_eq ▸ h)
  obtain ⟨fs, hfs, hv'⟩ := bind_eq_ok.1 hv
  cases hv'
  obtain ⟨hnames, hobjects⟩ := isObject_addAliases hfs .nil (List.forall_mem_nil _)
  have htaken : ∃ a, check ⟨[kind.model], []⟩ (.object fs) RequestKind.objectsByName = .ok a ∧
      a.value = .object fs := check_fields hnames fun f hf => check_isObject _ (hobjects f hf)
  have hpart := hp.part?_aliases hv htaken h
  refine ⟨_, lastActions_of_addAliases hadmitted hfs, ?_, ?_⟩
  · rw [hpart, ← Value.wireForm_object]
    rfl
  · rintro rfl
    cases hfs
    rfl

/-- A creation is accepted if its aliases are. -/
theorem Prepared.exists_run_iff {kind : RequestKind} {fields : Fields}
    (hp : c.Prepared resolver actions kind fields) :
    (∃ r, c.run resolver = .ok r) ↔ ∃ v, templateAliases resolver actions = .ok v := by
  rw [hp.run_eq]
  constructor
  · rintro ⟨r, h⟩
    obtain ⟨v, hv, -⟩ := bind_eq_ok.1 h
    exact ⟨v, hv⟩
  · rintro ⟨v, hv⟩
    have htakes := yields_templateAliases resolver actions
    rw [hv] at htakes
    obtain ⟨r, hr⟩ := Request.exists_make (hp.suited v htakes)
    exact ⟨r, bind_eq_ok.2 ⟨v, hv, hr⟩⟩

/-- **The last action on an alias counts.** Templates and indices take the actions of a validated
batch if all of them add aliases and name no indices; the first one that does not is the failure.
What is created has the aliases that some action adds, each with what the last action that lists it
says. Without a batch there are none, and an empty batch gives an empty object. -/
theorem last_action_counts (hcat : cat.Sound)
    (htemplate : cat.model? "IndexTemplate" = some IndexTemplate.model)
    (hmodels : ∀ m ∈ AliasAction.models, cat.model? m.name = some m) (hc : c.Built cat)
    (hactions : c.batch.unlessNull AliasAction.batch? = some actions)
    (hsettings : Document.parseObject "settings" c.settings = .ok s)
    (hmappings : Document.parseObject "mappings" c.mappings = .ok m)
    (hfilters : ∀ as ∈ actions, ∀ a ∈ as,
      ∃ clause, a.parameters.filterClause resolver = .ok clause) :
    ((∃ r, c.run resolver = .ok r) ↔
      ∀ as ∈ actions, ∀ a ∈ as, a.kind = .add ∧ a.parameters.indices = []) ∧
    (∀ before a after e, actions = some (before ++ a :: after) →
      (∀ b ∈ before, b.offence? = none) → a.offence? = some e →
        c.run resolver = .error e ∧ e.category = .descriptor) ∧
    ∀ r, c.run resolver = .ok r →
      (actions = none → r.body.part? [.name "aliases"] = none) ∧
      ∀ as, actions = some as → ∃ aliases, LastActions resolver as aliases ∧
        r.body.part? [.name "aliases"] = some (.object aliases) ∧ (as = [] → aliases = []) := by
  obtain ⟨kind, fields, hp⟩ :=
    hc.exists_prepared hcat htemplate hactions hsettings hmappings resolver
  have hbodies : ∀ as ∈ actions, ∀ a ∈ as, ∃ body, a.parameters.body resolver = .ok body := by
    intro as has a ha
    obtain ⟨clause, hclause⟩ := hfilters as has a ha
    rw [AliasParameters.body_eq, hclause]
    exact ⟨_, rfl⟩
  have hadmitted := hc.admitted hcat htemplate hmodels hactions
  refine ⟨hp.exists_run_iff.trans (exists_templateAliases_iff hbodies), ?_, fun r h => ⟨?_, ?_⟩⟩
  · rintro before a after e rfl hbefore ha
    have herror : addAliases resolver [] (before ++ a :: after) = .error e :=
      addAliases_eq_error (fun b hb => hbodies _ rfl b (List.mem_append_left _ hb)) hbefore ha
    refine ⟨?_, AliasAction.category_of_offence? ha⟩
    rw [hp.run_eq, templateAliases, herror]
    rfl
  · rintro rfl
    exact hp.part?_aliases rfl ⟨_, rfl, rfl⟩ h
  · rintro as rfl
    exact hp.lastActions (hadmitted as rfl) h

/-- A template whose second action takes over one of the aliases of the first. -/
private def overlapping : Fields :=
  [("name", .str "logs"), ("index_patterns", .ofTexts ["logs-*"]),
    ("alias_actions", .object [("actions", .list
      [.object [("type", .str "add"), ("parameters", .object
          [("aliases", .ofTexts ["all", "recent"]), ("routing", .str "1")])],
        .object [("type", .str "add"), ("parameters", .object
          [("aliases", .ofTexts ["recent"]), ("is_hidden", .bool false)])]])])]

theorem last_action_counts_overlapping : ∃ descriptor r aliases,
    Catalogue.standard.build "IndexTemplate" overlapping = .ok descriptor ∧
      (template descriptor).run none = .ok r ∧
      r.body.part? [.name "aliases"] = some (.object aliases) ∧
      aliases.get? "all" = some (.object [("routing", .str "1")]) ∧
      aliases.get? "recent" = some (.object [("is_hidden", .bool false)]) := by
  have hmodels : ∀ m ∈ AliasAction.models, Catalogue.standard.model? m.name = some m :=
    fun m hm => Catalogue.model?_standard (by simp [Catalogue.standardModels, hm])
  have htemplate : Catalogue.standard.model? "IndexTemplate" = some IndexTemplate.model := rfl
  have haction : ∀ names name v, v.isSimple → Validated Catalogue.standard
      (.object [("type", .str "add"),
        ("parameters", .object [("aliases", .ofTexts names), (name, v)])]) := by
    intro names name v hv
    refine .object (List.forall_mem_cons.2 ⟨.simple rfl, List.forall_mem_singleton.2 ?_⟩)
    exact .object (List.forall_mem_cons.2 ⟨.texts names, List.forall_mem_singleton.2 (.simple hv)⟩)
  have hargs : ∀ f ∈ overlapping, Validated Catalogue.standard f.2 := by
    simp only [overlapping, List.forall_mem_cons]
    refine ⟨.simple rfl, .texts _, .object (List.forall_mem_singleton.2 ?_), List.forall_mem_nil _⟩
    exact .items rfl (List.forall_mem_cons.2
      ⟨haction _ _ _ rfl, List.forall_mem_singleton.2 (haction _ _ _ rfl)⟩)
  obtain ⟨descriptor, first, second, hbuild, hsettings, hmappings, hactions, hlegal, hnames,
      hfilter, hparts⟩ : ∃ descriptor first second,
        Catalogue.standard.build "IndexTemplate" overlapping = .ok descriptor ∧
        Document.parseObject "settings" (template descriptor).settings = .ok .null ∧
        Document.parseObject "mappings" (template descriptor).mappings = .ok .null ∧
        (template descriptor).batch.unlessNull AliasAction.batch? = some (some [first, second]) ∧
        (∀ a ∈ [first, second], a.kind = .add ∧ a.parameters.indices = []) ∧
        (first.parameters.aliases = ["all", "recent"] ∧ second.parameters.aliases = ["recent"]) ∧
        (∀ a ∈ [first, second], a.parameters.filterClause none = .ok none) ∧
        present (first.parameters.parts none) = [("routing", .str "1")] ∧
        present (second.parameters.parts none) = [("is_hidden", .bool false)] :=
    ⟨_, _, _, rfl, rfl, rfl, rfl,
      List.forall_mem_cons.2 ⟨⟨rfl, rfl⟩, List.forall_mem_singleton.2 ⟨rfl, rfl⟩⟩, ⟨rfl, rfl⟩,
      List.forall_mem_cons.2 ⟨rfl, List.forall_mem_singleton.2 rfl⟩, rfl, rfl⟩
  have hbuilt : (template descriptor).Built Catalogue.standard := ⟨overlapping, hargs, hbuild⟩
  have hfilters : ∀ as ∈ some [first, second], ∀ a ∈ as,
      ∃ clause, a.parameters.filterClause none = .ok clause := by
    rintro as ⟨⟩ a ha
    exact ⟨none, hfilter a ha⟩
  obtain ⟨haccepted, -, hshown⟩ := last_action_counts Catalogue.standard_sound htemplate hmodels
    hbuilt hactions hsettings hmappings hfilters
  obtain ⟨r, hr⟩ := haccepted.2 (by
    rintro as ⟨⟩
    exact hlegal)
  obtain ⟨aliases, hlast, hpart, -⟩ := (hshown r hr).2 _ rfl
  obtain ⟨clause, hclause, hall⟩ := hlast.get? [] first [second] rfl "all"
    (by simp [hnames.1]) (by simp [hnames.2])
  obtain ⟨clause', hclause', hrecent⟩ := hlast.get? [first] second [] rfl "recent"
    (by simp [hnames.2]) (List.forall_mem_nil _)
  cases (hfilter first (by simp)).symm.trans hclause
  cases (hfilter second (by simp)).symm.trans hclause'
  rw [Option.map_none, hparts.1] at hall
  rw [Option.map_none, hparts.2] at hrecent
  exact ⟨descriptor, r, aliases, hbuild, hr, hpart, hall, hrecent⟩

end Creation

end SearchWire
