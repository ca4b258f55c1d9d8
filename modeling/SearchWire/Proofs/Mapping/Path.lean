import SearchWire.Proofs.Mapping.Instance
import SearchWire.Proofs.Mapping.Registry

/-!
# Paths in parts

A path with a dot in it is known if and only if the part before the dot is known and leads to a
model on which the part after it is known. Its name in documents is that of the first part, a dot,
and that of the second part on this model; the type at its end is that of the second part. So a
path is renamed as a whole or not at all.

* `segments_append`, `pathNames_append`: the names of a path in two parts.
* `joinPath_append`: names that are joined in two parts.
* `Catalogue.walk_append`, `Catalogue.path?_append`: the properties along such a path.
* `Catalogue.path?_append_eq_some`: **the two parts of a path that is known.**
* `Registry.resolve_append`: **names and types along it**, whatever was asked before.
-/

namespace SearchWire

/-! ## Names -/

/-- A dot ends a name: the texts on both of its sides are taken apart on their own. -/
theorem segments_append (p q : List Char) :
    segments (p ++ '.' :: q) = segments p ++ segments q := by
  induction p with
  | nil => rfl
  | cons c p ih =>
    rw [List.cons_append, segments, segments, ih]
    by_cases hdot : c = '.'
    · rw [if_pos hdot, if_pos hdot, List.cons_append]
    · rw [if_neg hdot, if_neg hdot]
      cases hp : segments p with
      | nil => exact absurd hp (segments_ne_nil p)
      | cons s ss => rfl

theorem pathNames_append (p q : String) :
    pathNames (p ++ "." ++ q) = pathNames p ++ pathNames q := by
  have hdot : (p ++ "." ++ q).toList = p.toList ++ '.' :: q.toList := by
    simp [String.toList_append]
  rw [pathNames, hdot, segments_append, List.map_append]
  rfl

theorem joinWith_append (separator : List Char) {ts us : List (List Char)} (hts : ts ≠ [])
    (hus : us ≠ []) :
    joinWith separator (ts ++ us) =
      joinWith separator ts ++ (separator ++ joinWith separator us) := by
  obtain ⟨u, us, rfl⟩ := List.exists_cons_of_ne_nil hus
  induction ts with
  | nil => exact absurd rfl hts
  | cons t ts ih =>
    cases ts with
    | nil => simp [joinWith]
    | cons s ss =>
      have hrest := ih (List.cons_ne_nil s ss)
      simp only [List.cons_append, joinWith] at hrest ⊢
      simp [hrest]

theorem joinPath_append {xs ys : List String} (hxs : xs ≠ []) (hys : ys ≠ []) :
    joinPath (xs ++ ys) = joinPath xs ++ "." ++ joinPath ys := by
  have hts : xs.map String.toList ≠ [] := by simpa using hxs
  have hus : ys.map String.toList ≠ [] := by simpa using hys
  apply String.toList_injective
  simp [joinPath, String.toList_append, joinWith_append ['.'] hts hus]

/-! ## Properties -/

namespace Catalogue

variable {cat : Catalogue} {type : TypeExpr}

/-- After the first of two parts the walk goes on in the type that the last property holds. -/
theorem walk_append {xs : List String} (hxs : xs ≠ []) (ys : List String) :
    cat.walk type (xs ++ ys) = (do
      let ps ← cat.walk type xs
      let p ← ps.getLast?
      let qs ← cat.walk p.type ys
      some (ps ++ qs)) := by
  induction xs generalizing type with
  | nil => exact absurd rfl hxs
  | cons x xs ih =>
    rw [List.cons_append, walk, walk]
    cases cat.entity? type with
    | none => rfl
    | some e =>
      cases he : e.property? x with
      | none => simp [he]
      | some p =>
        cases xs with
        | nil => simp [he, walk]
        | cons x' xs =>
          have hrest := @ih p.type (List.cons_ne_nil x' xs)
          simp only [Option.bind_eq_bind, Option.bind_some, he, hrest, Option.bind_assoc]
          cases hw : cat.walk p.type (x' :: xs) with
          | none => rfl
          | some ps =>
            -- the walk has met a property for each name, so the last one is among the rest
            obtain ⟨_, _, _, _, -, -, -, -, rfl⟩ := walk_cons hw
            simp [List.getLast?_cons_cons]

theorem path?_append (p q : String) :
    cat.path? type (p ++ "." ++ q) = (do
      let ps ← cat.path? type p
      let last ← ps.getLast?
      let qs ← cat.path? last.type q
      some (ps ++ qs)) := by
  rw [path?, pathNames_append, walk_append (pathNames_ne_nil p)]
  rfl

/-- A path that is known leads through a property at least, and starts in a model. -/
theorem path?_eq_some {path : String} {ps : List EntityProperty}
    (h : cat.path? type path = some ps) :
    ps ≠ [] ∧ ∃ n, type = .named n ∧ (cat.model? n).isSome := by
  obtain ⟨name, names, hnames⟩ := List.exists_cons_of_ne_nil (pathNames_ne_nil path)
  rw [path?, hnames] at h
  obtain ⟨n, m, p, rest, rfl, hm, -, -, rfl⟩ := walk_cons h
  exact ⟨List.cons_ne_nil _ _, n, rfl, by rw [hm]; rfl⟩

/-- **The two parts of a path that is known.** -/
theorem path?_append_eq_some {p q : String} {ps : List EntityProperty} :
    cat.path? type (p ++ "." ++ q) = some ps ↔
      ∃ before last after n, cat.path? type p = some (before ++ [last]) ∧
        last.type = .named n ∧ (cat.model? n).isSome ∧ cat.path? (.named n) q = some after ∧
        ps = before ++ [last] ++ after := by
  rw [path?_append]
  constructor
  · intro h
    obtain ⟨first, hfirst, h⟩ := Option.bind_eq_some_iff.1 h
    obtain ⟨last, hlast, h⟩ := Option.bind_eq_some_iff.1 h
    obtain ⟨after, hafter, h⟩ := Option.bind_eq_some_iff.1 h
    obtain ⟨before, rfl⟩ := List.getLast?_eq_some_iff.1 hlast
    obtain ⟨-, n, htype, hmodel⟩ := path?_eq_some hafter
    rw [htype] at hafter
    exact ⟨before, last, after, n, hfirst, htype, hmodel, hafter, (Option.some.inj h).symm⟩
  · rintro ⟨before, last, after, n, hfirst, htype, -, hafter, rfl⟩
    simp [hfirst, htype, hafter]

/-! ## Names in documents and types -/

theorem fieldName?_eq_some {path wire : String} :
    cat.fieldName? type path = some wire ↔
      ∃ ps, cat.path? type path = some ps ∧ joinPath (ps.map EntityProperty.wire) = wire := by
  rw [fieldName?, Option.map_eq_some_iff]

theorem fieldType?_eq_some {path : String} {t : TypeExpr} :
    cat.fieldType? type path = some t ↔
      ∃ before last, cat.path? type path = some (before ++ [last]) ∧ last.type = t := by
  rw [fieldType?, Option.bind_eq_bind, Option.bind_eq_some_iff]
  constructor
  · rintro ⟨ps, hps, h⟩
    obtain ⟨last, hlast, rfl⟩ := Option.map_eq_some_iff.1 h
    obtain ⟨before, rfl⟩ := List.getLast?_eq_some_iff.1 hlast
    exact ⟨before, last, hps, rfl⟩
  · rintro ⟨before, last, hps, rfl⟩
    exact ⟨before ++ [last], hps, by simp⟩

/-- A path has a name in documents if and only if it has a type. -/
theorem isSome_fieldType? (type : TypeExpr) (path : String) :
    (cat.fieldType? type path).isSome = (cat.fieldName? type path).isSome := by
  rw [fieldType?, fieldName?]
  cases hps : cat.path? type path with
  | none => rfl
  | some ps =>
    have hlast := List.getLast?_isSome.2 (path?_eq_some hps).1
    simpa using hlast

/-- The name and the type of a path of two known parts. -/
theorem resolve_append {p q left right n : String} (hp : cat.fieldName? type p = some left)
    (hn : cat.fieldType? type p = some (.named n))
    (hq : cat.fieldName? (.named n) q = some right) :
    cat.fieldName? type (p ++ "." ++ q) = some (left ++ "." ++ right) ∧
      cat.fieldType? type (p ++ "." ++ q) = cat.fieldType? (.named n) q := by
  obtain ⟨before, last, hfirst, htype⟩ := fieldType?_eq_some.1 hn
  obtain ⟨ps, hps, rfl⟩ := fieldName?_eq_some.1 hp
  cases hfirst.symm.trans hps
  obtain ⟨after, hafter, rfl⟩ := fieldName?_eq_some.1 hq
  obtain ⟨hne, _, ⟨⟩, hmodel⟩ := path?_eq_some hafter
  have hpath : cat.path? type (p ++ "." ++ q) = some (before ++ [last] ++ after) :=
    path?_append_eq_some.2 ⟨before, last, after, n, hfirst, htype, hmodel, hafter, rfl⟩
  constructor
  · rw [fieldName?, hpath, Option.map_some, List.map_append]
    have hleft : (before ++ [last]).map EntityProperty.wire ≠ [] := by simp
    have hright : after.map EntityProperty.wire ≠ [] := by simpa using hne
    rw [joinPath_append hleft hright]
  · -- the last property is that of the second part, which has one
    obtain ⟨front, final, rfl⟩ := (List.eq_nil_or_concat after).resolve_left hne
    rw [List.concat_eq_append] at hafter hpath
    rw [← List.append_assoc] at hpath
    rw [fieldType?_eq_some.2 ⟨_, final, hpath, rfl⟩,
      fieldType?_eq_some.2 ⟨front, final, hafter, rfl⟩]

/-- Both parts of a known path are known, the second one on the model to which the first leads. -/
theorem isSome_fieldName?_append {p q : String} :
    (cat.fieldName? type (p ++ "." ++ q)).isSome ↔
      (cat.fieldName? type p).isSome ∧ ∃ n, cat.fieldType? type p = some (.named n) ∧
        (cat.model? n).isSome ∧ (cat.fieldName? (.named n) q).isSome := by
  constructor
  · intro h
    obtain ⟨wire, hwire⟩ := Option.isSome_iff_exists.1 h
    obtain ⟨ps, hps, -⟩ := fieldName?_eq_some.1 hwire
    obtain ⟨before, last, after, n, hfirst, htype, hmodel, hafter, -⟩ :=
      path?_append_eq_some.1 hps
    have hn : cat.fieldType? type p = some (.named n) :=
      fieldType?_eq_some.2 ⟨before, last, hfirst, htype⟩
    refine ⟨?_, n, hn, hmodel, ?_⟩
    · rw [← isSome_fieldType?, hn]
      rfl
    · rw [fieldName?, hafter]
      rfl
  · rintro ⟨hp, n, hn, -, hq⟩
    obtain ⟨left, hleft⟩ := Option.isSome_iff_exists.1 hp
    obtain ⟨right, hright⟩ := Option.isSome_iff_exists.1 hq
    rw [(resolve_append hleft hn hright).1]
    rfl

end Catalogue

/-! ## Resolving -/

namespace Registry

variable {cat : Catalogue} {r : Registry} {kept : List String}

/-- The names that a registry gives are those of the catalogue. -/
theorem Holds.fieldName? (h : r.Holds cat kept) (type : TypeExpr) (path : String) :
    (r.fieldName? cat type path).1 = cat.fieldName? type path := by
  have hwalk := (h.walk type (pathNames path)).1
  simp only [Registry.fieldName?, hwalk]
  rfl

/-- So are the types. -/
theorem Holds.fieldType? (h : r.Holds cat kept) (type : TypeExpr) (path : String) :
    (r.fieldType? cat type path).1 = cat.fieldType? type path := by
  have hwalk := (h.walk type (pathNames path)).1
  simp only [Registry.fieldType?, hwalk]
  rfl

/-- **A path is resolved in its parts, as a whole or not at all.** After any initial entities and
any calls: a path with a dot is known exactly if the first part is known and leads to a model on
which the second part is known; then its name and its type are those of the parts. The compiler
writes the name of a known path, and an unknown path as it is. -/
theorem fieldName?_append (cat : Catalogue) (initial : List TypeExpr) (questions : List Question)
    (type : TypeExpr) (p q : String) :
    let r := ((ofTypes cat initial).askAll cat questions).2
    let name? (type : TypeExpr) (path : String) := (r.fieldName? cat type path).1
    let type? (type : TypeExpr) (path : String) := (r.fieldType? cat type path).1
    ((name? type (p ++ "." ++ q)).isSome ↔ (name? type p).isSome ∧
      ∃ n, type? type p = some (.named n) ∧ (cat.model? n).isSome ∧
        (name? (.named n) q).isSome) ∧
    (∀ left right n, name? type p = some left → type? type p = some (.named n) →
      name? (.named n) q = some right →
        name? type (p ++ "." ++ q) = some (left ++ "." ++ right) ∧
          type? type (p ++ "." ++ q) = type? (.named n) q) ∧
    ∀ path, (name? type path = none → fieldName (some ⟨cat, type⟩) path = path) ∧
      ∀ wire, name? type path = some wire → fieldName (some ⟨cat, type⟩) path = wire := by
  intro r name? type?
  obtain ⟨-, hinitial⟩ := (holds_empty cat).askAll (initial.map .entity)
  rw [← ofTypes_eq] at hinitial
  obtain ⟨-, hgrows⟩ := hinitial.holds.askAll questions
  have hname : name? = cat.fieldName? := funext fun type => funext (hgrows.holds.fieldName? type)
  have htype : type? = cat.fieldType? := funext fun type => funext (hgrows.holds.fieldType? type)
  rw [hname, htype]
  refine ⟨Catalogue.isSome_fieldName?_append, ?_, ?_⟩
  · intro left right n hp hn hq
    exact Catalogue.resolve_append hp hn hq
  · intro path
    constructor
    · intro hnone
      rw [fieldName, hnone]
      rfl
    · intro wire hwire
      rw [fieldName, hwire]
      rfl

/-- A shop with some owners, who have addresses and managers of their own. -/
private def shops : Catalogue :=
  ⟨[Model.plain "Shop" [⟨"owners", .list (.optional (.named "Person")), .any, none, ["owners"],
      "owned-by"⟩],
    Model.plain "Person" [⟨"city", .named "str", .any, none, ["city"], "city-name"⟩,
      ⟨"boss", .optional (.named "Person"), .any, none, ["boss"], "boss"⟩]], []⟩

theorem fieldName?_append_shops :
    let r := ((ofTypes shops [.named "Person"]).askAll shops [.holder (.named "Shop")]).2
    (r.fieldName? shops (.named "Shop") "owners.boss").1 = some "owned-by.boss" ∧
      (r.fieldName? shops (.named "Person") "boss.city").1 = some "boss.city-name" ∧
      (r.fieldName? shops (.named "Shop") ("owners.boss" ++ "." ++ "boss.city")).1 =
        some ("owned-by.boss" ++ "." ++ "boss.city-name") ∧
      fieldName (some ⟨shops, .named "Shop"⟩) "owners.boss.zip" = "owners.boss.zip" := by
  obtain ⟨-, hparts, hwhole⟩ := fieldName?_append shops [.named "Person"] [.holder (.named "Shop")]
    (.named "Shop") "owners.boss" "boss.city"
  obtain ⟨hname, -⟩ := hparts "owned-by.boss" "boss.city-name" "Person" rfl rfl rfl
  exact ⟨rfl, rfl, hname, (hwhole "owners.boss.zip").1 rfl⟩

end Registry

end SearchWire
