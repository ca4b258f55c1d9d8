import SearchWire.Descriptor.Catalogue

/-!
# Attributes of descriptors

What can be asked of a descriptor beside its own properties, and how descriptors grow.

* `attributeOf`: an attribute by name.
* `appendTo`: a descriptor with values added to one of its lists.
* `templateParameters`, `plainReindex`: descriptors for common uses.
-/

namespace SearchWire

/-- An own property of a record. -/
def ownAttribute (v : Value) (name : String) : Except Failure Value := legible (v.property? name)

/-- The rank of the first hit of a page; there is none without pages. -/
def offsetOf (v : Value) : Except Failure Value :=
  match Paging.ofValue? v with
  | some paging =>
    match paging.offset? with
    | some n => .ok (.int n)
    | none => .error .noOffset
  | none => ownAttribute v "offset"

/-- The first name of some coordinates. -/
def firstIndex (v : Value) : Except Failure Value := do
  .ok (.str (← legible (IndexCoordinates.ofRecord? v)).first)

/-- The plain data of a point or a request. -/
def plainData (v : Value) : Except Failure Value :=
  if v.isInstance "GeoPoint" then .ok v.pointForm
  else do .ok (.object (← legible (Request.ofValue? v)).fields)

/-- An attribute of a descriptor by name. -/
def attributeOf (v : Value) (name : String) : Except Failure Value :=
  match name with
  | "is_paged" => do .ok (.bool (← legible (Paging.ofValue? v)).isPaged)
  | "offset" => offsetOf v
  | "index_name" =>
    if v.isInstance "IndexCoordinates" then firstIndex v else ownAttribute v name
  | "url" => do .ok (.str (← legible (remoteOf? v)).url)
  | "to_dict" => plainData v
  | "to_params" => do .ok (.object (← legible (optionsOf? v)).params)
  | name => ownAttribute v name
where
  remoteOf? (v : Value) : Option Remote := if v.isInstance "Remote" then Remote.ofValue? v else none
  optionsOf? (v : Value) : Option IndicesOptions :=
    if v.isInstance "IndicesOptions" then IndicesOptions.ofValue? v else none

/-- A descriptor with values added at the end of one of its lists. -/
def appendTo (name : String) (more : List Value) (v : Value) : Except Failure Value :=
  match v, v.property? name with
  | .record c slots, some (.list xs) => .ok (.record c (setSlot name (.list (xs ++ more)) slots))
  | _, _ => .error .noAttribute

/-- The list that a method adds to. -/
def grownList? : String → Option String
  | "add_sort" => some "sort"
  | "add_rescorer_query" => some "rescorer_queries"
  | "add" => some "actions"
  | _ => none

/-- Parameters of aliases that are created by a template. -/
def templateParameters (cat : Catalogue) (aliases : List Value) (options : Fields) :
    Except Failure Value :=
  cat.build "AliasActionParameters" ([("aliases", .list aliases)] ++ options)

/-- A plain copy from one index or several into another one. -/
def plainReindex (cat : Catalogue) (source dest : Value) (options : Fields) :
    Except Failure Value := do
  let indices ← match source.text?, source.elements? with
    | some _, _ => .ok [source]
    | none, some xs => .ok xs
    | none, none => .error (.notIterable source)
  let source ← cat.build "ReindexSource" [("indices", .list indices)]
  let dest ← cat.build "ReindexDest" [("index", dest)]
  cat.build "ReindexQuery" ([("source", source), ("dest", dest)] ++ options)

end SearchWire
