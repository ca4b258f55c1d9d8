import SearchWire.Settings

/-!
# Paging

Which hits a request asks for: a page of the list of hits, a page that starts at an offset of its
own, or everything up to the result window.

* `Paging`, `Paging.offset?`: the choices, and the rank of the first hit.
* `Paging.window`: the first rank and the count of hits of a request.
* `Paging.models`: the records of the choices.
-/

namespace SearchWire

inductive Paging where
  /-- Pages are counted from zero. -/
  | page (number size : Nat)
  /-- A page that starts at an offset of its own. -/
  | shifted (offset : Int) (size : Nat)
  | unpaged
  deriving DecidableEq, Repr

namespace Paging

def isPaged : Paging → Bool
  | .unpaged => false
  | _ => true

/-- The rank of the first hit of a page. -/
def offset? : Paging → Option Int
  | .page number size => some (number * size : Nat)
  | .shifted offset _ => some offset
  | .unpaged => none

/-- The first rank and the count of the hits that a request asks for. -/
def window (settings : Settings) : Paging → Int × Nat
  | .page number size => ((number * size : Nat), size)
  | .shifted offset size => (offset, size)
  | .unpaged => (0, settings.maxResultWindow)

/-- The first page of the usual size. -/
def standard (settings : Settings) : Paging := .page 0 settings.pageSize

def baseModel : Model := .fixed "Pageable" []

/-- The properties of a page. -/
def pageProperties : List Property :=
  [.withDefault "page" (.integer (some 0) none) (.int 0),
    .withDefault "size" (.integer (some 1) none) (.int Settings.standard.pageSize)]

def pageModel : Model := { Model.fixed "PageRequest" pageProperties with ancestors := ["Pageable"] }

def unpagedModel : Model := { Model.fixed "Unpaged" [] with ancestors := ["Pageable"] }

def shiftedModel : Model :=
  { Model.fixed "OffsetPageRequest" (pageProperties ++ [.withDefault "fixed" .whole (.int 0)]) with
    ancestors := ["PageRequest", "Pageable"] }

def models : List Model := [baseModel, pageModel, unpagedModel, shiftedModel]

/-- The record of the choice of everything. -/
def unpagedRecord : Value := unpagedModel.record []

/-- The record of a page. -/
def pageRecord (page size : Value) : Except Failure Value :=
  Catalogue.build ⟨models, []⟩ "PageRequest" [("page", page), ("size", size)]

/-- The choice that a record holds. -/
def ofValue? (v : Value) : Option Paging :=
  if v.isInstance "OffsetPageRequest" then do
    some (.shifted (← (v.field "fixed").int?) (← (v.field "size").nat?))
  else if v.isInstance "PageRequest" then do
    some (.page (← (v.field "page").nat?) (← (v.field "size").nat?))
  else if v.isInstance "Pageable" then some .unpaged
  else none

end Paging

end SearchWire
