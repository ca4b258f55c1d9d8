import SearchWire.Schema.Model
import SearchWire.Value.Reading

/-!
# What hits return

Which fields of the source a hit returns, and how matched fields are marked in it.

* `SourceFilter`, `Highlight`: the two choices.
* `SourceFilter.toValue`, `Highlight.toValue`: what a request holds of them.
-/

namespace SearchWire

/-- The fields of the source that hits return. -/
structure SourceFilter where
  includes : List String
  excludes : List String
  deriving DecidableEq, Repr

namespace SourceFilter

def model : Model :=
  .plain "SourceFilter" [.withDefault "includes" .texts (.list []),
    .withDefault "excludes" .texts (.list [])]

def ofValue? (v : Value) : Option SourceFilter := do
  some ⟨← (v.field "includes").texts?, ← (v.field "excludes").texts?⟩

/-- The same filter with other names for the fields. -/
def rename (f : String → String) (s : SourceFilter) : SourceFilter :=
  ⟨s.includes.map f, s.excludes.map f⟩

/-- Both lists, also if they are empty. -/
def toValue (s : SourceFilter) : Value :=
  .object [("includes", .ofTexts s.includes), ("excludes", .ofTexts s.excludes)]

end SourceFilter

/-- How matched fields are marked. Options that are not set are `null`. -/
structure Highlight where
  fields : List String
  preTags : Value
  postTags : Value
  fragmentSize : Value
  numberOfFragments : Value
  deriving Repr

namespace Highlight

def model : Model :=
  .plain "HighlightQuery" [.required "fields" .texts, .optional "pre_tags" .texts,
    .optional "post_tags" .texts, .optional "fragment_size" .whole,
    .optional "number_of_fragments" .whole]

def ofValue? (v : Value) : Option Highlight := do
  some ⟨← (v.field "fields").texts?, v.field "pre_tags", v.field "post_tags",
    v.field "fragment_size", v.field "number_of_fragments"⟩

/-- The same marks on fields with other names. -/
def rename (f : String → String) (h : Highlight) : Highlight := { h with fields := h.fields.map f }

/-- The options that are set. -/
def options (h : Highlight) : Fields :=
  Fields.given [("pre_tags", h.preTags), ("post_tags", h.postTags),
    ("fragment_size", h.fragmentSize), ("number_of_fragments", h.numberOfFragments)]

/-- An empty object for each field, and the options that are set. -/
def toValue (h : Highlight) : Value :=
  .object (("fields", .object (Fields.ofList (h.fields.map fun n => (n, .object [])))) :: h.options)

end Highlight

end SearchWire
