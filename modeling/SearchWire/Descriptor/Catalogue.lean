import SearchWire.Admin.Index
import SearchWire.Criteria.Chain
import SearchWire.Reindex.Basic
import SearchWire.Request.Basic

/-!
# The catalogue of descriptors

All models and enumerations of the library. Domain types are declared on top of them.

* `Catalogue.standard`: the catalogue.
-/

namespace SearchWire

instance : Worded Operator where
  enumeration := Operator.enumeration
  members := Operator.all
  text := Operator.text
  label := Operator.label

namespace Catalogue

/-- The models of descriptors and requests. -/
def standardModels : List Model :=
  Standard.models ++ Criteria.models ++ ClauseSource.models ++ Paging.models ++
    SortOrder.models ++ [SourceFilter.model, Highlight.model, IndicesOptions.model,
      IndexCoordinates.model, Settings.model] ++ Query.models ++ WriteQuery.models ++
    AliasAction.models ++ [IndexTemplate.model] ++ ReindexQuery.models ++ RequestKind.models

/-- The enumerations of descriptors. -/
def standardEnumerations : List Enumeration :=
  [Worded.declaration Operator, Worded.declaration Direction, Worded.declaration WildcardState,
    Worded.declaration RescoreMode, Worded.declaration Conflicts] ++ WriteQuery.enumerations

def standard : Catalogue := ⟨standardModels, standardEnumerations⟩

end Catalogue

end SearchWire
