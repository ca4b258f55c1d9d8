import SearchWire.Schema.Model

/-!
# Standard property types

Two models that domain types may use for their properties: a coordinate, and the pair of numbers
that tells concurrent writes apart.
-/

namespace SearchWire.Standard

/-- A coordinate: degrees of latitude and longitude. -/
def geoPoint : Model :=
  .fixed "GeoPoint" [.required "lat" (.number (some (-90)) (some 90)),
    .required "lon" (.number (some (-180)) (some 180))]

/-- The number of a write and the term in which it was made. -/
def seqNoPrimaryTerm : Model :=
  .fixed "SeqNoPrimaryTerm" [.required "seq_no" (.integer (some 0) none),
    .required "primary_term" (.integer (some 1) none)]

def models : List Model := [geoPoint, seqNoPrimaryTerm]

end SearchWire.Standard
