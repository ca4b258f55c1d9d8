import SearchWire.Value.Basic

/-!
# What is wrong with a value

A value that does not fit its declared shape is refused with a list of issues, each with its
place in the value: names of fields, positions in lists, and the tags or labels of the
alternatives that were tried.

* `Issue.Kind`, `Issue.Kind.code`: what is wrong, and its code.
* `Issue`, `Issue.under`: an issue at a place; the same issue seen from one step outside.
-/

namespace SearchWire

/-- One step of the place of an issue: a name, or a number that counts items or is a key. -/
inductive Place where
  | name (s : String)
  | position (n : Int)
  deriving DecidableEq, Repr

inductive Issue.Kind where
  | missing
  | textType
  | integerType
  | integerParsing
  | integerLength
  | integerFromFraction
  | finiteNumber
  | numberType
  | numberParsing
  | flagType
  | flagParsing
  | atLeast
  | atMost
  | tooShort
  | tooLong
  | listType
  | tupleType
  | setType
  | frozenSetType
  | dictType
  | enumeration
  | choice
  | modelType
  | attributesType
  | tagMissing
  | tagUnknown
  | durationParsing
  | durationType
  | classType
  | noneRequired
  | dateType
  | dateParsing
  | dateInexact
  | datetimeType
  | datetimeParsing
  | frozen
  | rule (message : String)
  deriving DecidableEq, Repr

/-- The code of an issue. -/
def Issue.Kind.code : Issue.Kind → String
  | .missing => "missing"
  | .textType => "string_type"
  | .integerType => "int_type"
  | .integerParsing => "int_parsing"
  | .integerLength => "int_parsing_size"
  | .integerFromFraction => "int_from_float"
  | .finiteNumber => "finite_number"
  | .numberType => "float_type"
  | .numberParsing => "float_parsing"
  | .flagType => "bool_type"
  | .flagParsing => "bool_parsing"
  | .atLeast => "greater_than_equal"
  | .atMost => "less_than_equal"
  | .tooShort => "too_short"
  | .tooLong => "too_long"
  | .listType => "list_type"
  | .tupleType => "tuple_type"
  | .setType => "set_type"
  | .frozenSetType => "frozen_set_type"
  | .dictType => "dict_type"
  | .enumeration => "enum"
  | .choice => "literal_error"
  | .modelType => "model_type"
  | .attributesType => "model_attributes_type"
  | .tagMissing => "union_tag_not_found"
  | .tagUnknown => "union_tag_invalid"
  | .durationParsing => "time_delta_parsing"
  | .durationType => "time_delta_type"
  | .classType => "is_type"
  | .noneRequired => "none_required"
  | .dateType => "date_type"
  | .dateParsing => "date_from_datetime_parsing"
  | .dateInexact => "date_from_datetime_inexact"
  | .datetimeType => "datetime_type"
  | .datetimeParsing => "datetime_from_date_parsing"
  | .frozen => "frozen_instance"
  | .rule _ => "value_error"

/-- What is wrong, and where. -/
structure Issue where
  place : List Place
  kind : Issue.Kind
  deriving DecidableEq, Repr

/-- The text of a rule that was broken. -/
def Issue.note? (i : Issue) : Option String :=
  match i.kind with
  | .rule message => some ("Value error, " ++ message)
  | _ => none

/-- An issue of a part, seen from the whole. -/
def Issue.under (step : Place) (i : Issue) : Issue := { i with place := step :: i.place }

/-- The issues of a part, seen from the whole. -/
def issuesUnder (step : Place) (is : List Issue) : List Issue := is.map (Issue.under step)

end SearchWire
