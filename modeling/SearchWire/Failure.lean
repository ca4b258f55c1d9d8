import SearchWire.Json.Reader
import SearchWire.Schema.Issue

/-!
# Failures

Why no request comes out of a descriptor: each cause is a case, and its wording is in one place.

* `Failure`: the causes.
* `Failure.category`: the kind of failure that a caller can tell apart.
* `Failure.message`: the wording.
-/

namespace SearchWire

/-- Why a document cannot be read. -/
inductive DocumentFault where
  /-- The text is not JSON. -/
  | json (fault : Json.Fault)
  /-- The mapping has no JSON text. -/
  | unwritten (fault : Json.WriteFault)
  /-- Neither a text nor a mapping. -/
  | notText (v : Value)
  deriving BEq, Repr

inductive Failure where
  /-- Data does not fit the declared shape of the model. -/
  | rejected (model : String) (issues : List Issue)
  /-- A node of a criteria tree is no criterion. -/
  | unknownNode (node : Value)
  | unsupportedOperator (operator field : String)
  | missingValue (operator field : String)
  | noBounds (field : String) (value : Value)
  | noOriginAndDistance (field : String)
  | noCorners (field : String)
  | noCollection (operator field : String) (value : Value)
  | noPoint (operator field : String) (value : Value)
  /-- A distance sort on a field that cannot hold a coordinate. -/
  | notGeographic (field domain declared : String)
  | unreadable (what : String) (fault : DocumentFault)
  /-- Data nests deeper than there is room to follow it. -/
  | tooDeep
  | notAnObject (what : String) (value : Value)
  | notIndexable (object : Value)
  | nothingToIndex (id : Value)
  | notBulkable (item : Value)
  | templateAction (type : String)
  | templateIndices
  | notIterable (value : Value)
  /-- A value that can change is no key. -/
  | unhashable (type : String)
  | notNumeric (value : Value)
  | notDecimal (text : String)
  | notWhole (text : String)
  /-- A whole number has more digits than one may have. -/
  | manyDigits (digits : Nat)
  | unknownLevel (level : String)
  | noOffset
  | notDuration (value : Value)
  | noField (model field : String)
  /-- A value lacks the attribute that is asked of it. -/
  | noAttribute
  /-- A value cannot be written as plain data. -/
  | unwritable
  /-- A request cannot be written as JSON. -/
  | notWritten
  /-- A writer refuses a value. -/
  | refused (message : String)
  /-- An integer is beyond every floating-point number. -/
  | tooLarge
  /-- A duration of more days than one may have. -/
  | tooManyDays (days : Int)
  deriving BEq, Repr

/-- The kinds of failure that a caller can tell apart. -/
inductive Failure.Category where
  | validation
  | descriptor
  | document
  | operator
  | value
  | type
  | overflow
  | attribute
  | dump
  | serialization
  | recursion
  deriving DecidableEq, Repr

namespace Failure

def category : Failure → Category
  | .rejected .. => .validation
  | .unsupportedOperator .. => .operator
  | .unreadable .. | .notAnObject .. => .document
  | .notIterable _ | .unhashable _ | .notNumeric _ | .noOffset | .notDuration _ | .refused _ =>
    .type
  | .notDecimal _ | .notWhole _ | .manyDigits _ | .unknownLevel _ | .noField .. => .value
  | .noAttribute => .attribute
  | .unwritable => .dump
  | .notWritten => .serialization
  | .tooLarge | .tooManyDays _ => .overflow
  | .tooDeep => .recursion
  | _ => .descriptor

end Failure

def DocumentFault.message : DocumentFault → String
  | .json fault => fault.message
  | .unwritten fault => fault.message
  | .notText v => "the JSON object must be str, bytes or bytearray, not " ++ v.typeName

/-- A text between single quotes, with no escapes. -/
def between (s : String) : String := "'" ++ s ++ "'"

/-- The wording of a failure. -/
def Failure.message : Failure → String
  | .rejected model issues =>
    toString issues.length ++ " validation errors for " ++ model
  | .unknownNode node => "Unknown criteria node: " ++ node.shown
  | .unsupportedOperator operator field =>
    "Unsupported operator " ++ between operator ++ " on field " ++ between field
  | .missingValue operator field =>
    between operator ++ " on field " ++ between field ++ " needs a value, got None"
  | .noBounds field value =>
    "'between' on field " ++ between field ++ " needs a (lower, upper) pair, got " ++ value.shown
  | .noOriginAndDistance field =>
    "'within' on field " ++ between field ++ " needs an (origin, distance) pair"
  | .noCorners field =>
    "'bounding_box' on field " ++ between field ++ " needs a (top_left, bottom_right) pair"
  | .noCollection operator field value =>
    between operator ++ " on field " ++ between field ++ " needs a collection, got " ++ value.shown
  | .noPoint operator field value =>
    between operator ++ " on field " ++ between field ++ " needs a GeoPoint, got " ++ value.shown
  | .notGeographic field domain declared =>
    "Geo distance sort on " ++ between field ++ " of " ++ domain ++ ", which is declared as " ++
      declared
  | .unreadable what fault => "Could not parse " ++ what ++ ": " ++ fault.message
  | .tooDeep => "maximum recursion depth exceeded"
  | .notAnObject what value =>
    "Expected a JSON object for " ++ what ++ ", got " ++ value.typeName
  | .notIndexable object =>
    "Cannot index object of type " ++ object.typeName ++ "; use a model instance or a mapping"
  | .nothingToIndex id =>
    "object or source is null, failed to index the document [id: " ++ String.ofList id.words ++ "]"
  | .notBulkable item => "Cannot bulk " ++ item.typeName
  | .templateAction type => "Template aliases only support add actions, got " ++ between type
  | .templateIndices => "Template aliases must not name indices"
  | .notIterable value => between value.fullTypeName ++ " object is not iterable"
  | .unhashable type => "unhashable type: " ++ between type
  | .notNumeric value =>
    "float() argument must be a string or a real number, not " ++ between value.fullTypeName
  | .notDecimal text => "could not convert string to float: " ++ String.ofList (Text.quote text)
  | .notWhole text =>
    "invalid literal for int() with base 10: " ++ String.ofList (Text.quote text)
  | .manyDigits digits => (Json.Fault.tooLong digits).message
  | .unknownLevel level => "Unknown level: " ++ String.ofList (Text.quote level)
  | .noOffset => "Unpaged instances do not have an offset"
  | .notDuration value =>
    "unsupported operand type(s) for //: " ++ between value.fullTypeName ++
      " and 'datetime.timedelta'"
  | .noField model field => "\"" ++ model ++ "\" object has no field \"" ++ field ++ "\""
  | .noAttribute => "no such attribute"
  | .unwritable => "unable to serialize a value"
  | .notWritten => "unable to write a request"
  | .refused message => message
  | .tooLarge => "int too large to convert to float"
  | .tooManyDays days =>
    if -Int.pow 2 31 ≤ days ∧ days < Int.pow 2 31 then
      "days=" ++ String.ofList (Decimal.intDigits days) ++ "; must have magnitude <= 999999999"
    else "Python int too large to convert to C int"

end SearchWire
