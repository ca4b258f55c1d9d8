import SearchWire.Number.Double
import SearchWire.Time.Date
import SearchWire.Time.Duration

/-!
# Values

The data that descriptors, documents and requests are made of: what a document can hold
(`null`, truth values, numbers, texts, lists, objects) and, beside it, what a caller may put
into one: dates, durations, members of enumerations, records of declared classes.

A dictionary is a list of entries in order of insertion; the fields of an object have distinct
names, and `Fields.set` keeps them so: a name that is there keeps its place and gets the new
value.

* `Value`, `Fields`: the type, and the ordered fields of an object.
* `Fields.set`, `Fields.get?`: writing and reading one field.
* `Value.sameKey`: when two keys of a dictionary are one.
* `Value.elements?`: the values that are visited when a value is gone through.
-/

namespace SearchWire

/-- A member of an enumeration whose members are texts: `label` is its name there, `value` the text
that it is. Members that are numbers are given as the numbers. -/
structure Member where
  enumeration : String
  label : String
  value : String
  deriving DecidableEq, Repr, Inhabited

/-- The class of a record: its name, and the names of the classes it extends. A record that stands
for one of a class it extends shows only the properties of that class in documents. -/
structure RecordClass where
  name : String
  ancestors : List String
  shown : Option (List String)
  deriving DecidableEq, Repr, Inhabited

/-- A class that extends no other one. -/
def RecordClass.root (name : String) : RecordClass := ⟨name, [], none⟩

/-- A document has the property with the given name. -/
def RecordClass.shows (c : RecordClass) (name : String) : Bool :=
  match c.shown with
  | none => true
  | some names => names.contains name

/-- The class is the named one or extends it. -/
def RecordClass.isA (c : RecordClass) (name : String) : Bool :=
  c.name == name || c.ancestors.contains name

/-- One property of a record: its name, its name in documents, its value. -/
structure Slot (α : Type) where
  name : String
  wire : String
  value : α
  deriving BEq, Repr

inductive Value where
  | null
  | bool (b : Bool)
  | int (n : Int)
  | float (x : Double)
  | str (s : String)
  /-- Bytes, given by the text whose UTF-8 form they are. -/
  | bytes (s : String)
  | date (d : Date)
  | datetime (t : DateTime)
  | duration (d : Duration)
  | member (m : Member)
  /-- A member of an enumeration whose members are neither texts nor numbers; `value` is what it
  stands for. -/
  | choice (enumeration label : String) (value : Value)
  /-- A class itself, by name. -/
  | classRef (name : String)
  | list (items : List Value)
  | tuple (items : List Value)
  | set (items : List Value)
  | dict (entries : List (Value × Value))
  | record (cls : RecordClass) (slots : List (Slot Value))
  /-- A fluent chain of criteria, by the root of its tree; the empty chain has `null`. -/
  | chain (root : Value)
  deriving BEq, Repr, Inhabited

/-- The entries of a dictionary in order of insertion. -/
abbrev Entries := List (Value × Value)

/-- The fields of an object in order of insertion. -/
abbrev Fields := List (String × Value)

namespace Fields

/-- The value of a field. -/
def get? (fs : Fields) (name : String) : Option Value := fs.lookup name

/-- Writes a field: in its place if the name is there, else at the end. -/
def set : Fields → String → Value → Fields
  | [], name, v => [(name, v)]
  | (n, w) :: fs, name, v => if n = name then (n, v) :: fs else (n, w) :: set fs name v

/-- Writes fields one after the other. -/
def setAll (fs : Fields) (more : Fields) : Fields := more.foldl (fun acc f => acc.set f.1 f.2) fs

/-- Fields from a list in which a name may occur again; the last value wins. -/
def ofList (fs : List (String × Value)) : Fields := setAll [] fs

/-- Writes a field unless the value is `null`. -/
def setGiven (fs : Fields) (name : String) : Value → Fields
  | .null => fs
  | v => fs.set name v

/-- The fields whose values are not `null`. -/
def given (fs : Fields) : Fields :=
  fs.filter fun f =>
    match f.2 with
    | .null => false
    | _ => true

def names (fs : Fields) : List String := fs.map Prod.fst

end Fields

namespace Value

/-- An object with the given fields. -/
def object (fs : Fields) : Value := .dict (fs.map fun f => (.str f.1, f.2))

def isNull : Value → Bool
  | .null => true
  | _ => false

/-- The text of a text or of a member, which counts as the text it stands for. -/
def text? : Value → Option String
  | .str s => some s
  | .member m => some m.value
  | _ => none

/-- The number a value is as a key: truth values count as zero and one. -/
def keyNumber? : Value → Option (Sum Int Double)
  | .bool b => some (.inl (if b then 1 else 0))
  | .int n => some (.inl n)
  | .float x => some (match x.toInt? with | some n => .inl n | none => .inr x)
  | _ => none

mutual

/-- When two keys of a dictionary are one: equal numbers of whatever type, texts and members
with the same text, the same choice, collections entry by entry. -/
def sameKey : Value → Value → Bool
  | .null, .null => true
  | .bytes s, .bytes t => s == t
  | .date d, .date e => d == e
  | .datetime d, .datetime e => d == e
  | .duration d, .duration e => d == e
  | .choice e l _, .choice f m _ => e == f && l == m
  | .classRef s, .classRef t => s == t
  | .tuple xs, .tuple ys => sameKeys xs ys
  | .list xs, .list ys => sameKeys xs ys
  | .record c xs, .record d ys => c.name == d.name && sameSlots xs ys
  | a, b =>
    match a.text?, b.text? with
    | some s, some t => s == t
    | none, none =>
      match a.keyNumber?, b.keyNumber? with
      | some (.inl n), some (.inl m) => n == m
      | some (.inr x), some (.inr y) => x.same y
      | _, _ => false
    | _, _ => false

def sameKeys : List Value → List Value → Bool
  | [], [] => true
  | x :: xs, y :: ys => sameKey x y && sameKeys xs ys
  | _, _ => false

def sameSlots : List (Slot Value) → List (Slot Value) → Bool
  | [], [] => true
  | ⟨n, _, x⟩ :: xs, ⟨m, _, y⟩ :: ys => n == m && sameKey x y && sameSlots xs ys
  | _, _ => false

end

mutual

/-- The type of the part that keeps a value from being a key or an item of a set: collections that
can change. -/
def unhashable? : Value → Option String
  | .list _ => some "list"
  | .set _ => some "set"
  | .dict _ => some "dict"
  | .tuple xs => firstUnhashable? xs
  | _ => none

def firstUnhashable? : List Value → Option String
  | [] => none
  | x :: xs => unhashable? x <|> firstUnhashable? xs

end

/-- Writes an entry of a dictionary: in its place if the key is there, else at the end. The key
that is there stays. -/
def putEntry : Entries → Value → Value → Entries
  | [], key, v => [(key, v)]
  | (k, w) :: es, key, v =>
    if k.sameKey key then (k, v) :: es else (k, w) :: putEntry es key v

/-- A dictionary from entries in which a key may occur again. -/
def dictOf (es : List (Value × Value)) : Value :=
  .dict (es.foldl (fun acc e => putEntry acc e.1 e.2) [])

/-- A set from values of which some may be the same. -/
def setOf (xs : List Value) : Value :=
  .set (xs.foldl (fun acc x => if acc.any (·.sameKey x) then acc else acc ++ [x]) [])

/-- The value of an entry with a text as key. -/
def findEntry? (es : Entries) (name : String) : Option Value :=
  (es.find? fun e => e.1.text? == some name).map Prod.snd

/-- The value of a property among the slots of a record; `null` where there is none. -/
def slotValue (slots : List (Slot Value)) (name : String) : Value :=
  ((slots.find? fun s => s.name == name).map Slot.value).getD .null

/-- The value of a property of a record. -/
def property? (name : String) : Value → Option Value
  | .record _ slots => (slots.find? fun s => s.name == name).map Slot.value
  | _ => none

/-- The value is a record of the named class or of one that extends it. -/
def isInstance (name : String) : Value → Bool
  | .record c _ => c.isA name
  | _ => false

/-- The classes of values that are no records. -/
def plainClasses : List String :=
  ["str", "int", "float", "bool", "bytes", "dict", "list", "tuple", "set", "frozenset", "date",
    "datetime", "timedelta", "NoneType", "none", "type"]

/-- The name of the type of a class; the classes of records have one of their own. -/
def classTypeName (name : String) : String :=
  if plainClasses.contains name then "type" else "ModelMetaclass"

/-- The name of the type of a value, as messages give it. -/
def typeName : Value → String
  | .null => "NoneType"
  | .bool _ => "bool"
  | .int _ => "int"
  | .float _ => "float"
  | .str _ => "str"
  | .bytes _ => "bytes"
  | .date _ => "date"
  | .datetime _ => "datetime"
  | .duration _ => "timedelta"
  | .member m => m.enumeration
  | .choice enumeration _ _ => enumeration
  | .classRef name => classTypeName name
  | .list _ => "list"
  | .tuple _ => "tuple"
  | .set _ => "set"
  | .dict _ => "dict"
  | .record c _ => c.name
  | .chain _ => "Criteria"

/-- The name of the type in full, as some messages give it. -/
def fullTypeName : Value → String
  | .date _ => "datetime.date"
  | .datetime _ => "datetime.datetime"
  | .duration _ => "datetime.timedelta"
  | v => v.typeName

/-- A value counts as given unless it is `null`, false, zero or empty. -/
def isGiven : Value → Bool
  | .null => false
  | .bool b => b
  | .int n => n != 0
  | .float x => !x.same Double.zero
  | .str s => !s.isEmpty
  | .bytes s => !s.isEmpty
  | .duration d => d.micros != 0
  | .member m => !m.value.isEmpty
  | .list xs => !xs.isEmpty
  | .tuple xs => !xs.isEmpty
  | .set xs => !xs.isEmpty
  | .dict es => !es.isEmpty
  | _ => true

/-- A text as the list of its characters. -/
def characters (s : String) : List Value := s.toList.map fun c => .str (String.ofList [c])

/-- The values that are visited when a value is gone through: the items of a collection, the
keys of a dictionary, the characters of a text, the numbers of bytes, the properties of a record
as pairs. -/
def elements? : Value → Option (List Value)
  | .list xs => some xs
  | .tuple xs => some xs
  | .set xs => some xs
  | .dict es => some (es.map Prod.fst)
  | .str s => some (characters s)
  | .member m => some (characters m.value)
  | .bytes s => some (s.toUTF8.toList.map fun b => .int b.toNat)
  | .record _ slots => some (slots.map fun s => .tuple [.str s.name, s.value])
  | _ => none

/-- The items of a list, tuple or set. -/
def collection? : Value → Option (List Value)
  | .list xs => some xs
  | .tuple xs => some xs
  | .set xs => some xs
  | _ => none

/-- The items of a list or tuple. -/
def sequence? : Value → Option (List Value)
  | .list xs => some xs
  | .tuple xs => some xs
  | _ => none

end Value

end SearchWire
