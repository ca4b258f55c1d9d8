import SearchWire.Value.Display

/-!
# Records as plain data

A record leaves the library as an object with its document names, without the properties that
are not set; where it stands for one of a class it extends, only the properties of that class are
shown. There are two forms: the wire form keeps every other value as it is, the document form has
only what a document can hold.

* `Value.wireForm`: records become objects, everything else stays.
* `Value.documentForm?`: everything becomes plain data, if it can.
* `Value.translation`, `Value.engineForm?`: a single value as it is put into a clause.
* `Value.height`: how deep a value is.
-/

namespace SearchWire.Value

mutual

/-- Records as objects by their document names, properties that are not set left out. -/
def wireForm : Value → Value
  | .list xs => .list (wireForms xs)
  | .tuple xs => .tuple (wireForms xs)
  | .set xs => .set (wireForms xs)
  | .dict es => .dict (wireEntries es)
  | .record c slots => object (Fields.ofList (wireSlots c.shows slots))
  | v => v

def wireForms : List Value → List Value
  | [] => []
  | x :: xs => wireForm x :: wireForms xs

def wireEntries : List (Value × Value) → List (Value × Value)
  | [] => []
  | (k, v) :: es => (k, wireForm v) :: wireEntries es

/-- The properties that are set and shown, by their document names. -/
def wireSlots (shows : String → Bool) : List (Slot Value) → Fields
  | [] => []
  | ⟨name, wire, v⟩ :: slots =>
    if v.isNull || !shows name then wireSlots shows slots
    else (wire, wireForm v) :: wireSlots shows slots

end

mutual

/-- The text of a key of an object in a document. -/
def documentKey? : Value → Option String
  | .null => some "None"
  | .bool b => some (if b then "true" else "false")
  | .int n => some (String.ofList (Decimal.intDigits n))
  | .float x => some (String.ofList x.text)
  | .str s => some s
  | .member m => some m.value
  | .choice _ _ v => documentKey? v
  | .bytes s => some s
  | .date d => some (String.ofList d.text)
  | .datetime t => some (String.ofList t.documentText)
  | .duration d => some (String.ofList d.isoText)
  | .tuple xs => (documentKeys? xs).map fun ks => String.intercalate "," ks
  | _ => none

def documentKeys? : List Value → Option (List String)
  | [] => some []
  | x :: xs => do some ((← documentKey? x) :: (← documentKeys? xs))

end

mutual

/-- Plain data: members as their texts, dates and durations as ISO texts, collections as lists,
numbers that have no digits as `null`, records as objects without the properties that are not
set. -/
def documentForm? : Value → Option Value
  | .float x => some (if x.isFinite then .float x else .null)
  | .bytes s => some (.str s)
  | .date d => some (.str (String.ofList d.text))
  | .datetime t => some (.str (String.ofList t.documentText))
  | .duration d => some (.str (String.ofList d.isoText))
  | .member m => some (.str m.value)
  | .choice _ _ v => documentForm? v
  | .list xs => (documentForms? xs).map .list
  | .tuple xs => (documentForms? xs).map .list
  | .set xs => (documentForms? xs).map .list
  | .dict es => (documentEntries? es).map fun fs => object (Fields.ofList fs)
  | .record c slots => (documentSlots? c.shows slots).map fun fs => object (Fields.ofList fs)
  | .classRef _ => none
  | .chain _ => none
  | v => some v

def documentForms? : List Value → Option (List Value)
  | [] => some []
  | x :: xs => do some ((← documentForm? x) :: (← documentForms? xs))

def documentEntries? : List (Value × Value) → Option Fields
  | [] => some []
  | (k, v) :: es => do some ((← documentKey? k, ← documentForm? v) :: (← documentEntries? es))

/-- The properties that are set and shown, as plain data by their document names. -/
def documentSlots? (shows : String → Bool) : List (Slot Value) → Option Fields
  | [] => some []
  | ⟨name, wire, v⟩ :: slots =>
    if v.isNull || !shows name then documentSlots? shows slots
    else do some ((wire, ← documentForm? v) :: (← documentSlots? shows slots))

end

/-- The coordinates of a point, by name. -/
def pointForm (v : Value) : Value :=
  object [("lat", (v.property? "lat").getD .null), ("lon", (v.property? "lon").getD .null)]

/-- What a single value is translated to where it is put into a clause or a document. -/
inductive Translation where
  /-- The value stays as it is. -/
  | kept
  /-- The value is put there in another form. -/
  | form (w : Value)
  /-- The value has no plain form. -/
  | failed

/-- Members are translated to their values, dates to their ISO texts, points to their coordinates,
other records to plain data; everything else stays as it is. -/
def translation : Value → Translation
  | .member m => .form (.str m.value)
  | .choice _ _ v => .form v
  | .date d => .form (.str (String.ofList d.text))
  | .datetime t => .form (.str (String.ofList t.text))
  | .record c slots =>
    if c.isA "GeoPoint" then .form (pointForm (.record c slots))
    else match documentForm? (.record c slots) with
      | some w => .form w
      | none => .failed
  | _ => .kept

/-- A value as a clause has it. -/
def engineForm? (v : Value) : Option Value :=
  match translation v with
  | .kept => some v
  | .form w => some w
  | .failed => none

mutual

/-- How deep a value is: how its lists and objects, and what is translated, nest within one
another. -/
def height : Value → Nat
  | .null | .bool _ | .int _ | .float _ | .str _ | .member _ => 0
  | .list xs => heightAll xs + 1
  | .tuple xs => heightAll xs + 1
  | .set xs => heightAll xs + 1
  | .dict es => heightEntries es + 1
  | .record _ slots => heightSlots slots + 2
  | .choice _ _ v => height v + 1
  | _ => 1

def heightAll : List Value → Nat
  | [] => 0
  | x :: xs => max (height x) (heightAll xs)

def heightEntries : List (Value × Value) → Nat
  | [] => 0
  | (_, v) :: es => max (height v) (heightEntries es)

def heightSlots : List (Slot Value) → Nat
  | [] => 0
  | ⟨_, _, v⟩ :: slots => max (height v) (heightSlots slots)

end

end SearchWire.Value
