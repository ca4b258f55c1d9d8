import SearchWire.Text.Quoted
import SearchWire.Value.Basic

/-!
# How values are shown

Messages show a value with quotes, brackets and the names of its classes; a text that is put
together from a value has the value's words instead, in which a text stands for itself.

* `Value.display`: a value in a message.
* `Value.words`: a value in a text.
-/

namespace SearchWire

/-- Texts with a separator between them. -/
def joinWith (separator : List Char) : List (List Char) → List Char
  | [] => []
  | [t] => t
  | t :: ts => t ++ separator ++ joinWith separator ts

namespace Date

/-- A date as the call that makes it. -/
def display (d : Date) : List Char :=
  "datetime.date(".toList ++
    joinWith [',', ' '] ([d.year, d.month, d.day].map Decimal.natDigits) ++ [')']

end Date

namespace Duration

/-- A duration as the call that makes it; parts that are zero are left out. -/
def display (d : Duration) : List Char :=
  let (days, seconds, micros) := d.parts
  let named (name : String) (n : Int) : List (List Char) :=
    if n = 0 then [] else [name.toList ++ '=' :: Decimal.intDigits n]
  let args := named "days" days ++ named "seconds" seconds ++ named "microseconds" micros
  "datetime.timedelta(".toList ++ (if args.isEmpty then ['0'] else joinWith [',', ' '] args) ++
    [')']

end Duration

namespace DateTime

/-- A date-time as the call that makes it; seconds and microseconds that are zero at the end are
left out. -/
def display (t : DateTime) : List Char :=
  let fraction :=
    if t.micro ≠ 0 then [t.second, t.micro] else if t.second ≠ 0 then [t.second] else []
  let numbers := [t.date.year, t.date.month, t.date.day, t.hour, t.minute] ++ fraction
  let zone :=
    match t.offset with
    | none => []
    | some 0 => ["tzinfo=datetime.timezone.utc".toList]
    | some offset =>
      ["tzinfo=datetime.timezone(".toList ++ Duration.display ⟨offset * 1000000⟩ ++ [')']]
  "datetime.datetime(".toList ++ joinWith [',', ' '] (numbers.map Decimal.natDigits ++ zone) ++
    [')']

/-- A date-time in a text: as in ISO, with a blank between date and time of day. -/
def words (t : DateTime) : List Char := t.text.map fun c => if c = 'T' then ' ' else c

end DateTime

/-- A member by its enumeration and label. -/
def choicePath (enumeration label : String) : List Char :=
  enumeration.toList ++ '.' :: label.toList

def Member.path (m : Member) : List Char := choicePath m.enumeration m.label

namespace Value

mutual

/-- A value as messages show it. -/
def display : Value → List Char
  | .null => "None".toList
  | .bool b => (if b then "True" else "False").toList
  | .int n => Decimal.intDigits n
  | .float x => x.text
  | .str s => Text.quote s
  | .bytes s => Text.quoteBytes s
  | .date d => d.display
  | .datetime t => t.display
  | .duration d => d.display
  | .member m => '<' :: m.path ++ ": ".toList ++ Text.quote m.value ++ ['>']
  | .choice e l v => '<' :: choicePath e l ++ ": ".toList ++ display v ++ ['>']
  | .classRef name => "<class ".toList ++ Text.quote name ++ ['>']
  | .list xs => '[' :: joinWith [',', ' '] (displayAll xs) ++ [']']
  | .tuple [x] => '(' :: display x ++ [',', ')']
  | .tuple xs => '(' :: joinWith [',', ' '] (displayAll xs) ++ [')']
  | .set [] => "set()".toList
  | .set xs => '\x7b' :: joinWith [',', ' '] (displayAll xs) ++ ['\x7d']
  | .dict es => '\x7b' :: joinWith [',', ' '] (displayEntries es) ++ ['\x7d']
  | .record c slots => c.name.toList ++ '(' :: joinWith [',', ' '] (displaySlots slots) ++ [')']
  | .chain _ => "Criteria".toList

def displayAll : List Value → List (List Char)
  | [] => []
  | x :: xs => display x :: displayAll xs

def displayEntries : List (Value × Value) → List (List Char)
  | [] => []
  | (k, v) :: es => (display k ++ ':' :: ' ' :: display v) :: displayEntries es

def displaySlots : List (Slot Value) → List (List Char)
  | [] => []
  | ⟨name, _, v⟩ :: slots => (name.toList ++ '=' :: display v) :: displaySlots slots

end

/-- A value as a text shows it: texts, dates and durations have no quotes and no calls around
them. -/
def words : Value → List Char
  | .str s => s.toList
  | .date d => d.text
  | .datetime t => t.words
  | .duration d => d.clockText
  | .member m => m.path
  | .choice e l _ => choicePath e l
  | .record _ slots => joinWith [' '] (displaySlots slots)
  | v => v.display

/-- The shown form as a text. -/
def shown (v : Value) : String := String.ofList v.display

end Value

end SearchWire
