import SearchWire.Number.Decimal
import SearchWire.Number.Numeral

/-!
# Dates and times of day

Calendar dates and date-times with an optional distance from universal time, with their ISO
texts.

* `Date.text`, `DateTime.text`: the ISO text; the fraction has six digits or is left out.
* `DateTime.documentText`: the same, with `Z` for universal time.
* `Date.ofText?`, `DateTime.ofText?`: reading such a text back.
-/

namespace SearchWire

structure Date where
  year : Nat
  month : Nat
  day : Nat
  deriving DecidableEq, Repr, Inhabited

/-- A date with a time of day; `offset` is the distance from universal time in seconds. -/
structure DateTime where
  date : Date
  hour : Nat
  minute : Nat
  second : Nat
  micro : Nat
  offset : Option Int
  deriving DecidableEq, Repr, Inhabited

namespace Date

/-- Digits with zeros in front, at least `width` of them. -/
def padded (width n : Nat) : List Char :=
  let ds := Decimal.natDigits n
  List.replicate (width - ds.length) '0' ++ ds

def isLeap (year : Nat) : Bool := year % 4 == 0 && (year % 100 != 0 || year % 400 == 0)

def daysIn (year month : Nat) : Nat :=
  if month == 2 then (if isLeap year then 29 else 28)
  else if month == 4 || month == 6 || month == 9 || month == 11 then 30 else 31

/-- The date exists in the calendar. -/
def exists? (d : Date) : Bool :=
  1 ≤ d.year && d.year ≤ 9999 && 1 ≤ d.month && d.month ≤ 12 && 1 ≤ d.day &&
    d.day ≤ daysIn d.year d.month

/-- The ISO text of a date, such as `2020-01-31`. -/
def text (d : Date) : List Char :=
  padded 4 d.year ++ '-' :: padded 2 d.month ++ '-' :: padded 2 d.day

/-- A number of exactly `width` ASCII digits, and the text after it. -/
def fixed? (width : Nat) (cs : List Char) : Option (Nat × List Char) :=
  match (cs.take width).mapM Numeral.asciiDigit? with
  | some ds => if ds.length = width then some (Numeral.ofDigits ds, cs.drop width) else none
  | none => none

/-- The text after an expected character. -/
def after? (c : Char) : List Char → Option (List Char)
  | x :: rest => if x = c then some rest else none
  | [] => none

/-- A date at the start of a text, and what follows it. -/
def read? (cs : List Char) : Option (Date × List Char) := do
  let (year, cs) ← fixed? 4 cs
  let (month, cs) ← fixed? 2 (← after? '-' cs)
  let (day, cs) ← fixed? 2 (← after? '-' cs)
  let d : Date := ⟨year, month, day⟩
  if d.exists? then some (d, cs) else none

def ofText? (s : String) : Option Date :=
  match read? s.toList with
  | some (d, []) => some d
  | _ => none

end Date

namespace DateTime

/-- The sign, hours and minutes of a distance from universal time, with seconds if any. -/
def offsetText (offset : Int) : List Char :=
  let a := offset.natAbs
  (if offset < 0 then '-' else '+') :: Date.padded 2 (a / 3600) ++ ':' ::
    Date.padded 2 (a / 60 % 60) ++
    (if a % 60 = 0 then [] else ':' :: Date.padded 2 (a % 60))

/-- Date and time of day, without the distance from universal time. -/
def localText (t : DateTime) : List Char :=
  t.date.text ++ 'T' :: Date.padded 2 t.hour ++ ':' :: Date.padded 2 t.minute ++ ':' ::
    Date.padded 2 t.second ++ (if t.micro = 0 then [] else '.' :: Date.padded 6 t.micro)

/-- The ISO text of a date-time. -/
def text (t : DateTime) : List Char :=
  t.localText ++ (t.offset.map offsetText).getD []

/-- The ISO text in a document: universal time is written `Z`. -/
def documentText (t : DateTime) : List Char :=
  t.localText ++
    match t.offset with
    | none => []
    | some 0 => ['Z']
    | some offset => offsetText offset

/-- A fraction of a second in microseconds; digits after the sixth are dropped. -/
def fraction? : List Char → Option (Nat × List Char)
  | '.' :: cs =>
    let ds := cs.takeWhile Char.isDigit
    if ds.isEmpty then none
    else
      (Date.fixed? 6 ((ds ++ List.replicate 6 '0').take 6)).map fun (n, _) =>
        (n, cs.dropWhile Char.isDigit)
  | cs => some (0, cs)

/-- A distance from universal time at the end of a text. -/
def offset? : List Char → Option (Option Int)
  | [] => some none
  | ['Z'] => some (some 0)
  | ['z'] => some (some 0)
  | c :: cs => do
    if c ≠ '+' ∧ c ≠ '-' then none
    let (hours, cs) ← Date.fixed? 2 cs
    let (minutes, cs) ← Date.fixed? 2 ((Date.after? ':' cs).getD cs)
    let seconds ← match cs with
      | [] => some 0
      | cs => do
        let (s, rest) ← Date.fixed? 2 (← Date.after? ':' cs)
        if rest.isEmpty then some s else none
    if hours > 23 || minutes > 59 || seconds > 59 then none
    let total : Int := (hours * 3600 + minutes * 60 + seconds : Nat)
    some (some (if c = '-' then -total else total))

/-- A date-time: date, one of `T`, `t`, `_` or a blank, time of day with or without seconds,
distance from universal time. -/
def ofText? (s : String) : Option DateTime := do
  let (date, cs) ← Date.read? s.toList
  match cs with
  | [] => none
  | separator :: cs =>
    if separator ≠ 'T' ∧ separator ≠ 't' ∧ separator ≠ ' ' ∧ separator ≠ '_' then none
    let (hour, cs) ← Date.fixed? 2 cs
    let (minute, cs) ← Date.fixed? 2 (← Date.after? ':' cs)
    let (second, cs) ← match Date.after? ':' cs with
      | some cs => Date.fixed? 2 cs
      | none => some (0, cs)
    let (micro, cs) ← fraction? cs
    let offset ← offset? cs
    if hour > 23 || minute > 59 || second > 59 then none
    some ⟨date, hour, minute, second, micro, offset⟩

/-- The start of a day. -/
def midnight (d : Date) : DateTime := ⟨d, 0, 0, 0, 0, none⟩

def isMidnight (t : DateTime) : Bool :=
  t.hour == 0 && t.minute == 0 && t.second == 0 && t.micro == 0

end DateTime

end SearchWire
