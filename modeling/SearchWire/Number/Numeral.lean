import SearchWire.Number.Double
import SearchWire.Text.Digit

/-!
# Reading written numbers

Numbers as people write them: blanks around, a sign, single underscores between digits.

* `Numeral.digitRun`: the longest run of digits at the start of a text.
* `Numeral.integer?`: a whole number in the digits of any script.
* `Numeral.wholeNumber?`: a whole number in ASCII digits, possibly with a point and zeros.
* `Numeral.double?`: a number with point and exponent, or a word for one without digits.
-/

namespace SearchWire.Numeral

/-- The value of an ASCII digit. -/
def asciiDigit? (c : Char) : Option Nat := if c.isDigit then some (c.toNat - '0'.toNat) else none

/-- The digits after a first one: digits, each possibly after one underscore. -/
def moreDigits (digit? : Char → Option Nat) : List Char → List Nat × List Char
  | '_' :: c :: rest =>
    match digit? c with
    | some d => let (ds, r) := moreDigits digit? rest; (d :: ds, r)
    | none => ([], '_' :: c :: rest)
  | c :: rest =>
    match digit? c with
    | some d => let (ds, r) := moreDigits digit? rest; (d :: ds, r)
    | none => ([], c :: rest)
  | [] => ([], [])

/-- The longest run of digits at the start of a text, and what follows it. -/
def digitRun (digit? : Char → Option Nat) : List Char → List Nat × List Char
  | c :: rest =>
    match digit? c with
    | some d => let (ds, r) := moreDigits digit? rest; (d :: ds, r)
    | none => ([], c :: rest)
  | [] => ([], [])

/-- The number that decimal digits write. -/
def ofDigits (ds : List Nat) : Nat := ds.foldl (fun n d => 10 * n + d) 0

/-- Whether there is a minus sign, and the text after the sign. -/
def splitSign : List Char → Bool × List Char
  | '-' :: rest => (true, rest)
  | '+' :: rest => (false, rest)
  | cs => (false, cs)

def signed (negative : Bool) (n : Nat) : Int := if negative then -(n : Int) else n

/-- A whole number: blanks around it, a sign, digits of any script with single underscores
between them. -/
def integer? (s : String) : Option Int :=
  let (negative, cs) := splitSign (Text.trimBlanks s.toList)
  match digitRun Text.digitValue? cs with
  | ([], _) => none
  | (ds, []) => some (signed negative (ofDigits ds))
  | _ => none

/-- The longest text that data may give for a whole number, without the blanks around it. -/
def maxLength : Nat := 4300

/-- How many digits a text has. -/
def digitCount (s : String) : Nat := s.toList.countP fun c => (Text.digitValue? c).isSome

/-- A whole number in ASCII digits; a point after it may be followed by zeros only. -/
def wholeNumber? (s : String) : Option Int :=
  let (negative, cs) := splitSign (Text.trimBlanks s.toList)
  match digitRun asciiDigit? cs with
  | ([], _) => none
  | (ds, []) => some (signed negative (ofDigits ds))
  | (ds, '.' :: zeros) =>
    if zeros.all (· == '0') then some (signed negative (ofDigits ds)) else none
  | _ => none

/-- The exponent at the end of a number; none if the text there is not one. -/
def exponent? : List Char → Option Int
  | [] => some 0
  | c :: rest =>
    if c == 'e' || c == 'E' then
      let (negative, cs) := splitSign rest
      match digitRun Text.digitValue? cs with
      | ([], _) => none
      | (ds, []) => some (signed negative (ofDigits ds))
      | _ => none
    else none

/-- A number with digits: whole part, point and fraction, exponent; one digit at least. -/
def pointed? (negative : Bool) (cs : List Char) : Option Double :=
  let (whole, rest) := digitRun Text.digitValue? cs
  let (fraction, rest) :=
    match rest with
    | '.' :: more => digitRun Text.digitValue? more
    | _ => ([], rest)
  if whole.isEmpty && fraction.isEmpty then none
  else (exponent? rest).map fun e =>
    Double.ofDecimal negative (ofDigits (whole ++ fraction)) (e - fraction.length)

/-- A number, or one of the words for infinity and "not a number", with blanks around it. -/
def double? (s : String) : Option Double :=
  let (negative, cs) := splitSign (Text.trimBlanks s.toList)
  let word := String.ofList (cs.map Char.toLower)
  if word == "inf" || word == "infinity" then some (.infinite negative)
  else if word == "nan" then some .nan
  else pointed? negative cs

example : integer? " 1_000 " = some 1000 ∧ integer? "1__0" = none ∧ integer? "" = none := by
  decide +kernel
example : wholeNumber? "5.0" = some 5 ∧ wholeNumber? "1.5" = none := by decide +kernel
example : double? "1e3" = some (Double.ofInt 1000) ∧ double? "x" = none := by decide +kernel

end SearchWire.Numeral
