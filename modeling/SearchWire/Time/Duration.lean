import SearchWire.Number.Decimal

/-!
# Durations

A duration is a whole number of microseconds. It has three texts: the time value of a request,
the ISO text of a document and the clock text of a query.

* `Duration.timeText`: a whole number of the coarsest of seconds, milliseconds and microseconds
  that divides the duration.
* `Duration.isoText`: years of 365 days, days, hours, minutes, seconds.
* `Duration.clockText`: days, then hours, minutes and seconds as on a clock.
* `TimeValue`: a duration, or a time value that was already written.
-/

namespace SearchWire

/-- A duration in microseconds; it may be negative. -/
structure Duration where
  micros : Int
  deriving DecidableEq, Repr, Inhabited

namespace Duration

/-- The time value of a request. Division rounds down, and is exact wherever it is used. -/
def timeText (d : Duration) : List Char :=
  if d.micros % 1000 ≠ 0 then Decimal.intDigits d.micros ++ "micros".toList
  else
    let millis := d.micros / 1000
    if millis % 1000 = 0 then Decimal.intDigits (millis / 1000) ++ ['s']
    else Decimal.intDigits millis ++ ['m', 's']

/-- Whole days, rounded down, and the seconds and microseconds above them. -/
def parts (d : Duration) : Int × Nat × Nat :=
  let day : Int := 86400000000
  let rest := (d.micros % day).toNat
  (d.micros / day, rest / 1000000, rest % 1000000)

/-- Zeros at the end of a fraction are dropped. -/
def fractionText (micros : Nat) : List Char :=
  let ds := Decimal.natDigits micros
  '.' :: Decimal.dropTrailingZeros (List.replicate (6 - ds.length) '0' ++ ds)

/-- A number with its unit; nothing for zero. -/
def unitText (n : Nat) (unit : Char) : List Char :=
  if n = 0 then [] else Decimal.natDigits n ++ [unit]

/-- The ISO text of a duration, such as `PT1.5S`; a year has 365 days. -/
def isoText (d : Duration) : List Char :=
  let a := d.micros.natAbs
  let days := a / 86400000000
  let seconds := a / 1000000 % 86400
  let micros := a % 1000000
  let time :=
    if seconds = 0 && micros = 0 then (if days = 0 then ['T', '0', 'S'] else [])
    else
      'T' :: unitText (seconds / 3600) 'H' ++ unitText (seconds / 60 % 60) 'M' ++
        (if seconds % 60 = 0 && micros = 0 then []
         else Decimal.natDigits (seconds % 60) ++
          (if micros = 0 then [] else fractionText micros) ++ ['S'])
  (if d.micros < 0 then ['-'] else []) ++ 'P' :: unitText (days / 365) 'Y' ++
    unitText (days % 365) 'D' ++ time

def twoDigits (n : Nat) : List Char :=
  let ds := Decimal.natDigits n
  if ds.length < 2 then '0' :: ds else ds

/-- The clock text of a duration, such as `1 day, 0:00:01.500000`. -/
def clockText (d : Duration) : List Char :=
  let (days, seconds, micros) := d.parts
  let dayText :=
    if days = 0 then []
    else Decimal.intDigits days ++ (if days.natAbs = 1 then " day, " else " days, ").toList
  let ds := Decimal.natDigits micros
  dayText ++ Decimal.natDigits (seconds / 3600) ++ ':' :: twoDigits (seconds / 60 % 60) ++ ':' ::
    twoDigits (seconds % 60) ++
    (if micros = 0 then [] else '.' :: (List.replicate (6 - ds.length) '0' ++ ds))

/-- The longest duration there is, in days. -/
def maxDays : Nat := 999999999

/-- `n / d` rounded to the nearest integer, a half away from zero. -/
def roundHalfUp (n d : Nat) : Nat := (2 * n + d) / (2 * d)

/-- A number of seconds as a duration, if it is not too long. -/
def ofSeconds? (n : Int) : Option Duration :=
  if n.natAbs / 86400 ≤ maxDays then some ⟨n * 1000000⟩ else none

/-- A floating-point number of seconds as a duration: the fraction in microseconds is rounded as
a floating-point product, then to the nearest integer, a half away from zero. -/
def ofDouble? : Double → Option Duration
  | .finite negative m e =>
    let (n, d) := Double.ratio m e
    let whole := n / d
    if whole / 86400 ≤ maxDays then
      let micros :=
        match Double.ofRatio false (n % d * 1000000) d with
        | .finite _ m e => let (a, b) := Double.ratio m e; roundHalfUp a b
        | _ => 0
      let total : Int := (whole * 1000000 + micros : Nat)
      some ⟨if negative then -total else total⟩
    else none
  | _ => none

example : timeText ⟨-1500000⟩ = "-1500ms".toList := by decide +kernel
example : isoText ⟨1500000⟩ = "PT1.5S".toList := by decide +kernel
example : clockText ⟨-1⟩ = "-1 day, 23:59:59.999999".toList := by decide +kernel

end Duration

/-- The timeout of a request: a duration, or the text of a time value. -/
inductive TimeValue where
  | span (d : Duration)
  | written (s : String)
  deriving DecidableEq, Repr

/-- A written time value is used as it is. -/
def TimeValue.text : TimeValue → String
  | .span d => String.ofList d.timeText
  | .written s => s

end SearchWire
