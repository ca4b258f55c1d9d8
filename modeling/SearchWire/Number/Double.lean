/-!
# Binary floating-point numbers

The numbers that a 64-bit binary floating-point word can hold, as exact data: a sign, a
coefficient below `2 ^ 53` and a power of two. Nothing here rounds except `Double.ofRatio`,
which takes a quotient of natural numbers to the nearest such number, ties to the even
coefficient. Reading a decimal text and converting an integer are both that one step.

* `Double.ofRatio`, `Double.ofInt`: nearest number to a quotient, to an integer.
* `Double.toInt?`: the integer that a number is, if it is one.
* `Double.less`: comparison; false for "not a number".
* `Double.atMost`, `Double.atLeast`: comparison with an integer.
-/

namespace SearchWire

/-- A 64-bit binary floating-point number. A finite one is `± coefficient * 2 ^ exponent`, with
`exponent = -1074` for zero and the smallest numbers and `2 ^ 52 ≤ coefficient < 2 ^ 53`
above them. -/
inductive Double where
  | finite (negative : Bool) (coefficient : Nat) (exponent : Int)
  | infinite (negative : Bool)
  | nan
  deriving DecidableEq, Repr, Inhabited

namespace Double

def zero : Double := .finite false 0 (-1074)

/-- `n / d` rounded to the nearest integer, a tie to the even one. -/
def roundHalfEven (n d : Nat) : Nat :=
  let q := n / d
  let r := n % d
  if d < 2 * r || (2 * r == d && q % 2 == 1) then q + 1 else q

/-- `n / d / 2 ^ e` as a quotient of natural numbers. -/
def scaled (n d : Nat) (e : Int) : Nat × Nat :=
  if 0 ≤ e then (n, d * Nat.pow 2 e.toNat) else (n * Nat.pow 2 (-e).toNat, d)

/-- The exponent for which `n / d` has a coefficient of 53 bits, or the least one. -/
def exponentFor (n d : Nat) : Int :=
  let guess := max (-1074) ((Nat.log2 n : Int) - Nat.log2 d - 52)
  let (a, b) := scaled n d guess
  if a / b < Nat.pow 2 52 then max (-1074) (guess - 1) else guess

/-- The number nearest to `± n / d`, a tie to the even coefficient; infinite from the point on
where the largest number would round up. -/
def ofRatio (negative : Bool) (n d : Nat) : Double :=
  if n = 0 then .finite negative 0 (-1074) else
  let e := exponentFor n d
  let (a, b) := scaled n d e
  let m := roundHalfEven a b
  let (m, e) := if m = Nat.pow 2 53 then (Nat.pow 2 52, e + 1) else (m, e)
  if e > 971 then .infinite negative else .finite negative m e

/-- The number nearest to an integer. -/
def ofInt (n : Int) : Double := ofRatio (n < 0) n.natAbs 1

/-- The number nearest to `± digits * 10 ^ exponent`. Exponents beyond every number are cut
off before the power is taken. -/
def ofDecimal (negative : Bool) (digits : Nat) (exponent : Int) : Double :=
  if digits = 0 then .finite negative 0 (-1074)
  else if exponent > 400 then .infinite negative
  else if exponent + (Nat.log2 digits : Int) / 3 + 1 < -400 then .finite negative 0 (-1074)
  else if 0 ≤ exponent then ofRatio negative (digits * Nat.pow 10 exponent.toNat) 1
  else ofRatio negative digits (Nat.pow 10 (-exponent).toNat)

/-- A finite number as a sign and a quotient of natural numbers. -/
def ratio (coefficient : Nat) (exponent : Int) : Nat × Nat :=
  if 0 ≤ exponent then (coefficient * Nat.pow 2 exponent.toNat, 1)
  else (coefficient, Nat.pow 2 (-exponent).toNat)

/-- The integer that a number is, if it is one. -/
def toInt? : Double → Option Int
  | .finite negative m e =>
    let (n, d) := ratio m e
    if n % d = 0 then some (if negative then -((n / d : Nat) : Int) else (n / d : Nat)) else none
  | _ => none

def isFinite : Double → Bool
  | .finite .. => true
  | _ => false

/-- `x ≤ n`. -/
def atMost (n : Int) : Double → Bool
  | .finite negative m e =>
    let (a, d) := ratio m e
    (if negative then -(a : Int) else a) ≤ n * d
  | .infinite negative => negative
  | .nan => false

/-- `n ≤ x`. -/
def atLeast (n : Int) : Double → Bool
  | .finite negative m e =>
    let (a, d) := ratio m e
    n * d ≤ (if negative then -(a : Int) else a)
  | .infinite negative => !negative
  | .nan => false

/-- `x < y`. -/
def less : Double → Double → Bool
  | .finite s m e, .finite s' m' e' =>
    let (a, d) := ratio m e
    let (a', d') := ratio m' e'
    (if s then -(a : Int) else a) * d' < (if s' then -(a' : Int) else a') * d
  | .infinite s, .finite .. => s
  | .finite .., .infinite s => !s
  | .infinite s, .infinite s' => s && !s'
  | _, _ => false

/-- Equality of numbers: the two zeros are equal, "not a number" is equal to nothing. -/
def same : Double → Double → Bool
  | .finite s m e, .finite s' m' e' => (m == 0 && m' == 0) || (s == s' && m == m' && e == e')
  | .infinite s, .infinite s' => s == s'
  | _, _ => false

example : ofDecimal false 1 (-1) = .finite false 7205759403792794 (-56) := by decide +kernel
example : ofDecimal false 5 (-324) = .finite false 1 (-1074) := by decide +kernel
example : ofDecimal false 17976931348623157 292 = .finite false (2 ^ 53 - 1) 971 ∧
    ofDecimal false 17976931348623159 292 = .infinite false := by decide +kernel
example : toInt? (ofInt (-7)) = some (-7) := by decide +kernel

end Double

end SearchWire
