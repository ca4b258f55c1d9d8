import SearchWire.Number.Double

/-!
# Decimal text of numbers

The decimal digits of natural numbers and integers, and the shortest decimal that reads back
as a given floating-point number.

* `Decimal.natDigits`, `Decimal.intDigits`: digits of a natural number, of an integer.
* `Decimal.shortest`: the fewest digits that lie in the interval of reals nearest to the number,
  the nearest of them, with the place of the point.
* `Double.text`: how a floating-point number is written: positional from `0.0001` up to
  `10 ^ 16`, else with a power of ten.
-/

namespace SearchWire

namespace Decimal

/-- The decimal digits of a natural number, without leading zeros. -/
def natDigits (n : Nat) : List Char := Nat.toDigits 10 n

/-- The decimal digits of an integer, after a minus sign if it is negative. -/
def intDigits (n : Int) : List Char :=
  if n < 0 then '-' :: natDigits n.natAbs else natDigits n.natAbs

/-- A decimal number `0.d₁d₂… * 10 ^ point`. -/
structure Digits where
  digits : List Char
  point : Int
  deriving DecidableEq, Repr

/-- The place of the point of `n / d`, for `n / d` above `10 ^ (-400)`: the `p` with
`10 ^ (p - 1) ≤ n / d < 10 ^ p`. -/
def pointOf (n d : Nat) : Int := (natDigits (Nat.pow 10 400 * n / d)).length - 400

/-- The interval of reals that round to `m * 2 ^ e`, as its two ends over four times the
denominator of `Double.ratio`: a full half step above, a half step below, and half of that at a
power of two. -/
def interval (m : Nat) (e : Int) : Nat × Nat × Nat × Nat :=
  let (n, d) := Double.ratio m e
  let unit := n / m
  let below := if m = Nat.pow 2 52 && e != -1074 then unit else 2 * unit
  (4 * n - below, 4 * n, 4 * n + 2 * unit, 4 * d)

/-- The two neighbours of `n / d` on the grid of multiples of `10 ^ k`. -/
def neighbours (n d : Nat) (k : Int) : Nat × Nat :=
  let q := if 0 ≤ k then n / (d * Nat.pow 10 k.toNat) else n * Nat.pow 10 (-k).toNat / d
  (q, q + 1)

/-- `c * 10 ^ k` compared with `n / d`, both sides over one denominator. -/
def sides (c : Nat) (k : Int) (n d : Nat) : Nat × Nat :=
  if 0 ≤ k then (c * Nat.pow 10 k.toNat * d, n) else (c * d, n * Nat.pow 10 (-k).toNat)

/-- Whether `c * 10 ^ k` rounds to `m * 2 ^ e`; the ends of the interval do if `m` is even. -/
def hits (m : Nat) (e : Int) (c : Nat) (k : Int) : Bool :=
  let (low, _, high, d) := interval m e
  let (x, l) := sides c k low d
  let (y, h) := sides c k high d
  if m % 2 = 0 then l ≤ x && y ≤ h else l < x && y < h

/-- The distance of `c * 10 ^ k` from the number, over a denominator that depends on `k` alone. -/
def distance (m : Nat) (e : Int) (c : Nat) (k : Int) : Nat :=
  let (_, mid, _, d) := interval m e
  let (x, y) := sides c k mid d
  (x - y) + (y - x)

/-- The nearest hit with steps of `10 ^ k`, if one of the two neighbours hits. Of two equally
near ones the even one is taken. -/
def hitAt (m : Nat) (e : Int) (k : Int) : Option Nat :=
  let (n, d) := Double.ratio m e
  let (a, b) := neighbours n d k
  match hits m e a k, hits m e b k with
  | true, true =>
    let da := distance m e a k
    let db := distance m e b k
    some (if da < db || (da == db && a % 2 == 0) then a else b)
  | true, false => some a
  | false, true => some b
  | false, false => none

/-- Digits without the zeros at the end. -/
def dropTrailingZeros (cs : List Char) : List Char := (cs.reverse.dropWhile (· == '0')).reverse

/-- The fewest digits that read back as `m * 2 ^ e`, for `m` above zero. Seventeen always
suffice. -/
def shortest (m : Nat) (e : Int) : Digits :=
  let (n, d) := Double.ratio m e
  let p := pointOf n d
  let candidate := (List.range 17).findSome? fun (i : Nat) =>
    let k := p - 1 - i
    (hitAt m e k).map fun c => (c, k)
  let (c, k) := candidate.getD (n / d, 0)
  let ds := natDigits c
  ⟨dropTrailingZeros ds, ds.length + k⟩

end Decimal

namespace Double

/-- At least two digits, with the sign of the exponent in front. -/
def exponentText (e : Int) : List Char :=
  let ds := Decimal.natDigits e.natAbs
  (if e < 0 then '-' else '+') :: (if ds.length < 2 then '0' :: ds else ds)

/-- A positional number has a point with at least one digit on both sides; it is used from
`0.0001` up to `10 ^ 16`. Other numbers have one digit before the point and a power of ten. -/
def digitsText (x : Decimal.Digits) : List Char :=
  let ⟨ds, p⟩ := x
  if -4 < p && p ≤ 16 then
    if p ≤ 0 then '0' :: '.' :: (List.replicate (-p).toNat '0' ++ ds)
    else
      let whole := ds.take p.toNat
      let rest := ds.drop p.toNat
      whole ++ List.replicate (p.toNat - whole.length) '0' ++ '.' ::
        (if rest.isEmpty then ['0'] else rest)
  else
    let head := ds.take 1
    let rest := ds.drop 1
    head ++ (if rest.isEmpty then [] else '.' :: rest) ++ 'e' :: exponentText (p - 1)

/-- The words for the numbers that have no digits. -/
structure Words where
  nan : String
  infinity : String
  negativeInfinity : String

/-- The text of a number, with the given words for those that have no digits. -/
def textWith (words : Words) : Double → List Char
  | .finite negative 0 _ => if negative then ['-', '0', '.', '0'] else ['0', '.', '0']
  | .finite negative m e =>
    let t := digitsText (Decimal.shortest m e)
    if negative then '-' :: t else t
  | .infinite negative => (if negative then words.negativeInfinity else words.infinity).toList
  | .nan => words.nan.toList

/-- The words of messages and of query texts. -/
def plainWords : Words := ⟨"nan", "inf", "-inf"⟩

/-- The words of documents. -/
def documentWords : Words := ⟨"NaN", "Infinity", "-Infinity"⟩

/-- The text of a number in a message. -/
def text (x : Double) : List Char := textWith plainWords x

example : text (ofDecimal false 1 (-1)) = ['0', '.', '1'] := by decide +kernel
example : text (ofDecimal false 1 22) = ['1', 'e', '+', '2', '2'] := by decide +kernel
example : text (ofDecimal false 5 (-324)) = ['5', 'e', '-', '3', '2', '4'] := by decide +kernel
example : text (ofDecimal true 100 0) = ['-', '1', '0', '0', '.', '0'] := by decide +kernel

end Double

end SearchWire
