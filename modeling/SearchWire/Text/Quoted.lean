import SearchWire.Text.Printable

/-!
# Quoted text

A text between quotes, as messages show it: single quotes, or double quotes if the text holds
single ones and no double ones. The quote and the backslash are escaped, and so is every
character that is not printable.

* `quote`: the quoted text.
* `quoteBytes`: the same for bytes, where only ASCII is printable.
* `hexDigits`: a number in a fixed count of hexadecimal digits.
-/

namespace SearchWire.Text

/-- The last `width` hexadecimal digits of a number. -/
def hexDigits (width n : Nat) : List Char :=
  (List.range width).reverse.map fun i => Nat.digitChar (n / Nat.pow 16 i % 16)

/-- The quote that needs the fewest escapes: double only if single ones occur and double ones
do not. -/
def quoteMark (cs : List Char) : Char :=
  if cs.contains '\'' && !cs.contains '"' then '"' else '\''

/-- The escapes that both kinds of quoted text share. -/
def commonEscape? (mark c : Char) : Option (List Char) :=
  if c = mark || c = '\\' then some ['\\', c]
  else if c = '\t' then some ['\\', 't']
  else if c = '\n' then some ['\\', 'n']
  else if c = '\r' then some ['\\', 'r']
  else none

/-- A character within a quoted text. -/
def quoteChar (mark c : Char) : List Char :=
  match commonEscape? mark c with
  | some cs => cs
  | none =>
    if isPrintable c then [c]
    else if c.toNat < 0x100 then '\\' :: 'x' :: hexDigits 2 c.toNat
    else if c.toNat < 0x10000 then '\\' :: 'u' :: hexDigits 4 c.toNat
    else '\\' :: 'U' :: hexDigits 8 c.toNat

/-- A text between quotes. -/
def quote (s : String) : List Char :=
  let cs := s.toList
  let mark := quoteMark cs
  mark :: cs.flatMap (quoteChar mark) ++ [mark]

/-- A byte within quoted bytes. -/
def quoteByte (mark : Char) (b : UInt8) : List Char :=
  let c := Char.ofNat b.toNat
  match commonEscape? mark c with
  | some cs => cs
  | none => if 0x20 ≤ b && b < 0x7f then [c] else '\\' :: 'x' :: hexDigits 2 b.toNat

/-- The UTF-8 bytes of a text between quotes. -/
def quoteBytes (s : String) : List Char :=
  let mark := quoteMark s.toList
  'b' :: mark :: s.toUTF8.toList.flatMap (quoteByte mark) ++ [mark]

example : quote "it's" = "\"it's\"".toList ∧ quote "a\n" = "'a\\n'".toList := by decide +kernel

end SearchWire.Text
