import SearchWire.Schema.Model

/-!
# Worded types

A type with a few values, each of which stands for a text in descriptors and in requests. In
data a value is given by its text or as a member of the enumeration of the type.

* `Worded`: the values, their texts and their labels.
* `Worded.ofText?`, `Worded.ofValue?`: the value that a text or a member stands for.
* `Worded.declaration`, `Worded.shape`, `Worded.value`: the enumeration, the shape of its members
  in data, and the member of a value.
-/

namespace SearchWire

class Worded (α : Type) where
  enumeration : String
  members : List α
  text : α → String
  label : α → String

namespace Worded

/-- A text in capitals, the usual label. -/
def capitals (s : String) : String := String.ofList (s.toList.map Char.toUpper)

variable {α : Type} [Worded α]

def ofText? (s : String) : Option α := (members : List α).find? fun a => text a == s

/-- The value that data gives by its text or as a member. -/
def ofValue? (v : Value) : Option α := v.text?.bind ofText?

/-- The member of a value. -/
def value (a : α) : Value := .member ⟨enumeration α, label a, text a⟩

/-- The enumeration of a type. -/
def declaration (α : Type) [Worded α] : Enumeration :=
  ⟨enumeration α, (members : List α).map fun a => (label a, text a)⟩

/-- The shape of the members of a type. -/
def shape (α : Type) [Worded α] : Shape := .member (enumeration α)

end Worded

end SearchWire
