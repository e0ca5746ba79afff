import IceTouch.Library.Texts
import IceTouch.Strings.Escape

/-!
# The names of Slice definitions

An identifier as the scanner reads it, and a scoped name as the parser puts it together.
-/

namespace IceTouch.Slice

open Bytes WireTypes Escape Scanning Texts

/-- `[[:alpha:]_]`. -/
def isAlpha (char : Byte) : Bool := (65 ≤ char && char ≤ 90) || (97 ≤ char && char ≤ 122) || char = 95

/-- `[[:alnum:]_]`. -/
def isAlnum (char : Byte) : Bool := isAlpha char || isDigit char

def colon : Byte := 58

@[ext]
structure Identifier where
  name : Str
  first : ∃ char rest, name = char :: rest ∧ isAlpha char = true
  plain : ∀ char ∈ name, isAlnum char = true

/-- `scoped()`: identifiers, each with two colons before it. -/
@[ext]
structure Scoped where
  name : Str
  first : ∃ rest, name = colon :: rest
  plain : ∀ char ∈ name, (isAlnum char || char = colon) = true

instance : DecidableEq Identifier := fun _ _ => decidable_of_iff _ Identifier.ext_iff.symm

instance : DecidableEq Scoped := fun _ _ => decidable_of_iff _ Scoped.ext_iff.symm

theorem identifier_unambiguous : Unambiguous (Stops isAlnum) Identifier.name :=
  unambiguous_word Identifier.plain fun _ _ same => Identifier.ext same

end IceTouch.Slice
