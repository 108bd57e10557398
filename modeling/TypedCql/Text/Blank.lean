import TypedCql.Text.CharSet

/-!
# White space

The characters with the Unicode property `White_Space`, and text freed of them at both ends.
-/

namespace TypedCql.Text

/-- The ranges of white space, in ascending order. -/
def blanks : CharSet := [
  (0x09, 0x0D), (0x20, 0x20), (0x85, 0x85), (0xA0, 0xA0), (0x1680, 0x1680), (0x2000, 0x200A),
  (0x2028, 0x2029), (0x202F, 0x202F), (0x205F, 0x205F), (0x3000, 0x3000)]

/-- Whether the character is white space. -/
def isBlank (c : Char) : Bool :=
  blanks.contains c.toNat

/-- The characters from the first visible one on. -/
def trimStart (cs : List Char) : List Char :=
  cs.dropWhile isBlank

/-- The characters between the first and the last visible one, these included. -/
def trim (cs : List Char) : List Char :=
  (trimStart (trimStart cs).reverse).reverse

end TypedCql.Text
