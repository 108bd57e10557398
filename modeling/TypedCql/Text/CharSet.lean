/-!
# Sets of characters

A set of characters is a list of ranges of code points in ascending order, so that looking a
character up may stop at the first range that starts beyond it.
-/

namespace TypedCql.Text

/-- Ranges of code points, both ends included, in ascending order. -/
abbrev CharSet := List (Nat × Nat)

/-- Whether a code point lies in one of the ranges. -/
def CharSet.contains : CharSet → Nat → Bool
  | [], _ => false
  | (first, last) :: rest, code =>
    if code < first then false
    else if code ≤ last then true
    else CharSet.contains rest code

end TypedCql.Text
