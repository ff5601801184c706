/-!
# Tables of ranges

A property of characters is kept as a table of the ranges of code points that have it, in ascending
order, and asked for by halving the table.
-/

set_option autoImplicit false

namespace Stencil.Text

/-- Whether a code point lies in one of the ranges from index `low` up to, not including, `high`;
the ranges are in order, so half of them are left out at each step. -/
def inRanges (ranges : Array (Nat × Nat)) (point low high : Nat) : Bool :=
  if low < high then
    let middle := (low + high) / 2
    match ranges[middle]? with
    | none => false
    | some (first, last) =>
      if point < first then inRanges ranges point low middle
      else if last < point then inRanges ranges point (middle + 1) high
      else true
  else false
termination_by high - low
decreasing_by all_goals omega

end Stencil.Text
