/-!
# Ranges of code points

Character classes and case maps are tables of intervals of code points. A table is
sorted, so a search ends at the first interval that lies beyond the character.
-/

namespace Bindings.Text

/-- Sorted intervals of code points, both ends included. -/
abbrev Ranges := List (Nat × Nat)

/-- Whether a code point lies in one of the intervals. -/
def Ranges.contains : Ranges → Nat → Bool
  | [], _ => false
  | (first, last) :: rest, n => !(n < first) && (n ≤ last || Ranges.contains rest n)

/-- The code points `first`, `first + stride`, … up to `last`, mapped in step to those from
    `target` on; written `(first, last, stride, target)`. -/
abbrev Shift := Nat × Nat × Nat × Nat

/-- The image of a code point under a sorted table of shifts, if it has one. -/
def shifted? : List Shift → Nat → Option Nat
  | [], _ => none
  | (first, last, stride, target) :: rest, n =>
    if n < first then none
    else if n ≤ last then
      if (n - first) % stride = 0 then some (target + (n - first)) else shifted? rest n
    else shifted? rest n

end Bindings.Text
