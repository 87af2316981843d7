/-!
# Intervals of code points

Character classes beyond ASCII are given as sorted lists of closed intervals.
-/

namespace Netconf.Text

/-- A closed interval of code points. -/
abbrev Interval := Nat × Nat

/-- Whether some interval of the list holds the code point. -/
def Interval.anyHolds (intervals : List Interval) (n : Nat) : Bool :=
  intervals.any fun i => i.1 ≤ n && n ≤ i.2

end Netconf.Text
