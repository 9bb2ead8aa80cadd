/-! Sets of characters given by intervals of code points. -/

namespace Conductor.Text

/-- The ends of each interval, both of them in the set. -/
abbrev Intervals := List (Nat × Nat)

namespace Intervals

def contains (s : Intervals) (c : Char) : Bool :=
  s.any fun i => i.1 ≤ c.toNat && c.toNat ≤ i.2

end Intervals

end Conductor.Text
