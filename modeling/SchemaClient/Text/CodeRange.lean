/-!
# Tables of code points

A character class is a sorted list of ranges of code points, or of progressions where upper and
lower case alternate. Membership stops at the first range past the code point.
-/

namespace SchemaClient.Text

/-- Membership in ranges given in ascending order, both ends included. -/
def inRanges (n : Nat) : List (Nat × Nat) → Bool
  | [] => false
  | (low, high) :: rest => if n < low then false else n ≤ high || inRanges n rest

/-- Every `step`th code point from `first` to `last`. -/
structure Progression where
  first : Nat
  last : Nat
  step : Nat

def Progression.contains (p : Progression) (n : Nat) : Bool :=
  p.first ≤ n && n ≤ p.last && (n - p.first) % p.step == 0

def inProgressions (n : Nat) : List Progression → Bool
  | [] => false
  | p :: rest => if n < p.first then false else p.contains n || inProgressions n rest

end SchemaClient.Text
