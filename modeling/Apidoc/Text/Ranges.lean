namespace Apidoc.Text

/-- Membership in ascending ranges: the first range that ends at or after `n` decides. -/
def inRanges : List (Nat × Nat) → Nat → Bool
  | [], _ => false
  | (low, high) :: rest, n => if n ≤ high then decide (low ≤ n) else inRanges rest n

end Apidoc.Text
