-- Classes of characters given by ranges of code points, both ends included.

namespace SchemaLedger

/-- A class of characters: the ranges of code points that it holds. -/
structure CharClass where
  ranges : List (Nat × Nat)

namespace CharClass

/-- Some range of the class holds the character. -/
def holds (k : CharClass) (c : Char) : Bool :=
  k.ranges.any fun (lo, hi) => lo ≤ c.toNat && c.toNat ≤ hi

theorem holds_iff (k : CharClass) (c : Char) :
    k.holds c = true ↔ ∃ r ∈ k.ranges, r.1 ≤ c.toNat ∧ c.toNat ≤ r.2 := by
  simp [holds, List.any_eq_true]

end CharClass
end SchemaLedger
