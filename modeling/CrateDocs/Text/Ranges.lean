namespace CrateDocs.Text

-- Ranges of code points, both ends included, in increasing order.
abbrev Ranges := List (Nat × Nat)

-- Whether a code point lies in one of the ranges. None can hold it after the first that starts beyond it.
def Ranges.holds (n : Nat) : Ranges → Bool
  | [] => false
  | (low, high) :: rest => low ≤ n && (n ≤ high || Ranges.holds n rest)

def Ranges.covers (table : Ranges) (c : Char) : Bool :=
  table.holds c.toNat

end CrateDocs.Text
