/-
Numbers in octets. A number of so many octets is less than the power of 256
that they can tell apart, whichever of them comes first.
-/
import Mathlib.Algebra.Group.Nat.Defs
import SymbolGraph.Bytes

namespace SymbolGraph.Bytes

theorem littleAt_lt (b : ByteArray) (offset width : Nat) :
    littleAt b offset width < 256 ^ width := by
  induction width generalizing offset with
  | zero => exact Nat.one_pos
  | succ width ih =>
      have hoctet := ((octet? b offset).getD 0).toNat_lt
      have hrest := ih (offset + 1)
      unfold littleAt
      rw [Nat.pow_succ]
      omega

theorem bigAt_lt (b : ByteArray) (offset width : Nat) :
    bigAt b offset width < 256 ^ width := by
  induction width with
  | zero => exact Nat.one_pos
  | succ width ih =>
      have hoctet := ((octet? b (offset + width)).getD 0).toNat_lt
      unfold bigAt
      rw [Nat.pow_succ]
      omega

theorem lt_of_number? {order : ByteOrder} {b : ByteArray} {offset width n : Nat}
    (h : number? order b offset width = some n) : n < 256 ^ width := by
  unfold number? at h
  split at h
  case isTrue =>
    cases order with
    | little =>
        cases h
        exact littleAt_lt b offset width
    | big =>
        cases h
        exact bigAt_lt b offset width
  case isFalse => cases h

/-- A number lies within the octets. -/
theorem le_of_number? {order : ByteOrder} {b : ByteArray} {offset width n : Nat}
    (h : number? order b offset width = some n) : offset + width ≤ b.size := by
  unfold number? at h
  split at h
  case isTrue hroom => exact hroom
  case isFalse => cases h

/-- What is cut out is as long as asked for. -/
theorem size_of_range? {b octets : ByteArray} {offset length : Nat}
    (h : range? b offset length = some octets) : octets.size = length := by
  unfold range? at h
  split at h
  case isTrue =>
    cases h
    rw [ByteArray.size_extract]
    omega
  case isFalse => cases h

end SymbolGraph.Bytes
