import Mathlib.Algebra.Order.Ring.Int

/-! Java's int arithmetic: results are reduced to 32 bits. -/
namespace Srvlog.Library

def int32 (n : Int) : Int := n.bmod (2 ^ 32)

theorem int32_of_range {n : Int} (hlow : -2 ^ 31 ≤ n) (hhigh : n < 2 ^ 31) : int32 n = n :=
  Int.bmod_eq_of_le_mul_two (by omega) (by omega)

end Srvlog.Library
