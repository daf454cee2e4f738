import Mathlib.Algebra.Group.Nat.Defs
import Mathlib.Data.List.Basic
import Mathlib.Tactic.Common

/-! Unsigned integers as a machine of either byte order has them in memory. -/
namespace Dote.Library

inductive ByteOrder where
  | little
  | big
  deriving DecidableEq, Repr

namespace ByteOrder

variable {order : ByteOrder}

def littleValue : List UInt8 → Nat
  | [] => 0
  | byte :: rest => byte.toNat + 256 * littleValue rest

def littleBytes : Nat → Nat → List UInt8
  | 0, _ => []
  | width + 1, value => UInt8.ofNat value :: littleBytes width (value / 256)

theorem length_littleBytes (width value : Nat) : (littleBytes width value).length = width := by
  induction width generalizing value with
  | zero => rfl
  | succ width ih => rw [littleBytes, List.length_cons, ih]

theorem littleValue_littleBytes {width value : Nat} (h : value < 256 ^ width) :
    littleValue (littleBytes width value) = value := by
  induction width generalizing value with
  | zero =>
    rw [Nat.pow_zero, Nat.lt_one_iff] at h
    rw [h]
    rfl
  | succ width ih =>
    have hrest : value / 256 < 256 ^ width := by
      rw [Nat.div_lt_iff_lt_mul (by decide)]
      exact h
    rw [littleBytes, littleValue, ih hrest, UInt8.toNat_ofNat']
    omega

def value : ByteOrder → List UInt8 → Nat
  | little, bytes => littleValue bytes
  | big, bytes => littleValue bytes.reverse

def encode : ByteOrder → Nat → Nat → List UInt8
  | little, width, value => littleBytes width value
  | big, width, value => (littleBytes width value).reverse

@[simp] theorem length_encode (width value : Nat) : (order.encode width value).length = width := by
  cases order with
  | little => exact length_littleBytes width value
  | big => rw [encode, List.length_reverse, length_littleBytes]

theorem value_encode {width value : Nat} (h : value < 256 ^ width) :
    order.value (order.encode width value) = value := by
  cases order with
  | little => exact littleValue_littleBytes h
  | big => rw [encode, ByteOrder.value, List.reverse_reverse, littleValue_littleBytes h]

end ByteOrder

end Dote.Library
