import IceTouch.Library.Bytes
import Mathlib.Data.List.Lex
import Mathlib.Order.Lattice

/-!
# The order of byte strings

Strings are compared byte by byte, the bytes as unsigned numbers, as `std::string` compares
them. The instance is there only where the namespace is open.
-/

namespace IceTouch.ByteOrder

open Bytes

scoped instance linearOrderByte : LinearOrder Byte where
  le_refl := UInt8.le_refl
  le_trans _ _ _ := UInt8.le_trans
  le_antisymm _ _ := UInt8.le_antisymm
  le_total := UInt8.le_total
  lt_iff_le_not_ge first second := by
    rw [UInt8.lt_iff_toNat_lt, UInt8.le_iff_toNat_le, UInt8.le_iff_toNat_le]
    omega
  toDecidableLE := inferInstance

scoped instance (priority := high) linearOrderBytes : LinearOrder (List Byte) :=
  List.instLinearOrder

end IceTouch.ByteOrder
