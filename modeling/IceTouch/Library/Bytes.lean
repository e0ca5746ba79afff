import Mathlib.Data.List.Basic
import Mathlib.Tactic.Ring
import Mathlib.Tactic.Linarith

/-!
# Byte strings

Little-endian words and in-place rewriting of a byte buffer. Nothing here names a
protocol: a word is a natural number cut to a number of bytes, and a rewrite overwrites
as many bytes as it is given, at a position that was reserved for them earlier.
-/

namespace IceTouch.Bytes

abbrev Byte := UInt8

/-- What is asked of all bytes in a list is decided for those in the list, not for all bytes
there are. -/
instance (priority := high) decidableForallBytes {p : Byte → Prop} [DecidablePred p]
    (s : List Byte) : Decidable (∀ char ∈ s, p char) :=
  List.decidableBAll p s

instance (priority := high) decidableForallByte {p : Byte → Prop} [DecidablePred p] :
    (s : Option Byte) → Decidable (∀ char ∈ s, p char)
  | none => isTrue nofun
  | some char => decidable_of_iff (p char) (by simp)

/-- What holds of the 256 values, one by one, holds of every byte. -/
@[elab_as_elim] theorem every_byte {p : Byte → Prop}
    (every : ∀ value : Fin 256, p (UInt8.ofNat value.val)) (byte : Byte) : p byte := by
  have here := every ⟨byte.toNat, byte.toNat_lt⟩
  rwa [UInt8.ofNat_toNat] at here

/-- The `width` low bytes of `value`, least significant first. -/
def encodeLE : Nat → Nat → List Byte
  | 0, _ => []
  | width + 1, value => UInt8.ofNat value :: encodeLE width (value / 256)

def decodeLE : List Byte → Nat
  | [] => 0
  | byte :: rest => byte.toNat + 256 * decodeLE rest

@[simp] theorem encode_le_length (width value : Nat) : (encodeLE width value).length = width := by
  induction width generalizing value with
  | zero => rfl
  | succ width ih => simp [encodeLE, ih]

theorem decode_le_encode (width value : Nat) :
    decodeLE (encodeLE width value) = value % 256 ^ width := by
  induction width generalizing value with
  | zero => simp [encodeLE, decodeLE, Nat.mod_one]
  | succ width ih =>
      have split := Nat.mod_mul (a := 256) (b := 256 ^ width) (x := value)
      rw [pow_succ, Nat.mul_comm, split]
      simp [encodeLE, decodeLE, ih]

theorem decode_le_lt (bytes : List Byte) : decodeLE bytes < 256 ^ bytes.length := by
  induction bytes with
  | nil => decide
  | cons byte rest ih =>
      have bound := byte.toNat_lt
      rw [decodeLE, List.length_cons, pow_succ]
      omega

/-- Only the low bytes of a value are written. -/
theorem encode_le_mod (width value : Nat) :
    encodeLE width (value % 256 ^ width) = encodeLE width value := by
  induction width generalizing value with
  | zero => rfl
  | succ width ih =>
      have low : UInt8.ofNat (value % 256 ^ (width + 1)) = UInt8.ofNat value := by
        apply UInt8.toNat_inj.mp
        simp only [UInt8.toNat_ofNat']
        exact Nat.mod_mod_of_dvd value (Dvd.intro_left (256 ^ width) rfl)
      have high : value % 256 ^ (width + 1) / 256 = value / 256 % 256 ^ width := by
        rw [pow_succ, Nat.mul_comm, Nat.mod_mul_right_div_self]
      rw [encodeLE, encodeLE, low, high, ih]

/-- Overwrite the bytes of `buffer` that start at `position`, one for each of `bytes`. -/
def rewriteAt (buffer : List Byte) (position : Nat) (bytes : List Byte) : List Byte :=
  buffer.take position ++ bytes ++ buffer.drop (position + bytes.length)

/-- Rewriting a hole of the right size replaces the hole and nothing else. -/
theorem rewrite_at_hole (before hole after bytes : List Byte)
    (sameLength : hole.length = bytes.length) :
    rewriteAt (before ++ hole ++ after) before.length bytes = before ++ bytes ++ after := by
  have taken : (before ++ hole ++ after).take before.length = before := by
    rw [List.append_assoc, List.take_left]
  have dropped : (before ++ hole ++ after).drop (before.length + bytes.length) = after := by
    rw [← sameLength, ← List.length_append, List.drop_left]
  rw [rewriteAt, taken, dropped]

theorem rewrite_at_length (buffer : List Byte) (position : Nat) (bytes : List Byte)
    (inside : position + bytes.length ≤ buffer.length) :
    (rewriteAt buffer position bytes).length = buffer.length := by
  simp only [rewriteAt, List.length_append, List.length_take, List.length_drop]
  omega

end IceTouch.Bytes
