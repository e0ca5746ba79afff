import IceTouch.Transfer

/-!
# Buffers

The buffer of a `BasicStream` on the writing side: memory that a resize adds holds any bytes, and
a stream that is not unlimited raises `MemoryLimitException` in `resize`. On the reading side,
what the readers take when the bytes lie next in a buffer of any length.
-/

namespace IceTouch.Buffers

open Bytes OutStream WireTypes StreamHelpers InStream
open Transfer Run

inductive WriteFailure where
  | memoryLimit (requested maximum : Nat)
  | outsideBuffer
  | encapsulation
  | unsupportedEncoding
  | assertion
deriving DecidableEq, Repr

/-- `_messageSizeMax` unless the stream is unlimited, and what the memory holds that a resize adds
to a buffer. -/
structure Memory where
  limit : Option Nat
  junk : List Byte → Nat → Byte

/-- `Container::resize`. -/
def Memory.grow (memory : Memory) (size : Nat) (b : List Byte) : List Byte :=
  b.take size ++ (List.range (size - b.length)).map (memory.junk b)

/-- `BasicStream::resize`. -/
def Memory.resize (memory : Memory) (size : Nat) (b : List Byte) : Except WriteFailure (List Byte) :=
  match memory.limit with
  | some maximum =>
      if maximum < size then .error (.memoryLimit size maximum) else .ok (memory.grow size b)
  | none => .ok (memory.grow size b)

/-- `write(Ice::Int)`. -/
def writeInt (memory : Memory) (value : Int) (b : List Byte) : Except WriteFailure (List Byte) := do
  let grown ← memory.resize (b.length + 4) b
  pure (rewriteAt grown b.length (intBytes value))

/-- `writeBlob(const Ice::Byte*, size_type)`. -/
def writeBlob (memory : Memory) (v : List Byte) (b : List Byte) : Except WriteFailure (List Byte) :=
  if 0 < v.length then do
    let grown ← memory.resize (b.length + v.length) b
    pure (rewriteAt grown b.length v)
  else
    pure b

/-- The result is a value, or the limit was exceeded by a size of at most `bound`. -/
def Gives {α : Type} (memory : Memory) (bound : Nat) (result : Except WriteFailure α) (value : α) :
    Prop :=
  result = .ok value ∨ ∃ requested maximum, memory.limit = some maximum ∧ maximum < requested ∧
    requested ≤ bound ∧ result = .error (.memoryLimit requested maximum)

section Gives

variable {α β : Type} {memory : Memory} {bound larger : Nat} {b : List Byte}

theorem gives_pure (value : α) : Gives memory bound (pure value) value := Or.inl rfl

theorem Gives.bind {first : Except WriteFailure α} {next : α → Except WriteFailure β} {value : α}
    {result : β} (begun : Gives memory bound first value) (continued : Gives memory bound (next value) result) :
    Gives memory bound (first >>= next) result := by
  rcases begun with rfl | ⟨requested, maximum, limited, exceeded, bounded, rfl⟩
  · exact continued
  · exact Or.inr ⟨requested, maximum, limited, exceeded, bounded, rfl⟩

theorem Gives.mono {result : Except WriteFailure α} {value : α} (gives : Gives memory bound result value)
    (more : bound ≤ larger) : Gives memory larger result value := by
  apply gives.imp_right
  rintro ⟨requested, maximum, limited, exceeded, bounded, failed⟩
  exact ⟨requested, maximum, limited, exceeded, bounded.trans more, failed⟩

theorem gives_resize (size : Nat) : Gives memory size (memory.resize size b) (memory.grow size b) := by
  unfold Memory.resize
  split
  · next maximum limited =>
      split
      · next exceeded => exact Or.inr ⟨size, maximum, limited, exceeded, Nat.le_refl _, rfl⟩
      · exact Or.inl rfl
  · exact Or.inl rfl

end Gives

section Writing

variable {memory : Memory} {b : List Byte}

theorem grow_more (count : Nat) :
    ∃ added : List Byte, added.length = count ∧ memory.grow (b.length + count) b = b ++ added := by
  refine ⟨(List.range (b.length + count - b.length)).map (memory.junk b), ?_, ?_⟩
  · simp
  · rw [Memory.grow, List.take_of_length_le (Nat.le_add_right _ _)]

theorem grow_less {left right : List Byte} :
    memory.grow left.length (left ++ right) = left := by
  simp [Memory.grow]

theorem rewrite_behind (before hole bytes : List Byte) :
    rewriteAt (before ++ hole) before.length bytes = before ++ bytes ++ hole.drop bytes.length := by
  simp [rewriteAt, List.drop_append]

theorem gives_filled (bytes : List Byte) :
    Gives memory (b.length + bytes.length)
      (do
        let grown ← memory.resize (b.length + bytes.length) b
        pure (rewriteAt grown b.length bytes)) (b ++ bytes) := by
  obtain ⟨added, many, grown⟩ := @grow_more memory b bytes.length
  have resized := @gives_resize memory b (b.length + bytes.length)
  rw [grown] at resized
  apply resized.bind
  rw [rewrite_behind, List.drop_eq_nil_of_le (Nat.le_of_eq many), List.append_nil]
  exact gives_pure _

theorem gives_int (value : Int) :
    Gives memory (b.length + 4) (writeInt memory value b) (b ++ intBytes value) := by
  have filled := @gives_filled memory b (intBytes value)
  rw [int_bytes_length] at filled
  exact filled

theorem gives_blob (bytes : List Byte) :
    Gives memory (b.length + bytes.length) (writeBlob memory bytes b) (b ++ bytes) := by
  unfold writeBlob
  split
  · exact gives_filled bytes
  · next empty =>
      rw [List.length_eq_zero_iff.mp (Nat.eq_zero_of_not_pos empty), List.append_nil]
      exact gives_pure _

end Writing

section Reading

variable {δ : Type} {stream : ReadStream δ} {bytes rest : List Byte}

def Next (stream : ReadStream δ) (bytes rest : List Byte) : Prop :=
  stream.pos ≤ stream.buf.length ∧ stream.buf.drop stream.pos = bytes ++ rest

theorem Next.first {right : List Byte} (next : Next stream (bytes ++ right) rest) :
    Next stream bytes (right ++ rest) := by
  obtain ⟨inside, ahead⟩ := next
  rw [List.append_assoc] at ahead
  exact ⟨inside, ahead⟩

theorem Next.advance {right : List Byte} (next : Next stream (bytes ++ right) rest) :
    Next (stream.advance bytes.length) right rest := by
  obtain ⟨inside, ahead⟩ := next
  have lengths := congrArg List.length ahead
  simp only [List.length_drop, List.length_append] at lengths
  constructor
  · change stream.pos + bytes.length ≤ stream.buf.length
    omega
  · change stream.buf.drop (stream.pos + bytes.length) = right ++ rest
    rw [← List.drop_drop, ahead, List.append_assoc, List.drop_left]

theorem read_byte_next {byte : Byte} (next : Next stream [byte] rest) :
    readByte stream = .ok byte (stream.advance 1) := by
  have found : stream.buf[stream.pos]? = some byte := by
    have start := congrArg (fun bytes => bytes[0]?) next.2
    simpa [List.getElem?_drop] using start
  simp [readByte, found]

theorem next_inside (next : Next stream bytes rest) : stream.pos + bytes.length ≤ stream.buf.length := by
  have lengths := congrArg List.length next.2
  have inside := next.1
  simp only [List.length_drop, List.length_append] at lengths
  omega

theorem read_blob_next (next : Next stream bytes rest) :
    readBlob bytes.length stream = .ok bytes (stream.advance bytes.length) := by
  rw [readBlob, if_pos (next_inside next), next.2, List.take_left]

theorem read_int_next {value : Int} (lower : -2 ^ 31 ≤ value) (upper : value < 2 ^ 31)
    (next : Next stream (intBytes value) rest) : readInt stream = .ok value (stream.advance 4) := by
  have blob : readBlob 4 stream = .ok (intBytes value) (stream.advance 4) := by
    have read := read_blob_next next
    rwa [int_bytes_length] at read
  have word : readWord 32 stream = .ok (BitVec.ofNat 32 (decodeLE (intBytes value))) (stream.advance 4) :=
    bind_of_ok blob
  have whole : readInt stream = .ok (BitVec.ofNat 32 (decodeLE (intBytes value))).toInt (stream.advance 4) :=
    bind_of_ok word
  rw [whole, int_bytes_eq_word, decode_word _ (by decide), BitVec.toInt_ofInt]
  rw [Int.bmod_eq_of_le (by simpa using lower) (by simpa using upper)]

theorem read_size_next {size : Nat} (small : size < 2 ^ 31) (next : Next stream (sizeBytes size) rest) :
    readSize stream = .ok size (stream.advance (sizeBytes size).length) := by
  unfold sizeBytes at next ⊢
  split at next
  · next large =>
      have split : (255 :: intBytes size : List Byte) = [255] ++ intBytes size := rfl
      rw [split] at next
      have marker := read_byte_next next.first
      have value : readInt (stream.advance 1) = .ok (size : Int) ((stream.advance 1).advance 4) :=
        read_int_next (by omega) (by exact_mod_cast small) next.advance
      rw [if_pos large, readSize, bind_of_ok marker, if_pos rfl, bind_of_ok value, if_neg (by omega),
        advance_advance, List.length_cons, int_bytes_length]
      rfl
  · next little =>
      have byte := read_byte_next next
      rw [if_neg little, readSize, bind_of_ok byte, if_neg (size_byte_ne_marker little)]
      have same : (UInt8.ofNat size).toNat = size := by
        rw [UInt8.toNat_ofNat']
        omega
      rw [same]
      rfl

theorem read_string_next (small : bytes.length < 2 ^ 31) (next : Next stream (stringBytes bytes) rest) :
    readString stream = .ok bytes (stream.advance (stringBytes bytes).length) := by
  have size := read_size_next small next.first
  rw [readString, bind_of_ok size, stringBytes, List.length_append, ← advance_advance]
  by_cases empty : bytes = []
  · rw [empty, if_neg (by simp)]
    rfl
  · rw [if_pos (List.length_pos_iff.mpr empty)]
    exact read_blob_next next.advance

end Reading

end IceTouch.Buffers
