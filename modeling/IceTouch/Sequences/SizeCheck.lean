import IceTouch.Transfer

/-!
# What `readAndCheckSeqSize` decides

The check adds 32-bit integers: the sum of the estimate so far and of the bytes that the new
sequence announces is computed modulo `2 ^ 32` and compared as a signed number. The lemmas say
what it decides for every state of the estimate and every size on the wire, and when it is
sound: whenever the check lets a size pass, the elements fit into what is left of the buffer.
-/

namespace IceTouch.Sequences

open Bytes InStream Run Transfer

variable {δ α : Type}

theorem wrap32_bmod (value : Int) : wrap32 value = value.bmod (2 ^ 32) := by
  rw [wrap32, BitVec.toInt_ofInt]

theorem wrap32_add_left (left right : Int) : wrap32 (wrap32 left + right) = wrap32 (left + right) := by
  simp only [wrap32_bmod, Int.bmod_add_bmod]

theorem wrap32_add_right (left right : Int) : wrap32 (left + wrap32 right) = wrap32 (left + right) := by
  simp only [wrap32_bmod, Int.add_bmod_bmod]

theorem wrap32_le {value : Int} (natural : 0 ≤ value) : wrap32 value ≤ value := by
  by_cases small : value < 2 ^ 31
  · exact le_of_eq (wrap32_of_lt natural small)
  · rw [wrap32_bmod]
    have upper := @Int.bmod_lt value (2 ^ 32) (by decide)
    norm_num at upper small ⊢
    omega

/-- The end of what the sequences read so far have announced, once the position is `pos`. -/
def extent (stream : ReadStream δ) (pos : Nat) : Int :=
  if stream.startSeq = -1 ∨ stream.startSeq + stream.minSeqSize < pos then pos
  else stream.startSeq + stream.minSeqSize

theorem extent_beyond (stream : ReadStream δ) (pos : Nat) : (pos : Int) ≤ extent stream pos := by
  unfold extent
  split
  · exact le_rfl
  · rename_i kept
    rw [not_or] at kept
    exact not_lt.mp kept.2

variable {stream middle : ReadStream δ}

theorem read_byte_advances {byte : Byte} (ran : readByte stream = .ok byte middle) :
    middle = stream.advance 1 ∧ stream.pos + 1 ≤ stream.buf.length := by
  unfold readByte at ran
  split at ran
  · rename_i head
    obtain ⟨inside, -⟩ := List.getElem?_eq_some_iff.mp head
    cases ran
    exact ⟨rfl, inside⟩
  · cases ran

theorem read_blob_advances {count : Nat} {bytes : List Byte}
    (ran : readBlob count stream = .ok bytes middle) :
    middle = stream.advance count ∧ stream.pos + count ≤ stream.buf.length := by
  unfold readBlob at ran
  split at ran
  · rename_i room
    cases ran
    exact ⟨rfl, room⟩
  · cases ran

theorem read_size_advances {sz : Nat} (sized : readSize stream = .ok sz middle) :
    ∃ width, 0 < width ∧ middle = stream.advance width ∧ stream.pos + width ≤ stream.buf.length ∧
      sz < 2 ^ 31 := by
  obtain ⟨byte, first, begun, rest⟩ := of_bind_ok sized
  obtain ⟨rfl, inside⟩ := read_byte_advances begun
  by_cases marker : byte = 255
  · rw [if_pos marker] at rest
    obtain ⟨value, second, ran, checked⟩ := of_bind_ok rest
    obtain ⟨word, third, ranWord, converted⟩ := of_bind_ok ran
    obtain ⟨bytes, fourth, ranBlob, decoded⟩ := of_bind_ok ranWord
    obtain ⟨rfl, room⟩ := read_blob_advances ranBlob
    cases decoded
    cases converted
    have bound := @BitVec.toInt_lt 32 (BitVec.ofNat 32 (decodeLE bytes))
    split at checked
    · cases checked
    · cases checked
      refine ⟨5, by decide, rfl, ?_, by norm_num at bound ⊢; omega⟩
      simp only [ReadStream.advance] at room
      omega
  · rw [if_neg marker] at rest
    cases rest
    have low := byte.toNat_lt
    exact ⟨1, Nat.one_pos, rfl, inside, by omega⟩

variable {failure : Failure}

theorem read_blob_error {count : Nat} (ran : readBlob count stream = .error failure middle) :
    failure = .ice .unmarshalOutOfBounds := by
  unfold readBlob at ran
  split at ran
  · cases ran
  · cases ran
    rfl

theorem read_size_error (ran : readSize stream = .error failure middle) :
    failure = .ice .unmarshalOutOfBounds := by
  rcases of_bind_error ran with missing | ⟨byte, first, -, rest⟩
  · unfold readByte at missing
    split at missing
    · cases missing
    · cases missing
      rfl
  · split at rest
    · rcases of_bind_error rest with short | ⟨value, second, -, checked⟩
      · rcases of_bind_error short with word | ⟨_, _, -, converted⟩
        · rcases of_bind_error word with blob | ⟨_, _, -, decoded⟩
          · exact read_blob_error blob
          · cases decoded
        · cases converted
      · split at checked
        · cases checked
          rfl
        · cases checked
    · cases rest

theorem check_error (minSize : Nat) (sized : readSize stream = .error failure middle) :
    readAndCheckSeqSize minSize stream = .error failure middle := by
  unfold readAndCheckSeqSize
  exact bind_of_error sized

theorem check_empty (minSize : Nat) (sized : readSize stream = .ok 0 middle) :
    readAndCheckSeqSize minSize stream = .ok 0 middle := by
  unfold readAndCheckSeqSize
  rw [bind_of_ok sized, if_pos rfl]
  rfl

/-- `_startSeq` and `_minSeqSize` after `sz` elements have been announced at the position. -/
def recount (stream : ReadStream δ) (sz minSize : Nat) : Int × Int :=
  if stream.startSeq = -1 ∨ stream.startSeq + stream.minSeqSize < stream.pos then
    (wrap32 stream.pos, wrap32 ((sz : Int) * minSize))
  else
    (stream.startSeq, wrap32 (stream.minSeqSize + wrap32 ((sz : Int) * minSize)))

theorem check_run {sz : Nat} (minSize : Nat) (sized : readSize stream = .ok sz middle)
    (nonempty : sz ≠ 0) :
    ∃ after, Moved middle after 0 ∧ (after.startSeq, after.minSeqSize) = recount middle sz minSize ∧
      readAndCheckSeqSize minSize stream =
        if wrap32 middle.buf.length < wrap32 ((recount middle sz minSize).1 +
            (recount middle sz minSize).2) then
          .error (.ice .unmarshalOutOfBounds) after
        else .ok sz after := by
  unfold readAndCheckSeqSize
  rw [bind_of_ok sized, if_neg nonempty]
  simp only [bind_get, record, bind_modify]
  rw [apply_ite (fun run : Reader δ Nat => run _)]
  exact ⟨{ middle with
    startSeq := (recount middle sz minSize).1
    minSeqSize := (recount middle sz minSize).2
    events := _ }, ⟨rfl, rfl, rfl⟩, rfl, rfl⟩

theorem recount_sum (stream : ReadStream δ) (sz minSize : Nat) :
    wrap32 ((recount stream sz minSize).1 + (recount stream sz minSize).2) =
      wrap32 (extent stream stream.pos + sz * minSize) := by
  by_cases restarted : stream.startSeq = -1 ∨ stream.startSeq + stream.minSeqSize < stream.pos
  · rw [recount, extent, if_pos restarted, if_pos restarted, wrap32_add_left, wrap32_add_right]
  · rw [recount, extent, if_neg restarted, if_neg restarted, wrap32_add_right, ← Int.add_assoc,
      wrap32_add_right]

theorem check_decides {sz : Nat} (minSize : Nat) (sized : readSize stream = .ok sz middle)
    (nonempty : sz ≠ 0) :
    ∃ after, after.pos = middle.pos ∧ after.buf = middle.buf ∧
      readAndCheckSeqSize minSize stream =
        if wrap32 stream.buf.length < wrap32 (extent stream middle.pos + sz * minSize) then
          .error (.ice .unmarshalOutOfBounds) after
        else .ok sz after := by
  obtain ⟨after, moved, -, ran⟩ := check_run minSize sized nonempty
  obtain ⟨width, -, rfl, -⟩ := read_size_advances sized
  rw [recount_sum] at ran
  exact ⟨after, moved.pos, moved.buf, ran⟩

variable {minSize : Nat}

theorem check_error_reports {after : ReadStream δ}
    (ran : readAndCheckSeqSize minSize stream = .error failure after) :
    failure = .ice .unmarshalOutOfBounds := by
  cases sized : readSize stream with
  | error other middle =>
      rw [check_error minSize sized] at ran
      cases ran
      exact read_size_error sized
  | ok found middle =>
      by_cases zero : found = 0
      · subst zero
        rw [check_empty minSize sized] at ran
        cases ran
      · obtain ⟨last, -, -, decided⟩ := check_decides minSize sized zero
        rw [decided] at ran
        split at ran
        · cases ran
          rfl
        · cases ran

/-- `begin = i; i += sz * sizeof(T); copy(begin, i, &v[0])` with `v` resized to `sz` elements; the
product is an `int`. -/
def copyElements (sz elementSize : Nat) : Reader δ (List Byte) := fun stream =>
  let count := wrap32 ((sz : Int) * elementSize)
  if count < 0 then
    .error (.fault .invertedRange) stream
  else if (stream.buf.length : Int) < stream.pos + count then
    .error (.fault .outsideBuffer) stream
  else
    .ok ((stream.buf.drop stream.pos).take count.toNat ++
      List.replicate (sz * elementSize - count.toNat) 0) (stream.advance count.toNat)

/-- `read(vector<T>&)` for the element types of fixed size, as the memory of the vector. -/
def readVector (elementSize : Nat) : Reader δ (List Byte) := do
  let sz ← readAndCheckSeqSize elementSize
  if 0 < sz then copyElements sz elementSize else pure []

/-- What the callers rely on: the elements that were announced are in the buffer, and copying
them without a further check stays inside it. -/
structure SeqSizeSound (minSize : Nat) (stream : ReadStream δ) : Prop where
  enough : ∀ sz after, readAndCheckSeqSize minSize stream = .ok sz after →
    after.pos + sz * minSize ≤ after.buf.length
  inside : ∀ kind after, readVector minSize stream ≠ .error (.fault kind) after

/-- A size on the wire that passes the check because a 32-bit number has wrapped: the elements
need more bytes than are left, or more than an `int` can count. -/
def Wraps (minSize : Nat) (stream : ReadStream δ) : Prop :=
  ∃ sz middle, readSize stream = .ok sz middle ∧
    wrap32 (extent stream middle.pos + sz * minSize) ≤ wrap32 stream.buf.length ∧
    (stream.buf.length < middle.pos + sz * minSize ∨ wrap32 (sz * minSize) < 0)

theorem not_sound_of_wraps (wraps : Wraps minSize stream) : ¬SeqSizeSound minSize stream := by
  intro sound
  obtain ⟨sz, middle, sized, passes, short⟩ := wraps
  obtain ⟨width, -, rfl, room, -⟩ := read_size_advances sized
  have nonzero : sz ≠ 0 := by
    rintro rfl
    rcases short with short | negative
    · rw [Nat.zero_mul] at short
      exact absurd room (Nat.not_le.mpr short)
    · rw [Int.natCast_zero, Int.zero_mul] at negative
      exact absurd negative (by decide)
  obtain ⟨after, pos, buf, ran⟩ := check_decides minSize sized nonzero
  rw [if_neg (not_lt.mpr passes)] at ran
  rcases short with short | negative
  · have fits := sound.enough sz after ran
    rw [pos, buf] at fits
    exact absurd fits (Nat.not_le.mpr short)
  · apply sound.inside .invertedRange after
    rw [readVector, bind_of_ok ran, if_pos (Nat.pos_of_ne_zero nonzero), copyElements]
    simp only [if_pos negative]

theorem sound_of_not_wraps (honest : ¬Wraps minSize stream) : SeqSizeSound minSize stream := by
  have fits : ∀ sz after, readAndCheckSeqSize minSize stream = .ok sz after →
      after.pos + sz * minSize ≤ after.buf.length ∧ 0 ≤ wrap32 ((sz : Int) * minSize) := by
    intro sz after ran
    cases sized : readSize stream with
    | error failure middle =>
        rw [check_error minSize sized] at ran
        cases ran
    | ok found middle =>
        obtain ⟨width, -, rfl, room, -⟩ := read_size_advances sized
        by_cases zero : found = 0
        · subst zero
          rw [check_empty minSize sized] at ran
          cases ran
          rw [Nat.zero_mul, Int.natCast_zero, Int.zero_mul]
          exact ⟨room, by decide⟩
        · obtain ⟨last, pos, buf, decided⟩ := check_decides minSize sized zero
          rw [decided] at ran
          split at ran
          · cases ran
          · rename_i passes
            cases ran
            rw [pos, buf]
            by_contra misses
            apply honest
            refine ⟨sz, _, sized, not_lt.mp passes, ?_⟩
            rw [not_and_or, not_le, not_le] at misses
            exact misses
  constructor
  · exact fun sz after ran => (fits sz after ran).1
  · intro kind last ran
    unfold readVector at ran
    cases checked : readAndCheckSeqSize minSize stream with
    | error failure middle =>
        rw [bind_of_error checked] at ran
        cases ran
        exact absurd (check_error_reports checked) nofun
    | ok sz middle =>
        rw [bind_of_ok checked] at ran
        obtain ⟨room, natural⟩ := fits sz middle checked
        split at ran
        · unfold copyElements at ran
          have small : wrap32 ((sz : Int) * minSize) ≤ (sz : Int) * minSize := wrap32_le (by positivity)
          rw [if_neg (not_lt.mpr natural), if_neg] at ran
          · cases ran
          · have whole : ((middle.pos + sz * minSize : Nat) : Int) ≤ middle.buf.length :=
              Int.ofNat_le.mpr room
            push_cast at whole
            omega
        · cases ran

/-- The buffer and the end of what is announced, as an unbounded number, are in the range of
an `int`. -/
def WithinInt (minSize : Nat) (stream : ReadStream δ) : Prop :=
  stream.buf.length < 2 ^ 31 ∧ ∀ sz middle, readSize stream = .ok sz middle →
    extent stream middle.pos + sz * minSize < 2 ^ 31

theorem sound_within (within : WithinInt minSize stream) : SeqSizeSound minSize stream := by
  obtain ⟨small, bounded⟩ := within
  apply sound_of_not_wraps
  rintro ⟨sz, middle, sized, passes, short⟩
  have sum := bounded sz middle sized
  have beyond := extent_beyond stream middle.pos
  have product : (0 : Int) ≤ (sz : Int) * minSize := by positivity
  rw [wrap32_of_lt (by omega) sum, wrap32_of_lt (by omega) (by exact_mod_cast small)] at passes
  rcases short with short | negative
  · have missing : (stream.buf.length : Int) < ((middle.pos + sz * minSize : Nat) : Int) :=
      Int.ofNat_lt.mpr short
    push_cast at missing
    omega
  · rw [wrap32_of_lt product (by omega)] at negative
    omega

theorem wrap32_residue (value : Nat) :
    wrap32 value = if value % 2 ^ 32 < 2 ^ 31 then ((value % 2 ^ 32 : Nat) : Int)
      else ((value % 2 ^ 32 : Nat) : Int) - 2 ^ 32 := by
  rw [wrap32_bmod, Int.bmod_def]
  norm_num
  split <;> split <;> omega

/-- Where nothing that was announced before reaches beyond the position, the check is made of
the new sequence alone. -/
theorem sound_alone_iff {sz : Nat} (small : stream.buf.length < 2 ^ 31)
    (sized : readSize stream = .ok sz middle) (alone : extent stream middle.pos = middle.pos) :
    SeqSizeSound minSize stream ↔
      middle.pos + sz * minSize < 2 ^ 31 ∨
        (stream.buf.length < (middle.pos + sz * minSize) % 2 ^ 32 ∧
          (middle.pos + sz * minSize) % 2 ^ 32 < 2 ^ 31) := by
  have sum : extent stream middle.pos + (sz : Int) * minSize =
      ((middle.pos + sz * minSize : Nat) : Int) := by
    rw [alone]
    push_cast
    rfl
  have limit : wrap32 stream.buf.length = stream.buf.length :=
    wrap32_of_lt (by omega) (by exact_mod_cast small)
  have residue := wrap32_residue (middle.pos + sz * minSize)
  constructor
  · intro sound
    by_contra neither
    rw [not_or, not_lt, not_and_or, not_lt, not_lt] at neither
    obtain ⟨large, passes⟩ := neither
    refine not_sound_of_wraps ⟨sz, middle, sized, ?_, Or.inl (by omega)⟩ sound
    rw [sum, limit, residue]
    split <;> omega
  · rintro (bounded | ⟨beyond, positive⟩)
    · refine sound_within ⟨small, fun found other same => ?_⟩
      cases sized.symm.trans same
      rw [sum]
      exact_mod_cast bounded
    · apply sound_of_not_wraps
      rintro ⟨found, other, same, passes, -⟩
      cases sized.symm.trans same
      rw [sum, limit, residue, if_pos positive] at passes
      omega

/-- The check is sound while all numbers stay in the range of an `int`. Where the estimate
starts again, it is unsound for all other sizes but those whose sum has wrapped to a number
beyond the buffer. -/
theorem seq_size_sound_iff (minSize : Nat) (stream : ReadStream δ) :
    (WithinInt minSize stream → SeqSizeSound minSize stream) ∧
    (∀ sz middle, stream.buf.length < 2 ^ 31 → readSize stream = .ok sz middle →
      extent stream middle.pos = middle.pos →
      (SeqSizeSound minSize stream ↔
        middle.pos + sz * minSize < 2 ^ 31 ∨
          (stream.buf.length < (middle.pos + sz * minSize) % 2 ^ 32 ∧
            (middle.pos + sz * minSize) % 2 ^ 32 < 2 ^ 31))) :=
  ⟨sound_within, fun _ _ small sized alone => sound_alone_iff small sized alone⟩

/-- Five bytes announce 2147483647 elements of one byte, and the check lets them pass. -/
theorem seq_size_accepts_missing :
    ¬SeqSizeSound 1 (ReadStream.fresh [0xFF, 0xFF, 0xFF, 0xFF, 0x7F] ()) := by
  apply not_sound_of_wraps
  exact ⟨2147483647, _, rfl, by decide, Or.inl (by decide)⟩

end IceTouch.Sequences
