import IceTouch.Connection.Wire

/-!
# Frames

The frame that `prepare` makes of a stream, field by field, and what the receiving side makes
of the frame.
-/

namespace IceTouch.Connection

open Bytes

variable {stream : List Byte}

/-- A stream that is long enough for a header, split at the compression status and the size. -/
theorem header_split (long : headerSize ≤ stream.length) :
    ∃ front status size body, stream = front ++ [status] ++ size ++ body ∧ front.length = 9 ∧
      size.length = 4 := by
  have nine : 9 < stream.length := Nat.lt_of_lt_of_le (by decide) long
  refine ⟨stream.take 9, stream[9], (stream.drop 10).take 4, stream.drop 14, ?_, ?_, ?_⟩
  · have tail : stream.drop 9 = stream[9] :: stream.drop 10 := List.drop_eq_getElem_cons nine
    have last : stream.drop 14 = (stream.drop 10).drop 4 := by rw [List.drop_drop]
    rw [last, List.append_assoc, List.take_append_drop, List.append_assoc, List.singleton_append,
      ← tail, List.take_append_drop]
  · rw [List.length_take]
    exact Nat.min_eq_left nine.le
  · rw [List.length_take, List.length_drop]
    exact Nat.min_eq_left (by simp only [headerSize] at long; omega)

variable {front size body : List Byte} {status : Byte}

section

variable (nine : front.length = 9)

include nine

theorem set_status (written : Byte) :
    (front ++ [status] ++ size ++ body).set 9 written = front ++ [written] ++ size ++ body := by
  have split : front ++ [status] ++ size ++ body = front ++ status :: (size ++ body) := by simp
  rw [split, List.set_append_right _ _ (by omega), nine]
  simp

theorem status_of_split : (front ++ [status] ++ size ++ body).getD 9 0 = status := by
  have split : front ++ [status] ++ size ++ body = front ++ status :: (size ++ body) := by simp
  rw [split, List.getD_eq_getElem?_getD, List.getElem?_append_right (by omega), nine]
  rfl

theorem split_length (four : size.length = 4) :
    (front ++ [status] ++ size ++ body).length = headerSize + body.length := by
  simp only [List.length_append, List.length_singleton, nine, four, headerSize]

theorem put_size (four : size.length = 4) (value : Nat) :
    putInt (front ++ [status] ++ size ++ body) 10 (value : Int) =
      front ++ [status] ++ encodeLE 4 value ++ body := by
  have word : ((value : Int) % 2 ^ 32).toNat = value % 256 ^ 4 := by
    have cast : ((value : Int) % 2 ^ 32) = ((value % 256 ^ 4 : Nat) : Int) := by norm_cast
    rw [cast, Int.toNat_natCast]
  have ten : (front ++ [status]).length = 10 := by simp [nine]
  rw [putInt, word, encode_le_mod]
  rw [← ten]
  exact rewrite_at_hole (front ++ [status]) size body (encodeLE 4 value) (by simp [four])

end

variable {frame : List Byte}

theorem prepared_nonempty {bz2 : Bz2} {compress : Bool}
    (prepared : (prepare bz2 compress stream).frame = .ok frame) : frame ≠ [] := by
  have word (value : Nat) : encodeLE 4 value ≠ [] := by
    intro nothing
    have length := congrArg List.length nothing
    rw [encode_le_length] at length
    cases length
  unfold prepare at prepared
  split at prepared
  · split at prepared
    · cases prepared
    · next marked output compressed =>
        cases prepared
        unfold doCompress at compressed
        dsimp only at compressed
        split at compressed
        · cases compressed
        · cases compressed
          simp [word]
  · cases prepared
    unfold putInt rewriteAt
    simp [word]

theorem prepare_split (bz2 : Bz2) (compress : Bool) (nine : front.length = 9)
    (four : size.length = 4) :
    prepare bz2 compress (front ++ [status] ++ size ++ body) =
      if compress ∧ 86 ≤ body.length then
        match bz2.compress (compressedRoom body.length) body with
        | none => ⟨front ++ [2] ++ size ++ body, .error .compression, true⟩
        | some output =>
            ⟨front ++ [2] ++ encodeLE 4 (headerSize + 4 + output.length) ++ body,
              .ok (front ++ [2] ++ encodeLE 4 (headerSize + 4 + output.length) ++
                encodeLE 4 (headerSize + body.length) ++ output), true⟩
      else
        ⟨front ++ [if compress then 1 else status] ++ encodeLE 4 (headerSize + body.length) ++ body,
          .ok (front ++ [if compress then 1 else status] ++
            encodeLE 4 (headerSize + body.length) ++ body), false⟩ := by
  have length : (front ++ [status] ++ size ++ body).length = headerSize + body.length :=
    split_length nine four
  have bound : 100 ≤ headerSize + body.length ↔ 86 ≤ body.length := by
    simp only [headerSize]
    omega
  by_cases compresses : compress = true ∧ 86 ≤ body.length
  · have asked : compress = true ∧ 100 ≤ (front ++ [status] ++ size ++ body).length := by
      rw [length, bound]
      exact compresses
    have dropped : (front ++ [2] ++ size ++ body).drop headerSize = body := by
      rw [List.drop_left' (by simp [nine, four, headerSize])]
    have taken (output : List Byte) :
        (front ++ [2] ++ encodeLE 4 (headerSize + 4 + output.length) ++ body).take headerSize =
          front ++ [2] ++ encodeLE 4 (headerSize + 4 + output.length) := by
      rw [List.take_left' (by simp [nine, headerSize])]
    rw [prepare, if_pos asked, if_pos compresses, set_status nine, doCompress]
    dsimp only
    rw [dropped, split_length nine four]
    cases bz2.compress (compressedRoom body.length) body with
    | none => rfl
    | some output =>
        dsimp only
        rw [put_size nine four, taken]
  · have plain : ¬ (compress = true ∧ 100 ≤ (front ++ [status] ++ size ++ body).length) := by
      rw [length, bound]
      exact compresses
    rw [prepare, if_neg plain, if_neg compresses]
    cases compress with
    | false =>
        dsimp only
        rw [if_neg (by simp), if_neg (by simp), length, put_size nine four]
    | true =>
        dsimp only
        rw [if_pos rfl, if_pos rfl, set_status nine, split_length nine four, put_size nine four]

/-- The size that stands in the header of a frame. -/
def sizeField (frame : List Byte) : Nat :=
  decodeLE ((frame.drop 10).take 4)

theorem size_field_of_split (nine : front.length = 9) (value : Nat) :
    sizeField (front ++ [status] ++ encodeLE 4 value ++ body) = value % 256 ^ 4 := by
  have dropped : (front ++ [status] ++ encodeLE 4 value ++ body).drop 10 =
      encodeLE 4 value ++ body := by
    rw [List.append_assoc, List.drop_left' (by simp [nine])]
  rw [sizeField, dropped, List.take_left' (encode_le_length 4 value), decode_le_encode]

theorem int_at_word (before after : List Byte) (value : Int) (low : -2 ^ 31 ≤ value)
    (high : value < 2 ^ 31) :
    intAt (before ++ encodeLE 4 (value % 2 ^ 32).toNat ++ after) before.length = some value := by
  have inside : before.length + 4 ≤
      (before ++ encodeLE 4 (value % 2 ^ 32).toNat ++ after).length := by simp
  have dropped : (before ++ encodeLE 4 (value % 2 ^ 32).toNat ++ after).drop before.length =
      encodeLE 4 (value % 2 ^ 32).toNat ++ after := by
    rw [List.append_assoc, List.drop_left]
  have word : decodeLE (encodeLE 4 (value % 2 ^ 32).toNat) = (value % 2 ^ 32).toNat := by
    rw [decode_le_encode, Nat.mod_eq_of_lt]
    have bounded : (value % 2 ^ 32).toNat < 2 ^ 32 := by omega
    exact bounded
  rw [intAt, if_pos inside, dropped, List.take_left' (encode_le_length 4 _), word]
  rw [Option.some.injEq, BitVec.toInt_ofNat', Int.toNat_of_nonneg (by omega)]
  rw [Int.bmod_def]
  split <;> omega

theorem int_at_nat (before after : List Byte) (value : Nat) (high : value < 2 ^ 31) :
    intAt (before ++ encodeLE 4 value ++ after) before.length = some (value : Int) := by
  have word : ((value : Int) % 2 ^ 32).toNat = value := by omega
  have same := int_at_word before after (value : Int) (by omega) (by omega)
  rw [word] at same
  exact same

theorem frame_size (bz2 : Bz2) (compress : Bool) (long : headerSize ≤ stream.length)
    (short : stream.length ≤ 0x7fffffff)
    (prepared : (prepare bz2 compress stream).frame = .ok frame) :
    headerSize ≤ frame.length ∧ sizeField frame = frame.length := by
  obtain ⟨front, status, size, body, rfl, nine, four⟩ := header_split long
  rw [split_length nine four] at short
  rw [prepare_split bz2 compress nine four] at prepared
  split at prepared
  · split at prepared
    · cases prepared
    · next output compressed =>
        have fits := bz2.compress_fits _ _ _ compressed
        cases prepared
        rw [List.append_assoc, size_field_of_split nine]
        simp only [List.length_append, encode_le_length, List.length_singleton, nine, headerSize,
          compressedRoom] at short fits ⊢
        omega
  · cases prepared
    rw [size_field_of_split nine]
    simp only [List.length_append, encode_le_length, List.length_singleton, nine, headerSize]
      at short ⊢
    omega

/-- Byte 9 of a frame tells whether the frame is the output of `doCompress`. -/
def TellsTruth (prepared : Prepared) : Prop :=
  ∀ frame, prepared.frame = .ok frame → (frame.getD 9 0 = 2 ↔ prepared.compressed = true)

/-- The status is wrong exactly when the message does not ask for compression and its stream
still has status 2. -/
theorem tells_truth_iff (bz2 : Bz2) (compress : Bool) (long : headerSize ≤ stream.length) :
    TellsTruth (prepare bz2 compress stream) ↔ compress = true ∨ stream.getD 9 0 ≠ 2 := by
  obtain ⟨front, status, size, body, rfl, nine, four⟩ := header_split long
  rw [TellsTruth, prepare_split bz2 compress nine four, status_of_split nine]
  split
  · next compresses =>
      split
      · simp [compresses.1]
      · constructor
        · intro _
          exact Or.inl compresses.1
        · intro _ frame isFrame
          cases isFrame
          rw [List.append_assoc, status_of_split nine]
          simp
  · constructor
    · intro truthful
      have told := truthful _ rfl
      rw [status_of_split nine] at told
      cases compress with
      | true => exact Or.inl rfl
      | false =>
          simp only [Bool.false_eq_true, if_false, iff_false] at told
          exact Or.inr told
    · intro condition frame isFrame
      cases isFrame
      rw [status_of_split nine]
      cases compress with
      | true => simp
      | false => simpa using condition

/-- `BZ2_bzBuffToBuffDecompress` gives back what was compressed. -/
def Inverts (sender receiver : Bz2) : Prop :=
  ∀ room body output, sender.compress room body = some output →
    receiver.decompress body.length output = some body

theorem open_prepared {sender receiver : Bz2} (inverts : Inverts sender receiver) {compress : Bool}
    {messageSizeMax : Nat} (long : headerSize ≤ stream.length)
    (short : stream.length ≤ messageSizeMax) (range : messageSizeMax ≤ 0x7fffffff)
    (condition : compress = true ∨ stream.getD 9 0 ≠ 2)
    (prepared : (prepare sender compress stream).frame = .ok frame) :
    openFrame receiver messageSizeMax frame = .ok (prepare sender compress stream).stream := by
  obtain ⟨front, status, size, body, rfl, nine, four⟩ := header_split long
  rw [status_of_split nine] at condition
  rw [split_length nine four] at short
  rw [prepare_split sender compress nine four] at prepared ⊢
  split at prepared
  · next compresses =>
      rw [if_pos compresses]
      split at prepared
      · cases prepared
      · next output compressed =>
          cases prepared
          have header : (front ++ [2] ++ encodeLE 4 (headerSize + 4 + output.length)).length =
              headerSize := by simp [nine, headerSize]
          have announced := int_at_nat
            (front ++ [2] ++ encodeLE 4 (headerSize + 4 + output.length)) output
            (headerSize + body.length) (by omega)
          rw [header] at announced
          have dropped : (front ++ [2] ++ encodeLE 4 (headerSize + 4 + output.length) ++
              encodeLE 4 (headerSize + body.length) ++ output).drop (headerSize + 4) = output := by
            rw [List.drop_left' (by simp [nine, headerSize])]
          have taken : (front ++ [2] ++ encodeLE 4 (headerSize + 4 + output.length) ++
              encodeLE 4 (headerSize + body.length) ++ output).take headerSize =
              front ++ [2] ++ encodeLE 4 (headerSize + 4 + output.length) := by
            rw [List.append_assoc, List.take_left' header]
          have marked : (front ++ [2] ++ encodeLE 4 (headerSize + 4 + output.length) ++
              encodeLE 4 (headerSize + body.length) ++ output).getD 9 0 = 2 := by
            rw [List.append_assoc, status_of_split nine]
          have room : ((headerSize + body.length : Nat) : Int).toNat - headerSize = body.length := by
            rw [Int.toNat_natCast]
            omega
          have positive : ¬ ((headerSize + body.length : Nat) : Int) ≤ headerSize := by
            omega
          have within : ¬ (messageSizeMax : Int) < ((headerSize + body.length : Nat) : Int) := by
            omega
          rw [openFrame, if_pos marked, doUncompress, announced]
          dsimp only
          rw [if_neg positive, if_neg within, room, dropped, inverts _ _ _ compressed, taken]
          simp
  · next plain =>
      rw [if_neg plain]
      cases prepared
      have unmarked : ¬ (front ++ [if compress = true then 1 else status] ++
          encodeLE 4 (headerSize + body.length) ++ body).getD 9 0 = 2 := by
        rw [status_of_split nine]
        cases compress with
        | true => simp
        | false => simpa using condition
      rw [openFrame, if_neg unmarked]

theorem prepare_keeps_body (bz2 : Bz2) (compress : Bool) (long : headerSize ≤ stream.length) :
    (prepare bz2 compress stream).stream.drop headerSize = stream.drop headerSize ∧
      (prepare bz2 compress stream).stream.length = stream.length := by
  obtain ⟨front, status, size, body, rfl, nine, four⟩ := header_split long
  have sameBody (marked : Byte) (field : List Byte) (isField : field.length = 4) :
      (front ++ [marked] ++ field ++ body).drop headerSize =
        (front ++ [status] ++ size ++ body).drop headerSize := by
    rw [List.drop_left' (by simp [nine, isField, headerSize]),
      List.drop_left' (by simp [nine, four, headerSize])]
  have sameLength (marked : Byte) (field : List Byte) (isField : field.length = 4) :
      (front ++ [marked] ++ field ++ body).length =
        (front ++ [status] ++ size ++ body).length := by
    rw [split_length nine isField, split_length nine four]
  rw [prepare_split bz2 compress nine four]
  split
  · split
    · exact ⟨sameBody 2 size four, sameLength 2 size four⟩
    · exact ⟨sameBody 2 _ (encode_le_length 4 _), sameLength 2 _ (encode_le_length 4 _)⟩
  · exact ⟨sameBody _ _ (encode_le_length 4 _), sameLength _ _ (encode_le_length 4 _)⟩

end IceTouch.Connection
