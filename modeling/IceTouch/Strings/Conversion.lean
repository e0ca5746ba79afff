import IceTouch.Buffers

/-!
# String conversion

`writeConverted` and `write(const wstring&)` guess the size of the converted string, let the
converter append its bytes and put the size right afterwards. When guess and size need a
different number of bytes, the payload is moved.
-/

namespace IceTouch.Converters

open Bytes OutStream WireTypes StreamHelpers InStream
open Transfer Run Buffers

/-- What `rewriteSize` puts to its destination. -/
def sizeWord (value : Int) : List Byte :=
  if 254 < value then 255 :: intBytes value else [UInt8.ofNat (value % 2 ^ 8).toNat]

/-- `assert(v >= 0)`. -/
def assertSize (value : Int) : Except WriteFailure Unit :=
  if value < 0 then .error .assertion else .ok ()

/-- `push_back` does not check the limit, and `write(Ice::Int)` does. -/
def writeSize (memory : Memory) (value : Int) (b : List Byte) : Except WriteFailure (List Byte) := do
  assertSize value
  if 254 < value then
    writeInt memory value (b ++ [255])
  else
    pure (b ++ [UInt8.ofNat (value % 2 ^ 8).toNat])

def rewriteSize (value : Int) (dest : Nat) (b : List Byte) : Except WriteFailure (List Byte) := do
  assertSize value
  pure (rewriteAt b dest (sizeWord value))

/-- `memmove`; the count is an `Ice::Int` that becomes a `size_t`. -/
def memmove (dest src : Nat) (count : Int) (b : List Byte) : Except WriteFailure (List Byte) :=
  let count := (count % 2 ^ 64).toNat
  if dest + count ≤ b.length ∧ src + count ≤ b.length then
    .ok (rewriteAt b dest ((b.drop src).take count))
  else
    .error .outsideBuffer

structure Chunk where
  howMany : Nat
  bytes : List Byte
  positive : 0 < howMany
  within : bytes.length ≤ howMany

/-- What a converter does with its `UTF8Buffer`. It asks for bytes at least once; when it asks for
more, it passes on the first byte it has not used. -/
structure Conversion where
  first : Chunk
  more : List Chunk

def Conversion.output (conversion : Conversion) : List Byte :=
  conversion.first.bytes ++ conversion.more.flatMap Chunk.bytes

def Conversion.requested (conversion : Conversion) : Nat :=
  conversion.first.howMany + (conversion.more.map Chunk.howMany).sum

/-- `StreamUTF8BufferI::getMoreBytes`: the buffer and the position of the bytes. -/
def getMoreBytes (memory : Memory) (howMany : Nat) (firstUnused : Option Nat) (b : List Byte) :
    Except WriteFailure (List Byte × Nat) := do
  let b := match firstUnused with
    | some position => memory.grow position b
    | none => b
  let grown ← memory.resize (b.length + howMany) b
  pure (grown, b.length)

def writeChunk (memory : Memory) (chunk : Chunk) (firstUnused : Option Nat) (b : List Byte) :
    Except WriteFailure (List Byte × Nat) := do
  let (b, position) ← getMoreBytes memory chunk.howMany firstUnused b
  pure (rewriteAt b position chunk.bytes, position + chunk.bytes.length)

def writeChunks (memory : Memory) : List Chunk → List Byte × Nat →
    Except WriteFailure (List Byte × Nat)
  | [], written => pure written
  | chunk :: rest, (b, last) => do
      let written ← writeChunk memory chunk (some last) b
      writeChunks memory rest written

/-- `toUTF8`, and the resize to the last byte it has written. -/
def toUTF8 (memory : Memory) (conversion : Conversion) (b : List Byte) :
    Except WriteFailure (List Byte) := do
  let written ← writeChunk memory conversion.first none b
  let (b, last) ← writeChunks memory conversion.more written
  pure (if last ≠ b.length then memory.grow last b else b)

/-- The payload is moved when guess and size do not both fit one byte, or neither of them. -/
def movePayload (memory : Memory) (guessedSize actualSize : Int) (firstIndex : Nat) (b : List Byte) :
    Except WriteFailure (List Byte) :=
  if guessedSize ≤ 254 ∧ 254 < actualSize then do
    let grown ← memory.resize (b.length + 4) b
    memmove (firstIndex + 4) firstIndex actualSize grown
  else if 254 < guessedSize ∧ actualSize ≤ 254 then do
    let moved ← memmove (firstIndex - 4) firstIndex actualSize b
    memory.resize (moved.length - 4) moved
  else
    pure b

def fixUp (memory : Memory) (guessedSize actualSize : Int) (firstIndex : Nat) (b : List Byte) :
    Except WriteFailure (List Byte) := do
  let b ← movePayload memory guessedSize actualSize firstIndex b
  rewriteSize actualSize (if guessedSize ≤ 254 then firstIndex - 1 else firstIndex - 1 - 4) b

/-- The body that `writeConverted` and `write(const wstring&)` share. `size` is `v.size()`. -/
def writeGuessed (memory : Memory) (size : Nat) (conversion : Conversion) (b : List Byte) :
    Except WriteFailure (List Byte) := do
  let guessedSize := wrap32 size
  let b ← writeSize memory guessedSize b
  let firstIndex := b.length
  let b ← toUTF8 memory conversion b
  let actualSize := wrap32 ((b.length - firstIndex : Nat) : Int)
  if guessedSize ≠ actualSize then
    fixUp memory guessedSize actualSize firstIndex b
  else
    pure b

def writeConverted {χ : Type} (memory : Memory) (stringConverter : List χ → Conversion) (v : List χ)
    (b : List Byte) : Except WriteFailure (List Byte) :=
  writeGuessed memory v.length (stringConverter v) b

/-- `write(const wstring&)`. -/
def writeWide {χ : Type} (memory : Memory) (wstringConverter : List χ → Conversion) (v : List χ)
    (b : List Byte) : Except WriteFailure (List Byte) :=
  if v.isEmpty then writeSize memory 0 b
  else writeGuessed memory v.length (wstringConverter v) b

/-- `fromUTF8` is given the next bytes, which must be in the buffer; it may raise an exception. -/
def convertBlob {δ ω : Type} (fromUTF8 : List Byte → Except Failure ω) (size : Nat) : Reader δ ω :=
  fun stream =>
    if stream.pos + size ≤ stream.buf.length then
      match fromUTF8 ((stream.buf.drop stream.pos).take size) with
      | .ok value => .ok value (stream.advance size)
      | .error failure => .error failure stream
    else
      .error (.ice .unmarshalOutOfBounds) stream

/-- `read(string&)` with a converter, and `read(wstring&)`. -/
def readConverted {δ ω : Type} (fromUTF8 : List Byte → Except Failure ω) (cleared : ω) :
    Reader δ ω := do
  let size ← readSize
  if 0 < size then convertBlob fromUTF8 size else pure cleared

section Sizes

variable {memory : Memory} {b : List Byte}

theorem size_word_length (value : Int) :
    (sizeWord value).length = if 254 < value then 5 else 1 := by
  unfold sizeWord
  split <;> simp

theorem assert_size {value : Int} (natural : 0 ≤ value) : assertSize value = .ok () :=
  if_neg (not_lt.mpr natural)

theorem gives_size {value : Int} (natural : 0 ≤ value) :
    Gives memory (b.length + 5) (writeSize memory value b) (b ++ sizeWord value) := by
  unfold writeSize sizeWord
  rw [assert_size natural]
  change Gives memory _ (if 254 < value then _ else _) _
  split
  · have written := @gives_int memory (b ++ [255]) value
    rw [List.append_assoc] at written
    apply written.mono
    simp
  · exact gives_pure _

theorem size_word_eq {size : Nat} (small : size < 2 ^ 31) : sizeWord (wrap32 size) = sizeBytes size := by
  rw [wrap32_of_lt (Int.natCast_nonneg size) (by exact_mod_cast small)]
  unfold sizeWord sizeBytes
  by_cases large : 254 < size
  · rw [if_pos (by omega), if_pos large]
  · rw [if_neg (by omega), if_neg large]
    have byte : ((size : Int) % 2 ^ 8).toNat = size := by omega
    rw [byte]

end Sizes

section Payload

variable {memory : Memory} {b : List Byte}

/-- The buffer holds the bytes up to the position, and at most so many bytes altogether. -/
def Holds (written : List Byte × Nat) (bytes : List Byte) (room : Nat) : Prop :=
  written.2 = bytes.length ∧ (∃ unused, written.1 = bytes ++ unused) ∧ written.1.length ≤ room

theorem gives_chunk (chunk : Chunk) {bytes unused : List Byte} (firstUnused : Option Nat)
    (returned : firstUnused = some bytes.length ∨ firstUnused = none ∧ unused = []) :
    ∃ written, Gives memory (bytes.length + chunk.howMany)
        (writeChunk memory chunk firstUnused (bytes ++ unused)) written ∧
      Holds written (bytes ++ chunk.bytes) (bytes.length + chunk.howMany) := by
  obtain ⟨added, many, grown⟩ := @grow_more memory bytes chunk.howMany
  have asked : Gives memory (bytes.length + chunk.howMany)
      (getMoreBytes memory chunk.howMany firstUnused (bytes ++ unused)) (bytes ++ added, bytes.length) := by
    have resized : Gives memory (bytes.length + chunk.howMany)
        (memory.resize (bytes.length + chunk.howMany) bytes) (bytes ++ added) := by
      rw [← grown]
      exact gives_resize _
    rcases returned with rfl | ⟨rfl, rfl⟩
    · unfold getMoreBytes
      dsimp only
      rw [grow_less]
      exact resized.bind (gives_pure _)
    · rw [List.append_nil]
      exact resized.bind (gives_pure _)
  refine ⟨_, asked.bind (gives_pure _), ?_, ⟨added.drop chunk.bytes.length, ?_⟩, ?_⟩
  · rw [List.length_append]
  · exact rewrite_behind _ _ _
  · have within := chunk.within
    rw [rewrite_behind]
    simp only [List.length_append, List.length_drop]
    omega

theorem gives_chunks (more : List Chunk) {bytes : List Byte} {written : List Byte × Nat} {room : Nat}
    (holds : Holds written bytes room) :
    ∃ final, Gives memory (room + (more.map Chunk.howMany).sum) (writeChunks memory more written) final ∧
      Holds final (bytes ++ more.flatMap Chunk.bytes) (room + (more.map Chunk.howMany).sum) := by
  induction more generalizing bytes written room with
  | nil =>
      refine ⟨written, gives_pure _, ?_⟩
      simpa using holds
  | cons chunk rest ih =>
      rcases written with ⟨buffer, last⟩
      obtain ⟨rfl, ⟨unused, rfl⟩, bounded⟩ := holds
      dsimp only at bounded
      rw [List.length_append] at bounded
      obtain ⟨next, begun, held⟩ := @gives_chunk memory chunk bytes unused _ (Or.inl rfl)
      obtain ⟨final, continued, last⟩ := ih held
      have total : bytes.length + chunk.howMany + (rest.map Chunk.howMany).sum ≤
          room + ((chunk :: rest).map Chunk.howMany).sum := by
        rw [List.map_cons, List.sum_cons]
        omega
      refine ⟨final, ?_, ?_⟩
      · rw [writeChunks]
        exact (begun.mono (by omega)).bind (continued.mono total)
      · obtain ⟨position, front, size⟩ := last
        rw [List.flatMap_cons, ← List.append_assoc]
        exact ⟨position, front, size.trans total⟩

theorem gives_utf8 (conversion : Conversion) :
    Gives memory (b.length + conversion.requested) (toUTF8 memory conversion b)
      (b ++ conversion.output) := by
  obtain ⟨written, begun, held⟩ := @gives_chunk memory conversion.first b [] none (Or.inr ⟨rfl, rfl⟩)
  obtain ⟨⟨buffer, last⟩, continued, position, ⟨unused, whole⟩, -⟩ := @gives_chunks memory conversion.more _ _ _ held
  dsimp only at position whole
  rw [List.append_nil] at begun
  have output : b ++ conversion.first.bytes ++ conversion.more.flatMap Chunk.bytes =
      b ++ conversion.output := List.append_assoc _ _ _
  rw [output] at position whole
  have total : b.length + conversion.first.howMany + (conversion.more.map Chunk.howMany).sum =
      b.length + conversion.requested := Nat.add_assoc _ _ _
  rw [total] at continued
  apply (begun.mono (by rw [← total]; omega)).bind
  apply continued.bind
  dsimp only
  have cut : (if last ≠ buffer.length then memory.grow last buffer else buffer) =
      b ++ conversion.output := by
    rw [position, whole]
    split
    · exact grow_less
    · next same =>
        simp only [ne_eq, not_not, List.length_append] at same
        have none_ : unused = [] := List.length_eq_zero_iff.mp (by omega)
        rw [none_, List.append_nil]
  rw [cut]
  exact gives_pure _

end Payload

section FixUp

variable {memory : Memory} {before payload left right : List Byte}

theorem memmove_eq (dest : Nat) (small : payload.length < 2 ^ 31)
    (room : dest ≤ left.length + right.length) :
    memmove dest left.length payload.length (left ++ payload ++ right) =
      .ok ((left ++ payload ++ right).take dest ++ payload ++
        (left ++ payload ++ right).drop (dest + payload.length)) := by
  have count : ((payload.length : Int) % 2 ^ 64).toNat = payload.length := by omega
  have source : ((left ++ payload ++ right).drop left.length).take payload.length = payload := by
    rw [List.append_assoc, List.drop_left, List.take_left]
  unfold memmove
  dsimp only
  rw [count, if_pos, source, rewriteAt]
  simp only [List.length_append]
  omega

theorem gives_back {guess : Int} (guessed : 254 < guess) (small : payload.length < 2 ^ 31) :
    Gives memory ((before ++ sizeWord guess ++ payload).length)
      (do
        let moved ← memmove ((before ++ sizeWord guess).length - 4) (before ++ sizeWord guess).length
          payload.length (before ++ sizeWord guess ++ payload)
        memory.resize (moved.length - 4) moved)
      (before ++ [255] ++ payload) := by
  have whole : before ++ sizeWord guess ++ payload =
      (before ++ [255]) ++ (intBytes guess ++ payload) := by
    simp [sizeWord, if_pos guessed]
  have dest : (before ++ sizeWord guess).length - 4 = (before ++ [255]).length := by
    rw [List.length_append, size_word_length, if_pos guessed, List.length_append]
    rfl
  have shifted := @memmove_eq payload (before ++ sizeWord guess) [] _ small
    (Nat.le_trans (Nat.sub_le _ 4) (Nat.le_add_right _ _))
  rw [List.append_nil, dest, whole, List.take_left, List.drop_length_add_append] at shifted
  have four : ((intBytes guess ++ payload).drop payload.length).length = 4 := by
    rw [List.length_drop, List.length_append, int_bytes_length]
    omega
  generalize (intBytes guess ++ payload).drop payload.length = tail at shifted four
  rw [dest, whole, shifted]
  have size : (before ++ [255] ++ payload ++ tail).length - 4 = (before ++ [255] ++ payload).length := by
    rw [List.length_append, four]
    omega
  change Gives memory _ (memory.resize ((before ++ [255] ++ payload ++ tail).length - 4) _) _
  rw [size]
  have cut := @gives_resize memory (before ++ [255] ++ payload ++ tail) (before ++ [255] ++ payload).length
  rw [grow_less] at cut
  apply cut.mono
  simp only [List.length_append, int_bytes_length]
  omega

theorem gives_further {guess : Int} (small : payload.length < 2 ^ 31) :
    ∃ four : List Byte, four.length = 4 ∧
      Gives memory ((before ++ sizeWord guess ++ payload).length + 4)
        (do
          let grown ← memory.resize ((before ++ sizeWord guess ++ payload).length + 4)
            (before ++ sizeWord guess ++ payload)
          memmove ((before ++ sizeWord guess).length + 4) (before ++ sizeWord guess).length
            payload.length grown)
        (before ++ (sizeWord guess ++ four) ++ payload) := by
  obtain ⟨added, four, grown⟩ := @grow_more memory (before ++ sizeWord guess ++ payload) 4
  have resized := @gives_resize memory (before ++ sizeWord guess ++ payload)
    ((before ++ sizeWord guess ++ payload).length + 4)
  rw [grown] at resized
  have shifted := @memmove_eq payload (before ++ sizeWord guess) added
    ((before ++ sizeWord guess).length + 4) small (by rw [four])
  have nothing : (before ++ sizeWord guess ++ payload ++ added).drop
      ((before ++ sizeWord guess).length + 4 + payload.length) = [] := by
    apply List.drop_eq_nil_of_le
    simp only [List.length_append]
    omega
  rw [nothing, List.append_nil, List.append_assoc (before ++ sizeWord guess),
    List.take_append, List.take_of_length_le (Nat.le_add_right _ 4), Nat.add_sub_cancel_left] at shifted
  refine ⟨(payload ++ added).take 4, ?_, ?_⟩
  · rw [List.length_take, List.length_append]
    omega
  · apply resized.bind
    rw [List.append_assoc (before ++ sizeWord guess), shifted,
      List.append_assoc before (sizeWord guess) ((payload ++ added).take 4)]
    exact gives_pure _

theorem gives_moved {guess : Int} (small : payload.length < 2 ^ 31) :
    ∃ hole : List Byte, hole.length = (sizeWord payload.length).length ∧
      Gives memory ((before ++ sizeWord guess ++ payload).length + 4)
        (movePayload memory guess payload.length (before ++ sizeWord guess).length
          (before ++ sizeWord guess ++ payload)) (before ++ hole ++ payload) := by
  have longer : (before ++ sizeWord guess ++ payload).length ≤
      (before ++ sizeWord guess ++ payload).length + 4 := Nat.le_add_right _ 4
  unfold movePayload
  by_cases guessed : 254 < guess
  · by_cases large : 254 < (payload.length : Int)
    · refine ⟨sizeWord guess, ?_, ?_⟩
      · rw [size_word_length, size_word_length, if_pos guessed, if_pos large]
      · rw [if_neg (by omega), if_neg (by omega)]
        exact gives_pure _
    · refine ⟨[255], ?_, ?_⟩
      · rw [size_word_length, if_neg large]
        rfl
      · rw [if_neg (by omega), if_pos (by omega)]
        exact (gives_back guessed small).mono longer
  · by_cases large : 254 < (payload.length : Int)
    · obtain ⟨four, isFour, gives⟩ := @gives_further memory before payload guess small
      refine ⟨sizeWord guess ++ four, ?_, ?_⟩
      · rw [List.length_append, size_word_length, size_word_length, if_neg guessed, if_pos large, isFour]
      · rw [if_pos (by omega)]
        exact gives
    · refine ⟨sizeWord guess, ?_, ?_⟩
      · rw [size_word_length, size_word_length, if_neg guessed, if_neg large]
      · rw [if_neg (by omega), if_neg (by omega)]
        exact gives_pure _

theorem gives_fix_up {guess : Int} (small : payload.length < 2 ^ 31) :
    Gives memory ((before ++ sizeWord guess ++ payload).length + 4)
      (fixUp memory guess payload.length (before ++ sizeWord guess).length
        (before ++ sizeWord guess ++ payload)) (before ++ sizeWord payload.length ++ payload) := by
  obtain ⟨hole, long, moved⟩ := @gives_moved memory before payload guess small
  apply moved.bind
  have place : (if guess ≤ 254 then (before ++ sizeWord guess).length - 1
      else (before ++ sizeWord guess).length - 1 - 4) = before.length := by
    rw [List.length_append, size_word_length]
    split <;> split <;> omega
  rw [place, rewriteSize, assert_size (Int.natCast_nonneg _), rewrite_at_hole _ _ _ _ long]
  exact gives_pure _

end FixUp

theorem output_le_requested (conversion : Conversion) :
    conversion.output.length ≤ conversion.requested := by
  have each (more : List Chunk) : (more.flatMap Chunk.bytes).length ≤ (more.map Chunk.howMany).sum := by
    induction more with
    | nil => exact Nat.le_refl _
    | cons chunk rest ih =>
        rw [List.flatMap_cons, List.length_append, List.map_cons, List.sum_cons]
        exact Nat.add_le_add chunk.within ih
  rw [Conversion.output, Conversion.requested, List.length_append]
  exact Nat.add_le_add conversion.first.within (each conversion.more)

theorem gives_guessed {memory : Memory} {b : List Byte} {size : Nat} (conversion : Conversion)
    (counted : size < 2 ^ 31) (small : conversion.output.length < 2 ^ 31) :
    Gives memory (b.length + conversion.requested + 9) (writeGuessed memory size conversion b)
      (b ++ stringBytes conversion.output) := by
  have fits := output_le_requested conversion
  have sized := size_word_length (wrap32 size)
  have guessed : (sizeWord (wrap32 size)).length ≤ 5 := by
    rw [sized]
    split <;> omega
  have actual : wrap32 conversion.output.length = conversion.output.length :=
    wrap32_of_lt (Int.natCast_nonneg _) (by exact_mod_cast small)
  have begun : Gives memory (b.length + 5) (writeSize memory (wrap32 size) b)
      (b ++ sizeWord (wrap32 size)) := by
    apply gives_size
    rw [wrap32_of_lt (Int.natCast_nonneg size) (by exact_mod_cast counted)]
    exact Int.natCast_nonneg size
  have converted : Gives memory _ (toUTF8 memory conversion (b ++ sizeWord (wrap32 size)))
      (b ++ sizeWord (wrap32 size) ++ conversion.output) := gives_utf8 conversion
  rw [stringBytes, ← size_word_eq small, ← List.append_assoc]
  apply (begun.mono (by omega)).bind
  rw [List.length_append] at converted
  apply (converted.mono (by omega)).bind
  dsimp only
  have written : (b ++ sizeWord (wrap32 size) ++ conversion.output).length -
      (b ++ sizeWord (wrap32 size)).length = conversion.output.length := by
    rw [List.length_append, Nat.add_sub_cancel_left]
  rw [written, actual]
  split
  · have fixed := @gives_fix_up memory b conversion.output (wrap32 size) small
    apply fixed.mono
    simp only [List.length_append]
    omega
  · next same =>
      rw [not_not] at same
      rw [same]
      exact gives_pure _

section Reading

variable {δ ω : Type} {stream : ReadStream δ} {bytes rest : List Byte}

theorem convert_blob_next (fromUTF8 : List Byte → Except Failure ω) {value : ω}
    (next : Next stream bytes rest) (converts : fromUTF8 bytes = .ok value) :
    convertBlob fromUTF8 bytes.length stream = .ok value (stream.advance bytes.length) := by
  rw [convertBlob, if_pos (next_inside next), next.2, List.take_left, converts]

theorem read_converted_next (fromUTF8 : List Byte → Except Failure ω) {cleared value : ω}
    (small : bytes.length < 2 ^ 31) (next : Next stream (stringBytes bytes) rest)
    (converts : if bytes = [] then value = cleared else fromUTF8 bytes = .ok value) :
    readConverted fromUTF8 cleared stream = .ok value (stream.advance (stringBytes bytes).length) := by
  have size := read_size_next small next.first
  rw [readConverted, bind_of_ok size, stringBytes, List.length_append, ← advance_advance]
  by_cases empty : bytes = []
  · rw [if_pos empty] at converts
    rw [empty, converts, if_neg (by simp)]
    rfl
  · rw [if_neg empty] at converts
    rw [if_pos (List.length_pos_iff.mpr empty)]
    exact convert_blob_next fromUTF8 next.advance converts

end Reading

/-- The bytes behind the size: an empty wide string is not given to the converter. -/
def wideOutput {χ : Type} (wstringConverter : List χ → Conversion) (v : List χ) : List Byte :=
  if v.isEmpty then [] else (wstringConverter v).output

/-- A writer that stays within the limit appends the size of `output` and `output`, and
`read(string&)` takes them again, from wherever in a buffer they lie. -/
def Appends (memory : Memory) (bound : Nat) (b output : List Byte)
    (written : Except WriteFailure (List Byte)) : Prop :=
  Gives memory bound written (b ++ stringBytes output) ∧
    ∀ (δ : Type) (rest : List Byte) (stream : ReadStream δ),
      stream.buf = b ++ stringBytes output ++ rest → stream.pos = b.length →
      readString stream = .ok output (stream.advance (stringBytes output).length) ∧
      ∀ (ω : Type) (fromUTF8 : List Byte → Except Failure ω) (cleared value : ω),
        (if output = [] then value = cleared else fromUTF8 output = .ok value) →
        readConverted fromUTF8 cleared stream =
          .ok value (stream.advance (stringBytes output).length)

theorem appends_of_gives {memory : Memory} {bound : Nat} {b output : List Byte}
    {written : Except WriteFailure (List Byte)} (small : output.length < 2 ^ 31)
    (gives : Gives memory bound written (b ++ stringBytes output)) :
    Appends memory bound b output written := by
  refine ⟨gives, ?_⟩
  intro δ rest stream buffer position
  have next : Next stream (stringBytes output) rest := by
    rw [Next, buffer, position]
    constructor
    · simp only [List.length_append]
      omega
    · rw [List.append_assoc, List.drop_left]
  constructor
  · exact read_string_next small next
  · intro ω fromUTF8 cleared value converts
    exact read_converted_next fromUTF8 small next converts

/-- Whatever is in the buffer, whatever the converter appends and on whichever side of 254 the guess
and the size lie, both writers append the size and the converted bytes. -/
theorem conversion_appended {χ : Type} (memory : Memory) (converter : List χ → Conversion) (v : List χ)
    (b : List Byte) (counted : v.length < 2 ^ 31) (small : (converter v).output.length < 2 ^ 31) :
    Appends memory (b.length + (converter v).requested + 9) b (converter v).output
        (writeConverted memory converter v b) ∧
      Appends memory (b.length + (converter v).requested + 9) b (wideOutput converter v)
        (writeWide memory converter v b) := by
  have guessed := @gives_guessed memory b v.length (converter v) counted small
  constructor
  · exact appends_of_gives small guessed
  · unfold writeWide wideOutput
    cases v with
    | nil =>
        have nothing : Gives memory (b.length + 5) (writeSize memory 0 b) (b ++ sizeWord 0) :=
          gives_size (Int.le_refl 0)
        exact appends_of_gives (Nat.two_pow_pos 31) (nothing.mono (by omega))
    | cons first rest => exact appends_of_gives small guessed

/-- Latin-1 to UTF-8, in one chunk. -/
def latin1 (v : List Byte) : Conversion where
  first :=
    { howMany := 2 * v.length + 6
      bytes := v.flatMap fun char => if char < 128 then [char] else [192 + char / 64, 128 + char % 64]
      positive := by omega
      within := by
        induction v with
        | nil => exact Nat.zero_le _
        | cons char rest ih =>
            rw [List.flatMap_cons, List.length_append, List.length_cons]
            split <;> simp only [List.length_cons, List.length_nil] <;> omega }
  more := []

/-- Two hundred characters, whose size is guessed to fit one byte. -/
def accented : List Byte := List.replicate 200 233

/-- They become four hundred bytes, which are moved to make room for their size. -/
theorem latin1_appended :
    Appends ⟨none, fun _ _ => 0⟩ (([7] : List Byte).length + (latin1 accented).requested + 9) [7]
        (latin1 accented).output (writeConverted ⟨none, fun _ _ => 0⟩ latin1 accented [7]) ∧
      Appends ⟨none, fun _ _ => 0⟩ (([7] : List Byte).length + (latin1 accented).requested + 9) [7]
        (wideOutput latin1 accented) (writeWide ⟨none, fun _ _ => 0⟩ latin1 accented [7]) ∧
      (latin1 accented).output.length = 400 := by
  have long : (latin1 accented).output.length = 400 := by decide +kernel
  have counted : accented.length < 2 ^ 31 := by
    rw [accented, List.length_replicate]
    decide
  have small : (latin1 accented).output.length < 2 ^ 31 := by
    rw [long]
    decide
  have appended := conversion_appended ⟨none, fun _ _ => 0⟩ latin1 accented [7] counted small
  exact ⟨appended.1, appended.2, long⟩

end IceTouch.Converters
