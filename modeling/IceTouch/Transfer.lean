import IceTouch.InStream

/-!
# What a reader makes of the bytes of a writer

`Takes` is for readers of plain data: over the given bytes the reader returns the given
value and moves past them. `Reads` is for readers that keep a decoder in step with the
state of an encoder. Its invariant relates the encoder state, the decoder and a ghost list
with one entry for every memory cell the reader has handed out; the ghost list only grows,
so that what is known of a cell stays known.

`readAndCheckSeqSize` accumulates the least number of bytes that the sequences announced so
far still have to occupy. `Charged` bounds what has been accumulated by the bytes that are
still to come, which is why every rule carries the least size of what it reads.
-/

namespace IceTouch.Transfer

open Bytes WireTypes OutStream StreamHelpers InStream
open Emit Run

variable {δ σ τ α β : Type}

/-- The stream stands before `bytes`, inside its encapsulation. -/
structure Ahead (stream : ReadStream δ) (bytes rest : List Byte) : Prop where
  next : stream.buf.drop stream.pos = bytes ++ rest
  inside : stream.pos + bytes.length ≤ stream.encapsEnd
  enclosed : stream.encapsEnd ≤ stream.buf.length
  bounded : stream.buf.length < 2 ^ 31

namespace Ahead

variable {stream : ReadStream δ} {bytes left right rest : List Byte}

theorem total (ahead : Ahead stream bytes rest) :
    stream.pos + bytes.length + rest.length = stream.buf.length := by
  have lengths := congrArg List.length ahead.next
  have inside := ahead.inside
  have enclosed := ahead.enclosed
  simp only [List.length_drop, List.length_append] at lengths
  omega

theorem first (ahead : Ahead stream (left ++ right) rest) : Ahead stream left (right ++ rest) where
  next := by rw [ahead.next, List.append_assoc]
  inside := by
    have inside := ahead.inside
    rw [List.length_append] at inside
    omega
  enclosed := ahead.enclosed
  bounded := ahead.bounded

theorem second (ahead : Ahead stream (left ++ right) rest) :
    Ahead (stream.advance left.length) right rest where
  next := by
    have next := ahead.next
    rw [List.append_assoc] at next
    simp only [ReadStream.advance]
    rw [← List.drop_drop, next, List.drop_left]
  inside := by
    have inside := ahead.inside
    rw [List.length_append] at inside
    simp only [ReadStream.advance]
    omega
  enclosed := ahead.enclosed
  bounded := ahead.bounded

end Ahead

/-- Over `bytes`, the reader returns `value` and moves past them. -/
def Takes (bytes : List Byte) (reader : Reader δ α) (value : α) : Prop :=
  ∀ (stream : ReadStream δ) (rest : List Byte), Ahead stream bytes rest →
    reader stream = .ok value (stream.advance bytes.length)

theorem advance_advance (stream : ReadStream δ) (first second : Nat) :
    (stream.advance first).advance second = stream.advance (first + second) := by
  simp [ReadStream.advance, Nat.add_assoc]

theorem Takes.pure (value : α) : Takes (δ := δ) [] (pure value) value := by
  intro stream rest _
  simp [ReadStream.advance]

theorem Takes.bind {left right : List Byte} {first : Reader δ α} {next : α → Reader δ β}
    {value : α} {result : β} (taken : Takes left first value)
    (continued : Takes right (next value) result) :
    Takes (left ++ right) (first >>= next) result := by
  intro stream rest ahead
  rw [bind_of_ok (taken stream _ ahead.first), continued _ _ ahead.second, advance_advance,
    List.length_append]

theorem Takes.finish {bytes : List Byte} {first : Reader δ α} {next : α → Reader δ β} {value : α}
    {result : β} (taken : Takes bytes first value) (continued : Takes [] (next value) result) :
    Takes bytes (first >>= next) result := by
  have whole := taken.bind continued
  rwa [List.append_nil] at whole

theorem Takes.map {bytes : List Byte} {first : Reader δ α} {value : α}
    (taken : Takes bytes first value) (compute : α → β) :
    Takes bytes (first >>= fun result => Pure.pure (compute result)) (compute value) :=
  taken.finish (Takes.pure (compute value))

theorem takes_byte (byte : Byte) : Takes (δ := δ) [byte] readByte byte := by
  intro stream rest ahead
  have found : stream.buf[stream.pos]? = some byte := by
    have start := congrArg (fun bytes => bytes[0]?) ahead.next
    simpa [List.getElem?_drop] using start
  simp [readByte, found]

theorem takes_blob (bytes : List Byte) : Takes (δ := δ) bytes (readBlob bytes.length) bytes := by
  intro stream rest ahead
  have total := ahead.total
  have enough : stream.pos + bytes.length ≤ stream.buf.length := by omega
  simp [readBlob, enough, ahead.next]

theorem takes_unchecked (bytes : List Byte) :
    Takes (δ := δ) bytes (readUnchecked bytes.length) bytes := by
  intro stream rest ahead
  have total := ahead.total
  have enough : stream.pos + bytes.length ≤ stream.buf.length := by omega
  simp [readUnchecked, enough, ahead.next]

theorem takes_skip (bytes : List Byte) : Takes (δ := δ) bytes (skip bytes.length) () := by
  intro stream rest ahead
  have total := ahead.total
  have enough : ¬ (stream.buf.length : Int) < stream.pos + bytes.length := by omega
  have forward : ¬ (stream.pos : Int) + bytes.length < 0 := by omega
  have landed : ((stream.pos : Int) + bytes.length).toNat = stream.pos + bytes.length := by omega
  simp [skip, enough, forward, landed, ReadStream.advance]

variable {width : Nat}

theorem decode_word (value : BitVec width) (whole : 256 ^ (width / 8) = 2 ^ width) :
    BitVec.ofNat width (decodeLE (wordBytes value)) = value := by
  rw [wordBytes, decode_le_encode, whole, Nat.mod_eq_of_lt value.isLt, BitVec.ofNat_toNat,
    BitVec.setWidth_eq]

@[simp] theorem word_bytes_length (value : BitVec width) :
    (wordBytes value).length = width / 8 := by
  simp [wordBytes]

theorem takes_word (value : BitVec width) (whole : 256 ^ (width / 8) = 2 ^ width) :
    Takes (δ := δ) (wordBytes value) (readWord width) value := by
  have taken := (takes_blob (δ := δ) (wordBytes value)).map fun bytes =>
    BitVec.ofNat width (decodeLE bytes)
  rw [word_bytes_length, decode_word value whole] at taken
  exact taken

theorem int_bytes_eq_word (value : Int) : intBytes value = wordBytes (BitVec.ofInt 32 value) := by
  simp [intBytes, wordBytes]

theorem takes_int (value : Int) (lower : -2 ^ 31 ≤ value) (upper : value < 2 ^ 31) :
    Takes (δ := δ) (intBytes value) readInt value := by
  have taken := (takes_word (δ := δ) (BitVec.ofInt 32 value) (by decide)).map BitVec.toInt
  have fits : (BitVec.ofInt 32 value).toInt = value := by
    rw [BitVec.toInt_ofInt]
    exact Int.bmod_eq_of_le (by simpa using lower) (by simpa using upper)
  rw [← int_bytes_eq_word, fits] at taken
  exact taken

theorem takes_bool (value : Bool) : Takes (δ := δ) (boolBytes value) readBool value := by
  have taken := (takes_byte (δ := δ) (if value then 1 else 0)).map fun byte => byte != 0
  cases value <;> exact taken

theorem size_bytes_pos (value : Nat) : 0 < (sizeBytes value).length := by
  unfold sizeBytes
  split <;> simp

theorem size_byte_ne_marker {value : Nat} (small : ¬254 < value) : UInt8.ofNat value ≠ 255 := by
  intro marker
  have bad := congrArg UInt8.toNat marker
  rw [UInt8.toNat_ofNat'] at bad
  simp at bad
  omega

theorem takes_size (value : Nat) (bounded : value < 2 ^ 31) :
    Takes (δ := δ) (sizeBytes value) readSize value := by
  unfold sizeBytes readSize
  split
  case isTrue large =>
    change Takes ([255] ++ intBytes value) _ _
    refine (takes_byte 255).bind ?_
    rw [if_pos rfl]
    refine (takes_int (value : Int) (by omega) (by exact_mod_cast bounded)).finish ?_
    rw [if_neg (by omega), Int.toNat_natCast]
    exact Takes.pure value
  case isFalse small =>
    refine (takes_byte (UInt8.ofNat value)).finish ?_
    have same : (UInt8.ofNat value).toNat = value := by
      rw [UInt8.toNat_ofNat']
      omega
    rw [if_neg (size_byte_ne_marker small), same]
    exact Takes.pure value

theorem takes_skip_size (value : Nat) :
    Takes (δ := δ) (sizeBytes value) skipSize () := by
  unfold sizeBytes skipSize
  split
  case isTrue large =>
    change Takes ([255] ++ intBytes value) _ _
    refine (takes_byte 255).bind ?_
    rw [if_pos rfl]
    have skipped := takes_skip (δ := δ) (intBytes value)
    rwa [int_bytes_length] at skipped
  case isFalse small =>
    refine (takes_byte (UInt8.ofNat value)).finish ?_
    rw [if_neg (size_byte_ne_marker small)]
    exact Takes.pure ()

theorem Takes.of_bounded {bytes : List Byte} {reader : Reader δ α} {value : α}
    (taken : bytes.length < 2 ^ 31 → Takes bytes reader value) : Takes bytes reader value := by
  intro stream rest ahead
  have total := ahead.total
  have bounded := ahead.bounded
  exact taken (by omega) stream rest ahead

theorem takes_string (value : Str) : Takes (δ := δ) (stringBytes value) readString value := by
  refine Takes.of_bounded fun bounded => ?_
  rw [stringBytes, List.length_append] at bounded
  refine (takes_size value.length (by omega)).bind ?_
  by_cases empty : value = []
  · subst empty
    exact Takes.pure []
  · rw [if_pos (List.length_pos_iff.mpr empty)]
    exact takes_blob value

theorem takes_version (version : Version) :
    Takes (δ := δ) (versionBytes version) readVersion version := by
  change Takes ([version.major] ++ [version.minor]) _ _
  exact (takes_byte version.major).bind
    ((takes_byte version.minor).map (Version.mk version.major))

theorem takes_enum (encoding : Encoding) (range : EnumRange)
    (value : { value : Nat // range.minValue ≤ value ∧ value ≤ range.maxValue }) :
    Takes (δ := δ) (enumBytes encoding value.val range.maxValue)
      (do
        let read ← readEnum encoding range.maxValue
        checkEnum range read) value := by
  have bounded := range.bounded
  have upper := value.property.2
  have checked : Takes (δ := δ) [] (checkEnum range value.val) value := by
    have inside : range.minValue ≤ (value.val : Int).toNat ∧
        (value.val : Int).toNat ≤ range.maxValue ∧ (0 : Int) ≤ value.val :=
      ⟨by simpa using value.property.1, by simpa using upper, by omega⟩
    rw [checkEnum, dif_pos inside]
    exact Takes.pure value
  suffices plain : Takes (δ := δ) (enumBytes encoding value.val range.maxValue)
      (readEnum encoding range.maxValue) (value.val : Int) from plain.finish checked
  cases encoding with
  | v11 => exact (takes_size value.val (by omega)).map Int.ofNat
  | v10 =>
      simp only [enumBytes, readEnum]
      split_ifs with byteWide shortWide
      · have same : (UInt8.ofNat value.val).toNat = value.val := by
          rw [UInt8.toNat_ofNat']
          omega
        have taken := (takes_byte (δ := δ) (UInt8.ofNat value.val)).map fun byte => (byte.toNat : Int)
        rwa [same] at taken
      · have same : (BitVec.ofNat 16 value.val).toInt = value.val := by
          rw [BitVec.toInt_ofNat']
          exact Int.bmod_eq_of_le (by omega) (by omega)
        have taken := (takes_word (δ := δ) (BitVec.ofNat 16 value.val) (by decide)).map BitVec.toInt
        rwa [same] at taken
      · exact takes_int value.val (by omega) (by exact_mod_cast (by omega : value.val < 2 ^ 31))

/-- The bytes accounted for by the sequences announced so far end at most `budget` bytes
from here. -/
def Charged (stream : ReadStream δ) (budget : Nat) : Prop :=
  stream.startSeq = -1 ∨
    (0 ≤ stream.startSeq ∧ 0 ≤ stream.minSeqSize ∧
      stream.startSeq + stream.minSeqSize ≤ stream.pos + budget)

theorem Charged.mono {stream : ReadStream δ} {small large : Nat} (charged : Charged stream small)
    (wider : small ≤ large) : Charged stream large := by
  rcases charged with unset | ⟨start, least, within⟩
  · exact Or.inl unset
  · exact Or.inr ⟨start, least, by omega⟩

theorem Charged.advance {stream : ReadStream δ} {count budget : Nat}
    (charged : Charged stream (count + budget)) : Charged (stream.advance count) budget := by
  rcases charged with unset | ⟨start, least, within⟩
  · exact Or.inl unset
  · refine Or.inr ⟨start, least, ?_⟩
    simp only [ReadStream.advance]
    push_cast at within ⊢
    omega

/-- A reader has moved past `count` bytes. -/
structure Moved (before after : ReadStream δ) (count : Nat) : Prop where
  buf : after.buf = before.buf
  encapsEnd : after.encapsEnd = before.encapsEnd
  pos : after.pos = before.pos + count

theorem Moved.advance (stream : ReadStream δ) (count : Nat) :
    Moved stream (stream.advance count) count := ⟨rfl, rfl, rfl⟩

theorem Moved.trans {first second third : ReadStream δ} {left right : Nat}
    (one : Moved first second left) (two : Moved second third right) :
    Moved first third (left + right) where
  buf := two.buf.trans one.buf
  encapsEnd := two.encapsEnd.trans one.encapsEnd
  pos := by rw [two.pos, one.pos, Nat.add_assoc]

theorem Ahead.moved {before after : ReadStream δ} {left right rest : List Byte}
    (ahead : Ahead before (left ++ right) rest) (moved : Moved before after left.length) :
    Ahead after right rest where
  next := by
    rw [moved.buf, moved.pos]
    exact ahead.second.next
  inside := by
    rw [moved.encapsEnd, moved.pos]
    exact ahead.second.inside
  enclosed := by
    rw [moved.encapsEnd, moved.buf]
    exact ahead.enclosed
  bounded := by
    rw [moved.buf]
    exact ahead.bounded

def Lasting (rel : List τ → α → Prop) : Prop :=
  ∀ (small large : List τ) (value : α), small <+: large → rel small value → rel large value

/-- Over the bytes of `emitter` the reader succeeds, takes the decoder from one relation with
the emitter's state to another, and returns a value that is related to what was written.
Nothing is said of an emission that ends in a state that is not acceptable. -/
def Carries (fuel : Nat) (ok : Gauge σ) (pre post : σ → List τ → δ → Prop) (low : Nat)
    (emitter : Emitter σ) (reader : Reader δ α) (rel : List τ → α → Prop) : Prop :=
  ∀ (state : σ) (cells : List τ) (stream : ReadStream δ) (rest : List Byte) (spare : Nat),
    ok (emitter state).2 → pre state cells stream.decoder →
    Ahead stream (emitter state).1 rest → Charged stream (low + spare) → spare ≤ rest.length →
    stream.buf.length < stream.pos + fuel →
    ∃ (value : α) (more : List τ) (after : ReadStream δ),
      reader stream = .ok value after ∧ Moved stream after (emitter state).1.length ∧
      Charged after spare ∧ cells <+: more ∧ post (emitter state).2 more after.decoder ∧
      rel more value

def Reads (fuel : Nat) (ok : Gauge σ) (inv : σ → List τ → δ → Prop) (low : Nat)
    (emitter : Emitter σ) (reader : Reader δ α) (rel : List τ → α → Prop) : Prop :=
  Carries fuel ok inv inv low emitter reader rel

section Carries

variable {fuel : Nat} {ok : Gauge σ} {pre mid post : σ → List τ → δ → Prop} {reader : Reader δ α}

variable {low : Nat} {emitter : Emitter σ} {next : α → Reader δ β} {value : α}

theorem Carries.imp {strong weak : List τ → α → Prop}
    (reads : Carries fuel ok pre post low emitter reader strong)
    (weaker : ∀ cells value, strong cells value → weak cells value) :
    Carries fuel ok pre post low emitter reader weak := by
  intro state cells stream rest spare fine holds ahead charged spared fueled
  obtain ⟨value, more, after, ran, moved, left, grown, kept, related⟩ :=
    reads state cells stream rest spare fine holds ahead charged spared fueled
  exact ⟨value, more, after, ran, moved, left, grown, kept, weaker more value related⟩

variable {rel : List τ → α → Prop}

theorem Carries.lower {less : Nat} (reads : Carries fuel ok pre post low emitter reader rel)
    (fewer : less ≤ low) : Carries fuel ok pre post less emitter reader rel := by
  intro state cells stream rest spare fine holds ahead charged spared fueled
  exact reads state cells stream rest spare fine holds ahead (charged.mono (by omega)) spared fueled

theorem Carries.bind {low₁ low₂ : Nat} {left right : Emitter σ} {first : Reader δ α}
    {next : α → Reader δ β} {rel₁ : List τ → α → Prop} {rel₂ : α → List τ → β → Prop}
    (reads : Carries fuel ok pre mid low₁ left first rel₁) (lasting : Lasting rel₁)
    (grows : Grows ok low₂ right)
    (continued : ∀ cells value, rel₁ cells value →
      Carries fuel ok mid post low₂ right (next value) (rel₂ value)) :
    Carries fuel ok pre post (low₁ + low₂) (andThen left right) (first >>= next)
      (fun cells result => ∃ value, rel₁ cells value ∧ rel₂ value cells result) := by
  intro state cells stream rest spare fine holds ahead charged spared fueled
  obtain ⟨enough, back, -⟩ := grows (left state).2
  obtain ⟨value, more, middle, ran, moved, left₁, grown, kept, related⟩ :=
    reads state cells stream ((right (left state).2).1 ++ rest) (low₂ + spare) (back fine) holds
      ahead.first (charged.mono (by omega)) (by rw [List.length_append]; omega) fueled
  have stillFueled : middle.buf.length < middle.pos + fuel := by
    rw [moved.buf, moved.pos]
    omega
  obtain ⟨result, most, after, ran₂, moved₂, left₂, grown₂, kept₂, related₂⟩ :=
    continued more value related (left state).2 more middle rest spare fine kept
      (ahead.moved moved) left₁ spared stillFueled
  refine ⟨result, most, after, ?_, ?_, left₂, grown.trans grown₂, kept₂, value,
    lasting more most value grown₂ related, related₂⟩
  · rw [bind_of_ok ran, ran₂]
  · rw [and_then_bytes, List.length_append]
    exact moved.trans moved₂

theorem Carries.bind_eq {low₁ low₂ : Nat} {left right : Emitter σ} {first : Reader δ α}
    {rel : List τ → β → Prop}
    (reads : Carries fuel ok pre mid low₁ left first (fun _ result => result = value))
    (grows : Grows ok low₂ right) (continued : Carries fuel ok mid post low₂ right (next value) rel) :
    Carries fuel ok pre post (low₁ + low₂) (andThen left right) (first >>= next) rel := by
  have whole : Carries fuel ok pre post (low₁ + low₂) (andThen left right) (first >>= next)
      (fun cells result => ∃ other, other = value ∧ rel cells result) := by
    refine reads.bind (fun _ _ _ _ same => same) grows ?_
    rintro cells other rfl
    exact continued
  exact whole.imp fun cells result ⟨_, _, related⟩ => related

theorem Carries.map (reads : Carries fuel ok pre post low emitter reader rel) (compute : α → β) :
    Carries fuel ok pre post low emitter (reader >>= fun value => Pure.pure (compute value))
      (fun cells result => ∃ value, rel cells value ∧ result = compute value) := by
  intro state cells stream rest spare fine holds ahead charged spared fueled
  obtain ⟨value, more, after, ran, moved, left, grown, kept, related⟩ :=
    reads state cells stream rest spare fine holds ahead charged spared fueled
  refine ⟨compute value, more, after, ?_, moved, left, grown, kept, value, related, rfl⟩
  rw [bind_of_ok ran]
  rfl

theorem Reads.of_takes {bytes : List Byte} (taken : Takes bytes reader value)
    (long : low ≤ bytes.length) (related : ∀ cells, rel cells value) :
    Reads fuel ok pre low (emit bytes) reader rel := by
  intro state cells stream rest spare _ holds ahead charged _ _
  refine ⟨value, cells, stream.advance bytes.length, taken stream rest ahead, Moved.advance _ _,
    ?_, List.prefix_rfl, holds, related cells⟩
  exact (charged.mono (by omega)).advance

theorem Carries.after_takes {bytes : List Byte} {low₁ low₂ : Nat} {right : Emitter σ}
    {first : Reader δ α} {rel : List τ → β → Prop} (taken : Takes bytes first value)
    (long : low₁ ≤ bytes.length) (grows : Grows ok low₂ right)
    (continued : Carries fuel ok pre post low₂ right (next value) rel) :
    Carries fuel ok pre post (low₁ + low₂) (andThen (emit bytes) right) (first >>= next) rel :=
  Carries.bind_eq (Reads.of_takes taken long fun _ => rfl) grows continued

end Carries

section Reads

variable {fuel : Nat} {ok : Gauge σ} {inv : σ → List τ → δ → Prop} {rel : List τ → β → Prop}

variable {low : Nat} {content : Emitter σ} {next : Nat → Reader δ β}

theorem Reads.framed {header : Nat → List Byte} {first : Reader δ α} {value : α}
    {reader : Reader δ β} (taken : ∀ length, Takes (header length) first value)
    (grows : Grows ok low content) (reads : Reads fuel ok inv low content reader rel) :
    Reads fuel ok inv low (framed header content) (first >>= fun _ => reader) rel := by
  intro state cells stream rest spare fine holds ahead charged spared fueled
  have whole : Reads fuel ok inv (0 + low)
      (andThen (emit (header (content state).1.length)) content) (first >>= fun _ => reader) rel :=
    Carries.after_takes (taken _) (Nat.zero_le _) grows reads
  exact whole.lower (by omega) state cells stream rest spare fine holds ahead charged spared fueled

theorem reads_all {each : α → Emitter σ} {reader : Reader δ β} {rel : α → List τ → β → Prop}
    (lasting : ∀ item, Lasting (rel item)) (items : List α)
    (grows : ∀ item ∈ items, Grows ok low (each item))
    (every : ∀ item ∈ items, Reads fuel ok inv low (each item) reader (rel item)) :
    Reads fuel ok inv (items.length * low) (emitAll each items) (repeatRun items.length reader)
      (fun cells values => List.Forall₂ (fun item value => rel item cells value) items values) := by
  induction items with
  | nil => exact Reads.of_takes (Takes.pure []) (by simp) (fun _ => List.Forall₂.nil)
  | cons item rest ih =>
      have growsLater := fun other member => grows other (List.mem_cons_of_mem item member)
      have later := ih growsLater fun other member => every other (List.mem_cons_of_mem item member)
      have whole := (every item (by simp)).bind (lasting item) (grows_emit_all rest growsLater)
        (fun _ value _ => later.map fun values => value :: values)
      rw [List.length_cons, Nat.succ_mul, Nat.add_comm]
      refine whole.imp ?_
      rintro cells results ⟨value, related, values, others, rfl⟩
      exact List.Forall₂.cons related others

theorem wrap32_of_lt {value : Int} (lower : 0 ≤ value) (upper : value < 2 ^ 31) :
    wrap32 value = value := by
  rw [wrap32, BitVec.toInt_ofInt]
  exact Int.bmod_eq_of_le (by norm_num; omega) (by simpa using upper)

/-- The check of `readAndCheckSeqSize` passes when the announced elements, and whatever
else the enclosing sequences still need, are in the buffer. -/
theorem check_seq_size_ok {count minSize width spare : Nat} {stream : ReadStream δ}
    (sized : readSize stream = .ok count (stream.advance width)) (positive : 0 < width)
    (charged : Charged stream (1 + spare))
    (room : stream.pos + width + count * minSize + spare ≤ stream.buf.length)
    (bounded : stream.buf.length < 2 ^ 31) :
    ∃ middle, readAndCheckSeqSize minSize stream = .ok count middle ∧
      Moved stream middle width ∧ Charged middle (count * minSize + spare) ∧
      middle.decoder = stream.decoder := by
  have moved : Charged (stream.advance width) spare := (charged.mono (by omega)).advance
  have needed : wrap32 ((count : Int) * minSize) = (count * minSize : Nat) := by
    rw [← Int.natCast_mul]
    exact wrap32_of_lt (by omega) (by exact_mod_cast (by omega : count * minSize < 2 ^ 31))
  have whole : wrap32 stream.buf.length = stream.buf.length :=
    wrap32_of_lt (by omega) (by exact_mod_cast bounded)
  generalize count * minSize = size at room needed ⊢
  unfold readAndCheckSeqSize
  rw [bind_of_ok sized]
  by_cases empty : count = 0
  · subst empty
    exact ⟨_, by simp, Moved.advance _ _, moved.mono (by omega), rfl⟩
  simp only [if_neg empty, bind_get, record, bind_modify, needed]
  by_cases restarted : (stream.advance width).startSeq = -1 ∨
      (stream.advance width).startSeq + (stream.advance width).minSeqSize <
        (stream.advance width).pos
  · have start : wrap32 ((stream.advance width).pos : Int) = (stream.pos + width : Nat) := by
      refine wrap32_of_lt (by omega) ?_
      simp only [ReadStream.advance]
      exact_mod_cast (by omega : stream.pos + width < 2 ^ 31)
    have finish : wrap32 (((stream.pos + width : Nat) : Int) + size) =
        ((stream.pos + width : Nat) : Int) + size :=
      wrap32_of_lt (by omega) (by omega)
    simp only [if_pos restarted, start, finish]
    rw [if_neg]
    · refine ⟨_, rfl, ⟨rfl, rfl, rfl⟩, Or.inr ⟨?_, ?_, ?_⟩, rfl⟩
      · exact Int.natCast_nonneg _
      · exact Int.natCast_nonneg _
      · simp only [ReadStream.advance]
        omega
    · simp only [ReadStream.advance, whole]
      omega
  · rcases moved with unset | ⟨startPos, leastPos, within⟩
    · exact absurd (Or.inl unset) restarted
    have least : wrap32 ((stream.advance width).minSeqSize + size) = (stream.advance width).minSeqSize + size := by
      refine wrap32_of_lt (by omega) ?_
      simp only [ReadStream.advance] at within startPos ⊢
      omega
    have finish : wrap32 ((stream.advance width).startSeq +
        ((stream.advance width).minSeqSize + size)) =
          (stream.advance width).startSeq + ((stream.advance width).minSeqSize + size) := by
      refine wrap32_of_lt (by omega) ?_
      simp only [ReadStream.advance] at within startPos ⊢
      omega
    simp only [if_neg restarted, least, finish]
    rw [if_neg]
    · refine ⟨_, rfl, ⟨rfl, rfl, rfl⟩, Or.inr ⟨startPos, by simpa using by omega, ?_⟩, rfl⟩
      simp only [ReadStream.advance] at within ⊢
      omega
    · simp only [ReadStream.advance, whole] at within ⊢
      omega

theorem reads_counted {count minSize : Nat} (positive : 0 < minSize)
    (grows : Grows ok (count * minSize) content)
    (continued : Reads fuel ok inv (count * minSize) content (next count) rel) :
    Reads fuel ok inv 1 (andThen (emit (sizeBytes count)) content)
      (readAndCheckSeqSize minSize >>= next) rel := by
  intro state cells stream rest spare fine holds ahead charged spared fueled
  have enough := (grows state).long
  have total := ahead.total
  have bounded := ahead.bounded
  simp only [and_then_bytes, emit_bytes, emit_state, List.length_append] at total
  have few : count ≤ count * minSize := Nat.le_mul_of_pos_right count positive
  have sized : readSize stream = .ok count (stream.advance (sizeBytes count).length) :=
    takes_size count (by omega) stream _ ahead.first
  obtain ⟨middle, ran, moved, left, same⟩ := check_seq_size_ok sized
    (size_bytes_pos count) charged (by omega : _ + _ + count * minSize + spare ≤ _) bounded
  have stillFueled : middle.buf.length < middle.pos + fuel := by
    rw [moved.buf, moved.pos]
    omega
  obtain ⟨result, more, after, ran₂, moved₂, left₂, grown, kept, related⟩ :=
    continued state cells middle rest spare fine (same ▸ holds) (ahead.moved moved) left spared
      stillFueled
  refine ⟨result, more, after, ?_, ?_, left₂, grown, kept, related⟩
  · rw [bind_of_ok ran, ran₂]
  · rw [and_then_bytes, List.length_append]
    exact moved.trans moved₂

theorem reads_sized {count : Nat} (few : count ≤ low) (grows : Grows ok low content)
    (continued : Reads fuel ok inv low content (next count) rel) :
    Reads fuel ok inv 1 (andThen (emit (sizeBytes count)) content) (readSize >>= next) rel := by
  intro state cells stream rest spare fine holds ahead charged spared fueled
  have enough := (grows state).long
  have total := ahead.total
  have bounded := ahead.bounded
  simp only [and_then_bytes, emit_bytes, emit_state, List.length_append] at total
  have whole : Reads fuel ok inv (1 + low) (andThen (emit (sizeBytes count)) content)
      (readSize >>= next) rel :=
    Carries.after_takes (takes_size count (by omega)) (size_bytes_pos count) grows continued
  exact whole.lower (by omega) state cells stream rest spare fine holds ahead charged spared fueled

end Reads

end IceTouch.Transfer
