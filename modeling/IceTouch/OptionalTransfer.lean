import IceTouch.ValueTransfer

/-!
# Optional members and parameters

Optionals are written in ascending order of their tags. A receiver asks for the tags it
knows, in the same order. An optional whose tag it does not ask for is skipped by its format
and the size in front of it, either on the way to a larger tag or by `skipOpts` at the end.

Whether skipping keeps the decoder in step is a property of the encoder, so the rules here
take it as a hypothesis: it is immediate for content without classes.
-/

namespace IceTouch.OptionalTransfer

open Bytes WireTypes OutStream StreamHelpers InStream
open Emit Run Transfer ValueTransfer

variable {δ σ τ ρ ρ' : Type}

theorem small_tag_byte : ∀ tag < 30, ∀ format : OptionalFormat,
    format.code ||| (UInt8.ofNat tag <<< 3) ≠ 255 ∧
    (format.code ||| (UInt8.ofNat tag <<< 3)) >>> 3 ≠ 30 ∧
    ((format.code ||| (UInt8.ofNat tag <<< 3)) >>> 3).toNat = tag ∧
    OptionalFormat.ofByte (format.code ||| (UInt8.ofNat tag <<< 3)) = format := by
  suffices every : ∀ format : OptionalFormat, ∀ tag < 30, _ from fun tag small format =>
    every format tag small
  intro format
  cases format <;> decide

theorem large_tag_byte (format : OptionalFormat) :
    format.code ||| 0xF0 ≠ 255 ∧ (format.code ||| 0xF0) >>> 3 = 30 ∧
    OptionalFormat.ofByte (format.code ||| 0xF0) = format := by
  cases format <;> decide

theorem tag_bytes_length (tag : Nat) (format : OptionalFormat) :
    (tagBytes tag format).length = if tag < 30 then 1 else if tag < 255 then 2 else 6 := by
  unfold tagBytes sizeBytes
  split_ifs <;> first | omega | simp

/-- The first byte of an optional and its tag, as `readOptImpl` and `skipOpts` see them. -/
theorem tag_bytes_cases (tag : Nat) (format : OptionalFormat) :
    ∃ byte more, tagBytes tag format = [byte] ++ more ∧ byte ≠ 255 ∧
      OptionalFormat.ofByte byte = format ∧
      ((byte >>> 3 = 30 ∧ more = sizeBytes tag) ∨
        (byte >>> 3 ≠ 30 ∧ more = [] ∧ (byte >>> 3).toNat = tag)) := by
  unfold tagBytes
  split
  case isTrue small =>
    obtain ⟨marked, escaped, same, decoded⟩ := small_tag_byte tag small format
    exact ⟨_, [], rfl, marked, decoded, Or.inr ⟨escaped, rfl, same⟩⟩
  case isFalse large =>
    obtain ⟨marked, escaped, decoded⟩ := large_tag_byte format
    exact ⟨_, sizeBytes tag, rfl, marked, decoded, Or.inl ⟨escaped, rfl⟩⟩

theorem tag_bytes_pos (tag : Nat) (format : OptionalFormat) :
    0 < (tagBytes tag format).length := by
  rw [tag_bytes_length]
  split_ifs <;> omega

section

variable (skipRef : Reader δ Unit)

include skipRef

theorem read_opt_tag (readTag tag loop : Nat) (bounded : tag < 2 ^ 31)
    (format expected : OptionalFormat) (stream : ReadStream δ) (rest : List Byte)
    (ahead : Ahead stream (tagBytes tag format) rest) :
    readOptImpl skipRef readTag expected (loop + 1) stream =
      if readTag < tag then .ok false stream
      else if tag < readTag then
        (skipOpt skipRef format >>= fun _ => readOptImpl skipRef readTag expected loop)
          (stream.advance (tagBytes tag format).length)
      else if format ≠ expected then
        .error (.ice (.marshal ("invalid optional data member `" ++ toString tag ++
          "': unexpected format"))) (stream.advance (tagBytes tag format).length)
      else .ok true (stream.advance (tagBytes tag format).length) := by
  have inside := ahead.inside
  have positive := tag_bytes_pos tag format
  have length := tag_bytes_length tag format
  obtain ⟨byte, more, split, marked, decoded, sized⟩ := tag_bytes_cases tag format
  have open_ : ¬ stream.encapsEnd ≤ stream.pos := by omega
  rw [split] at ahead
  have first := takes_byte byte stream _ ahead.first
  have second : optionalTag byte (stream.advance [byte].length) = .ok tag (stream.advance (tagBytes tag format).length) := by
    rw [split, List.length_append, ← advance_advance, optionalTag]
    rcases sized with ⟨escaped, rfl⟩ | ⟨escaped, rfl, same⟩
    · rw [if_pos escaped]
      exact takes_size tag bounded _ _ ahead.second
    · rw [if_neg escaped, same]
      exact Takes.pure tag _ _ ahead.second
  rw [readOptImpl, bind_get, if_neg open_, bind_of_ok first, if_neg marked, bind_of_ok second,
    decoded, ← length]
  split_ifs
  · simp [rewind, ReadStream.advance]
  · rfl
  · rfl
  · rfl

theorem skip_opts_tag (tag loop : Nat) (format : OptionalFormat) (stream : ReadStream δ)
    (rest : List Byte) (ahead : Ahead stream (tagBytes tag format) rest) :
    skipOpts skipRef (loop + 1) stream =
      (skipOpt skipRef format >>= fun _ => skipOpts skipRef loop)
        (stream.advance (tagBytes tag format).length) := by
  have inside := ahead.inside
  have positive := tag_bytes_pos tag format
  obtain ⟨byte, more, split, marked, decoded, sized⟩ := tag_bytes_cases tag format
  have open_ : ¬stream.encapsEnd ≤ stream.pos := by omega
  rw [split] at ahead
  have first := takes_byte byte stream _ ahead.first
  have second : skipTag byte (stream.advance [byte].length) =
      .ok () (stream.advance (tagBytes tag format).length) := by
    rw [split, List.length_append, ← advance_advance, skipTag]
    rcases sized with ⟨escaped, rfl⟩ | ⟨escaped, rfl, same⟩
    · rw [if_pos escaped]
      exact takes_skip_size tag _ _ ahead.second
    · rw [if_neg escaped]
      exact Takes.pure () _ _ ahead.second
  rw [skipOpts, bind_get, if_neg open_, bind_of_ok first, if_neg marked, bind_of_ok second, decoded]

/-- After `count` more bytes the optionals end: with the encapsulation, or at an end marker. -/
def Ends (stream : ReadStream δ) (count : Nat) (rest : List Byte) : Prop :=
  stream.encapsEnd = stream.pos + count ∨
    (∃ more, rest = 255 :: more) ∧ stream.pos + count < stream.encapsEnd

theorem read_opt_end (readTag loop : Nat) (expected : OptionalFormat) (stream : ReadStream δ)
    (rest : List Byte) (ahead : Ahead stream [] rest) (ends : Ends stream 0 rest) :
    readOptImpl skipRef readTag expected (loop + 1) stream = .ok false stream := by
  rcases ends with last | ⟨⟨more, rfl⟩, within⟩
  · have closed : stream.encapsEnd ≤ stream.pos := by omega
    rw [readOptImpl, bind_get, if_pos closed, pure_run]
  · have open_ : ¬stream.encapsEnd ≤ stream.pos := by omega
    have marker : Ahead stream [255] more :=
      ⟨ahead.next, by simp; omega, ahead.enclosed, ahead.bounded⟩
    rw [readOptImpl, bind_get, if_neg open_, bind_of_ok (takes_byte 255 stream _ marker), if_pos rfl]
    simp [rewind, ReadStream.advance]

theorem skip_opts_end (loop : Nat) (stream : ReadStream δ) (rest : List Byte)
    (ahead : Ahead stream [] rest) (ends : Ends stream 0 rest) :
    skipOpts skipRef (loop + 1) stream =
      .ok () (if stream.pos = stream.encapsEnd then stream else stream.advance 1) := by
  rcases ends with last | ⟨⟨more, rfl⟩, within⟩
  · have closed : stream.encapsEnd ≤ stream.pos := by omega
    rw [skipOpts, bind_get, if_pos closed, pure_run, if_pos (by omega)]
  · have open_ : ¬stream.encapsEnd ≤ stream.pos := by omega
    have marker : Ahead stream [255] more :=
      ⟨ahead.next, by simp; omega, ahead.enclosed, ahead.bounded⟩
    rw [skipOpts, bind_get, if_neg open_, bind_of_ok (takes_byte 255 stream _ marker), if_pos rfl,
      if_neg (by omega)]
    rfl

end

/-- The reader moves past the bytes and touches nothing but the history. -/
def Passes (bytes : List Byte) (reader : Reader δ Unit) : Prop :=
  ∀ (stream : ReadStream δ) (rest : List Byte), Ahead stream bytes rest →
    ∃ events, reader stream = .ok () { stream.advance bytes.length with events := events }

variable {reader : Reader δ Unit}

theorem Takes.passes {bytes : List Byte} (taken : Takes bytes reader ()) :
    Passes bytes reader := fun stream rest ahead => ⟨stream.events, taken stream rest ahead⟩

theorem takes_vsize (skipRef : Reader δ Unit) (size content : List Byte)
    (sized : size = sizeBytes content.length) :
    Takes (size ++ content) (skipOpt skipRef .vSize) () := by
  subst sized
  refine Takes.of_bounded fun bounded => ?_
  rw [List.length_append] at bounded
  exact (takes_size content.length (by omega)).bind (takes_skip content)

theorem passes_fsize (skipRef : Reader δ Unit) (content : List Byte) :
    Passes (intBytes content.length ++ content) (skipOpt skipRef .fSize) := by
  intro stream rest ahead
  have total := ahead.total
  have bounded := ahead.bounded
  rw [List.length_append] at total
  have sized := takes_int (δ := δ) content.length (by omega) (by omega) stream _ ahead.first
  have after := ahead.second
  refine ⟨.skippedSize content.length :: stream.events, ?_⟩
  rw [skipOpt, bind_of_ok sized, record, bind_modify]
  have skipped := takes_skip content
    { stream.advance (intBytes content.length).length with
      events := .skippedSize content.length :: stream.events } rest
    ⟨after.next, after.inside, after.enclosed, after.bounded⟩
  rw [List.length_append, ← advance_advance]
  exact skipped

theorem size_bytes_length (value : Nat) :
    (sizeBytes value).length = if value < 255 then 1 else 5 := by
  unfold sizeBytes
  split_ifs <;> first | omega | simp

section Skipping

variable {encoding : Encoding} {refEmitter : ρ → Emitter σ}

theorem emit_all_length_eq {α : Type} {each : α → Emitter σ} {size : Nat} (items : List α)
    (exactly : ∀ item state, (each item state).1.length = size) (state : σ) :
    (emitAll each items state).1.length = items.length * size := by
  induction items generalizing state with
  | nil => simp [emitAll]
  | cons item rest ih =>
      rw [emitAll, and_then_bytes, List.length_append, exactly, ih, List.length_cons, Nat.succ_mul,
        Nat.add_comm]

theorem fixed_length_size (type : WireType) (fixed : type.isVariableLength = false)
    (value : Value ρ type) (state : σ) :
    (valueEmitter encoding refEmitter type value state).1.length = type.minWireSize := by
  induction type generalizing state with
  | bool => rfl
  | byte => rfl
  | short => exact word_bytes_length (value : BitVec 16)
  | int => exact word_bytes_length (value : BitVec 32)
  | long => exact word_bytes_length (value : BitVec 64)
  | float => exact word_bytes_length (value : BitVec 32)
  | double => exact word_bytes_length (value : BitVec 64)
  | struct last ih => exact ih fixed value state
  | structCons first rest firstSize restSize =>
      rw [WireType.isVariableLength, Bool.or_eq_false_iff] at fixed
      simp only [valueEmitter, and_then_bytes, List.length_append, firstSize fixed.1,
        restSize fixed.2, WireType.minWireSize]
  | string | enum | sequence | dictionary | proxy | cls => simp [WireType.isVariableLength] at fixed

/-- What `containerHelper` puts in front of the elements of a container lets `skipOpt` find
the end of it. -/
theorem passes_container (skipRef : Reader δ Unit) (fixed : Bool) (elementSize minSize count : Nat)
    (content : Emitter σ) (state : σ)
    (exactly : fixed = true → (content state).1.length = count * elementSize) :
    Passes (optionalFrame (containerHelper fixed elementSize) minSize count
      (andThen (emit (sizeBytes count)) content) state).1
      (skipOpt skipRef (if fixed then .vSize else .fSize)) := by
  cases fixed with
  | false => exact passes_fsize skipRef _
  | true =>
      have size := exactly rfl
      unfold containerHelper
      by_cases single : elementSize = 1
      · rw [if_pos rfl, if_pos rfl, if_pos single]
        refine Takes.passes (takes_vsize skipRef (sizeBytes count) (content state).1 ?_)
        rw [size, single, Nat.mul_one]
      · rw [if_pos rfl, if_pos rfl, if_neg single]
        refine Takes.passes (takes_vsize skipRef _ (sizeBytes count ++ (content state).1) ?_)
        rw [List.length_append, size, size_bytes_length, Nat.mul_comm count, Nat.add_comm]

theorem passes_struct (skipRef : Reader δ Unit) (fixed : Bool) (size count : Nat)
    (content : Emitter σ) (state : σ) (exactly : fixed = true → (content state).1.length = size) :
    Passes (optionalFrame (if fixed then .fixedStruct else .variable) size count content state).1
      (skipOpt skipRef (if fixed then .vSize else .fSize)) := by
  cases fixed with
  | false => exact passes_fsize skipRef _
  | true =>
      refine Takes.passes (takes_vsize skipRef (sizeBytes size) (content state).1 ?_)
      rw [exactly rfl]

theorem takes_skip_word {width : Nat} (value : BitVec width) :
    Takes (δ := δ) (wordBytes value) (skip (width / 8 : Nat)) () := by
  have skipped := takes_skip (δ := δ) (wordBytes value)
  rwa [word_bytes_length] at skipped

theorem skip_opt_passes (skipRef : Reader δ Unit) (type : WireType) (classFree : type ≠ .cls)
    (value : Value ρ type) (state : σ) :
    Passes (optionalEmitter refEmitter type value state).1
      (skipOpt skipRef (optionalFormat type)) := by
  cases type with
  | bool => exact Takes.passes (takes_skip (boolBytes value))
  | byte => exact Takes.passes (takes_skip [value])
  | short => exact Takes.passes (takes_skip_word (value : BitVec 16))
  | int => exact Takes.passes (takes_skip_word (value : BitVec 32))
  | long => exact Takes.passes (takes_skip_word (value : BitVec 64))
  | float => exact Takes.passes (takes_skip_word (value : BitVec 32))
  | double => exact Takes.passes (takes_skip_word (value : BitVec 64))
  | string => exact Takes.passes (takes_vsize skipRef _ value rfl)
  | enum range => exact Takes.passes (takes_skip_size value.val)
  | sequence element =>
      refine passes_container skipRef element.fixedLength element.minWireSize _ (List.length value)
        _ state fun fixed => ?_
      rw [WireType.fixedLength, Bool.not_eq_true'] at fixed
      exact emit_all_length_eq value (fixed_length_size element fixed) state
  | dictionary key val =>
      refine passes_container skipRef (key.fixedLength && val.fixedLength)
        (key.minWireSize + val.minWireSize) _ (List.length value) _ state fun fixed => ?_
      rw [Bool.and_eq_true, WireType.fixedLength, WireType.fixedLength, Bool.not_eq_true',
        Bool.not_eq_true'] at fixed
      refine emit_all_length_eq value (fun entry middle => ?_) state
      rw [and_then_bytes, List.length_append, fixed_length_size key fixed.1,
        fixed_length_size val fixed.2]
  | struct last =>
      refine passes_struct skipRef (WireType.struct last).fixedLength _ _ _ state fun fixed => ?_
      rw [WireType.fixedLength, Bool.not_eq_true'] at fixed
      exact fixed_length_size _ fixed value state
  | structCons first rest =>
      refine passes_struct skipRef (WireType.structCons first rest).fixedLength _ _ _ state
        fun fixed => ?_
      rw [WireType.fixedLength, Bool.not_eq_true'] at fixed
      exact fixed_length_size _ fixed value state
  | proxy => exact passes_fsize skipRef (proxyBytes .v11 value)
  | cls => exact absurd rfl classFree

end Skipping

section Growing

variable {ok : Gauge σ} {refEmitter : ρ → Emitter σ}

theorem optional_emitter_grows (refsGrow : ∀ ref, Grows ok 1 (refEmitter ref)) (type : WireType)
    (value : Value ρ type) : Grows ok 0 (optionalEmitter refEmitter type value) := by
  have inside : Grows ok 0 (valueEmitter .v11 refEmitter type value) :=
    (value_emitter_grows refsGrow type value).lower (Nat.zero_le _)
  unfold optionalEmitter optionalFrame
  cases optionalHelper type with
  | plain => exact inside
  | fixedStruct => exact (grows_emit (Nat.zero_le _)).andThen inside
  | fixedContainer elementSize => exact (grows_emit (Nat.zero_le _)).andThen inside
  | «variable» => exact inside.framed

end Growing

section Reading

variable {fuel : Nat} {ok : Gauge σ} {inv : σ → List τ → δ → Prop} {refs : RefReader δ ρ'}
  {refEmitter : ρ → Emitter σ} {linked : List τ → ρ → ρ' → Prop}

theorem reads_optional (type : WireType) (value : Value ρ type) (rel : List τ → Value ρ' type → Prop)
    (grows : Grows ok 0 (valueEmitter .v11 refEmitter type value))
    (reads : Reads fuel ok inv 0 (valueEmitter .v11 refEmitter type value) (read .v11 refs type) rel) :
    Reads fuel ok inv 0 (optionalEmitter refEmitter type value) (readOptional refs type) rel := by
  have reserved : ∀ length : Nat, Takes (δ := δ) (intBytes length) (skip 4) () := by
    intro length
    have skipped := takes_skip (δ := δ) (intBytes length)
    rwa [int_bytes_length] at skipped
  unfold optionalEmitter optionalFrame readOptional
  cases optionalHelper type with
  | plain => exact reads
  | fixedStruct => exact Carries.after_takes (takes_skip_size _) (Nat.zero_le _) grows reads
  | fixedContainer elementSize =>
      exact Carries.after_takes (takes_skip_size _) (Nat.zero_le _) grows reads
  | «variable» => exact Reads.framed reserved grows reads

structure Before (fuel : Nat) (ok : Gauge σ) (inv : σ → List τ → δ → Prop)
    (each : Tagged ρ → Emitter σ) (items : List (Tagged ρ)) (state : σ) (cells : List τ)
    (stream : ReadStream δ) (rest : List Byte) (spare : Nat) : Prop where
  fine : ok (emitAll each items state).2
  holds : inv state cells stream.decoder
  ahead : Ahead stream (emitAll each items state).1 rest
  ends : Ends stream (emitAll each items state).1.length rest
  charged : Charged stream spare
  spared : spare ≤ rest.length
  fueled : stream.buf.length < stream.pos + fuel

def Skips (fuel : Nat) (ok : Gauge σ) (inv : σ → List τ → δ → Prop) (skipRef : Reader δ Unit)
    (content : Tagged ρ → Emitter σ) (item : Tagged ρ) : Prop :=
  Reads fuel ok inv 0 (content item) (skipOpt skipRef (optionalFormat item.type)) fun _ _ => True

variable {content : Tagged ρ → Emitter σ} (grows : ∀ item, Grows ok 0 (content item))

include grows in
theorem tagged_grows (item : Tagged ρ) : Grows ok 0 (tagged content item) :=
  (grows_emit (Nat.zero_le _)).andThen (grows item)

variable {items skipped left : List (Tagged ρ)} {item : Tagged ρ} {state : σ} {cells : List τ}
  {stream : ReadStream δ} {rest : List Byte} {spare : Nat}
  {readOne : (tag : Nat) → (type : WireType) → Reader δ (Option (Value ρ' type))}

include grows in
theorem Before.step {α : Type} {reader : Reader δ α} {rel : List τ → α → Prop}
    (before : Before fuel ok inv (tagged content) (item :: items) state cells stream rest spare)
    (reads : Reads fuel ok inv 0 (content item) reader rel) :
    ∃ value more after,
      reader (stream.advance (tagBytes item.tag (optionalFormat item.type)).length) =
        .ok value after ∧
      Moved stream after (tagged content item state).1.length ∧ cells <+: more ∧
      rel more value ∧
      Before fuel ok inv (tagged content) items (tagged content item state).2 more after rest
        spare := by
  have split : (emitAll (tagged content) (item :: items) state).1 =
      tagBytes item.tag (optionalFormat item.type) ++ ((content item state).1 ++
        (emitAll (tagged content) items (content item state).2).1) := by
    rw [emitAll, and_then_bytes, tagged, and_then_bytes, emit_bytes, emit_state, List.append_assoc]
    rfl
  have ahead := before.ahead
  rw [split] at ahead
  have middleFine : ok (content item state).2 := by
    have falls := (grows_emit_all items fun other _ => tagged_grows grows other)
      (content item state).2
    exact falls.2 before.fine
  have charged : Charged (stream.advance (tagBytes item.tag (optionalFormat item.type)).length)
      (0 + spare) := (before.charged.mono (by omega)).advance
  obtain ⟨value, more, after, ran, moved, charged', grown, kept, related⟩ :=
    reads state cells (stream.advance (tagBytes item.tag (optionalFormat item.type)).length)
      ((emitAll (tagged content) items (content item state).2).1 ++ rest) spare middleFine
      before.holds ahead.second.first charged
      (by rw [List.length_append]; have := before.spared; omega)
      (by have := before.fueled; simp only [ReadStream.advance]; omega)
  have movedAll : Moved stream after (tagged content item state).1.length := by
    rw [tagged, and_then_bytes, List.length_append]
    exact (Moved.advance stream _).trans moved
  have total : (emitAll (tagged content) (item :: items) state).1.length =
      (tagged content item state).1.length +
        (emitAll (tagged content) items (tagged content item state).2).1.length := by
    rw [emitAll, and_then_bytes, List.length_append]
  refine ⟨value, more, after, ran, movedAll, grown, related, before.fine, kept, ?_, ?_, charged',
    before.spared, ?_⟩
  · exact ahead.second.moved moved
  · have ends := before.ends
    rw [total] at ends
    unfold Ends at ends ⊢
    rw [movedAll.encapsEnd, movedAll.pos]
    rcases ends with last | ⟨marker, within⟩
    · exact Or.inl (by omega)
    · exact Or.inr ⟨marker, by omega⟩
  · have fueled := before.fueled
    rw [movedAll.buf, movedAll.pos]
    omega

include grows in
theorem Before.skip_smaller
    (before : Before fuel ok inv (tagged content) (skipped ++ left) state cells stream rest spare)
    (readTag : Nat) (expected : OptionalFormat) (loop : Nat)
    (smaller : ∀ item ∈ skipped, item.tag < readTag)
    (skips : ∀ item ∈ skipped, Skips fuel ok inv refs.skip content item)
    (enough : stream.buf.length < stream.pos + loop) :
    ∃ more after loop',
      readOptImpl refs.skip readTag expected loop stream =
        readOptImpl refs.skip readTag expected loop' after ∧
      after.buf.length < after.pos + loop' ∧
      Moved stream after (emitAll (tagged content) skipped state).1.length ∧ cells <+: more ∧
      Before fuel ok inv (tagged content) left (emitAll (tagged content) skipped state).2 more after
        rest spare := by
  induction skipped generalizing state cells stream loop with
  | nil => exact ⟨cells, stream, loop, rfl, enough, ⟨rfl, rfl, rfl⟩, List.prefix_rfl, before⟩
  | cons item others ih =>
      obtain ⟨value, more, after, ran, moved, grown, -, next⟩ :=
        before.step grows (skips item (by simp))
      have ahead := before.ahead
      rw [List.cons_append, emitAll, and_then_bytes, tagged, and_then_bytes, emit_bytes,
        List.append_assoc] at ahead
      have within := ahead.first.total
      have positive := tag_bytes_pos item.tag (optionalFormat item.type)
      obtain ⟨loop, rfl⟩ : ∃ less, loop = less + 1 := ⟨loop - 1, by omega⟩
      have here := smaller item (by simp)
      have longer : 0 < (tagged content item state).1.length := by
        rw [tagged, and_then_bytes, emit_bytes, List.length_append]
        omega
      obtain ⟨most, last, loop', same, enough', moved', grown', final⟩ :=
        ih next loop (fun other member => smaller other (by simp [member]))
          (fun other member => skips other (by simp [member])) (by rw [moved.buf, moved.pos]; omega)
      refine ⟨most, last, loop', ?_, enough', ?_, grown.trans grown', final⟩
      · rw [read_opt_tag refs.skip readTag item.tag loop item.bounded _ _ stream _ ahead.first,
          if_neg (by omega), if_pos here, bind_of_ok ran, same]
      · rw [emitAll, and_then_bytes, List.length_append]
        exact moved.trans moved'

include grows in
theorem Before.read_present {rel : List τ → Value ρ' item.type → Prop}
    (before : Before fuel ok inv (tagged content) (skipped ++ item :: left) state cells stream rest
      spare)
    (smaller : ∀ other ∈ skipped, other.tag < item.tag)
    (skips : ∀ other ∈ skipped, Skips fuel ok inv refs.skip content other)
    (reads : Reads fuel ok inv 0 (content item) (readOptional refs item.type) rel) :
    ∃ value more after,
      readTagged refs fuel item.tag item.type stream = .ok (some value) after ∧
      Moved stream after (emitAll (tagged content) (skipped ++ [item]) state).1.length ∧
      cells <+: more ∧ rel more value ∧
      Before fuel ok inv (tagged content) left (emitAll (tagged content) (skipped ++ [item]) state).2
        more after rest spare := by
  obtain ⟨more, middle, loop, same, enough, moved, grown, next⟩ :=
    before.skip_smaller grows item.tag (optionalFormat item.type) fuel smaller skips before.fueled
  obtain ⟨value, most, after, ran, moved', grown', related, final⟩ := next.step grows reads
  have ahead := next.ahead
  rw [emitAll, and_then_bytes, tagged, and_then_bytes, emit_bytes, List.append_assoc] at ahead
  have within := ahead.first.total
  have positive := tag_bytes_pos item.tag (optionalFormat item.type)
  obtain ⟨loop, rfl⟩ : ∃ less, loop = less + 1 := ⟨loop - 1, by omega⟩
  have found : readOptImpl refs.skip item.tag (optionalFormat item.type) fuel stream =
      .ok true (middle.advance (tagBytes item.tag (optionalFormat item.type)).length) := by
    rw [same, read_opt_tag refs.skip item.tag item.tag loop item.bounded _ _ middle _ ahead.first,
      if_neg (by omega), if_neg (by omega), if_neg (by simp)]
  have tail : emitAll (tagged content) (skipped ++ [item]) state =
      ((emitAll (tagged content) skipped state).1 ++
        (tagged content item (emitAll (tagged content) skipped state).2).1,
        (tagged content item (emitAll (tagged content) skipped state).2).2) := by
    rw [emit_all_append]
    simp [andThen, emitAll, emit]
  refine ⟨value, most, after, ?_, ?_, grown.trans grown', related, ?_⟩
  · rw [readTagged, bind_of_ok found, if_pos rfl, bind_of_ok ran, pure_run]
  · rw [tail, List.length_append]
    exact moved.trans moved'
  · rw [tail]
    exact final

include grows in
theorem Before.read_absent
    (before : Before fuel ok inv (tagged content) (skipped ++ left) state cells stream rest spare)
    (readTag : Nat) (type : WireType)
    (smaller : ∀ item ∈ skipped, item.tag < readTag)
    (larger : ∀ item ∈ left, readTag < item.tag)
    (skips : ∀ item ∈ skipped, Skips fuel ok inv refs.skip content item) :
    ∃ more after,
      readTagged refs fuel readTag type stream = .ok none after ∧
      Moved stream after (emitAll (tagged content) skipped state).1.length ∧ cells <+: more ∧
      Before fuel ok inv (tagged content) left (emitAll (tagged content) skipped state).2 more after
        rest spare := by
  obtain ⟨more, after, loop, same, enough, moved, grown, next⟩ :=
    before.skip_smaller grows readTag (optionalFormat type) fuel smaller skips before.fueled
  refine ⟨more, after, ?_, moved, grown, next⟩
  have within := next.ahead.total
  obtain ⟨loop, rfl⟩ : ∃ less, loop = less + 1 := ⟨loop - 1, by omega⟩
  suffices missing : readOptImpl refs.skip readTag (optionalFormat type) (loop + 1) after =
      .ok false after by
    rw [readTagged, bind_of_ok (same.trans missing), if_neg (by simp), pure_run]
  cases left with
  | nil => exact read_opt_end refs.skip readTag loop _ after rest next.ahead next.ends
  | cons item others =>
      have ahead := next.ahead
      rw [emitAll, and_then_bytes, tagged, and_then_bytes, emit_bytes, List.append_assoc] at ahead
      rw [read_opt_tag refs.skip readTag item.tag loop item.bounded _ _ after _ ahead.first,
        if_pos (larger item (by simp))]

include grows in
theorem Before.skip_rest
    (before : Before fuel ok inv (tagged content) items state cells stream rest spare) (loop : Nat)
    (skips : ∀ item ∈ items, Skips fuel ok inv refs.skip content item)
    (enough : stream.buf.length < stream.pos + loop) :
    ∃ more after last,
      skipOpts refs.skip loop stream = .ok () last ∧ cells <+: more ∧
      Moved stream after (emitAll (tagged content) items state).1.length ∧
      inv (emitAll (tagged content) items state).2 more after.decoder ∧ Charged after spare ∧
      last = if after.pos = after.encapsEnd then after else after.advance 1 := by
  induction items generalizing state cells stream loop with
  | nil =>
      have within := before.ahead.total
      obtain ⟨loop, rfl⟩ : ∃ less, loop = less + 1 := ⟨loop - 1, by omega⟩
      exact ⟨cells, stream, _, skip_opts_end refs.skip loop stream rest before.ahead before.ends,
        List.prefix_rfl, ⟨rfl, rfl, rfl⟩, before.holds, before.charged, rfl⟩
  | cons item others ih =>
      obtain ⟨value, more, after, ran, moved, grown, -, next⟩ :=
        before.step grows (skips item (by simp))
      have ahead := before.ahead
      rw [emitAll, and_then_bytes, tagged, and_then_bytes, emit_bytes, List.append_assoc] at ahead
      have within := ahead.first.total
      have positive := tag_bytes_pos item.tag (optionalFormat item.type)
      obtain ⟨loop, rfl⟩ : ∃ less, loop = less + 1 := ⟨loop - 1, by omega⟩
      have longer : 0 < (tagged content item state).1.length := by
        rw [tagged, and_then_bytes, emit_bytes, List.length_append]
        omega
      obtain ⟨most, end_, last, ran', grown', moved', kept, charged, stop⟩ :=
        ih next loop (fun other member => skips other (by simp [member]))
          (by rw [moved.buf, moved.pos]; omega)
      refine ⟨most, end_, last, ?_, grown.trans grown', ?_, kept, charged, stop⟩
      · rw [skip_opts_tag refs.skip item.tag loop _ stream _ ahead.first, bind_of_ok ran, ran']
      · rw [emitAll, and_then_bytes, List.length_append]
        exact moved.trans moved'

def written (items : List (Tagged ρ)) (tag : Nat) (type : WireType) : Option (Value ρ type) :=
  match items with
  | [] => none
  | item :: rest =>
      if same : item.tag = tag ∧ item.type = type then some (same.2 ▸ item.value)
      else written rest tag type

/-- What a receiver that knows the given tags gets for its definitions. -/
def wanted (knows : Nat → Bool) (items : List (Tagged ρ)) :
    (defs : List (Nat × WireType)) → Optionals ρ defs
  | [] => ()
  | (tag, type) :: rest => (if knows tag then written items tag type else none, wanted knows items rest)

theorem written_append (tag : Nat) (type : WireType) (others : ∀ item ∈ skipped, item.tag ≠ tag) :
    written (skipped ++ left) tag type = written left tag type := by
  induction skipped with
  | nil => rfl
  | cons item rest ih =>
      have different : ¬(item.tag = tag ∧ item.type = type) := fun same =>
        others item (by simp) same.1
      rw [List.cons_append, written, dif_neg different,
        ih fun other member => others other (by simp [member])]

theorem written_absent (tag : Nat) (type : WireType) (others : ∀ item ∈ items, item.tag ≠ tag) :
    written items tag type = none := by
  rw [← List.append_nil items, written_append tag type others, written]

theorem wanted_append (knows : Nat → Bool) (defs : List (Nat × WireType))
    (others : ∀ item ∈ skipped, ∀ d ∈ defs, item.tag ≠ d.1) :
    wanted knows (skipped ++ left) defs = wanted knows left defs := by
  induction defs with
  | nil => rfl
  | cons d rest ih =>
      rw [wanted, wanted, written_append d.1 d.2 fun item member => others item member d (by simp),
        ih fun item member other later => others item member other (by simp [later])]

theorem split_at_tag (ascending : items.Pairwise fun one two => one.tag < two.tag) (tag : Nat) :
    ∃ smaller later, items = smaller ++ later ∧ (∀ item ∈ smaller, item.tag < tag) ∧
      ((∀ item ∈ later, tag < item.tag) ∨
        ∃ item larger, later = item :: larger ∧ item.tag = tag ∧
          ∀ other ∈ larger, tag < other.tag) := by
  induction items with
  | nil => exact ⟨[], [], rfl, by simp, Or.inl (by simp)⟩
  | cons item rest ih =>
      rw [List.pairwise_cons] at ascending
      rcases Nat.lt_trichotomy item.tag tag with less | same | more
      · obtain ⟨smaller, later, rfl, below, found⟩ := ih ascending.2
        refine ⟨item :: smaller, later, rfl, ?_, found⟩
        intro other member
        rcases List.mem_cons.mp member with rfl | member
        · exact less
        · exact below other member
      · refine ⟨[], item :: rest, rfl, by simp, Or.inr ⟨item, rest, rfl, same, ?_⟩⟩
        intro other member
        have := ascending.1 other member
        omega
      · refine ⟨[], item :: rest, rfl, by simp, Or.inl ?_⟩
        intro other member
        rcases List.mem_cons.mp member with rfl | member
        · exact more
        · have := ascending.1 other member
          omega

theorem option_rel_mono {α β : Type} {small large : α → β → Prop} {one : Option α} {two : Option β}
    (wider : ∀ sent received, small sent received → large sent received)
    (related : Option.Rel small one two) : Option.Rel large one two := by
  cases related with
  | some inner => exact Option.Rel.some (wider _ _ inner)
  | none => exact Option.Rel.none

theorem optionals_rel_mono {small large : ρ → ρ' → Prop}
    (wider : ∀ sent received, small sent received → large sent received)
    (defs : List (Nat × WireType)) (sent : Optionals ρ defs) (received : Optionals ρ' defs)
    (related : Optionals.Rel .v11 small defs sent received) :
    Optionals.Rel .v11 large defs sent received := by
  induction defs with
  | nil => trivial
  | cons d rest ih =>
      obtain ⟨tag, type⟩ := d
      exact ⟨option_rel_mono (fun left right => value_rel_mono wider type left right) related.1,
        ih sent.2 received.2 related.2⟩

include grows in
/-- One step of a receiver: it gets the value that was written with the tag it asks for, and
moves past the optionals up to that tag. -/
theorem Before.read_known (knows : Nat → Bool) (tag : Nat) (type : WireType)
    (gate : ∀ state cells (stream : ReadStream δ) tag type, inv state cells stream.decoder →
      readOne tag type stream = readTagged refs fuel tag type stream)
    (ascending : items.Pairwise fun one two => one.tag < two.tag)
    (agree : ∀ item ∈ items, tag = item.tag → type = item.type)
    (skips : ∀ item ∈ items, item.tag < tag → knows tag = true →
      Skips fuel ok inv refs.skip content item)
    (reads : ∀ item ∈ items, Reads fuel ok inv 0 (content item) (readOptional refs item.type)
      fun cells received => Value.Rel .v11 (linked cells) item.type item.value received)
    (before : Before fuel ok inv (tagged content) items state cells stream rest spare) :
    ∃ received more after passed left, items = passed ++ left ∧
      readKnown knows readOne tag type stream = .ok received after ∧
      Moved stream after (emitAll (tagged content) passed state).1.length ∧ cells <+: more ∧
      Before fuel ok inv (tagged content) left (emitAll (tagged content) passed state).2 more after
        rest spare ∧
      (∀ item ∈ passed, item.tag ≤ tag) ∧
      (knows tag = true → ∀ item ∈ left, tag < item.tag) ∧
      Option.Rel (Value.Rel .v11 (linked more) type)
        (if knows tag then written items tag type else none) received := by
  by_cases known : knows tag = true
  · simp only [readKnown, if_pos known, gate state cells stream tag type before.holds]
    obtain ⟨smaller, later, rfl, below, found⟩ := split_at_tag ascending tag
    have skipsSmaller : ∀ item ∈ smaller, Skips fuel ok inv refs.skip content item :=
      fun item member => skips item (by simp [member]) (below item member) known
    have others : ∀ item ∈ smaller, item.tag ≠ tag := fun item member =>
      Nat.ne_of_lt (below item member)
    rcases found with above | ⟨item, larger, rfl, rfl, above⟩
    · obtain ⟨more, after, ran, moved, grown, next⟩ :=
        before.read_absent grows tag type below above skipsSmaller
      refine ⟨none, more, after, smaller, later, rfl, ran, moved, grown, next,
        fun item member => (below item member).le, fun _ => above, ?_⟩
      rw [written_append tag type others,
        written_absent tag type fun item member => Nat.ne_of_gt (above item member)]
      exact Option.Rel.none
    · obtain rfl : type = item.type := agree item (by simp) rfl
      obtain ⟨value, more, after, ran, moved, grown, related, next⟩ :=
        before.read_present grows below skipsSmaller (reads item (by simp))
      refine ⟨some value, more, after, smaller ++ [item], larger, by simp, ran, moved, grown, next,
        ?_, fun _ => above, ?_⟩
      · intro other member
        rcases List.mem_append.mp member with member | member
        · exact (below other member).le
        · rw [List.mem_singleton.mp member]
      · rw [written_append item.tag item.type others, written, dif_pos ⟨rfl, rfl⟩]
        exact Option.Rel.some related
  · simp only [readKnown, if_neg known]
    exact ⟨none, cells, stream, [], items, rfl, rfl, ⟨rfl, rfl, rfl⟩, List.prefix_rfl, before,
      by simp, fun yes => absurd yes known, Option.Rel.none⟩

include grows in
/-- A receiver that asks for its tags in order gets the values that were written with them,
and stops before optionals that it can skip. -/
theorem Before.read_optionals (knows : Nat → Bool) (defs : List (Nat × WireType))
    (gate : ∀ state cells (stream : ReadStream δ) tag type, inv state cells stream.decoder →
      readOne tag type stream = readTagged refs fuel tag type stream)
    (lasting : ∀ ref, Lasting fun cells received => linked cells ref received)
    (defsAscend : defs.Pairwise fun one two => one.1 < two.1)
    (ascending : items.Pairwise fun one two => one.tag < two.tag)
    (agree : ∀ item ∈ items, ∀ d ∈ defs, d.1 = item.tag → d.2 = item.type)
    (skips : ∀ item ∈ items, (∀ d ∈ defs, d.1 = item.tag → knows d.1 = false) →
      Skips fuel ok inv refs.skip content item)
    (reads : ∀ item ∈ items, Reads fuel ok inv 0 (content item) (readOptional refs item.type)
      fun cells received => Value.Rel .v11 (linked cells) item.type item.value received)
    (before : Before fuel ok inv (tagged content) items state cells stream rest spare) :
    ∃ results more after passed left, items = passed ++ left ∧
      readOptionals knows readOne defs stream = .ok results after ∧
      Moved stream after (emitAll (tagged content) passed state).1.length ∧ cells <+: more ∧
      Before fuel ok inv (tagged content) left (emitAll (tagged content) passed state).2 more after
        rest spare ∧
      (∀ item ∈ left, Skips fuel ok inv refs.skip content item) ∧
      Optionals.Rel .v11 (linked more) defs (wanted knows items defs) results := by
  induction defs generalizing items state cells stream with
  | nil =>
      exact ⟨(), cells, stream, [], items, rfl, rfl, ⟨rfl, rfl, rfl⟩, List.prefix_rfl, before,
        fun item member => skips item member (by simp), trivial⟩
  | cons d others ih =>
      obtain ⟨tag, type⟩ := d
      rw [List.pairwise_cons] at defsAscend
      obtain ⟨received, more, middle, passed, left, rfl, ran, moved, grown, next, upTo, beyond,
        related⟩ := before.read_known grows knows tag type gate ascending
          (fun item member => agree item member (tag, type) (by simp))
          (fun item member less _ => skips item member fun d later same => by
            rcases List.mem_cons.mp later with rfl | later
            · omega
            · have := defsAscend.1 d later
              omega) reads
      obtain ⟨results, most, after, passed', left', rfl, ran', moved', grown', next', skipped, related'⟩ :=
        ih defsAscend.2 (List.pairwise_append.mp ascending).2.1
          (fun item member d later => agree item (by simp [member]) d (by simp [later]))
          (fun item member unknown => skips item (by simp [member]) fun d later same => by
            rcases List.mem_cons.mp later with rfl | later
            · by_contra known
              have := beyond (by simpa using known) item member
              omega
            · exact unknown d later same)
          (fun item member => reads item (by simp [member])) next
      have same : emitAll (tagged content) (passed ++ passed') state =
          andThen (emitAll (tagged content) passed) (emitAll (tagged content) passed') state := by
        rw [emit_all_append]
      refine ⟨(received, results), most, after, passed ++ passed', left', by simp, ?_, ?_,
        grown.trans grown', ?_, skipped, ?_, ?_⟩
      · rw [readOptionals, bind_of_ok ran, bind_of_ok ran']
        rfl
      · rw [same, and_then_bytes, List.length_append]
        exact moved.trans moved'
      · rw [same]
        exact next'
      · exact option_rel_mono (fun sent got => value_rel_lasting lasting type sent more most got grown')
          related
      · have dropped : ∀ item ∈ passed, ∀ d ∈ others, item.tag ≠ d.1 := by
          intro item member d later
          have := defsAscend.1 d later
          have := upTo item member
          omega
        rw [← wanted_append knows others dropped] at related'
        exact related'

variable (cells) in
include grows in
theorem reads_body (knows : Nat → Bool) (types : List WireType) (members : Members ρ types)
    (defs : List (Nat × WireType))
    (refsGrow : ∀ ref, Grows ok 1 (refEmitter ref))
    (lasting : ∀ ref, Lasting fun cells received => linked cells ref received)
    (refsRead : ∀ ref, Reads fuel ok inv 1 (refEmitter ref) refs.read
      fun cells received => linked cells ref received)
    (gate : ∀ state cells (stream : ReadStream δ) tag type, inv state cells stream.decoder →
      readOne tag type stream = readTagged refs fuel tag type stream)
    (defsAscend : defs.Pairwise fun one two => one.1 < two.1)
    (ascending : items.Pairwise fun one two => one.tag < two.tag)
    (agree : ∀ item ∈ items, ∀ d ∈ defs, d.1 = item.tag → d.2 = item.type)
    (skips : ∀ item ∈ items, (∀ d ∈ defs, d.1 = item.tag → knows d.1 = false) →
      Skips fuel ok inv refs.skip content item)
    (reads : ∀ item ∈ items, Reads fuel ok inv 0 (content item) (readOptional refs item.type)
      fun cells received => Value.Rel .v11 (linked cells) item.type item.value received)
    (fine : ok (bodyEmitter refEmitter content types members items state).2)
    (holds : inv state cells stream.decoder)
    (ahead : Ahead stream (bodyEmitter refEmitter content types members items state).1 rest)
    (ends : Ends stream (bodyEmitter refEmitter content types members items state).1.length rest)
    (charged : Charged stream spare) (spared : spare ≤ rest.length)
    (fueled : stream.buf.length < stream.pos + fuel) :
    ∃ read after more stop,
      readBody refs readOne knows types defs stream = .ok read after ∧
      (∃ middle some, inv middle some after.decoder) ∧
      skipOpts refs.skip fuel after =
        .ok () (if stop.pos = stop.encapsEnd then stop else stop.advance 1) ∧
      Moved stream stop (bodyEmitter refEmitter content types members items state).1.length ∧
      Charged stop spare ∧ cells <+: more ∧
      inv (bodyEmitter refEmitter content types members items state).2 more stop.decoder ∧
      Members.Rel .v11 (linked more) types members read.1 ∧
      Optionals.Rel .v11 (linked more) defs (wanted knows items defs) read.2 := by
  have optionalsGrow : Grows ok 0 (emitAll (tagged content) items) :=
    (grows_emit_all items fun item _ => tagged_grows grows item).lower (Nat.zero_le _)
  have membersRead : Reads fuel ok inv 0 (membersEmitter .v11 refEmitter types members)
      (readMembers .v11 refs types)
      (fun cells received => Members.Rel .v11 (linked cells) types members received) :=
    reads_members refsGrow lasting refsRead types members
  unfold bodyEmitter at fine ahead ends ⊢
  generalize membersEmitter .v11 refEmitter types members = required at *
  rw [and_then_bytes, List.length_append] at ends ⊢
  rw [and_then_state] at fine ⊢
  have optionalsLength : spare ≤
      ((emitAll (tagged content) items (required state).2).1 ++ rest).length := by
    rw [List.length_append]
    omega
  obtain ⟨gotMembers, some, middle, ranMembers, moved, charged₁, grown, kept, related⟩ :=
    membersRead state cells stream _ spare ((optionalsGrow _).2 fine) holds ahead.first
      (charged.mono (by omega)) optionalsLength fueled
  have endsNext : Ends middle (emitAll (tagged content) items (required state).2).1.length rest := by
    unfold Ends at ends ⊢
    rw [moved.encapsEnd, moved.pos]
    rcases ends with last | ⟨marker, within⟩
    · exact Or.inl (by omega)
    · exact Or.inr ⟨marker, by omega⟩
  have before : Before fuel ok inv (tagged content) items (required state).2 some middle rest spare :=
    ⟨fine, kept, ahead.moved moved, endsNext, charged₁, spared, by rw [moved.buf, moved.pos]; omega⟩
  obtain ⟨gotOptionals, more, after, passed, left, rfl, ranOptionals, moved₂, grown₂, next, skipped,
    relatedOptionals⟩ := before.read_optionals grows knows defs gate lasting defsAscend ascending agree
      skips reads
  obtain ⟨most, stop, last, ranSkip, grown₃, moved₃, final, charged₂, rfl⟩ :=
    next.skip_rest grows fuel skipped next.fueled
  have parts : emitAll (tagged content) (passed ++ left) (required state).2 =
      andThen (emitAll (tagged content) passed) (emitAll (tagged content) left) (required state).2 := by
    rw [emit_all_append]
  refine ⟨(gotMembers, gotOptionals), after, most, stop, ?_, ⟨_, _, next.holds⟩, ranSkip, ?_, charged₂,
    grown.trans (grown₂.trans grown₃), ?_, ?_, ?_⟩
  · rw [readBody, bind_of_ok ranMembers, bind_of_ok ranOptionals, pure_run]
  · rw [parts, and_then_bytes, List.length_append]
    exact moved.trans (moved₂.trans moved₃)
  · rw [parts]
    exact final
  · exact members_rel_lasting lasting types members some most gotMembers (grown₂.trans grown₃) related
  · exact optionals_rel_mono (fun ref other => lasting ref more most other grown₃) defs _ _
      relatedOptionals

end Reading

theorem Passes.reads {fuel : Nat} {ok : Gauge σ} {inv : σ → List τ → δ → Prop} {emitter : Emitter σ}
    (passes : ∀ state, Passes (emitter state).1 reader)
    (kept : ∀ state cells decoder, ok (emitter state).2 → inv state cells decoder →
      inv (emitter state).2 cells decoder) :
    Reads fuel ok inv 0 emitter reader fun _ _ => True := by
  intro state cells stream rest spare fine holds ahead charged _ _
  obtain ⟨events, ran⟩ := passes state stream rest ahead
  have advanced : Charged (stream.advance (emitter state).1.length) spare :=
    (charged.mono (by omega)).advance
  exact ⟨(), cells, _, ran, ⟨rfl, rfl, rfl⟩, advanced, List.prefix_rfl,
    kept state cells stream.decoder fine holds, trivial⟩

section ClassFree

/-- A receiver that does not know all of the optionals gets those that it asks for, and lands
where one that knows them all would. -/
theorem optionals_are_transparent (encoder : σ) (decoder : δ)
    (writeRef : Empty → BasicStream σ → BasicStream σ) (refs : RefReader δ Empty)
    (types : List WireType) (members : Members Empty types) (items : List (Tagged Empty))
    (ascending : items.Pairwise fun one two => one.tag < two.tag)
    (defs : List (Nat × WireType)) (defsAscend : defs.Pairwise fun one two => one.1 < two.1)
    (agree : ∀ item ∈ items, ∀ d ∈ defs, d.1 = item.tag → d.2 = item.type)
    (closing : List Byte) (closed : closing = [] ∨ ∃ more, closing = 255 :: more) (bytes : List Byte)
    (sent : bytes = (writeBody writeRef types members items ⟨[], encoder⟩).b)
    (bounded : (bytes ++ closing).length < 2 ^ 31) (fuel : Nat)
    (fueled : (bytes ++ closing).length < fuel) :
    (∃ after last,
      readBody refs (readTagged refs fuel) (fun _ => true) types defs
        (ReadStream.fresh (bytes ++ closing) decoder) =
        .ok (members, wanted (fun _ => true) items defs) after ∧
      skipOpts refs.skip fuel after = .ok () last ∧
      last.pos = if closing = [] then bytes.length else bytes.length + 1) ∧
    ∀ item ∈ items, Passes (writeOptional writeRef item.type item.value ⟨[], encoder⟩).b
      (skipOpt refs.skip (optionalFormat item.type)) := by
  let refEmitter : Empty → Emitter σ := fun ref => ref.elim
  have appends : ∀ ref, Appends id (writeRef ref) (refEmitter ref) := fun ref => ref.elim
  have classFree : ∀ item : Tagged Empty, item.type ≠ .cls := by
    rintro ⟨tag, _, type, value⟩ (rfl : type = .cls)
    exact Empty.elim value
  have emitted : bytes = (bodyEmitter refEmitter
      (fun item => optionalEmitter refEmitter item.type item.value) types members items encoder).1 := by
    rw [sent]
    exact congrArg BasicStream.b (write_body_appends appends types members items [] encoder)
  constructor
  · let ok : Gauge σ := ⟨fun _ => True, fun _ => 0⟩
    let inv : σ → List Unit → δ → Prop := fun _ _ _ => True
    have refsGrow : ∀ ref, Grows ok 1 (refEmitter ref) := fun ref => ref.elim
    have refsRead : ∀ ref, Reads fuel ok inv 1 (refEmitter ref) refs.read
        (fun _ received => received = ref) := fun ref => ref.elim
    have grows : ∀ item : Tagged Empty, Grows ok 0
        (optionalEmitter refEmitter item.type item.value) := fun item =>
      optional_emitter_grows refsGrow item.type item.value
    have skips : ∀ item ∈ items, (∀ d ∈ defs, d.1 = item.tag → true = false) →
        Skips fuel ok inv refs.skip (fun item => optionalEmitter refEmitter item.type item.value)
          item := fun item _ _ => Passes.reads
      (fun state => skip_opt_passes refs.skip item.type (classFree item) item.value state)
      (fun _ _ _ _ _ => trivial)
    have reads : ∀ item ∈ items, Reads fuel ok inv 0
        (optionalEmitter refEmitter item.type item.value) (readOptional refs item.type)
        (fun _ received => Value.Rel .v11 (fun left right => right = left) item.type item.value
          received) := fun item _ => reads_optional item.type item.value _
      ((value_emitter_grows refsGrow item.type item.value).lower (Nat.zero_le _))
      ((reads_value refsGrow (fun _ _ _ _ _ same => same) refsRead item.type item.value).lower
        (Nat.zero_le _))
    have total : (bytes ++ closing).length = bytes.length + closing.length := List.length_append
    have ahead : Ahead (ReadStream.fresh (bytes ++ closing) decoder)
        (bodyEmitter refEmitter (fun item => optionalEmitter refEmitter item.type item.value) types
          members items encoder).1 closing := by
      rw [← emitted]
      exact ⟨rfl, by simp [ReadStream.fresh], Nat.le_refl _, bounded⟩
    have ends : Ends (ReadStream.fresh (bytes ++ closing) decoder)
        (bodyEmitter refEmitter (fun item => optionalEmitter refEmitter item.type item.value) types
          members items encoder).1.length closing := by
      rw [← emitted]
      rcases closed with rfl | ⟨more, rfl⟩
      · exact Or.inl (by simp [ReadStream.fresh])
      · exact Or.inr ⟨⟨more, rfl⟩, by simp [ReadStream.fresh]⟩
    obtain ⟨read, after, _, stop, ran, -, skipped, moved, -, -, -, related, relatedOptionals⟩ :=
      reads_body grows [] (fun _ => true) types members defs refsGrow (fun _ _ _ _ _ same => same)
        refsRead (fun _ _ _ _ _ _ => rfl) defsAscend ascending agree skips reads trivial
        trivial ahead ends (Or.inl rfl) (Nat.zero_le _)
        (by simpa [ReadStream.fresh] using fueled)
    rw [← emitted] at moved
    refine ⟨after, _, ?_, skipped, ?_⟩
    · rw [ran, ← members_rel_eq types members read.1 related,
        ← optionals_rel_eq defs _ read.2 relatedOptionals]
    · have finish := moved.pos
      have whole := moved.encapsEnd
      simp only [ReadStream.fresh] at finish whole
      rcases closed with rfl | ⟨more, rfl⟩
      · have done : stop.pos = stop.encapsEnd := by rw [finish, whole, total]; simp
        rw [if_pos done, if_pos rfl, finish, Nat.zero_add]
      · have open_ : stop.pos ≠ stop.encapsEnd := by rw [finish, whole, total]; simp
        rw [if_neg open_, if_neg (List.cons_ne_nil _ _)]
        simp [ReadStream.advance, finish]
  · intro item _
    have written : (writeOptional writeRef item.type item.value ⟨[], encoder⟩).b =
        (optionalEmitter refEmitter item.type item.value encoder).1 := by
      have emits := write_optional_appends appends item.type item.value [] encoder
      exact congrArg BasicStream.b emits
    rw [written]
    exact skip_opt_passes refs.skip item.type (classFree item) item.value encoder

def noRefs : RefReader Unit Empty where
  read := throwIce .unmarshalOutOfBounds
  skip := throwIce .unmarshalOutOfBounds
  fresh := ()

def twoOptionals : List (Tagged Empty) :=
  [⟨1, by decide, .string, ([104, 105] : Str)⟩, ⟨300, by decide, .int, (7 : BitVec 32)⟩]

/-- A receiver that knows tag 300 and a tag that was not written, but not tag 1. -/
theorem two_optionals_are_transparent :
    (∃ after last,
      readBody noRefs (readTagged noRefs 64) (fun _ => true) [.byte] [(2, .bool), (300, .int)]
        (ReadStream.fresh ((writeBody (fun ref : Empty => ref.elim) [.byte] ((5 : Byte), ())
          twoOptionals ⟨[], ()⟩).b ++ [255]) ()) =
        .ok (((5 : Byte), ()), ((none : Option Bool), ((some 7 : Option (BitVec 32)), ()))) after ∧
      skipOpts noRefs.skip 64 after = .ok () last ∧ last.pos = 16) ∧
    ∀ item ∈ twoOptionals, Passes (writeOptional (fun ref : Empty => ref.elim) item.type item.value
      (⟨[], ()⟩ : BasicStream Unit)).b (skipOpt noRefs.skip (optionalFormat item.type)) :=
  optionals_are_transparent () () (fun ref => ref.elim) noRefs [.byte] ((5 : Byte), ()) twoOptionals
    (by decide) [(2, .bool), (300, .int)] (by decide) (by decide) [255] (Or.inr ⟨[], rfl⟩) _ rfl
    (by decide) 64 (by decide)

end ClassFree

end IceTouch.OptionalTransfer
