import IceTouch.Buffers

/-!
# Encapsulations

Encapsulations nest. The stream keeps a linked stack of them for reading and one for writing; the
first element of each is allocated with the stream and is reset in place when it ends. The size
of an encapsulation is rewritten at its end, and a reader goes through it, skips it or takes it as
it is.
-/

namespace IceTouch.Encapsulations

open Bytes OutStream WireTypes StreamHelpers InStream
open Transfer Run Buffers

/-- `_preAllocatedReadEncaps` with `_currentReadEncaps`, or the same for writing. The current
element is none, the preallocated one, or the last of those allocated above it. -/
structure Chain (ε : Type) where
  preAllocated : ε
  above : Option (List ε)

namespace Chain

variable {ε : Type}

def current (chain : Chain ε) : Option ε :=
  match chain.above with
  | none => none
  | some [] => some chain.preAllocated
  | some (encaps :: _) => some encaps

/-- A new current element. The preallocated one is filled in place, an allocated one is filled
after its construction. -/
def push (fresh : ε) (fill : ε → ε) (chain : Chain ε) : Chain ε :=
  match chain.above with
  | none => ⟨fill chain.preAllocated, some []⟩
  | some allocated => ⟨chain.preAllocated, some (fill fresh :: allocated)⟩

def modify (change : ε → ε) (chain : Chain ε) : Chain ε :=
  match chain.above with
  | none => chain
  | some [] => ⟨change chain.preAllocated, some []⟩
  | some (encaps :: allocated) => ⟨chain.preAllocated, some (change encaps :: allocated)⟩

/-- The previous element is current again: `reset` leaves the fields of the preallocated one as
they are, and an allocated one is deleted. -/
def pop (chain : Chain ε) : Chain ε :=
  match chain.above with
  | none => chain
  | some [] => ⟨chain.preAllocated, none⟩
  | some (_ :: allocated) => ⟨chain.preAllocated, some allocated⟩

structure Same (before after : Chain ε) : Prop where
  above : after.above = before.above
  preAllocated : before.above ≠ none → after.preAllocated = before.preAllocated

variable {first second third : Chain ε} {fresh : ε} {fill change : ε → ε}

theorem Same.refl (chain : Chain ε) : Same chain chain := ⟨rfl, fun _ => rfl⟩

theorem Same.trans (one : Same first second) (two : Same second third) : Same first third where
  above := two.above.trans one.above
  preAllocated := by
    intro inUse
    have still : second.above ≠ none := by
      rw [one.above]
      exact inUse
    rw [two.preAllocated still, one.preAllocated inUse]

theorem Same.current (same : Same first second) : second.current = first.current := by
  rcases first with ⟨pre, above⟩
  rcases second with ⟨other, above'⟩
  obtain rfl : above' = above := same.above
  cases above' with
  | none => rfl
  | some allocated =>
      obtain rfl : other = pre := same.preAllocated (Option.some_ne_none _)
      rfl

theorem modify_push (chain : Chain ε) :
    (chain.push fresh fill).modify change = chain.push fresh (change ∘ fill) := by
  rcases chain with ⟨pre, _ | allocated⟩ <;> rfl

theorem current_push (chain : Chain ε) : ∃ stale, (chain.push fresh fill).current = some (fill stale) := by
  rcases chain with ⟨pre, _ | allocated⟩
  · exact ⟨pre, rfl⟩
  · exact ⟨fresh, rfl⟩

theorem Same.pop (same : Same (first.push fresh fill) second) : Same first second.pop := by
  rcases first with ⟨pre, _ | allocated⟩
  · rcases second with ⟨other, above⟩
    obtain rfl : above = some [] := same.above
    exact ⟨rfl, fun inUse => absurd rfl inUse⟩
  · rcases second with ⟨other, above⟩
    obtain rfl : above = some (fill fresh :: allocated) := same.above
    obtain rfl : other = pre := same.preAllocated (Option.some_ne_none _)
    exact ⟨rfl, fun _ => rfl⟩

end Chain

/-- What is written one after the other: bytes, and encapsulations with contents of their own. -/
inductive Forest where
  | done
  | blob (bytes : List Byte) (rest : Forest)
  | encaps (encoding : Encoding) (content rest : Forest)

def Forest.bytes : Forest → List Byte
  | .done => []
  | .blob bytes rest => bytes ++ rest.bytes
  | .encaps encoding content rest => encapsBytes encoding.version content.bytes ++ rest.bytes

structure WriteEncaps where
  start : Nat
  encoding : Version
deriving DecidableEq, Repr

/-- `encoding` is the one to use when there is no encapsulation. -/
structure WriteStream where
  b : List Byte
  encoding : Version
  encaps : Chain WriteEncaps

def WriteStream.getWriteEncoding (stream : WriteStream) : Version :=
  match stream.encaps.current with
  | some encaps => encaps.encoding
  | none => stream.encoding

/-- `isSupported(v, currentEncoding)`. -/
def isSupported (v : Version) : Bool := v.major = 1 && v.minor ≤ 1

def startWriteEncaps (memory : Memory) (fresh : WriteEncaps) (encoding : Version) (stream : WriteStream) :
    Except WriteFailure WriteStream :=
  if isSupported encoding then do
    let stream := { stream with
      encaps := stream.encaps.push fresh fun _ => ⟨stream.b.length, encoding⟩ }
    let b ← writeInt memory 0 stream.b
    pure { stream with b := b ++ versionBytes encoding }
  else
    .error .unsupportedEncoding

def endWriteEncaps (stream : WriteStream) : Except WriteFailure WriteStream :=
  match stream.encaps.current with
  | none => .error .assertion
  | some encaps =>
      let sz : Int := (stream.b.length - encaps.start : Nat)
      pure { stream with
        b := rewriteAt stream.b encaps.start (intBytes sz)
        encaps := stream.encaps.pop }

/-- Everything is written, and the encoding is noted after each of its parts. -/
def writeForest (memory : Memory) (fresh : WriteEncaps) :
    Forest → WriteStream → Except WriteFailure (WriteStream × List Version)
  | .done, stream => pure (stream, [])
  | .blob bytes rest, stream => do
      let b ← writeBlob memory bytes stream.b
      let stream := { stream with b := b }
      let (after, noted) ← writeForest memory fresh rest stream
      pure (after, stream.getWriteEncoding :: noted)
  | .encaps encoding content rest, stream => do
      let stream ← startWriteEncaps memory fresh encoding.version stream
      let (stream, inner) ← writeForest memory fresh content stream
      let stream ← endWriteEncaps stream
      let (after, noted) ← writeForest memory fresh rest stream
      pure (after, inner ++ stream.getWriteEncoding :: noted)

/-- The encoding is the enclosing one after each part. -/
def enclosingEncodings (enclosing : Version) : Forest → List Version
  | .done => []
  | .blob _ rest => enclosing :: enclosingEncodings enclosing rest
  | .encaps encoding content rest =>
      enclosingEncodings encoding.version content ++ enclosing :: enclosingEncodings enclosing rest

section Writing

variable {memory : Memory} {fresh : WriteEncaps}

theorem supported_version (encoding : Encoding) : isSupported encoding.version = true := by
  cases encoding <;> rfl

theorem encaps_bytes_length (version : Version) (content : List Byte) :
    (encapsBytes version content).length = content.length + 6 := by
  simp only [encapsBytes, versionBytes, List.length_append, int_bytes_length, List.length_cons, List.length_nil]
  omega

theorem write_encoding_same {before after : WriteStream} (same : before.encaps.Same after.encaps)
    (encoding : after.encoding = before.encoding) : after.getWriteEncoding = before.getWriteEncoding := by
  unfold WriteStream.getWriteEncoding
  rw [same.current, encoding]

/-- The stream after `startWriteEncaps`. -/
def opened (fresh : WriteEncaps) (encoding : Version) (stream : WriteStream) : WriteStream where
  b := stream.b ++ (intBytes 0 ++ versionBytes encoding)
  encoding := stream.encoding
  encaps := stream.encaps.push fresh fun _ => ⟨stream.b.length, encoding⟩

theorem opened_current (encoding : Version) (stream : WriteStream) :
    (opened fresh encoding stream).encaps.current = some ⟨stream.b.length, encoding⟩ := by
  obtain ⟨stale, current⟩ := @Chain.current_push _ fresh
    (fun _ : WriteEncaps => ⟨stream.b.length, encoding⟩) stream.encaps
  exact current

theorem opened_popped {encoding : Version} {stream : WriteStream} {after : Chain WriteEncaps}
    (same : (opened fresh encoding stream).encaps.Same after) : stream.encaps.Same after.pop := by
  have pushed : (stream.encaps.push fresh fun _ => ⟨stream.b.length, encoding⟩).Same after := same
  exact pushed.pop

theorem opened_encoding (encoding : Version) (stream : WriteStream) :
    (opened fresh encoding stream).getWriteEncoding = encoding := by
  rw [WriteStream.getWriteEncoding, opened_current]

theorem gives_opened (encoding : Encoding) (stream : WriteStream) :
    Gives memory (stream.b.length + 4) (startWriteEncaps memory fresh encoding.version stream)
      (opened fresh encoding.version stream) := by
  rw [startWriteEncaps, if_pos (supported_version encoding)]
  apply (gives_int 0).bind
  rw [opened, ← List.append_assoc]
  exact gives_pure _

theorem closed_ok {encoding : Version} {stream middle : WriteStream} {content : List Byte}
    (same : (opened fresh encoding stream).encaps.Same middle.encaps)
    (written : middle.b = (opened fresh encoding stream).b ++ content) :
    endWriteEncaps middle = .ok { middle with
      b := stream.b ++ encapsBytes encoding content
      encaps := middle.encaps.pop } := by
  have current : middle.encaps.current = some ⟨stream.b.length, encoding⟩ := by
    rw [same.current, opened_current]
  have whole : middle.b = stream.b ++ intBytes 0 ++ (versionBytes encoding ++ content) := by
    rw [written, opened]
    simp only [List.append_assoc]
  have size : middle.b.length - stream.b.length = content.length + 6 := by
    rw [whole]
    simp only [List.length_append, int_bytes_length, versionBytes, List.length_cons, List.length_nil]
    omega
  have sameLength : (intBytes 0).length = (intBytes ((content.length + 6 : Nat) : Int)).length := by
    rw [int_bytes_length, int_bytes_length]
  rw [endWriteEncaps, current]
  dsimp only
  rw [size, whole, rewrite_at_hole _ _ _ _ sameLength, encapsBytes]
  simp only [List.append_assoc]
  rfl

theorem write_forest_appends (forest : Forest) (stream : WriteStream) :
    ∃ after, Gives memory (stream.b.length + forest.bytes.length) (writeForest memory fresh forest stream)
        (after, enclosingEncodings stream.getWriteEncoding forest) ∧
      after.b = stream.b ++ forest.bytes ∧ stream.encaps.Same after.encaps ∧
      after.encoding = stream.encoding := by
  induction forest generalizing stream with
  | done =>
      refine ⟨stream, gives_pure _, ?_, Chain.Same.refl _, rfl⟩
      exact (List.append_nil _).symm
  | blob bytes rest ih =>
      obtain ⟨after, continued, written, same, encoding⟩ := ih { stream with b := stream.b ++ bytes }
      have begun := @gives_blob memory stream.b bytes
      refine ⟨after, ?_, ?_, same, encoding⟩
      · rw [Forest.bytes, List.length_append, ← Nat.add_assoc]
        apply (begun.mono (Nat.le_add_right _ _)).bind
        rw [List.length_append] at continued
        exact continued.bind (gives_pure _)
      · rw [written, Forest.bytes, List.append_assoc]
  | encaps encoding content rest contentWritten restWritten =>
      have begun := @gives_opened memory fresh encoding stream
      obtain ⟨middle, inner, written, same, kept⟩ := contentWritten (opened fresh encoding.version stream)
      have ended := closed_ok same written
      obtain ⟨after, continued, appended, unchanged, still⟩ := restWritten { middle with
        b := stream.b ++ encapsBytes encoding.version content.bytes
        encaps := middle.encaps.pop }
      have back : stream.encaps.Same middle.encaps.pop := opened_popped same
      have enclosing : WriteStream.getWriteEncoding { middle with
          b := stream.b ++ encapsBytes encoding.version content.bytes
          encaps := middle.encaps.pop } = stream.getWriteEncoding := write_encoding_same back kept
      have length : (opened fresh encoding.version stream).b.length = stream.b.length + 6 := by
        simp only [opened, versionBytes, List.length_append, int_bytes_length, List.length_cons,
          List.length_nil]
      have total : stream.b.length + (Forest.encaps encoding content rest).bytes.length =
          stream.b.length + 6 + content.bytes.length + rest.bytes.length := by
        rw [Forest.bytes, List.length_append, encaps_bytes_length]
        omega
      rw [opened_encoding, length] at inner
      rw [enclosing, List.length_append, encaps_bytes_length] at continued
      refine ⟨after, ?_, ?_, back.trans unchanged, still.trans kept⟩
      · rw [writeForest, total]
        apply (begun.mono (by omega)).bind
        apply (inner.mono (by omega)).bind
        dsimp only
        rw [ended]
        apply (continued.mono (by omega)).bind
        rw [enclosing]
        exact gives_pure _
      · rw [appended, Forest.bytes, List.append_assoc]

end Writing

structure ReadEncaps where
  start : Nat
  sz : Int
  encoding : Version
deriving DecidableEq, Repr

/-- `_encoding` and the encapsulations that are being read. -/
structure ReadState where
  encoding : Version
  encaps : Chain ReadEncaps

abbrev EncapsReader := Reader ReadState

def ReadState.getReadEncoding (state : ReadState) : Version :=
  match state.encaps.current with
  | some encaps => encaps.encoding
  | none => state.encoding

def getReadEncoding : EncapsReader Version := do
  let stream ← get
  pure stream.decoder.getReadEncoding

def modifyEncaps (change : Chain ReadEncaps → Chain ReadEncaps) : EncapsReader Unit :=
  modify fun stream =>
    { stream with decoder := { stream.decoder with encaps := change stream.decoder.encaps } }

/-- `if(i - sizeof(Ice::Int) + sz > b.end())`. -/
def checkEnd (sz : Int) : EncapsReader Unit := do
  let stream ← get
  if (stream.buf.length : Int) < stream.pos - 4 + sz then throwIce .unmarshalOutOfBounds else pure ()

def startReadEncaps (fresh : ReadEncaps) : EncapsReader Version := do
  let stream ← get
  modifyEncaps fun chain => chain.push fresh fun encaps => { encaps with start := stream.pos }
  let sz ← readInt
  if sz < 6 then
    throwIce .unmarshalOutOfBounds
  else do
    checkEnd sz
    modifyEncaps fun chain => chain.modify fun encaps => { encaps with sz := sz }
    let encoding ← readVersion
    modifyEncaps fun chain => chain.modify fun encaps => { encaps with encoding := encoding }
    if isSupported encoding then pure encoding else throwIce .unsupportedEncoding

/-- The end of the current encapsulation is put where `skipOpts` looks for it. -/
def endReadEncaps (skipRef : EncapsReader Unit) : EncapsReader Unit := do
  let stream ← get
  match stream.decoder.encaps.current with
  | none => throwFault .assertion
  | some encaps => do
      modify fun stream => { stream with encapsEnd := encaps.start + encaps.sz.toNat }
      checkEncapsEnd skipRef (if encaps.encoding = ⟨1, 0⟩ then .v10 else .v11) (stream.buf.length + 1)
      modifyEncaps Chain.pop

def skipEncaps : EncapsReader Version := do
  let sz ← readInt
  if sz < 6 then
    throwIce .unmarshalOutOfBounds
  else do
    checkEnd sz
    let encoding ← readVersion
    modify (ReadStream.advance (sz - 6).toNat)
    pure encoding

def readEncaps : EncapsReader (Version × List Byte) := do
  let start ← get
  let sz ← readInt
  if sz < 6 then
    throwIce .encapsulation
  else do
    checkEnd sz
    let encoding ← readVersion
    modify (ReadStream.advance (sz - 6).toNat)
    pure (encoding, (start.buf.drop start.pos).take sz.toNat)

/-- How a reader goes through a forest: it knows the lengths of the bytes, and takes each
encapsulation in one of three ways. -/
inductive Plan where
  | done
  | blob (size : Nat) (rest : Plan)
  | enter (content rest : Plan)
  | skip (rest : Plan)
  | take (rest : Plan)

/-- What it has read, with the encoding after each part. -/
inductive Contents where
  | done
  | blob (bytes : List Byte) (current : Version) (rest : Contents)
  | entered (encoding : Version) (content : Contents) (current : Version) (rest : Contents)
  | skipped (encoding current : Version) (rest : Contents)
  | taken (encoding : Version) (bytes : List Byte) (current : Version) (rest : Contents)
deriving DecidableEq, Repr

def readForest (fresh : ReadEncaps) (skipRef : EncapsReader Unit) : Plan → EncapsReader Contents
  | .done => pure .done
  | .blob size rest => do
      let bytes ← readBlob size
      let current ← getReadEncoding
      let others ← readForest fresh skipRef rest
      pure (.blob bytes current others)
  | .enter content rest => do
      let encoding ← startReadEncaps fresh
      let inner ← readForest fresh skipRef content
      endReadEncaps skipRef
      let current ← getReadEncoding
      let others ← readForest fresh skipRef rest
      pure (.entered encoding inner current others)
  | .skip rest => do
      let encoding ← skipEncaps
      let current ← getReadEncoding
      let others ← readForest fresh skipRef rest
      pure (.skipped encoding current others)
  | .take rest => do
      let (encoding, bytes) ← readEncaps
      let current ← getReadEncoding
      let others ← readForest fresh skipRef rest
      pure (.taken encoding bytes current others)

/-- What a plan finds in a forest, when it fits. The encoding after each part is the enclosing
one. -/
def found (enclosing : Version) : Plan → Forest → Option Contents
  | .done, .done => some .done
  | .blob size rest, .blob bytes others =>
      if size = bytes.length then (found enclosing rest others).map (.blob bytes enclosing) else none
  | .enter content rest, .encaps encoding inside others =>
      (found encoding.version content inside).bind fun inner =>
        (found enclosing rest others).map (.entered encoding.version inner enclosing)
  | .skip rest, .encaps encoding _ others =>
      (found enclosing rest others).map (.skipped encoding.version enclosing)
  | .take rest, .encaps encoding inside others =>
      (found enclosing rest others).map
        (.taken encoding.version (encapsBytes encoding.version inside.bytes) enclosing)
  | _, _ => none

def Forest.whole : Forest → Plan
  | .done => .done
  | .blob bytes rest => .blob bytes.length rest.whole
  | .encaps _ content rest => .enter content.whole rest.whole

/-- All the contents, when the encoding after each part is the enclosing one. -/
def Forest.contents (enclosing : Version) : Forest → Contents
  | .done => .done
  | .blob bytes rest => .blob bytes enclosing (rest.contents enclosing)
  | .encaps encoding content rest =>
      .entered encoding.version (content.contents encoding.version) enclosing (rest.contents enclosing)

theorem found_whole (enclosing : Version) (forest : Forest) :
    found enclosing forest.whole forest = some (forest.contents enclosing) := by
  induction forest generalizing enclosing with
  | done => rfl
  | blob bytes rest ih => simp [Forest.whole, found, Forest.contents, ih]
  | encaps encoding content rest contentFound restFound =>
      simp [Forest.whole, found, Forest.contents, contentFound, restFound]

section Reading

variable {fresh : ReadEncaps} {skipRef : EncapsReader Unit} {stream first second third : ReadStream ReadState}
  {left right rest : List Byte}

/-- So many bytes have been passed, and the stack of encapsulations is as before. -/
structure Passed (before after : ReadStream ReadState) (count : Nat) : Prop where
  buf : after.buf = before.buf
  pos : after.pos = before.pos + count
  encoding : after.decoder.encoding = before.decoder.encoding
  encaps : before.decoder.encaps.Same after.decoder.encaps

theorem passed_advance (stream : ReadStream ReadState) (count : Nat) :
    Passed stream (stream.advance count) count :=
  ⟨rfl, rfl, rfl, Chain.Same.refl _⟩

theorem Passed.trans {one two : Nat} (begun : Passed first second one) (continued : Passed second third two) :
    Passed first third (one + two) where
  buf := continued.buf.trans begun.buf
  pos := by rw [continued.pos, begun.pos, Nat.add_assoc]
  encoding := continued.encoding.trans begun.encoding
  encaps := begun.encaps.trans continued.encaps

variable {count : Nat}

theorem Passed.current (passed : Passed first second count) :
    second.decoder.getReadEncoding = first.decoder.getReadEncoding := by
  unfold ReadState.getReadEncoding
  rw [passed.encaps.current, passed.encoding]

theorem next_of_same (next : Next first left rest) (buf : second.buf = first.buf)
    (pos : second.pos = first.pos) : Next second left rest := by
  rw [Next, buf, pos]
  exact next

theorem Passed.next (passed : Passed first second count) (length : left.length = count)
    (next : Next first (left ++ right) rest) : Next second right rest := by
  subst length
  exact next_of_same next.advance passed.buf passed.pos

theorem read_version_next {version : Version} (next : Next stream (versionBytes version) rest) :
    readVersion stream = .ok version (stream.advance 2) := by
  have both : Next stream ([version.major] ++ [version.minor]) rest := next
  have major := read_byte_next both.first
  have minor : readByte (stream.advance 1) = .ok version.minor ((stream.advance 1).advance 1) :=
    read_byte_next both.advance
  rw [readVersion, bind_of_ok major, bind_of_ok minor]
  rfl

section Header

variable {version : Version} {content : List Byte}

/-- What the readers of an encapsulation begin with. The fields that they set in between are not
those that the next step reads. -/
theorem header_ok (small : content.length + 6 < 2 ^ 31)
    (next : Next stream (encapsBytes version content) rest) :
    readInt stream = .ok ((content.length + 6 : Nat) : Int) (stream.advance 4) ∧
      ∀ later : ReadStream ReadState, later.buf = stream.buf → later.pos = stream.pos + 4 →
        checkEnd ((content.length + 6 : Nat) : Int) later = .ok () later ∧
        readVersion later = .ok version (later.advance 2) := by
  have room := next_inside next
  rw [encaps_bytes_length] at room
  rw [encapsBytes, List.append_assoc] at next
  refine ⟨read_int_next (by omega) (by omega) next.first, ?_⟩
  intro later buf pos
  constructor
  · have inside : ¬ (later.buf.length : Int) < later.pos - 4 + ((content.length + 6 : Nat) : Int) := by
      rw [buf, pos]
      omega
    rw [checkEnd, bind_get, if_neg inside]
    rfl
  · have behind := next.advance
    rw [int_bytes_length] at behind
    exact read_version_next (next_of_same behind.first buf pos)

theorem not_short (content : List Byte) : ¬ ((content.length + 6 : Nat) : Int) < 6 := by omega

theorem past_header (stream : ReadStream ReadState) (count : Nat) :
    ((stream.advance 4).advance 2).advance count = stream.advance (count + 6) := by
  rw [advance_advance, advance_advance, ← Nat.add_assoc, Nat.add_comm count]

theorem skip_encaps_ok (small : content.length + 6 < 2 ^ 31)
    (next : Next stream (encapsBytes version content) rest) :
    skipEncaps stream = .ok version (stream.advance (content.length + 6)) := by
  obtain ⟨size, later⟩ := header_ok small next
  obtain ⟨checked, versioned⟩ := later (stream.advance 4) rfl rfl
  have left : (((content.length + 6 : Nat) : Int) - 6).toNat = content.length := by omega
  rw [skipEncaps, bind_of_ok size, if_neg (not_short content), bind_of_ok checked, bind_of_ok versioned, left,
    ← past_header]
  rfl

theorem read_encaps_ok (small : content.length + 6 < 2 ^ 31)
    (next : Next stream (encapsBytes version content) rest) :
    readEncaps stream = .ok (version, encapsBytes version content) (stream.advance (content.length + 6)) := by
  obtain ⟨size, later⟩ := header_ok small next
  obtain ⟨checked, versioned⟩ := later (stream.advance 4) rfl rfl
  have left : (((content.length + 6 : Nat) : Int) - 6).toNat = content.length := by omega
  have taken : (stream.buf.drop stream.pos).take ((content.length + 6 : Nat) : Int).toNat =
      encapsBytes version content := by
    rw [Int.toNat_natCast, ← encaps_bytes_length version, next.2, List.take_left]
  rw [readEncaps, bind_get, bind_of_ok size, if_neg (not_short content), bind_of_ok checked,
    bind_of_ok versioned, left, taken, ← past_header]
  rfl

theorem modify_encaps_run (change : Chain ReadEncaps → Chain ReadEncaps) (stream : ReadStream ReadState) :
    modifyEncaps change stream = .ok ()
      { stream with decoder := { stream.decoder with encaps := change stream.decoder.encaps } } := rfl

theorem start_read_encaps_ok (small : content.length + 6 < 2 ^ 31) (supported : isSupported version = true)
    (next : Next stream (encapsBytes version content) rest) :
    ∃ after, startReadEncaps fresh stream = .ok version after ∧ after.buf = stream.buf ∧
      after.pos = stream.pos + 6 ∧ after.decoder.encoding = stream.decoder.encoding ∧
      after.decoder.encaps = stream.decoder.encaps.push fresh
        fun _ => ⟨stream.pos, ((content.length + 6 : Nat) : Int), version⟩ := by
  let pushed := { stream with decoder := { stream.decoder with
    encaps := stream.decoder.encaps.push fresh fun encaps => { encaps with start := stream.pos } } }
  obtain ⟨size, later⟩ := header_ok small (@next_of_same stream pushed _ _ next rfl rfl)
  obtain ⟨checked, -⟩ := later (pushed.advance 4) rfl rfl
  let sized := { pushed.advance 4 with decoder := { pushed.decoder with
    encaps := pushed.decoder.encaps.modify fun encaps =>
      { encaps with sz := ((content.length + 6 : Nat) : Int) } } }
  obtain ⟨-, versioned⟩ := later sized rfl rfl
  let headed := { sized.advance 2 with decoder := { sized.decoder with
    encaps := sized.decoder.encaps.modify fun encaps => { encaps with encoding := version } } }
  refine ⟨headed, ?_, rfl, rfl, rfl, ?_⟩
  · rw [startReadEncaps, bind_get, bind_of_ok (modify_encaps_run _ _), bind_of_ok size,
      if_neg (not_short content), bind_of_ok checked, bind_of_ok (modify_encaps_run _ _)]
    apply (bind_of_ok versioned).trans
    rw [bind_of_ok (modify_encaps_run _ _), if_pos supported]
    rfl
  · have filled : ((stream.decoder.encaps.push fresh fun encaps => { encaps with start := stream.pos }).modify
          fun encaps => { encaps with sz := ((content.length + 6 : Nat) : Int) }).modify
          (fun encaps => { encaps with encoding := version }) =
        stream.decoder.encaps.push fresh
          fun _ => ⟨stream.pos, ((content.length + 6 : Nat) : Int), version⟩ := by
      rw [Chain.modify_push, Chain.modify_push]
      rfl
    exact filled

theorem end_read_encaps_ok {encaps : ReadEncaps} (current : stream.decoder.encaps.current = some encaps)
    (ended : stream.pos = encaps.start + encaps.sz.toNat) :
    ∃ after, endReadEncaps skipRef stream = .ok () after ∧ after.buf = stream.buf ∧ after.pos = stream.pos ∧
      after.decoder = { stream.decoder with encaps := stream.decoder.encaps.pop } := by
  let placed := { stream with encapsEnd := encaps.start + encaps.sz.toNat }
  have checked (encoding : Encoding) :
      checkEncapsEnd skipRef encoding (stream.buf.length + 1) placed = .ok () placed := by
    cases encoding with
    | v10 =>
        rw [checkEncapsEnd, bind_get, if_pos ended]
        rfl
    | v11 =>
        have nothing : skipOpts skipRef (stream.buf.length + 1) placed = .ok () placed := by
          rw [skipOpts, bind_get, if_pos (Nat.le_of_eq ended.symm)]
          rfl
        rw [checkEncapsEnd, bind_of_ok nothing, bind_get, if_pos ended]
        rfl
  let popped := { placed with decoder := { stream.decoder with encaps := stream.decoder.encaps.pop } }
  refine ⟨popped, ?_, rfl, rfl, rfl⟩
  rw [endReadEncaps, bind_get, current]
  exact (bind_of_ok (checked _)).trans rfl

end Header

theorem passed_encaps {version : Version} {content : List Byte} {opened middle : ReadStream ReadState}
    (small : content.length + 6 < 2 ^ 31) (buf : opened.buf = stream.buf) (pos : opened.pos = stream.pos + 6)
    (encoding : opened.decoder.encoding = stream.decoder.encoding)
    (pushed : opened.decoder.encaps = stream.decoder.encaps.push fresh
      fun _ => ⟨stream.pos, ((content.length + 6 : Nat) : Int), version⟩)
    (inside : Passed opened middle content.length) :
    ∃ after, endReadEncaps skipRef middle = .ok () after ∧
      Passed stream after (encapsBytes version content).length := by
  have same := inside.encaps
  rw [pushed] at same
  obtain ⟨stale, current⟩ := @Chain.current_push _ fresh
    (fun _ => (⟨stream.pos, ((content.length + 6 : Nat) : Int), version⟩ : ReadEncaps)) stream.decoder.encaps
  have reached : middle.pos = stream.pos + ((content.length + 6 : Nat) : Int).toNat := by
    rw [inside.pos, pos]
    omega
  obtain ⟨after, ended, buf', pos', popped⟩ :=
    @end_read_encaps_ok skipRef middle _ (same.current.trans current) reached
  refine ⟨after, ended, ?_, ?_, ?_, ?_⟩
  · rw [buf', inside.buf, buf]
  · rw [pos', inside.pos, pos, encaps_bytes_length]
    omega
  · rw [popped]
    exact inside.encoding.trans encoding
  · rw [popped]
    exact same.pop

theorem noted_and_rest {others : Contents} {middle after : ReadStream ReadState}
    {later : EncapsReader Contents} (build : Version → Contents → Contents)
    (passed : Passed stream middle count) (continued : later middle = .ok others after) :
    (do
      let current ← getReadEncoding
      let others ← later
      pure (build current others)) middle =
      .ok (build stream.decoder.getReadEncoding others) after := by
  rw [← passed.current]
  exact (bind_of_ok continued).trans rfl

/-- Whatever way each encapsulation is taken, the reader stops behind the forest with the contents,
and the stack of encapsulations is as before. -/
theorem read_forest_found (forest : Forest) {plan : Plan} {contents : Contents}
    (fits : found stream.decoder.getReadEncoding plan forest = some contents)
    (small : forest.bytes.length < 2 ^ 31) (next : Next stream forest.bytes rest) :
    ∃ after, readForest fresh skipRef plan stream = .ok contents after ∧
      Passed stream after forest.bytes.length := by
  induction forest generalizing stream plan contents rest with
  | done =>
      cases plan with
      | done =>
          obtain rfl := Option.some.inj fits
          exact ⟨stream, rfl, passed_advance stream 0⟩
      | _ => cases fits
  | blob bytes others ih =>
      rw [Forest.bytes, List.length_append] at small
      rw [Forest.bytes] at next ⊢
      cases plan with
      | blob size later =>
          rw [found] at fits
          split at fits
          · next length =>
              subst length
              obtain ⟨after', continued, rfl⟩ := Option.map_eq_some_iff.mp fits
              have begun := passed_advance stream bytes.length
              rw [← begun.current] at continued
              obtain ⟨after, ran, passed⟩ := ih continued (by omega) next.advance
              have noted := noted_and_rest (Contents.blob bytes) begun ran
              refine ⟨after, (bind_of_ok (read_blob_next next.first)).trans noted, ?_⟩
              rw [List.length_append]
              exact begun.trans passed
          · cases fits
      | _ => cases fits
  | encaps encoding content others contentRead othersRead =>
      rw [Forest.bytes, List.length_append, encaps_bytes_length] at small
      rw [Forest.bytes] at next ⊢
      have shortContent : content.bytes.length + 6 < 2 ^ 31 := by omega
      -- However the encapsulation is taken, the rest is read behind it.
      have behind {middle : ReadStream ReadState} {later : Plan} {remaining : Contents}
          (passed : Passed stream middle (encapsBytes encoding.version content.bytes).length)
          (continued : found stream.decoder.getReadEncoding later others = some remaining) :
          ∃ after, readForest fresh skipRef later middle = .ok remaining after ∧
            Passed stream after (encapsBytes encoding.version content.bytes ++ others.bytes).length := by
        rw [← passed.current] at continued
        obtain ⟨after, ran, moved⟩ := othersRead continued (by omega) (passed.next rfl next)
        refine ⟨after, ran, ?_⟩
        rw [List.length_append]
        exact passed.trans moved
      have advanced := passed_advance stream (content.bytes.length + 6)
      rw [← encaps_bytes_length encoding.version] at advanced
      cases plan with
      | enter inner later =>
          obtain ⟨read, inside, tail⟩ := Option.bind_eq_some_iff.mp fits
          obtain ⟨remaining, continued, rfl⟩ := Option.map_eq_some_iff.mp tail
          obtain ⟨opened, started, buf, pos, kept, pushed⟩ :=
            @start_read_encaps_ok fresh stream _ _ _ shortContent (supported_version encoding) next.first
          have current : opened.decoder.getReadEncoding = encoding.version := by
            obtain ⟨stale, isCurrent⟩ := @Chain.current_push _ fresh
              (fun _ => (⟨stream.pos, ((content.bytes.length + 6 : Nat) : Int), encoding.version⟩ : ReadEncaps))
              stream.decoder.encaps
            rw [ReadState.getReadEncoding, pushed, isCurrent]
          have header : (intBytes (content.bytes.length + 6 : Nat) ++ versionBytes encoding.version).length = 6 := by
            rw [List.length_append, int_bytes_length]
            rfl
          have within : Next opened content.bytes (others.bytes ++ rest) := by
            have ahead := next.first
            rw [encapsBytes] at ahead
            have beyond := ahead.advance
            rw [header] at beyond
            exact next_of_same beyond buf pos
          rw [← current] at inside
          obtain ⟨middle, contentRan, contentPassed⟩ := contentRead inside (by omega) within
          obtain ⟨closed, ended, passed⟩ := @passed_encaps fresh skipRef stream _ _ _ _ shortContent buf pos kept pushed contentPassed
          obtain ⟨after, ran, moved⟩ := behind passed continued
          have noted := noted_and_rest (Contents.entered encoding.version read) passed ran
          refine ⟨after, ?_, moved⟩
          exact (bind_of_ok started).trans ((bind_of_ok contentRan).trans ((bind_of_ok ended).trans noted))
      | skip later =>
          obtain ⟨remaining, continued, rfl⟩ := Option.map_eq_some_iff.mp fits
          obtain ⟨after, ran, passed⟩ := behind advanced continued
          have skipped := skip_encaps_ok shortContent next.first
          have noted := noted_and_rest (Contents.skipped encoding.version) advanced ran
          rw [← encaps_bytes_length encoding.version] at skipped
          exact ⟨after, (bind_of_ok skipped).trans noted, passed⟩
      | take later =>
          obtain ⟨remaining, continued, rfl⟩ := Option.map_eq_some_iff.mp fits
          obtain ⟨after, ran, passed⟩ := behind advanced continued
          have taken := read_encaps_ok shortContent next.first
          have noted := noted_and_rest
            (Contents.taken encoding.version (encapsBytes encoding.version content.bytes)) advanced ran
          rw [← encaps_bytes_length encoding.version] at taken
          exact ⟨after, (bind_of_ok taken).trans noted, passed⟩
      | _ => cases fits

end Reading

/-- Every forest is written with the enclosing encoding current after each end, and read back in
whatever way each encapsulation is taken: the contents are those that were written, the encoding
after each end is the enclosing one, and the reader stops where the writer did. -/
theorem encapsulations_nest (memory : Memory) (fresh : WriteEncaps) (constructed : ReadEncaps)
    (skipRef : EncapsReader Unit) (forest : Forest) (stream : WriteStream)
    (small : forest.bytes.length < 2 ^ 31) :
    ∃ written, Gives memory (stream.b.length + forest.bytes.length) (writeForest memory fresh forest stream)
        (written, enclosingEncodings stream.getWriteEncoding forest) ∧
      written.b = stream.b ++ forest.bytes ∧ written.getWriteEncoding = stream.getWriteEncoding ∧
      ∀ (input : ReadStream ReadState) (rest : List Byte),
        input.buf = written.b ++ rest → input.pos = stream.b.length →
        ∀ (plan : Plan) (contents : Contents),
          found input.decoder.getReadEncoding plan forest = some contents →
          ∃ after, readForest constructed skipRef plan input = .ok contents after ∧
            after.pos = written.b.length ∧
            after.decoder.getReadEncoding = input.decoder.getReadEncoding := by
  obtain ⟨written, gives, appended, same, encoding⟩ := @write_forest_appends memory fresh forest stream
  refine ⟨written, gives, appended, write_encoding_same same encoding, ?_⟩
  intro input rest buf pos plan contents fits
  have next : Next input forest.bytes rest := by
    rw [Next, buf, pos, appended]
    constructor
    · simp only [List.length_append]
      omega
    · rw [List.append_assoc, List.drop_left]
  obtain ⟨after, ran, passed⟩ := @read_forest_found constructed skipRef input rest forest plan contents fits small next
  refine ⟨after, ran, ?_, passed.current⟩
  rw [passed.pos, pos, appended, List.length_append]

def nested : Forest :=
  .blob [1] (.encaps .v11 (.blob [2, 3] (.encaps .v10 (.blob [4] .done) (.blob [5] .done))) (.blob [6] .done))

theorem nested_read_back :
    ∃ after, readForest ⟨0, 0, ⟨0, 0⟩⟩ (pure ()) nested.whole
        (ReadStream.fresh nested.bytes ⟨⟨1, 1⟩, ⟨⟨0, 0, ⟨0, 0⟩⟩, none⟩⟩) =
      .ok (nested.contents ⟨1, 1⟩) after ∧ after.pos = 18 := by
  obtain ⟨written, -, appended, -, reads⟩ := encapsulations_nest ⟨none, fun _ _ => 0⟩ ⟨0, ⟨0, 0⟩⟩
    ⟨0, 0, ⟨0, 0⟩⟩ (pure ()) nested ⟨[], ⟨1, 1⟩, ⟨⟨0, ⟨0, 0⟩⟩, none⟩⟩ (by decide)
  have buf : (ReadStream.fresh nested.bytes (⟨⟨1, 1⟩, ⟨⟨0, 0, ⟨0, 0⟩⟩, none⟩⟩ : ReadState)).buf =
      written.b ++ [] := by
    rw [appended, List.append_nil]
    rfl
  obtain ⟨after, ran, pos, -⟩ := reads _ [] buf rfl nested.whole _ (found_whole _ _)
  refine ⟨after, ran, ?_⟩
  rw [pos, appended]
  rfl

end IceTouch.Encapsulations
