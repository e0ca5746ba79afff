import IceTouch.Connection.Batches

/-!
# The frames on the wire

Every message that is handed over has a header and fits an `Int`, so its frame announces its
own length. The compression status of the frame is wrong exactly when an asynchronous request
is sent again without compression after an attempt that compressed it.
-/

namespace IceTouch.Connection

open Bytes Machine

variable {setup : Setup} {permits : Fault → Prop} {c d : ConnectionI}

/-- A message with a header whose size fits an `Int`. -/
structure Proper (message : OutgoingMessage) : Prop where
  long : headerSize ≤ message.stream.b.length
  short : message.stream.b.length ≤ 0x7fffffff

theorem request_length (os : RequestStream) : headerSize + 4 ≤ os.bytes.length := by
  simp only [RequestStream.bytes, header, magic, versions, headerSize, List.length_append,
    List.length_cons, List.length_nil, encode_le_length]
  omega

theorem batch_proper {call : Option Call} {batch : Batch} {current : List (List Byte)}
    (stream : batch.stream = collected current)
    (bounded : (collected current).length ≤ setup.messageSizeMax) :
    Proper (batchMessage call batch) := by
  have limit := setup.messageSizeMax_le
  have length : (batchMessage call batch).stream.b.length = (collected current).length := by
    change (putInt batch.stream headerSize batch.requestNum).length = _
    rw [stream, put_int_length]
    rw [collected_length]
    exact Nat.le_add_right _ _
  constructor
  · rw [length, collected_length]
    omega
  · rw [length]
    omega

theorem Hand.proper {message : OutgoingMessage} (hand : Hand setup c message)
    (batched : Batched setup False c) : Proper message := by
  have limit := setup.messageSizeMax_le
  cases hand with
  | close => exact ⟨by decide, by decide⟩
  | @request async notifies compress response os fits =>
      have small := check_send_size_ok fits
      have long := request_length os
      have length : (requestMessage async notifies compress response os c).stream.b.length =
          os.bytes.length := by
        unfold requestMessage
        split
        · exact put_int_length _ long
        · rfl
      constructor
      · rw [length]
        omega
      · rw [length]
        omega
  | @reply dispatch body bounded =>
      constructor
      · change headerSize ≤ (replyStream dispatch.requestId body).length
        simp [replyStream, replyHdr, header, magic, versions, headerSize]
      · exact Nat.le_trans bounded limit
  | flush open_ unused some_ =>
      obtain ⟨groups, current, batching⟩ := batched open_
      have someCurrent : current ≠ [] := by
        intro none_
        rw [batching.count, none_] at some_
        exact some_ rfl
      have stream : c.batch.stream = collected current := by
        rw [batching.idle unused, if_neg someCurrent]
      exact batch_proper stream (batching.bounded someCurrent)
  | @split request open_ inUse some_ =>
      obtain ⟨groups, current, batching⟩ := batched open_
      obtain ⟨lent, marker⟩ := batching.lent inUse
      have someCurrent : current ≠ [] := by
        rw [batching.count] at some_
        exact List.length_pos_iff.mp (by omega)
      have stream : (frontBatch (returnBatch request c)).stream = collected current := by
        change (c.batch.lent ++ request).take c.batch.marker = _
        rw [lent]
        exact List.take_left' marker.symm
      exact batch_proper stream (batching.bounded someCurrent)

theorem proper_of_reachable {faults : List Fault}
    (reached : Reach (step setup) (Avoids setup faults) .initial c) :
    ∀ message ∈ c.handed, Proper message := by
  have both : Batched setup False c ∧ ∀ message ∈ c.handed, Proper message := by
    apply invariant_of_moves reached ⟨batched_initial, by simp [ConnectionI.initial]⟩
    rintro before after ⟨batched, proper⟩ move
    refine ⟨move.batched (fun impossible => impossible.elim) batched, ?_⟩
    obtain ⟨added, handed, hands⟩ := move.hands
    intro message inside
    rw [handed, List.mem_append] at inside
    obtain old | new := inside
    · exact proper message old
    · exact (hands message new).proper batched
  exact both.2

/-- While messages are queued, the write stream holds the unfinished frame of the first of them:
the frames before it are delivered and of it the part up to the position. -/
def HoldsFront (setup : Setup) (c : ConnectionI) : Prop :=
  c.sendStreams ≠ [] → ∃ written message later frame position,
    c.handed = written ++ message :: later ∧ c.sendStreams.length = later.length + 1 ∧
    (prepare setup.bz2 message.compress message.stream.b).frame = .ok frame ∧
    c.writeStream = ⟨frame, some position⟩ ∧ position < frame.length ∧
    c.delivered = frames setup written ++ frame.take position

theorem Flows.holds_front {written waiting : List OutgoingMessage}
    (flows : Flows setup True c.pipe written waiting) : HoldsFront setup c := by
  intro busy
  cases flows with
  | idle queue => exact absurd queue busy
  | @busy message later front rest frame position queue buffer first handed delivered prepared
      stands empty bounded unfinished waits =>
      refine ⟨written, message, later, frame, position, ?_, ?_, prepared, buffer,
        unfinished trivial, delivered⟩
      · rw [← first]
        exact handed
      · change c.sendStreams = _ at queue
        rw [queue, List.length_cons, waits.length_eq]

/-- In every run in which no event leaves a completed frame at the front of the queue, the
delivered bytes are a prefix of the frames of the messages in the order of `sendMessage`, each
frame announces its length, and while the connection is not closed the write stream holds the
unfinished front frame. -/
theorem output_is_fifo (reached : Reach (step setup) (Avoids setup [.abandon]) .initial c) :
    c.delivered <+: frames setup c.handed ∧
      (∀ message ∈ c.handed, ∀ frame,
        (prepare setup.bz2 message.compress message.stream.b).frame = .ok frame →
        headerSize ≤ frame.length ∧ sizeField frame = frame.length) ∧
      (c.state < .closed → HoldsFront setup c) := by
  obtain ⟨written, waiting, output⟩ : ∃ written waiting, Output setup True c written waiting := by
    apply invariant_of_moves reached ⟨[], [], output_initial⟩
    rintro before after ⟨written, waiting, output⟩ move
    apply move.output _ output
    intro _ permitted
    exact permitted (List.mem_singleton_self _)
  obtain ⟨part, carries⟩ := output.carries
  refine ⟨carries.delivered_prefix, ?_, ?_⟩
  · intro message inside frame prepared
    have proper := proper_of_reachable reached message inside
    exact frame_size setup.bz2 message.compress proper.long proper.short prepared
  · intro open_
    exact (output.flows open_).holds_front

def queuedRun : List Event :=
  [.start true .done .done, .sendRequest false true ⟨0, 0, 0, [7]⟩ ⟨5, none⟩,
    .sendRequest false false ⟨0, 0, 0, [8]⟩ noWrite,
    .message ⟨false, true, .pending, .pending, ⟨[], none⟩, [⟨4, none⟩], none⟩]

theorem avoids_of_write_only {events : List Event}
    (writeOnly : ∀ ready, Event.message ready ∈ events → ready.read = false) (event : Event)
    (inside : event ∈ events) (c : ConnectionI) : Avoids setup [.abandon] event c := by
  intro fault isFault committed
  rw [List.mem_singleton.mp isFault] at committed
  obtain ⟨ready, isMessage, _, _, _, _, incomplete⟩ := committed
  rw [isMessage] at inside
  apply incomplete
  simp [readPart, writeOnly ready inside]

theorem queued_run_is_fifo :
    ∃ c, runAll (step tcpSetup) queuedRun .initial = some c ∧ c.state < .closed ∧
      c.sendStreams.length = 2 ∧ c.delivered.length = 9 ∧
      c.delivered <+: frames tcpSetup c.handed ∧ HoldsFront tcpSetup c := by
  have ran : (runAll (step tcpSetup) queuedRun .initial).isSome = true := by decide
  obtain ⟨c, isResult⟩ := Option.isSome_iff_exists.mp ran
  have reached : Reach (step tcpSetup) (Avoids tcpSetup [.abandon]) .initial c := by
    apply reach_of_run isResult
    apply avoids_of_write_only
    intro ready inside
    simp only [queuedRun, List.mem_cons, reduceCtorEq, Event.message.injEq, List.not_mem_nil,
      or_false, false_or] at inside
    rw [inside]
  have facts : (runAll (step tcpSetup) queuedRun .initial).map
      (fun c => (c.state, c.sendStreams.length, c.delivered.length)) = some (.holding, 2, 9) := by
    decide
  rw [isResult] at facts
  simp only [Option.map_some, Option.some.injEq, Prod.mk.injEq] at facts
  obtain ⟨holding, two, nine⟩ := facts
  have open_ : c.state < .closed := by
    rw [holding]
    decide
  obtain ⟨begins, _, holds⟩ := output_is_fifo reached
  exact ⟨c, isResult, open_, two, nine, begins, holds open_⟩

/-- A request that is to be compressed waits behind another one; when its turn comes, the
compression fails. -/
def uncompressibleRun : List Event :=
  [.start true .done .done, .sendRequest false true ⟨0, 0, 0, [7]⟩ noWrite,
    .sendRequest true true ⟨0, 0, 0, List.replicate 82 0⟩ noWrite,
    .message ⟨false, true, .pending, .pending, ⟨[], none⟩, [⟨1000, none⟩], none⟩]

/-- The connection is closed with a message in the queue, and its frame was never made. -/
theorem closed_without_front :
    ∃ c, runAll (step tcpSetup) uncompressibleRun .initial = some c ∧
      (∀ ready, Event.message ready ∈ uncompressibleRun → ready.read = false) ∧
      c.sendStreams ≠ [] ∧ c.writeStream.b = [] ∧ ¬ HoldsFront tcpSetup c := by
  have ran : (runAll (step tcpSetup) uncompressibleRun .initial).isSome = true := by decide
  obtain ⟨c, isResult⟩ := Option.isSome_iff_exists.mp ran
  have facts : (runAll (step tcpSetup) uncompressibleRun .initial).map
      (fun c => (c.sendStreams.length, c.writeStream.b)) = some (1, []) := by
    decide
  rw [isResult] at facts
  simp only [Option.map_some, Option.some.injEq, Prod.mk.injEq] at facts
  obtain ⟨one, nothing⟩ := facts
  have busy : c.sendStreams ≠ [] := by
    intro none_
    rw [none_] at one
    cases one
  refine ⟨c, isResult, ?_, busy, nothing, ?_⟩
  · intro ready inside
    simp only [uncompressibleRun, List.mem_cons, reduceCtorEq, Event.message.injEq,
      List.not_mem_nil, or_false, false_or] at inside
    rw [inside]
  · intro holds
    obtain ⟨_, _, _, frame, position, _, _, _, buffer, short, _⟩ := holds busy
    rw [buffer] at nothing
    change frame = [] at nothing
    rw [nothing] at short
    cases short

/-- Byte 9 of the frame is 2 exactly when its body is the output of `doCompress`, and a peer
whose decompression inverts the compression gets the body of the message, at its length. -/
def Truthful (setup : Setup) (message : OutgoingMessage) : Prop :=
  TellsTruth (prepare setup.bz2 message.compress message.stream.b) ∧
    ∀ (receiver : Bz2) (limit : Nat) (frame : List Byte), Inverts setup.bz2 receiver →
      message.stream.b.length ≤ limit → limit ≤ 0x7fffffff →
      (prepare setup.bz2 message.compress message.stream.b).frame = .ok frame →
      ∃ stream, openFrame receiver limit frame = .ok stream ∧
        stream.drop headerSize = message.stream.b.drop headerSize ∧
        stream.length = message.stream.b.length

theorem avoids_nothing (reached : Reachable setup c) :
    Reach (step setup) (Avoids setup []) .initial c := by
  apply reached.weaken
  intro _ _ _ fault inside
  cases inside

/-- The status is wrong exactly for a message that is not to be compressed and whose stream has
the status of an attempt that compressed it. -/
theorem truthful_iff (reached : Reachable setup c) (message : OutgoingMessage)
    (inside : message ∈ c.handed) :
    Truthful setup message ↔ message.compress = true ∨ message.stream.b.getD 9 0 ≠ 2 := by
  have proper := proper_of_reachable (avoids_nothing reached) message inside
  have told := tells_truth_iff setup.bz2 message.compress proper.long
  constructor
  · intro truthful
    exact told.mp truthful.1
  · intro condition
    refine ⟨told.mpr condition, ?_⟩
    intro receiver limit frame inverts short range prepared
    obtain ⟨body, length⟩ := prepare_keeps_body setup.bz2 message.compress proper.long
    exact ⟨_, open_prepared inverts proper.long short range condition prepared, body, length⟩

/-- The body of a request with id 1 and 82 zero bytes, and what BZ2 makes of it at level 1. -/
def zeros : List Byte := [1, 0, 0, 0] ++ List.replicate 82 0

def zerosCompressed : List Byte :=
  [66, 90, 104, 49, 49, 65, 89, 38, 83, 89, 162, 123, 216, 9, 0, 0, 2, 66, 0, 96, 0, 32, 0, 32, 0,
    48, 204, 12, 245, 5, 206, 46, 228, 138, 112, 161, 33, 68, 247, 176, 18]

def zerosBz2 : Bz2 where
  compress room source :=
    if source = zeros ∧ zerosCompressed.length ≤ room then some zerosCompressed else none
  decompress room source :=
    if source = zerosCompressed ∧ zeros.length ≤ room then some zeros else none
  compress_fits := by
    intro room source output compressed
    split at compressed
    · next fits =>
        cases compressed
        exact fits.2
    · cases compressed

def compressingSetup : Setup := { tcpSetup with bz2 := zerosBz2 }

def compressedRun : List Event :=
  [.start true .done .done,
    .sendAsyncRequest false true true ⟨0, 0, 0, List.replicate 82 0⟩ ⟨1000, none⟩]

theorem compressed_run_is_truthful :
    ∃ c message, runAll (step compressingSetup) compressedRun .initial = some c ∧
      c.handed = [message] ∧ Truthful compressingSetup message := by
  have ran : (runAll (step compressingSetup) compressedRun .initial).isSome = true := by decide
  obtain ⟨c, isResult⟩ := Option.isSome_iff_exists.mp ran
  have reached : Reachable compressingSetup c := reach_of_run isResult (fun _ _ _ => trivial)
  have facts : (runAll (step compressingSetup) compressedRun .initial).map
      (fun c => c.handed.map OutgoingMessage.compress) = some [true] := by
    decide
  rw [isResult, Option.map_some, Option.some.injEq] at facts
  obtain ⟨message, rest, isHanded⟩ := List.exists_cons_of_ne_nil
    (fun none_ : c.handed = [] => by rw [none_] at facts; cases facts)
  rw [isHanded, List.map_cons, List.cons.injEq, List.map_eq_nil_iff] at facts
  refine ⟨c, message, isResult, by rw [isHanded, facts.2], ?_⟩
  apply (truthful_iff reached message (by rw [isHanded]; exact List.mem_cons_self)).mpr
  exact Or.inl facts.1

def firstAttempt : List Event := [.start true .done .done]

def leftStream : RequestStream := ⟨2, 59, 1, List.replicate 82 0⟩

/-- The second attempt, on another connection whose endpoint does not ask for compression. -/
def secondAttempt : List Event :=
  [.start true .done .done, .sendAsyncRequest false false true leftStream ⟨1000, none⟩]

/-- The first attempt throws and leaves the stream with status 2; the second one writes it as it
is, and the body of its frame is not compressed. -/
theorem second_attempt_lies :
    ((runAll (step compressingSetup) firstAttempt .initial).map fun c =>
      (sendAsyncRequest compressingSetup false true true ⟨0, 0, 0, List.replicate 82 0⟩
        ⟨0, some .connectionLost⟩ c).1) = some (.thrown .connectionLost leftStream.bytes) ∧
    ∃ c message, runAll (step compressingSetup) secondAttempt .initial = some c ∧
      c.handed = [message] ∧ c.delivered = frameOf compressingSetup message ∧
      ¬ Truthful compressingSetup message := by
  have ran : (runAll (step compressingSetup) secondAttempt .initial).isSome = true := by decide
  obtain ⟨c, isResult⟩ := Option.isSome_iff_exists.mp ran
  have facts : (runAll (step compressingSetup) secondAttempt .initial).map
      (fun c => (c.handed.map fun message => (message.compress, message.stream.b.getD 9 0),
        decide (c.delivered = frames compressingSetup c.handed))) = some ([(false, 2)], true) := by
    decide
  rw [isResult, Option.map_some, Option.some.injEq, Prod.mk.injEq, decide_eq_true_eq] at facts
  obtain ⟨handed, delivered⟩ := facts
  obtain ⟨message, rest, isHanded⟩ := List.exists_cons_of_ne_nil
    (fun none_ : c.handed = [] => by rw [none_] at handed; cases handed)
  rw [isHanded, List.map_cons, List.cons.injEq, List.map_eq_nil_iff, Prod.mk.injEq] at handed
  obtain ⟨⟨plain, marked⟩, rfl⟩ := handed
  refine ⟨by decide, c, message, isResult, isHanded, ?_, ?_⟩
  · rw [delivered, isHanded, frames_singleton]
  · intro truthful
    have reached : Reachable compressingSetup c := reach_of_run isResult (fun _ _ _ => trivial)
    have proper := proper_of_reachable (avoids_nothing reached) message
      (by rw [isHanded]; exact List.mem_cons_self)
    obtain asked | unmarked :=
      (tells_truth_iff compressingSetup.bz2 message.compress proper.long).mp truthful.1
    · rw [plain] at asked
      cases asked
    · exact unmarked marked

end IceTouch.Connection
