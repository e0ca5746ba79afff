import IceTouch.Connection.Framing
import IceTouch.Connection.Requests
import IceTouch.Library.Blocks

/-!
# What the other side reads

A connection gets the bytes that its peer delivers in pieces of any size. The messages that it
takes from them are the frames of the messages that the peer has sent, whole and in their order,
whatever else happens to the connection.
-/

namespace IceTouch.Connection

open Bytes Machine Blocks

variable {setup sender receiver : Setup} {v w c d e : ConnectionI} {outcome : WriteOutcome}
  {supply : Supply} {bytes : List Byte} {index : Nat}

theorem input_of_unbatched (same : d.unbatched = c.unbatched) : d.input = c.input := by
  have inputs := congrArg ConnectionI.input same
  exact inputs

theorem input_of_bare (same : d.bare = c.bare) : d.input = c.input :=
  input_of_unbatched (unbatched_of_bare same)

@[simp] theorem fail_input (ex : LocalException) : (fail setup ex c).input = c.input :=
  input_of_bare (bare_of_quiet (fail_quiet ex))

@[simp] theorem reap_input : (reapWhenIdle c).input = c.input := by
  unfold reapWhenIdle
  split <;> rfl

@[simp] theorem shutdown_input (site : Assertion) :
    (shutdown setup site outcome c).input = c.input := by
  rw [shutdown_eq]
  dsimp only
  split
  · rfl
  · exact (input_of_bare (send_own_bare outcome closeMessage)).trans rfl

@[simp] theorem set_state_input (requested : State) :
    (setState setup outcome requested c).input = c.input := by
  have shifted : (shift setup requested c).input = c.input :=
    input_of_bare (bare_of_quiet (shift_quiet requested))
  unfold setState
  dsimp only
  split
  · rw [shutdown_input, shifted]
  · exact shifted

@[simp] theorem closing_input (ex : LocalException) :
    (setStateWith setup outcome .closing ex c).input = c.input := by
  have permitted : State.closing ≤ State.closing := Nat.le_refl _
  unfold setStateWith
  simp only [permitted, if_true]
  split
  · rfl
  · rw [set_state_input]
    exact input_of_bare (bare_of_quiet (record_exception_quiet ex))

theorem send_call_input (async notifies compress response : Bool) (os : RequestStream) :
    (sendCall setup async notifies compress response os outcome c).2.input = c.input := by
  cases free : c.exception with
  | some ex =>
      unfold sendCall
      rw [free]
  | none =>
      cases fits : checkSendSize setup os.bytes.length with
      | error ex => rw [send_call_refused free fits]
      | ok done =>
          obtain ⟨accepted, _, same⟩ : ∃ accepted, _ ∧
            (sendCall setup async notifies compress response os outcome c).2.bare = _ :=
            send_call_bare free fits
          rw [input_of_bare same]
          unfold enroll register note issue
          repeat' split
          all_goals rfl

theorem flush_input {async notifies : Bool} {result : CallResult}
    (flushed : flushBatch setup async notifies outcome c = some (result, d)) :
    d.input = c.input := by
  cases free : c.exception with
  | none =>
      obtain ⟨accepted, same⟩ := flush_unbatched free flushed
      exact (input_of_unbatched same).trans rfl
  | some ex =>
      simp only [flushBatch, free, reduceCtorEq, and_false, if_false, Option.some.injEq,
        Prod.mk.injEq] at flushed
      rw [← flushed.2]

theorem finish_input : (finish setup c).input = c.input := by
  have queued (ex : LocalException) (messages : List OutgoingMessage) (c : ConnectionI) :
      (messages.foldl (fun c message => finishQueued ex message c) c).input = c.input := by
    induction messages generalizing c with
    | nil => rfl
    | cons message rest ih =>
        rw [List.foldl_cons, ih]
        unfold finishQueued
        repeat' split
        all_goals rfl
  unfold finish
  rw [reap_input, set_state_input]
  refine Eq.trans (queued _ _ _) ?_
  unfold returnFront
  repeat' split
  all_goals rfl

@[simp] theorem idle_input : (shutdownWhenIdle setup outcome c).input = c.input := by
  unfold shutdownWhenIdle
  split <;> simp

theorem no_response_input : (sendNoResponse setup outcome c).input = c.input := by
  unfold sendNoResponse
  dsimp only
  repeat' split
  · exact (fail_input _).trans reap_input
  · exact reap_input
  · exact idle_input.trans reap_input

theorem response_input {os : List Byte} {compress : Byte} {closing : WriteOutcome} :
    (sendResponse setup os compress outcome closing c).input = c.input := by
  refine Eq.trans ?_ (reap_input (c := { c with dispatchCount := wrap (c.dispatchCount - 1) }))
  unfold sendResponse
  dsimp only
  generalize reapWhenIdle _ = c
  have sent := @send_message_mute setup c outcome (ownMessage os (0 < compress))
  have same := input_of_bare (bare_of_mute sent)
  split
  · split
    · exact fail_input _
    · rfl
  · split
    · next failed =>
        rw [failed] at same
        exact (fail_input _).trans same
    · next sent =>
        rw [sent] at same
        exact idle_input.trans same

theorem answer_input {dispatch : Dispatch} {body : List Byte} {closing : WriteOutcome} :
    (answer setup index dispatch body outcome closing c).input = c.input := by
  unfold answer
  dsimp only
  split
  · exact response_input
  · exact no_response_input

theorem invoke_input {upcall : Upcall} {fatal : Option LocalException} :
    (invoke setup index upcall fatal c).input = c.input := by
  unfold invoke invokeException
  repeat' split
  · exact reap_input.trans (fail_input _)
  · exact fail_input _
  · rfl

theorem done_input {upcall : Upcall} :
    (dispatchDone setup outcome upcall (removeUpcall index c)).input = c.input := by
  unfold dispatchDone
  dsimp only
  repeat' split
  · exact shutdown_input _
  · exact reap_input
  · rfl
  · rfl

theorem resume_input : (resumeStart setup c).input = c.input := by
  unfold resumeStart
  dsimp only
  repeat' split
  · exact (fail_input _).trans rfl
  · rfl
  · exact (set_state_input _).trans rfl

def Event.reads : Event → Bool
  | .start _ _ _ => true
  | .message _ => true
  | _ => false

theorem input_of_step {event : Event} (stepped : step setup event c = some d)
    (other : event.reads = false) : d.input = c.input := by
  replace stepped := (step_some stepped).2
  unfold perform at stepped
  cases event with
  | start | message => cases other
  | activate | hold | destroy | monitor | timedOut =>
      obtain rfl := Option.some.inj stepped
      simp only [activate, hold, destroy, monitor, timedOut]
      repeat' split
      all_goals simp
  | exception ex =>
      obtain rfl := Option.some.inj stepped
      exact fail_input ex
  | close =>
      dsimp only at stepped
      unfold close at stepped
      repeat' split at stepped
      all_goals cases stepped
      all_goals simp
  | resumeStart | sendRequest | sendAsyncRequest | finishBatchRequest | abortBatchRequest | finish =>
      obtain ⟨_, rfl⟩ := guard_and_some stepped
      first
      | rfl
      | exact resume_input
      | exact send_call_input _ _ _ _ _
      | exact input_of_unbatched (finish_batch_unbatched _ _ _)
      | exact finish_input
  | prepareBatchRequest =>
      dsimp only at stepped
      split at stepped
      · obtain ⟨⟨result, after⟩, prepared, rfl⟩ := Option.map_eq_some_iff.mp stepped
        unfold prepareBatchRequest at prepared
        repeat' split at prepared
        all_goals cases prepared
        all_goals rfl
      · cases stepped
  | flushBatchRequests | flushAsyncBatchRequests =>
      dsimp only at stepped
      split at stepped
      · obtain ⟨⟨result, after⟩, flushed, rfl⟩ := Option.map_eq_some_iff.mp stepped
        exact flush_input flushed
      · cases stepped
  | dispatcherThrows | callbacks | invoke | dispatchDone | answer =>
      dsimp only at stepped
      split at stepped
      · cases stepped
      · obtain ⟨_, rfl⟩ := guard_and_some stepped
        first
        | rfl
        | exact invoke_input
        | exact done_input
        | exact answer_input

/-- A frame has its size in its header. -/
def frameLayout : Layout Byte where
  head := headerSize
  size := sizeField
  positive := by decide
  told frame := by
    rw [sizeField, sizeField, List.drop_take, List.take_take]
    rfl

theorem check_header_ok {size : Nat} (checked : checkHeader setup bytes = .ok size) :
    headerSize ≤ bytes.length ∧ headerSize ≤ size ∧ sizeField bytes = size := by
  unfold checkHeader at checked
  split at checked
  · cases checked
  · next long =>
      repeat' split at checked
      all_goals try cases checked
      next value found small _ =>
        unfold intAt at found
        split at found
        · have four : ((bytes.drop 10).take 4).length ≤ 4 := List.length_take_le _ _
          have bound := decode_le_lt ((bytes.drop 10).take 4)
          have word : 256 ^ ((bytes.drop 10).take 4).length ≤ 256 ^ 4 :=
            Nat.pow_le_pow_right (by decide) four
          have value := Option.some.inj found
          rw [BitVec.toInt_ofNat', Int.bmod_def] at value
          rw [sizeField]
          split at value <;> omega
        · cases found

structure Cut (input : Input) (rest : List Byte) : Prop where
  blocks : ∀ message ∈ input.parsed, frameLayout.Block message
  consumed : input.consumed = input.parsed.flatten ++ rest

/-- The read stream holds what follows the complete messages, and its size is that of a header
or the one that the header tells. -/
structure Reading (input : Input) : Prop where
  cut : Cut input input.readStream.bytes
  room : input.readStream.bytes.length ≤ input.readStream.size
  header : input.readStream.header = true → input.readStream.size = headerSize
  body : input.readStream.header = false → headerSize ≤ input.readStream.bytes.length ∧
    sizeField input.readStream.bytes = input.readStream.size

structure Reads (input : Input) : Prop extends Reading input where
  short : input.readStream.bytes.length < input.readStream.size

theorem Reads.incomplete {input : Input} (reads : Reads input) :
    frameLayout.Incomplete input.readStream.bytes := by
  have short := reads.short
  cases header : input.readStream.header with
  | true =>
      rw [reads.header header] at short
      exact .inl short
  | false =>
      rw [← (reads.body header).2] at short
      exact .inr short

theorem Reading.fill (reading : Reading c.input) :
    Reading (fill supply c).2.2.input ∧
      (fill supply c).2.2.readStream.header = c.readStream.header ∧
      ((fill supply c).1 = .ok true ↔
        (fill supply c).2.2.readStream.bytes.length = (fill supply c).2.2.readStream.size) := by
  have room : c.readStream.bytes.length ≤ c.readStream.size := reading.room
  unfold Connection.fill
  dsimp only
  generalize isUsed : supply.bytes.take (c.readStream.size - c.readStream.bytes.length) = used
  have more : Reading ⟨⟨c.readStream.bytes ++ used, c.readStream.size, c.readStream.header⟩,
      c.consumed ++ used, c.parsed⟩ :=
    { cut := ⟨reading.cut.blocks, by
        have consumed : c.consumed = c.parsed.flatten ++ c.readStream.bytes := reading.cut.consumed
        dsimp only
        rw [consumed, List.append_assoc]⟩
      room := by
        change (c.readStream.bytes ++ used).length ≤ c.readStream.size
        rw [← isUsed, List.length_append, List.length_take]
        omega
      header := reading.header
      body := by
        intro body
        obtain ⟨long, size⟩ := reading.body body
        exact ⟨by rw [List.length_append]; exact Nat.le_add_right_of_le long,
          (frameLayout.size_append long used).trans size⟩ }
  split
  · next full => exact ⟨more, rfl, fun _ => full, fun _ => rfl⟩
  · next short => split <;> exact ⟨more, rfl, nofun, fun full => absurd full short⟩

theorem Reading.taken (reading : Reading c.input) (body : c.readStream.header = false)
    (full : c.readStream.bytes.length = c.readStream.size) : Reads (taken c).input where
  cut :=
    { blocks := by
        obtain ⟨long, size⟩ := reading.body body
        intro message inside
        obtain before | last := List.mem_append.mp inside
        · exact reading.cut.blocks message before
        · rw [List.mem_singleton.mp last]
          exact ⟨long, size.trans full.symm⟩
      consumed := by
        have consumed := reading.cut.consumed
        simp_all [Connection.taken, ConnectionI.input, ReadState.fresh] }
  room := Nat.zero_le _
  header := fun _ => rfl
  body := nofun
  short := by simp [Connection.taken, ConnectionI.input, ReadState.fresh, headerSize]

/-- What one read makes of the input: after an exception nothing more is read. -/
def Settled : Except LocalException Bool × ConnectionI → Prop
  | (.error _, d) => ∃ rest, Cut d.input rest
  | (.ok false, d) => Reads d.input
  | (.ok true, d) => Reads (taken d).input

theorem Reading.body_read (reading : Reading c.input) (body : c.readStream.header = false)
    (stream : setup.datagram = false) : Settled (readBody setup supply c) := by
  unfold readBody
  split
  · next full => exact reading.taken body full
  · rw [stream, if_neg Bool.false_ne_true]
    obtain ⟨more, same, full⟩ := @Reading.fill c supply reading
    generalize Connection.fill supply c = result at more same full ⊢
    rcases result with ⟨status, left, after⟩
    cases status with
    | error ex => exact ⟨_, more.cut⟩
    | ok done =>
        cases done with
        | true => exact more.taken (same.trans body) (full.mp rfl)
        | false =>
            exact ⟨more, Nat.lt_of_le_of_ne more.room fun isFull => nomatch full.mpr isFull⟩

theorem Reads.read (reads : Reads c.input) (stream : setup.datagram = false) :
    Settled (readMessage setup supply c) := by
  have short : c.readStream.bytes.length < c.readStream.size := reads.short
  unfold readMessage
  rw [if_neg (by omega)]
  cases header : c.readStream.header with
  | false =>
      rw [if_neg Bool.false_ne_true]
      exact reads.toReading.body_read header stream
  | true =>
      obtain ⟨more, same, full⟩ := @Reading.fill c supply reads.toReading
      rw [if_pos rfl, readHeader, stream, if_neg Bool.false_ne_true]
      generalize Connection.fill supply c = result at more same full ⊢
      rcases result with ⟨status, left, after⟩
      cases status with
      | error ex => exact ⟨_, more.cut⟩
      | ok done =>
          cases done with
          | false =>
              exact ⟨more, Nat.lt_of_le_of_ne more.room fun isFull => nomatch full.mpr isFull⟩
          | true =>
              dsimp only
              split
              · exact ⟨_, more.cut.blocks, more.cut.consumed⟩
              · next size checked =>
                  obtain ⟨long, least, field⟩ := check_header_ok checked
                  have told : after.readStream.size = headerSize :=
                    more.header (same.trans header)
                  have complete : after.readStream.bytes.length = _ := full.mp rfl
                  apply Reading.body_read _ rfl stream
                  exact
                    { cut := ⟨more.cut.blocks, more.cut.consumed⟩
                      room := complete.trans_le (Nat.le_max_right _ _)
                      header := nofun
                      body := fun _ => ⟨long, by
                        change sizeField after.readStream.bytes = max _ after.readStream.size
                        rw [field, told, Nat.max_eq_left least]⟩ }

structure Intake (c : ConnectionI) : Prop where
  cut : ∃ rest, Cut c.input rest
  reads : c.state < .closed → Reads c.input

theorem Reads.intake (reads : Reads c.input) : Intake c := ⟨⟨_, reads.cut⟩, fun _ => reads⟩

theorem Intake.fails {rest : List Byte} (cut : Cut c.input rest) (ex : LocalException) :
    Intake (fail setup ex c) where
  cut := ⟨rest, (fail_input ex).symm ▸ cut⟩
  reads open_ := absurd (fail_closed ex) (Nat.not_le.mpr open_)

theorem caught_eq (stream : setup.datagram = false) {ex : LocalException}
    (foreign : ex.foreign setup = true) : caught setup ex c = fail setup ex c := by
  unfold caught
  split
  · next limit => simp [LocalException.foreign, limit, stream] at foreign
  · rw [stream]
    split <;> rfl

theorem Parses.input {refusal : Option LocalException} {opened : Except LocalException (List Byte)}
    {parsed : Parsed} (parses : Parses setup refusal c opened parsed d) :
    d.input = (taken c).input := by
  cases parses with
  | failed => exact fail_input _
  | closes => exact fail_input _
  | ignored | request | batch | asyncReply | syncReply => rfl

theorem process_input (ready : Ready) : (processMessage setup ready c).input =
    if ready.read then (taken c).input else c.input := by
  have parsed : (parsePart setup ready c).2.input =
      if ready.read then (taken c).input else c.input := by
    unfold parsePart
    split
    · exact (parse_message_spec _).input
    · rfl
  have sent : (sendPart setup ready (parsePart setup ready c).2).2.input = _ :=
    input_of_bare (send_part_bare ready)
  rw [← parsed, ← sent]
  unfold processMessage countCallbacks
  dsimp only
  split <;> rfl

theorem Reads.after_exchange {ready : Ready} (reads : Reads c.input)
    (stream : setup.datagram = false) (foreign : ∀ ex ∈ ready.exceptions, ex.foreign setup = true) :
    Intake (exchange setup ready c) := by
  obtain ⟨buffer, delivered, advanced⟩ := @write_part_advances c ready
  have written : Reads (writePart ready c).2.input := by
    rw [advanced]
    exact reads
  unfold exchange
  rcases wrote : writePart ready c with ⟨status, after⟩
  rw [wrote] at written
  have settled : Settled (readMessage setup ready.supply after) := written.read stream
  cases status with
  | error ex =>
      dsimp only
      rw [caught_eq stream (write_part_error foreign (congrArg Prod.fst wrote))]
      exact .fails written.cut ex
  | ok done =>
      cases done with
      | false => exact written.intake
      | true =>
          dsimp only
          rcases took : readPart setup ready after with ⟨status, last⟩
          have failed (ex : LocalException) (raised : status = .error ex) : ex.foreign setup = true :=
            read_part_error foreign ((congrArg Prod.fst took).trans raised)
          unfold readPart at took
          cases reading : ready.read with
          | false =>
              rw [reading] at took
              cases took
              apply Reads.intake
              rw [process_input, reading]
              exact written
          | true =>
              rw [reading, if_pos rfl] at took
              rw [took] at settled
              cases status with
              | error ex =>
                  obtain ⟨rest, cut⟩ := settled
                  dsimp only
                  rw [caught_eq stream (failed ex rfl)]
                  exact .fails cut ex
              | ok done =>
                  cases done with
                  | false => exact Reads.intake settled
                  | true =>
                      apply Reads.intake
                      rw [process_input, reading]
                      exact settled

theorem stage_late (late : 2 ≤ c.state.stage) : ¬c.state ≤ .notValidated := by
  generalize c.state = state at late ⊢
  cases state <;> simp_all [State.stage, State.le_def, State.index]

theorem stage_open (forward : c.state.stage ≤ d.state.stage) (open_ : d.state < .closed) :
    c.state < .closed := by
  generalize c.state = before at forward ⊢
  generalize d.state = after at forward open_
  cases before <;> cases after <;> simp_all [State.stage, State.lt_def, State.index]

theorem Intake.step {event : Event} (intake : Intake c) (stream : setup.datagram = false)
    (cycle : LifeCycle setup c) (late : 2 ≤ c.state.stage)
    (stepped : step setup event c = some d) : Intake d := by
  have forward := (cycle.after_step stepped).forward
  have aside (same : d.input = c.input) : Intake d :=
    ⟨same ▸ intake.cut, fun open_ => same ▸ intake.reads (stage_open forward open_)⟩
  obtain ⟨foreign, performed⟩ := step_some stepped
  by_cases other : event.reads = false
  · exact aside (input_of_step stepped other)
  cases event with
  | start callback initializing validating =>
      obtain ⟨fresh, rfl⟩ := guard_and_some performed
      have closed : .closed ≤ c.state := by
        obtain early | closed := cycle.unstarted fresh
        · rw [early] at late
          cases late
        · exact closed
      apply aside
      unfold start
      dsimp only
      rw [if_pos closed]
      split
      · exact (fail_input _).trans rfl
      · rfl
  | message ready =>
      obtain ⟨_, rfl⟩ := guard_and_some performed
      unfold message at aside ⊢
      split
      · exact intake
      · next open_ =>
          rw [if_neg (stage_late late)]
          exact (intake.reads (not_le_iff_lt.mp open_)).after_exchange stream foreign
  | _ => exact absurd rfl other

structure Validated (setup : Setup) (v : ConnectionI) : Prop where
  reached : Reachable setup v
  state : v.state = .holding
  input : v.input = ⟨.fresh, [], []⟩

theorem Validated.intake (validated : Validated setup v) (stream : setup.datagram = false)
    (run : Reach (step setup) anyStep v d) : Intake d := by
  have fresh : Reads v.input := by
    rw [validated.input]
    exact ⟨⟨⟨nofun, rfl⟩, by decide, fun _ => rfl, nofun⟩, by decide⟩
  have late : 2 ≤ v.state.stage := by
    rw [validated.state]
    decide
  have cycle := life_cycle_of_reachable validated.reached
  have kept : LifeCycle setup d ∧ 2 ≤ d.state.stage ∧ Intake d := by
    apply run.invariant ⟨cycle, late, fresh.intake⟩
    rintro event before after ⟨cycle, late, intake⟩ _ stepped
    have evolves := cycle.after_step stepped
    exact ⟨evolves.cycle, late.trans evolves.forward, intake.step stream cycle late stepped⟩
  exact kept.2.2

theorem Reads.read_stream (reads : Reads c.input) :
    c.readStream = if c.readStream.bytes.length < headerSize then
      ⟨c.readStream.bytes, headerSize, true⟩
    else ⟨c.readStream.bytes, sizeField c.readStream.bytes, false⟩ := by
  have short : c.readStream.bytes.length < c.readStream.size := reads.short
  cases header : c.readStream.header with
  | true =>
      have size : c.readStream.size = headerSize := reads.header header
      rw [size] at short
      rw [if_pos short, ← size, ← header]
  | false =>
      obtain ⟨long, size⟩ := reads.body header
      change headerSize ≤ c.readStream.bytes.length at long
      change sizeField c.readStream.bytes = c.readStream.size at size
      rw [if_neg (Nat.not_lt.mpr long), size, ← header]

/-- How the bytes are cut makes no difference to the messages, nor to what is left to complete. -/
theorem fragmentation_immaterial {other : Setup} (stream : setup.datagram = false)
    (first : Validated setup v) (one : Reach (step setup) anyStep v d) (open_ : d.state < .closed)
    (otherStream : other.datagram = false) (second : Validated other w)
    (two : Reach (step other) anyStep w e) (unclosed : e.state < .closed)
    (same : d.consumed = e.consumed) :
    d.parsed = e.parsed ∧ d.readStream = e.readStream := by
  have here := (first.intake stream one).reads open_
  have there := (second.intake otherStream two).reads unclosed
  have whole := here.cut.consumed.symm.trans (same.trans there.cut.consumed)
  obtain ⟨parsed, bytes⟩ := Layout.cut_once here.cut.blocks there.cut.blocks here.incomplete
    there.incomplete whole
  have stream := here.read_stream
  change d.readStream.bytes = e.readStream.bytes at bytes
  rw [bytes, ← there.read_stream] at stream
  exact ⟨parsed, stream⟩

/-- With other limits, and without flushing batches. -/
def smallSetup : Setup :=
  { tcpSetup with
    acm := 0
    messageSizeMax := 256
    messageSizeMax_le := by decide
    batchAutoFlush := false }

def listening : ConnectionI := start tcpSetup true .done .done .initial

theorem listening_validated : Validated tcpSetup listening where
  reached := by
    have ran : runAll (step tcpSetup) [.start true .done .done] .initial = some listening := rfl
    exact reach_of_run ran (fun _ _ _ => trivial)
  state := rfl
  input := rfl

theorem listening_small : Validated smallSetup listening where
  reached := by
    have ran : runAll (step smallSetup) [.start true .done .done] .initial = some listening := rfl
    exact reach_of_run ran (fun _ _ _ => trivial)
  state := rfl
  input := rfl

def listen (setup : Setup) (pieces : List (List Byte)) : Option ConnectionI :=
  runAll (step setup) (pieces.map fun bytes => .message (arrives bytes)) listening

theorem listen_reach {pieces : List (List Byte)} (ran : listen setup pieces = some d) :
    Reach (step setup) anyStep listening d := reach_of_run ran (fun _ _ _ => trivial)

def pingFrame : List Byte := frameOf tcpSetup (ownMessage ping.bytes false)

theorem ping_arrives : ∃ d e, Reach (step tcpSetup) anyStep listening d ∧
    Reach (step smallSetup) anyStep listening e ∧ d.parsed = [pingFrame] ∧ d.parsed = e.parsed := by
  have facts : ((listen tcpSetup [pingFrame.take 10, pingFrame.drop 10]).bind fun d =>
      (listen smallSetup [pingFrame]).map fun e => decide (d.parsed = [pingFrame] ∧
        d.consumed = e.consumed ∧ d.state < .closed ∧ e.state < .closed)) = some true := by
    decide
  obtain ⟨d, ran, facts⟩ := Option.bind_eq_some_iff.mp facts
  obtain ⟨e, ranOnce, facts⟩ := Option.map_eq_some_iff.mp facts
  obtain ⟨parsed, same, open_, unclosed⟩ := of_decide_eq_true facts
  have one := listen_reach ran
  have two := listen_reach ranOnce
  exact ⟨d, e, one, two, parsed, (fragmentation_immaterial rfl listening_validated one open_
    rfl listening_small two unclosed same).1⟩

def sentFrames (setup : Setup) (messages : List OutgoingMessage) : List (List Byte) :=
  (messages.map (frameOf setup)).filter (· ≠ [])

theorem sent_frames_flatten (messages : List OutgoingMessage) :
    (sentFrames setup messages).flatten = frames setup messages :=
  List.flatten_filter_ne_nil

theorem sent_frames_blocks (proper : ∀ message ∈ c.handed, Proper message) :
    ∀ frame ∈ sentFrames setup c.handed, frameLayout.Block frame := by
  intro frame inside
  obtain ⟨made, nonempty⟩ := List.mem_filter.mp inside
  obtain ⟨message, among, rfl⟩ := List.mem_map.mp made
  cases prepared : (prepare setup.bz2 message.compress message.stream.b).frame with
  | error ex =>
      have nothing : frameOf setup message = [] := by
        rw [frameOf, prepared]
      rw [nothing] at nonempty
      cases nonempty
  | ok frame =>
      rw [frame_of_ok prepared]
      obtain ⟨long, size⟩ := frame_size setup.bz2 message.compress (proper message among).long
        (proper message among).short prepared
      exact ⟨long, size⟩

/-- The messages that a connection takes are the first frames that its peer has sent, and all of
them when all bytes have been read: none is lost, taken twice, overtaken or mixed with another. -/
theorem messages_arrive (stream : receiver.datagram = false) (sent : Reachable sender c)
    (validated : Validated receiver v) (run : Reach (step receiver) anyStep v d)
    (channel : d.consumed <+: c.delivered) :
    d.parsed <+: sentFrames sender c.handed ∧ (d.state < .closed →
      d.consumed = frames sender c.handed → d.parsed = sentFrames sender c.handed) := by
  obtain ⟨written, waiting, output⟩ :
      ∃ written waiting, Output sender False c written waiting := by
    apply invariant_of_moves (avoids_nothing sent) ⟨[], [], output_initial⟩
    rintro before after ⟨written, waiting, output⟩ move
    exact move.output False.elim output
  obtain ⟨part, carries⟩ := output.carries
  have intake := validated.intake stream run
  have blocks := @sent_frames_blocks sender c (proper_of_reachable (avoids_nothing sent))
  have sentAll := @sent_frames_flatten sender c.handed
  constructor
  · obtain ⟨rest, cut⟩ := intake.cut
    apply Layout.cut_prefix cut.blocks blocks
    have begins : d.parsed.flatten <+: d.consumed := ⟨rest, cut.consumed.symm⟩
    rw [sentAll]
    exact begins.trans (channel.trans carries.delivered_prefix)
  · intro open_ all
    have reads := intake.reads open_
    have whole : d.consumed = d.parsed.flatten ++ d.readStream.bytes := reads.cut.consumed
    rw [whole, ← sentAll, ← List.append_nil (sentFrames sender c.handed).flatten] at all
    exact (Layout.cut_once reads.cut.blocks blocks reads.incomplete Layout.nil_incomplete all).1

def arrivingRun : List Event :=
  [.start true .done .done, .sendRequest false false ⟨0, 0, 0, [8]⟩ ⟨100, none⟩,
    .sendRequest false true ⟨0, 0, 0, [8, 9]⟩ ⟨100, none⟩]

def pieces (bytes : List Byte) : List (List Byte) :=
  [bytes.take 10, bytes.drop 10, (bytes.drop 19).take 17, bytes.drop 36]

theorem requests_arrive : ∃ c d, Reachable tcpSetup c ∧ Reach (step tcpSetup) anyStep listening d ∧
    d.parsed.length = 2 ∧ d.parsed = sentFrames tcpSetup c.handed := by
  have facts : ((runAll (step tcpSetup) arrivingRun .initial).bind fun c =>
      (listen tcpSetup (pieces c.delivered)).map fun d =>
        (d.parsed.length, decide (d.consumed = c.delivered ∧ d.state < .closed ∧
          c.delivered = frames tcpSetup c.handed))) = some (2, true) := by
    decide
  obtain ⟨c, ran, facts⟩ := Option.bind_eq_some_iff.mp facts
  obtain ⟨d, readAll, facts⟩ := Option.map_eq_some_iff.mp facts
  obtain ⟨two, facts⟩ := Prod.mk.inj facts
  obtain ⟨consumed, open_, whole⟩ := of_decide_eq_true facts
  have sent : Reachable tcpSetup c := reach_of_run ran (fun _ _ _ => trivial)
  have read := listen_reach readAll
  have arrived :=
    messages_arrive rfl sent listening_validated read (consumed ▸ List.prefix_rfl)
  exact ⟨c, d, sent, read, two, arrived.2 open_ (consumed.trans whole)⟩

end IceTouch.Connection
