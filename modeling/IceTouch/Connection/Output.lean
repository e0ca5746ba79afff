import IceTouch.Connection.Effects
import IceTouch.Connection.Fifo

/-!
# The outgoing byte stream

The invariant of the sending side, and what each move does to it: the messages that are handed
over join those that wait, and the first of those that wait are completely written.
-/

namespace IceTouch.Connection

open Bytes Machine

structure Output (setup : Setup) (strict : Prop) (c : ConnectionI)
    (written waiting : List OutgoingMessage) : Prop where
  flows : c.state < .closed → Flows setup strict c.pipe written waiting
  stalls : c.state < .finished → Stalls setup strict c.pipe written waiting
  carries : ∃ part, Carries setup strict c.pipe written waiting part

/-- Messages are handed over and messages are completely written. Of the messages that are
handed over, those that are not dropped are `kept`. -/
structure Sends (setup : Setup) (strict : Prop) (c d : ConnectionI)
    (written waiting added kept moved left : List OutgoingMessage) : Prop where
  output : Output setup strict d (written ++ moved) left
  split : waiting ++ added = moved ++ left
  notices : d.notices = c.notices ++ moved.flatMap OutgoingMessage.sentNotices
  framed : ∀ message ∈ moved, Framed setup message
  part : kept = [] ∨ kept = added
  queue : callsOf c.sendStreams ++ callsOf kept = callsOf moved ++ callsOf d.sendStreams

variable {setup : Setup} {strict : Prop} {permits : Fault → Prop} {c d e : ConnectionI}
  {written waiting : List OutgoingMessage}

variable {added moved left rest later : List OutgoingMessage} {status : Except LocalException Bool}
  {front : OutgoingMessage} {async notifies compress : Bool}

theorem Sends.own_kept {kept : List OutgoingMessage}
    (sends : Sends setup strict c d written waiting added kept moved left)
    (own : callsOf added = []) : callsOf kept = [] := by
  obtain none_ | all := sends.part
  · rw [none_]
    rfl
  · rwa [all]

theorem Output.of_flows (flows : Flows setup strict c.pipe written waiting) :
    Output setup strict c written waiting :=
  ⟨fun _ => flows, fun _ => flows.stalls, flows.stalls.all_carried⟩

theorem Output.of_stalls (stalls : Stalls setup strict c.pipe written waiting)
    (closed : .closed ≤ c.state) : Output setup strict c written waiting where
  flows := fun open_ => absurd open_ (Nat.not_lt.mpr closed)
  stalls := fun _ => stalls
  carries := stalls.all_carried

theorem Output.kept (output : Output setup strict c written waiting) (onward : Onward c d)
    (same : d.pipe = c.pipe) : Output setup strict d written waiting where
  flows := fun open_ => same ▸ output.flows (onward.open_before open_)
  stalls := fun unfinished => same ▸ output.stalls (onward.unfinished_before unfinished)
  carries := same ▸ output.carries

theorem Output.congr (output : Output setup strict c written waiting) (state : d.state = c.state)
    (same : d.pipe = c.pipe) : Output setup strict d written waiting where
  flows := by
    rw [state, same]
    exact output.flows
  stalls := by
    rw [state, same]
    exact output.stalls
  carries := same ▸ output.carries

theorem Sends.nothing (output : Output setup strict d written waiting)
    (notices : d.notices = c.notices)
    (queue : callsOf d.sendStreams = callsOf c.sendStreams) :
    Sends setup strict c d written waiting [] [] [] waiting where
  output := by rwa [List.append_nil]
  split := by rw [List.append_nil, List.nil_append]
  notices := by rw [notices, List.flatMap_nil, List.append_nil]
  framed := by simp
  part := Or.inl rfl
  queue := by rw [queue]; exact List.append_nil _

theorem Flows.same_calls {pipe : Pipe} (flows : Flows setup strict pipe written waiting) :
    callsOf pipe.sendStreams = callsOf waiting := by
  cases flows with
  | idle queue _ nothing => rw [queue, nothing]
  | busy queue _ first _ _ _ stands _ _ _ waits =>
      rw [queue, first]
      exact Stands.same_calls (.cons stands (Waits.all_stand waits))

theorem output_initial : Output setup strict .initial [] [] :=
  .of_flows (.idle rfl rfl rfl rfl rfl)

def SendStatus.accepted : SendStatus → Bool
  | .sent _ => true
  | .queued => true
  | .failed _ _ => false

variable {message : OutgoingMessage} {outcome : WriteOutcome}

theorem Handed.sends {status : SendStatus}
    (handed : Handed setup strict written waiting message c status d)
    (before : Flows setup strict c.pipe written waiting) (pipe : e.pipe = d.pipe)
    (notices : e.notices = d.notices)
    (closed : (∃ ex os, status = .failed ex os) → .closed ≤ e.state) :
    ∃ moved left, Sends setup strict c e written waiting [message]
      (if status.accepted then [message] else []) moved left := by
  have waitingCalls : callsOf c.sendStreams = callsOf waiting := before.same_calls
  have sameQueue : e.sendStreams = d.sendStreams := congrArg Pipe.sendStreams pipe
  cases handed with
  | sent nothing flows framed told =>
      subst nothing
      have left : callsOf d.sendStreams = callsOf [] := flows.same_calls
      refine ⟨[message], [], .of_flows (pipe ▸ flows), rfl, ?_, ?_, Or.inr rfl, ?_⟩
      · rw [notices, told]
        simp
      · intro only inside
        rw [List.mem_singleton.mp inside]
        exact framed
      · rw [sameQueue, left, waitingCalls]
        exact (List.append_nil _).symm
  | queued flows told =>
      have left : callsOf d.sendStreams = callsOf (waiting ++ [message]) := flows.same_calls
      refine ⟨[], waiting ++ [message], ?_, rfl, ?_, by simp, Or.inr rfl, ?_⟩
      · rw [List.append_nil]
        exact .of_flows (pipe ▸ flows)
      · rw [notices, told]
        simp
      · rw [sameQueue, left, waitingCalls, calls_of_append]
        rfl
  | failed nothing stalls queue told =>
      subst nothing
      refine ⟨[], [message], ?_, rfl, ?_, by simp, Or.inl rfl, ?_⟩
      · rw [List.append_nil]
        exact .of_stalls (pipe ▸ stalls) (closed ⟨_, _, rfl⟩)
      · rw [notices, told]
        simp
      · rw [sameQueue, queue, waitingCalls]
        rfl

theorem pipe_of_quiet (same : d.quiet = c.quiet) : d.pipe = c.pipe :=
  pipe_of_still (still_of_quiet same)

theorem notices_of_still (same : d.still = c.still) : d.notices = c.notices := by
  have told := congrArg ConnectionI.notices same
  exact told

theorem notices_of_quiet (same : d.quiet = c.quiet) : d.notices = c.notices :=
  notices_of_still (still_of_quiet same)

theorem fail_pipe (ex : LocalException) : (fail setup ex c).pipe = c.pipe :=
  pipe_of_quiet (fail_quiet ex)

theorem fail_notices (ex : LocalException) : (fail setup ex c).notices = c.notices :=
  notices_of_quiet (fail_quiet ex)

theorem send_own_sends (output : Output setup strict c written waiting) (open_ : c.state < .closed)
    (unsent : message.isSent = false) :
    ∃ kept moved left, Sends setup strict c (sendOwn setup outcome message c) written waiting
      [message] kept moved left := by
  have flows := output.flows open_
  have handed := send_message_spec outcome message unsent flows
  unfold sendOwn
  generalize sendMessage setup outcome message c = result at handed ⊢
  rcases result with ⟨status, after⟩
  cases status with
  | failed ex os =>
      exact ⟨_, handed.sends flows (fail_pipe ex) (fail_notices ex) (fun _ => fail_closed ex)⟩
  | sent callback => exact ⟨_, handed.sends flows rfl rfl (by simp)⟩
  | queued => exact ⟨_, handed.sends flows rfl rfl (by simp)⟩

theorem send_for_call_sends (response : Bool) (output : Output setup strict c written waiting)
    (open_ : c.state < .closed) (unsent : message.isSent = false) :
    ∃ moved left, Sends setup strict c (sendForCall setup outcome message response c).2 written
      waiting [message]
      (if (sendForCall setup outcome message response c).1.accepted then [message] else [])
      moved left := by
  have flows := output.flows open_
  have handed := send_message_spec outcome message unsent flows
  unfold sendForCall
  generalize sendMessage setup outcome message c = result at handed ⊢
  rcases result with ⟨status, after⟩
  cases status with
  | failed ex os =>
      exact handed.sends flows (fail_pipe ex) (fail_notices ex) (fun _ => fail_closed ex)
  | sent callback => exact handed.sends flows rfl rfl (by simp)
  | queued => exact handed.sends flows rfl rfl (by simp)

theorem fill_leaves (supply : Supply) : ∃ stream consumed,
    (fill supply c).2.2 = { c with readStream := stream, consumed := consumed } := by
  unfold fill
  dsimp only
  split
  · exact ⟨_, _, rfl⟩
  · split <;> exact ⟨_, _, rfl⟩

theorem read_body_leaves (supply : Supply) : ∃ stream consumed,
    (readBody setup supply c).2 = { c with readStream := stream, consumed := consumed } := by
  unfold readBody
  split
  · exact ⟨c.readStream, c.consumed, rfl⟩
  · split
    · exact ⟨c.readStream, c.consumed, rfl⟩
    · exact fill_leaves supply

theorem read_header_leaves (supply : Supply) : ∃ stream consumed,
    (readHeader setup supply c).2.2 = { c with readStream := stream, consumed := consumed } := by
  unfold readHeader
  split
  · split
    · exact ⟨c.readStream, c.consumed, rfl⟩
    · exact ⟨_, c.consumed, rfl⟩
  · exact fill_leaves supply

theorem read_message_leaves (supply : Supply) : ∃ stream consumed,
    (readMessage setup supply c).2 = { c with readStream := stream, consumed := consumed } := by
  unfold readMessage
  split
  · exact ⟨c.readStream, c.consumed, rfl⟩
  · split
    · obtain ⟨stream, consumed, same⟩ :
          ∃ stream consumed, (readHeader setup supply c).2.2 =
            { c with readStream := stream, consumed := consumed } := read_header_leaves supply
      generalize readHeader setup supply c = result at same ⊢
      rcases result with ⟨status, left, after⟩
      dsimp only at same
      subst same
      cases status with
      | error ex => exact ⟨stream, consumed, rfl⟩
      | ok done =>
          cases done with
          | false => exact ⟨stream, consumed, rfl⟩
          | true =>
              dsimp only
              split
              · exact ⟨_, consumed, rfl⟩
              · next size _ =>
                  obtain ⟨last, all, body⟩ : ∃ last all, (readBody setup left { c with
                      readStream := { stream with header := false, size := max size stream.size }
                      consumed := consumed }).2 = { c with readStream := last, consumed := all } :=
                    read_body_leaves left
                  exact ⟨last, all, body⟩
    · exact read_body_leaves supply

theorem left_by_read {supply : Supply} (took : readMessage setup supply c = (status, d)) :
    ∃ stream consumed, d = { c with readStream := stream, consumed := consumed } := by
  obtain ⟨stream, consumed, same⟩ : ∃ stream consumed, (readMessage setup supply c).2 =
    { c with readStream := stream, consumed := consumed } := read_message_leaves supply
  rw [took] at same
  exact ⟨stream, consumed, same⟩

theorem read_part_leaves (ready : Ready) : ∃ stream consumed,
    (readPart setup ready c).2 = { c with readStream := stream, consumed := consumed } := by
  unfold readPart
  split
  · exact read_message_leaves _
  · exact ⟨c.readStream, c.consumed, rfl⟩

theorem Parses.pipe {refusal : Option LocalException} {opened : Except LocalException (List Byte)}
    {parsed : Parsed} (parses : Parses setup refusal c opened parsed d) : d.pipe = c.pipe := by
  cases parses with
  | failed => exact fail_pipe _
  | closes => exact fail_pipe _
  | ignored | request | batch | asyncReply | syncReply => rfl

theorem parse_part_pipe (ready : Ready) : (parsePart setup ready c).2.pipe = c.pipe := by
  unfold parsePart
  split
  · exact (parse_message_spec _).pipe
  · rfl

theorem write_completes (flows : Flows setup strict c.pipe written waiting)
    (busy : c.sendStreams ≠ []) (wrote : writeMessage outcome c = (.ok true, d)) :
    ∃ front rest message later, d.sendStreams = front :: rest ∧ waiting = message :: later ∧
      Complete setup d front rest written message later := by
  cases flows with
  | idle queue => exact absurd queue busy
  | @busy message later front rest frame position queue buffer first handed delivered prepared
      stands empty bounded unfinished waits =>
      change c.sendStreams = _ at queue
      change c.writeStream = _ at buffer
      change c.delivered = _ at delivered
      change c.handed = _ at handed
      have whole : d.sendStreams = c.sendStreams ∧ d.handed = c.handed ∧
          d.delivered = frames setup written ++ frame := by
        unfold writeMessage at wrote
        rw [buffer] at wrote
        split at wrote
        · next ended =>
            cases wrote
            refine ⟨rfl, rfl, ?_⟩
            rw [delivered]
            obtain nothing | atEnd := ended
            · change frame = [] at nothing
              rw [nothing, List.take_nil]
            · change some position = some frame.length at atEnd
              rw [Option.some.inj atEnd, List.take_length]
        · obtain ⟨status, reached, taken, outcome, within, extends_, complete⟩ :=
            write_buffer_at outcome bounded
          rw [outcome] at wrote
          cases wrote
          have reachedEnd := complete.mp rfl
          refine ⟨rfl, rfl, ?_⟩
          change c.delivered ++ taken = _
          rw [delivered, List.append_assoc, extends_, reachedEnd, List.take_length]
      obtain ⟨sameQueue, sameHanded, nowDelivered⟩ := whole
      refine ⟨front, rest, message, later, sameQueue.trans queue, first, ?_, ?_,
        ⟨frame, prepared⟩, stands, empty, waits⟩
      · rw [sameHanded, handed, first]
      · rw [nowDelivered, frames_append, frames_singleton, frame_of_ok prepared]

theorem send_next_message_sends (writes : List WriteOutcome) (queue : c.sendStreams = front :: rest)
    (complete : Complete setup c front rest written message later) :
    ∃ moved left, moved ≠ [] ∧ Sends setup strict c (sendNextMessage setup writes c).2 written
      (message :: later) [] [] moved left := by
  obtain ⟨moved, left, some_, shipped⟩ :
      ∃ moved left, moved ≠ [] ∧ Shipped setup strict c written (message :: later)
        (sendNextLoop setup rest front writes [] c) moved left :=
    send_next_loop_spec writes [] complete
  have sameState : (sendNextLoop setup rest front writes [] c).connection.state = c.state := by
    have same := congrArg ConnectionI.state
      (@send_next_loop_mute setup c rest front writes [])
    exact same
  refine ⟨moved, left, some_, ?_⟩
  unfold sendNextMessage
  rw [queue]
  dsimp only
  generalize sendNextLoop setup rest front writes [] c = result at shipped sameState ⊢
  rcases result with ⟨callbacks, failure, after⟩
  obtain ⟨split, flows, stalls, shipped, framed, notices⟩ := shipped
  dsimp only at flows stalls shipped notices sameState
  have shippedCalls : callsOf c.sendStreams ++ callsOf [] =
      callsOf moved ++ callsOf after.sendStreams := by
    have stand : List.Forall₂ Stands (front :: rest) (message :: later) :=
      .cons complete.stands (Waits.all_stand complete.waits)
    rw [queue, Stands.same_calls stand, Stands.same_calls shipped, split, calls_of_append]
    exact List.append_nil _
  cases failure with
  | some ex =>
      constructor
      · exact .of_stalls ((fail_pipe ex).symm ▸ stalls) (fail_closed ex)
      · rw [List.append_nil, split]
      · rw [fail_notices, notices]
      · exact framed
      · exact Or.inl rfl
      · rw [shippedCalls]
        exact congrArg (callsOf moved ++ callsOf ·) (congrArg Pipe.sendStreams (fail_pipe ex)).symm
  | none =>
      constructor
      · constructor
        · intro open_
          exact flows rfl (sameState ▸ open_)
        · exact fun _ => stalls
        · exact stalls.all_carried
      · rw [List.append_nil, split]
      · exact notices
      · exact framed
      · exact Or.inl rfl
      · exact shippedCalls

theorem count_callbacks_pipe (callbacks : List Call) (parsed : Parsed) :
    (countCallbacks callbacks parsed c).pipe = c.pipe := by
  unfold countCallbacks
  split <;> rfl

theorem count_callbacks_notices (callbacks : List Call) (parsed : Parsed) :
    (countCallbacks callbacks parsed c).notices = c.notices := by
  unfold countCallbacks
  split <;> rfl

theorem received_eq (setup : Setup) (ready : Ready) (c : ConnectionI) :
    ∃ buffer delivered stream consumed, received setup ready c = { c with
      writeStream := buffer
      delivered := delivered
      readStream := stream
      consumed := consumed } := by
  obtain ⟨buffer, delivered, advanced⟩ : ∃ buffer delivered, (writePart ready c).2 =
    advance buffer delivered c := write_part_advances ready
  obtain ⟨stream, consumed, read⟩ :
      ∃ stream consumed, (readPart setup ready (writePart ready c).2).2 =
        { (writePart ready c).2 with readStream := stream, consumed := consumed } :=
    read_part_leaves ready
  refine ⟨buffer, delivered, stream, consumed, ?_⟩
  rw [received, read, advanced]
  rfl

theorem send_part_bare (ready : Ready) : (sendPart setup ready c).2.bare = c.bare := by
  unfold sendPart
  split
  · unfold sendNextMessage
    split
    · rfl
    · next current rest _ =>
        have looped : (sendNextLoop setup rest current ready.writes.tail [] c).connection.bare =
            c.bare := bare_of_mute (send_next_loop_mute _ _ _ _)
        generalize sendNextLoop setup rest current ready.writes.tail [] c = result at looped ⊢
        rcases result with ⟨callbacks, failure, after⟩
        cases failure with
        | none => exact looped
        | some ex => exact (bare_of_quiet (fail_quiet ex)).trans looped
  · rfl

theorem processed_eq (ready : Ready) :
    processed setup ready c =
      queueUpcall false (sendPart setup ready (parsedState setup ready c)).1
        (parsePart setup ready (received setup ready c)).1 (received setup ready c).parsed.length
        (countCallbacks (sendPart setup ready (parsedState setup ready c)).1
          (parsePart setup ready (received setup ready c)).1
          (sendPart setup ready (parsedState setup ready c)).2) :=
  rfl

theorem parsed_pipe (ready : Ready) :
    (parsedState setup ready c).pipe = (writePart ready c).2.pipe := by
  obtain ⟨stream, consumed, same⟩ :
      ∃ stream consumed, (readPart setup ready (writePart ready c).2).2 =
        { (writePart ready c).2 with readStream := stream, consumed := consumed } :=
    read_part_leaves ready
  unfold parsedState received
  rw [parse_part_pipe, same]
  rfl

theorem Complete.congr (complete : Complete setup c front rest written message later)
    (same : d.pipe = c.pipe) :
    Complete setup d front rest written message later where
  handed := (congrArg Pipe.handed same).trans complete.handed
  delivered := (congrArg Pipe.delivered same).trans complete.delivered
  framed := complete.framed
  stands := complete.stands
  empty := complete.empty
  waits := complete.waits

theorem processed_sends {ready : Ready} (output : Output setup strict c written waiting)
    (open_ : c.state < .closed) (busy : ready.write = true → c.sendStreams ≠ [])
    (wrote : (writePart ready c).1 = .ok true) :
    ∃ moved left, (ready.write = true → moved ≠ []) ∧ (ready.write = false → moved = []) ∧
      Sends setup strict (parsedState setup ready c) (processed setup ready c) written waiting []
        [] moved left := by
  have pipe : (parsedState setup ready c).pipe = (writePart ready c).2.pipe := parsed_pipe ready
  have onward : Onward c (processed setup ready c) := processed_onward ready
  have result : processed setup ready c =
      queueUpcall false (sendPart setup ready (parsedState setup ready c)).1
        (parsePart setup ready (received setup ready c)).1 (received setup ready c).parsed.length
        (countCallbacks (sendPart setup ready (parsedState setup ready c)).1
          (parsePart setup ready (received setup ready c)).1
          (sendPart setup ready (parsedState setup ready c)).2) := processed_eq ready
  have samePipe : (processed setup ready c).pipe =
      (sendPart setup ready (parsedState setup ready c)).2.pipe := by
    rw [result]
    exact count_callbacks_pipe _ _
  have sameNotices : (processed setup ready c).notices =
      (sendPart setup ready (parsedState setup ready c)).2.notices := by
    rw [result]
    exact count_callbacks_notices _ _
  have sameState : (processed setup ready c).state =
      (sendPart setup ready (parsedState setup ready c)).2.state := by
    rw [result]
    exact congrArg Life.state (count_callbacks_life _ _)
  cases writes : ready.write with
  | false =>
      have unwritten : (writePart ready c).2 = c := by simp [writePart, writes]
      have unsent : sendPart setup ready (parsedState setup ready c) =
          ([], parsedState setup ready c) := by simp [sendPart, writes]
      rw [unwritten] at pipe
      rw [unsent] at samePipe sameNotices
      have sameQueue : callsOf (processed setup ready c).sendStreams =
          callsOf (parsedState setup ready c).sendStreams :=
        congrArg (fun pipe => callsOf pipe.sendStreams) samePipe
      refine ⟨[], waiting, by simp, by simp, .nothing ?_ sameNotices sameQueue⟩
      exact output.kept onward (samePipe.trans pipe)
  | true =>
      rw [writePart, if_pos writes] at wrote pipe
      have completed : writeMessage (ready.writes.headD noWrite) c =
          (.ok true, (writeMessage (ready.writes.headD noWrite) c).2) := by
        rw [← wrote]
      obtain ⟨front, rest, message, later, queue, first, complete⟩ :=
        write_completes (output.flows open_) (busy writes) completed
      have queueThen : (parsedState setup ready c).sendStreams = front :: rest :=
        (congrArg Pipe.sendStreams pipe).trans queue
      have sent : sendPart setup ready (parsedState setup ready c) =
          sendNextMessage setup ready.writes.tail (parsedState setup ready c) := by
        simp [sendPart, writes]
      obtain ⟨moved, left, some_, sends⟩ :
          ∃ moved left, moved ≠ [] ∧ Sends setup strict (parsedState setup ready c)
            (sendNextMessage setup ready.writes.tail (parsedState setup ready c)).2 written
            (message :: later) [] [] moved left :=
        send_next_message_sends ready.writes.tail queueThen (complete.congr pipe)
      rw [← sent, ← first] at sends
      refine ⟨moved, left, fun _ => some_, by simp, ?_, sends.split, ?_, sends.framed, sends.part,
        ?_⟩
      · exact sends.output.congr sameState samePipe
      · rw [sameNotices, sends.notices]
      · rw [sends.queue]
        exact congrArg (fun pipe => callsOf moved ++ callsOf pipe.sendStreams) samePipe.symm

/-- A write that does not come to the end of the frame, or that does and is left at that. -/
theorem write_message_output (output : Output setup strict c written waiting)
    (open_ : c.state < .closed) (busy : c.sendStreams ≠ [])
    (wrote : writeMessage outcome c = (status, d)) (incomplete : strict → status ≠ .ok true) :
    Output setup strict d written waiting := by
  have flows := output.flows open_
  cases flows with
  | idle queue => exact absurd queue busy
  | @busy message later front rest frame position queue buffer first handed delivered prepared
      stands empty bounded unfinished waits =>
      unfold writeMessage at wrote
      split at wrote
      · cases wrote
        exact output
      · change c.writeStream = _ at buffer
        rw [buffer] at wrote
        obtain ⟨result, reached, taken, isResult, within, extends_, whole⟩ :=
          write_buffer_at outcome bounded
        rw [isResult] at wrote
        cases wrote
        have nowDelivered : c.delivered ++ taken = frames setup written ++ frame.take reached := by
          change c.delivered = _ at delivered
          rw [delivered, List.append_assoc, extends_]
        have nowShort : strict → reached < frame.length := by
          intro isStrict
          have other : reached ≠ frame.length := fun same => incomplete isStrict (whole.mpr same)
          omega
        exact .of_flows (.busy queue rfl first handed nowDelivered prepared stands empty within
          nowShort waits)

theorem enroll_pipe (response : Bool) (requestId : Int) (call : Call) :
    (enroll response requestId call c).pipe = c.pipe := by
  unfold enroll register
  split
  · split <;> rfl
  · rfl

theorem enroll_notices (response : Bool) (requestId : Int) (call : Call) :
    (enroll response requestId call c).notices = c.notices := by
  unfold enroll register
  split
  · split <;> rfl
  · rfl

theorem issue_pipe (response : Bool) : (issue response c).pipe = c.pipe := by
  unfold issue
  split <;> rfl

theorem issue_notices (response : Bool) : (issue response c).notices = c.notices := by
  unfold issue
  split <;> rfl

theorem request_unsent {response : Bool} {os : RequestStream} :
    (requestMessage async notifies compress response os c).isSent = false := by
  unfold requestMessage
  split <;> rfl

theorem Sends.congr {a b : ConnectionI} {kept : List OutgoingMessage}
    (sends : Sends setup strict c d written waiting added kept moved left)
    (before : a.notices = c.notices) (queue : a.sendStreams = c.sendStreams) (onward : Onward d b)
    (pipe : b.pipe = d.pipe) (notices : b.notices = d.notices) :
    Sends setup strict a b written waiting added kept moved left where
  output := sends.output.kept onward pipe
  split := sends.split
  notices := by rw [notices, before, sends.notices]
  framed := sends.framed
  part := sends.part
  queue := by
    have after : b.sendStreams = d.sendStreams := congrArg Pipe.sendStreams pipe
    rw [queue, after]
    exact sends.queue

section

variable (output : Output setup strict c written waiting)

include output

theorem send_call_sends {response : Bool} {os : RequestStream} (open_ : c.state < .closed)
    (free : c.exception = none) (fits : checkSendSize setup os.bytes.length = .ok ()) :
    ∃ moved left, Sends setup strict c
      (sendCall setup async notifies compress response os outcome c).2 written waiting
      [requestMessage async notifies compress response os c]
      (if (sendCall setup async notifies compress response os outcome c).1.accepted then
        [requestMessage async notifies compress response os c] else []) moved left := by
  have issued : Output setup strict (issue response c) written waiting :=
    output.kept (issue_onward response) (issue_pipe response)
  have stillOpen : (issue response c).state < .closed := by
    unfold issue
    split <;> exact open_
  obtain ⟨moved, left, sends⟩ : ∃ moved left, Sends setup strict (issue response c)
      (sendForCall setup outcome (requestMessage async notifies compress response os c) response
        (issue response c)).2 written waiting
      [requestMessage async notifies compress response os c]
      (if (sendForCall setup outcome (requestMessage async notifies compress response os c) response
        (issue response c)).1.accepted then
          [requestMessage async notifies compress response os c] else []) moved left :=
    send_for_call_sends response issued stillOpen request_unsent
  have queued : c.sendStreams = (issue response c).sendStreams :=
    congrArg Pipe.sendStreams (issue_pipe response).symm
  have before : c.notices = (issue response c).notices := (issue_notices response).symm
  refine ⟨moved, left, ?_⟩
  rw [send_call_eq free fits]
  generalize sendForCall setup outcome (requestMessage async notifies compress response os c)
    response (issue response c) = result at sends ⊢
  rcases result with ⟨status, after⟩
  cases status with
  | thrown ex os => exact sends.congr before queued (.of_same rfl rfl) rfl rfl
  | sent callback =>
      exact sends.congr before queued (enroll_onward _ _ _) (enroll_pipe _ _ _)
        (enroll_notices _ _ _)
  | queued =>
      exact sends.congr before queued (enroll_onward _ _ _) (enroll_pipe _ _ _)
        (enroll_notices _ _ _)
  | refused ex =>
      exact sends.congr before queued (enroll_onward _ _ _) (enroll_pipe _ _ _)
        (enroll_notices _ _ _)

theorem auto_flush_sends (open_ : c.state < .closed) :
    ∃ kept moved left, Sends setup strict c (autoFlush setup outcome c).2 written waiting
      [batchMessage none (frontBatch c)] kept moved left := by
  have before : Output setup strict { c with batch := frontBatch c } written waiting :=
    output.kept (.of_same rfl rfl) rfl
  have flows := before.flows open_
  have handed := send_message_spec outcome (batchMessage none (frontBatch c)) rfl flows
  have restarted (status : SendStatus) (after : ConnectionI)
      (handed : Handed setup strict written waiting (batchMessage none (frontBatch c))
        { c with batch := frontBatch c } status after)
      (unfailed : ∀ ex os, status ≠ .failed ex os) (lastRequest : List Byte) :
      ∃ kept moved left, Sends setup strict c (restartBatch setup lastRequest after).2 written
        waiting [batchMessage none (frontBatch c)] kept moved left := by
    obtain ⟨batch, same⟩ : ∃ batch, (restartBatch setup lastRequest after).2 =
      { after with batch := batch } := restart_batch_same lastRequest
    rw [same]
    obtain ⟨moved, left, sends⟩ := handed.sends (e := { after with batch := batch }) flows rfl rfl
      (fun ⟨ex, os, failed⟩ => absurd failed (unfailed ex os))
    exact ⟨_, moved, left, sends.congr rfl rfl (.of_same rfl rfl) rfl rfl⟩
  rw [auto_flush_eq]
  generalize sendMessage setup outcome (batchMessage none (frontBatch c))
    { c with batch := frontBatch c } = result at handed ⊢
  rcases result with ⟨status, after⟩
  cases status with
  | failed ex os =>
      have failedPipe : (fail setup ex after).pipe = after.pipe := fail_pipe ex
      obtain ⟨moved, left, sends⟩ := handed.sends flows failedPipe (fail_notices ex)
        (fun _ => fail_closed ex)
      exact ⟨_, moved, left, sends.congr rfl rfl (.of_same rfl rfl) rfl rfl⟩
  | sent callback => exact restarted _ after handed (by simp) _
  | queued => exact restarted _ after handed (by simp) _

theorem finish_batch_sends {request : List Byte} (free : c.exception = none ↔ c.state < .closing) :
    ∃ added kept moved left, (added = [] ∨
        added = [batchMessage none (frontBatch (returnBatch request c))]) ∧
      Sends setup strict c (finishBatchRequest setup request compress outcome c).2 written waiting
        added kept moved left := by
  have returned : Output setup strict (returnBatch request c) written waiting :=
    output.kept (.of_same rfl rfl) rfl
  have unsent (d : ConnectionI) (same : Onward c d) (pipe : d.pipe = c.pipe)
      (notices : d.notices = c.notices) :
      ∃ added kept moved left, (added = [] ∨
          added = [batchMessage none (frontBatch (returnBatch request c))]) ∧
        Sends setup strict c d written waiting added kept moved left :=
    ⟨[], [], [], waiting, Or.inl rfl, .nothing (output.kept same pipe) notices
      (congrArg (fun pipe => callsOf pipe.sendStreams) pipe)⟩
  rw [finish_batch_eq]
  dsimp only
  split
  · exact unsent _ (.of_same rfl rfl) rfl rfl
  · next isFree =>
      have open_ : (returnBatch request c).state < .closed :=
        Nat.lt_of_lt_of_le (free.mp isFree) (by decide)
      split
      · exact unsent _ (.of_same rfl rfl) rfl rfl
      · split
        · obtain ⟨kept, moved, left, sends⟩ : ∃ kept moved left, Sends setup strict
              (returnBatch request c) (autoFlush setup outcome (returnBatch request c)).2 written
              waiting [batchMessage none (frontBatch (returnBatch request c))] kept moved left :=
            auto_flush_sends returned open_
          refine ⟨_, kept, moved, left, Or.inr rfl, ?_⟩
          generalize autoFlush setup outcome (returnBatch request c) = result at sends ⊢
          rcases result with ⟨status, after⟩
          cases status with
          | error ex => exact sends.congr rfl rfl (.of_same rfl rfl) rfl rfl
          | ok done => exact sends.congr rfl rfl (.of_same rfl rfl) rfl rfl
        · exact unsent _ (.of_same rfl rfl) rfl rfl

theorem flush_sends {result : CallResult} (open_ : c.state < .closed) (free : c.exception = none)
    (some_ : c.batch.requestNum ≠ 0)
    (flushed : flushBatch setup async notifies outcome c = some (result, d)) :
    ∃ moved left, Sends setup strict c d written waiting
      [batchMessage (some ⟨c.calls.length, async, notifies⟩) c.batch]
      (if result.accepted then [batchMessage (some ⟨c.calls.length, async, notifies⟩) c.batch]
        else []) moved left := by
  obtain ⟨_, ⟨nothing, _⟩ | ⟨_, sent, isSent, rest⟩⟩ := flush_batch_cases free flushed
  · exact absurd nothing some_
  · have swapped : Output setup strict (swapBatch c) written waiting :=
      output.kept (.of_same rfl rfl) rfl
    obtain ⟨moved, left, sends⟩ : ∃ moved left, Sends setup strict (swapBatch c)
        (sendForCall setup outcome (batchMessage (some ⟨c.calls.length, async, notifies⟩) c.batch)
          false (swapBatch c)).2 written waiting
        [batchMessage (some ⟨c.calls.length, async, notifies⟩) c.batch] _ moved left :=
      send_for_call_sends false swapped open_ rfl
    rw [isSent] at sends
    obtain ⟨rfl, _⟩ | ⟨rfl, _⟩ := rest
    · exact ⟨moved, left, sends.congr rfl rfl (.of_same rfl rfl) rfl rfl⟩
    · exact ⟨moved, left, sends.congr rfl rfl (.of_same rfl rfl) rfl rfl⟩

theorem shutdown_sends {site : Assertion} (closing : c.state = .closing) :
    ∃ added kept moved left, (added = [] ∧ setup.datagram = true ∨
        added = [closeMessage] ∧ setup.datagram = false) ∧
      Sends setup strict c (shutdown setup site outcome c) written waiting added kept moved
        left := by
  rw [shutdown_eq]
  dsimp only
  generalize isNoted : ({ c with
    assertions :=
      if c.state = .closing ∧ c.dispatchCount = 0 ∧ c.shutdownInitiated = false then c.assertions
      else c.assertions ++ [site]
    shutdownInitiated := true
    shutdowns := c.shutdowns ++ [(c.state, c.dispatchCount)] } : ConnectionI) = noted
  have onward : Onward c noted := by
    rw [← isNoted]
    exact .of_same rfl rfl
  have pipe : noted.pipe = c.pipe := by
    rw [← isNoted]
    rfl
  have notices : noted.notices = c.notices := by
    rw [← isNoted]
  have open_ : noted.state < .closed := by
    rw [← isNoted]
    change c.state < .closed
    rw [closing]
    decide
  have begun : Output setup strict noted written waiting := output.kept onward pipe
  split
  · next datagram =>
      exact ⟨[], [], [], waiting, Or.inl ⟨rfl, datagram⟩, .nothing begun notices
        (congrArg (fun pipe => callsOf pipe.sendStreams) pipe)⟩
  · next stream =>
      obtain ⟨kept, moved, left, sends⟩ : ∃ kept moved left, Sends setup strict noted
          (sendOwn setup outcome closeMessage noted) written waiting [closeMessage] kept moved
          left := send_own_sends begun open_ rfl
      refine ⟨[closeMessage], kept, moved, left, Or.inr ⟨rfl, Bool.eq_false_iff.mpr stream⟩, ?_⟩
      exact sends.congr notices.symm (congrArg Pipe.sendStreams pipe).symm (.of_same rfl rfl) rfl
        rfl

end

/-- Without the fields that `finish` writes before the connection is finished. -/
def ConnectionI.told (c : ConnectionI) : ConnectionI :=
  { c with
    startCallback := false
    sendStreams := []
    writeStream := .empty
    requests := ⟨[], none⟩
    asyncRequests := ⟨[], none⟩
    notices := [] }

theorem finish_queued_told (ex : LocalException) (message : OutgoingMessage) :
    (finishQueued ex message c).told = c.told := by
  unfold finishQueued
  split
  · rfl
  · dsimp only
    split
    · rfl
    · split <;> rfl

theorem finish_all_told (ex : LocalException) (messages : List OutgoingMessage) :
    (messages.foldl (fun c message => finishQueued ex message c) c).told = c.told := by
  induction messages generalizing c with
  | nil => rfl
  | cons message rest ih =>
      rw [List.foldl_cons, ih, finish_queued_told]

theorem finish_calls_told : (finishCalls c).told = c.told := by
  have returned : (returnFront { c with startCallback := false }).told = c.told := by
    unfold returnFront
    split
    · rfl
    · split <;> rfl
  unfold finishCalls
  dsimp only
  generalize returnFront { c with startCallback := false } = r at returned ⊢
  have all := finish_all_told (c := r) (c.exception.getD (.other 0)) r.sendStreams
  rw [← returned, ← all]
  rfl

theorem reap_pipe : (reapWhenIdle c).pipe = c.pipe := by
  unfold reapWhenIdle
  split <;> rfl

theorem reap_told : (reapWhenIdle c).told = reapWhenIdle c.told := by
  unfold reapWhenIdle
  change _ = if c.dispatchCount = 0 ∧ c.state = .finished then _ else _
  split <;> rfl

theorem finish_told (closed : c.state = .closed) :
    (finish setup c).told = (reapWhenIdle (enter setup .finished c)).told := by
  have told : (finishCalls c).told = c.told := finish_calls_told
  have stillClosed : (finishCalls c).state = .closed := by
    have same := congrArg ConnectionI.state told
    exact same.trans closed
  have entered : setState setup noWrite .finished (finishCalls c) =
      enter setup .finished (finishCalls c) := by
    rw [set_state_shift noWrite (by decide), shift, stillClosed]
    rfl
  have enteredTold : (enter setup .finished (finishCalls c)).told =
      (enter setup .finished c).told := by
    have same := congrArg (fun e : ConnectionI => (enter setup .finished e).told) told
    exact same
  unfold finish
  rw [entered, reap_told, enteredTold, ← reap_told]

theorem Carries.congr {pipe other : Pipe} {part : List Byte}
    (carries : Carries setup strict pipe written waiting part) (handed : other.handed = pipe.handed)
    (delivered : other.delivered = pipe.delivered) :
    Carries setup strict other written waiting part where
  handed := handed.trans carries.handed
  delivered := delivered.trans carries.delivered
  inside := carries.inside

theorem finish_handed (closed : c.state = .closed) : (finish setup c).handed = c.handed := by
  have told : (finish setup c).told = (reapWhenIdle (enter setup .finished c)).told :=
    finish_told closed
  have pipe : (reapWhenIdle (enter setup .finished c)).pipe = c.pipe := reap_pipe
  exact (congrArg ConnectionI.handed told).trans (congrArg Pipe.handed pipe)

theorem finish_delivered (closed : c.state = .closed) :
    (finish setup c).delivered = c.delivered := by
  have told : (finish setup c).told = (reapWhenIdle (enter setup .finished c)).told :=
    finish_told closed
  have pipe : (reapWhenIdle (enter setup .finished c)).pipe = c.pipe := reap_pipe
  exact (congrArg ConnectionI.delivered told).trans (congrArg Pipe.delivered pipe)

theorem finish_output (output : Output setup strict c written waiting)
    (closed : c.state = .closed) : Output setup strict (finish setup c) written waiting := by
  have finished : (finish setup c).state = .finished := finish_state closed
  obtain ⟨part, carries⟩ := output.carries
  constructor
  · intro open_
    rw [finished] at open_
    exact absurd open_ (by decide)
  · intro unfinished
    rw [finished] at unfinished
    exact absurd unfinished (by decide)
  · exact ⟨part, carries.congr (finish_handed closed) (finish_delivered closed)⟩

theorem prepare_batch_eq (free : c.exception = none)
    (prepared : prepareBatchRequest c = some (.ok (), d)) :
    c.batch.inUse = false ∧ d = { c with batch := { c.batch with
      inUse := true
      marker := (if c.batch.stream = [] then requestBatchHdr else c.batch.stream).length
      lent := if c.batch.stream = [] then requestBatchHdr else c.batch.stream
      stream := [] } } := by
  unfold prepareBatchRequest at prepared
  split at prepared
  · cases prepared
  · next unused =>
      have notInUse : c.batch.inUse = false := by
        cases inUse : c.batch.inUse with
        | false => rfl
        | true => exact absurd ⟨inUse, free⟩ unused
      split at prepared
      · cases prepared
      · cases prepared
        exact ⟨notInUse, rfl⟩

end IceTouch.Connection
