import IceTouch.Connection.Frames
import IceTouch.Connection.Groups

/-!
# First in, first out

The messages handed to `sendMessage` split into those whose frames are completely written and
those that wait. `Flows` says where the waiting ones are and which bytes have been delivered;
each sending function moves messages from one list to the other.
-/

namespace IceTouch.Connection

open Bytes

def frameOf (setup : Setup) (message : OutgoingMessage) : List Byte :=
  match (prepare setup.bz2 message.compress message.stream.b).frame with
  | .ok frame => frame
  | .error _ => []

def frames (setup : Setup) (messages : List OutgoingMessage) : List Byte :=
  (messages.map (frameOf setup)).flatten

structure Stands (entry message : OutgoingMessage) : Prop where
  call : entry.call = message.call
  requestId : entry.requestId = message.requestId
  isSent : entry.isSent = false

structure Waits (entry message : OutgoingMessage) : Prop where
  stands : Stands entry message
  stream : entry.stream = ⟨message.stream.b, none⟩
  compress : entry.compress = message.compress

/-- The pipe of a connection that is not closed, with the messages that are completely written
and those that wait. `strict` asks for a front frame that is not complete. -/
inductive Flows (setup : Setup) (strict : Prop) (pipe : Pipe)
    (written waiting : List OutgoingMessage) : Prop
  | idle (queue : pipe.sendStreams = []) (buffer : pipe.writeStream.b = [])
      (nothing : waiting = []) (handed : pipe.handed = written)
      (delivered : pipe.delivered = frames setup written)
  | busy {message : OutgoingMessage} {later : List OutgoingMessage} {front : OutgoingMessage}
      {rest : List OutgoingMessage} {frame : List Byte} {position : Nat}
      (queue : pipe.sendStreams = front :: rest)
      (buffer : pipe.writeStream = ⟨frame, some position⟩)
      (first : waiting = message :: later)
      (handed : pipe.handed = written ++ waiting)
      (delivered : pipe.delivered = frames setup written ++ frame.take position)
      (prepared : (prepare setup.bz2 message.compress message.stream.b).frame = .ok frame)
      (stands : Stands front message) (empty : front.stream.b = [])
      (bounded : position ≤ frame.length) (unfinished : strict → position < frame.length)
      (waits : List.Forall₂ Waits rest later)

/-- How far the messages have come: those before the unfinished one are completely written, and
of the unfinished one a part. -/
structure Carries (setup : Setup) (strict : Prop) (pipe : Pipe)
    (written waiting : List OutgoingMessage) (part : List Byte) : Prop where
  handed : pipe.handed = written ++ waiting
  delivered : pipe.delivered = frames setup written ++ part
  inside : part = [] ∨ ∃ message later frame, waiting = message :: later ∧
    (prepare setup.bz2 message.compress message.stream.b).frame = .ok frame ∧
    part <+: frame ∧ (strict → part.length < frame.length)

/-- The pipe of a connection that may be closed: the message that failed has been dropped, or
the front message has not been prepared. A frame that is complete is in the write stream. -/
structure Stalls (setup : Setup) (strict : Prop) (pipe : Pipe)
    (written waiting : List OutgoingMessage) : Prop where
  carries : ∃ part, Carries setup (strict ∨ ¬ pipe.writeStream.Written) pipe written waiting part
  queue : List.Forall₂ Stands pipe.sendStreams waiting ∨
    pipe.sendStreams = [] ∧ ∃ message, waiting = [message]

variable {setup : Setup} {strict : Prop} {c d : ConnectionI}
  {written waiting : List OutgoingMessage}

theorem frames_append (first second : List OutgoingMessage) :
    frames setup (first ++ second) = frames setup first ++ frames setup second := by
  simp [frames]

theorem frames_singleton (message : OutgoingMessage) :
    frames setup [message] = frameOf setup message := by
  simp [frames]

variable {frame part : List Byte} {entries messages : List OutgoingMessage}

theorem frame_of_ok {message : OutgoingMessage}
    (prepared : (prepare setup.bz2 message.compress message.stream.b).frame = .ok frame) :
    frameOf setup message = frame := by
  simp [frameOf, prepared]

def Framed (setup : Setup) (message : OutgoingMessage) : Prop :=
  ∃ frame, (prepare setup.bz2 message.compress message.stream.b).frame = .ok frame

def callsOf (messages : List OutgoingMessage) : List (Call × Int) :=
  messages.filterMap fun message => message.call.map fun call => (call, message.requestId)

theorem calls_of_append (first second : List OutgoingMessage) :
    callsOf (first ++ second) = callsOf first ++ callsOf second :=
  List.filterMap_append

theorem Stands.same_calls (stand : List.Forall₂ Stands entries messages) :
    callsOf entries = callsOf messages := by
  induction stand with
  | nil => rfl
  | cons stands _ ih =>
      unfold callsOf at ih ⊢
      rw [List.filterMap_cons, List.filterMap_cons, stands.call, stands.requestId, ih]

theorem Waits.all_stand (waits : List.Forall₂ Waits entries messages) :
    List.Forall₂ Stands entries messages := by
  apply List.Forall₂.imp _ waits
  intro _ _ waits
  exact waits.stands

variable {pipe : Pipe}

theorem Flows.handed_eq (flows : Flows setup strict pipe written waiting) :
    pipe.handed = written ++ waiting := by
  cases flows with
  | idle _ _ nothing handed => rw [handed, nothing, List.append_nil]
  | busy _ _ _ handed => exact handed

theorem Flows.stalls (flows : Flows setup strict pipe written waiting) :
    Stalls setup strict pipe written waiting := by
  have handed := flows.handed_eq
  cases flows with
  | idle queue _ nothing _ delivered =>
      constructor
      · exact ⟨[], handed, by rw [delivered, List.append_nil], Or.inl rfl⟩
      · left
        rw [queue, nothing]
        exact .nil
  | @busy message later front rest frame position queue buffer first _ delivered prepared stands
      _ bounded unfinished waits =>
      have short : strict ∨ ¬ pipe.writeStream.Written →
          (frame.take position).length < frame.length := by
        intro either
        rw [List.length_take]
        obtain isStrict | incomplete := either
        · have := unfinished isStrict
          omega
        · have other : position ≠ frame.length := by
            intro whole
            apply incomplete
            rw [buffer, whole]
            exact ⟨prepared_nonempty prepared, rfl⟩
          omega
      constructor
      · exact ⟨frame.take position, handed, delivered,
          Or.inr ⟨message, later, frame, first, prepared, List.take_prefix _ _, short⟩⟩
      · left
        rw [queue, first]
        exact .cons stands (Waits.all_stand waits)

theorem Carries.weaken {looser : Prop} (carries : Carries setup strict pipe written waiting part)
    (implies : looser → strict) :
    Carries setup looser pipe written waiting part where
  handed := carries.handed
  delivered := carries.delivered
  inside := by
    obtain nothing | ⟨message, later, frame, first, prepared, begins, short⟩ := carries.inside
    · exact Or.inl nothing
    · exact Or.inr ⟨message, later, frame, first, prepared, begins, short ∘ implies⟩

theorem Stalls.all_carried (stalls : Stalls setup strict pipe written waiting) :
    ∃ part, Carries setup strict pipe written waiting part := by
  obtain ⟨part, carries⟩ := stalls.carries
  exact ⟨part, carries.weaken Or.inl⟩

/-- At every moment the delivered bytes are a prefix of the frames in the order in which the
messages were handed over. -/
theorem Carries.delivered_prefix (carries : Carries setup strict pipe written waiting part) :
    pipe.delivered <+: frames setup pipe.handed := by
  rw [carries.handed, carries.delivered, frames_append]
  apply (List.prefix_append_right_inj _).mpr
  obtain nothing | ⟨message, later, frame, first, prepared, begins, _⟩ := carries.inside
  · rw [nothing]
    exact List.nil_prefix
  · rw [first, ← List.singleton_append, frames_append, frames_singleton, frame_of_ok prepared]
    exact begins.trans (List.prefix_append _ _)

theorem write_buffer_at (outcome : WriteOutcome) {position : Nat}
    (bounded : position ≤ frame.length) :
    ∃ status reached taken, writeBuffer outcome ⟨frame, some position⟩ =
        (status, ⟨frame, some reached⟩, taken) ∧
      reached ≤ frame.length ∧ frame.take position ++ taken = frame.take reached ∧
      (status = .ok true ↔ reached = frame.length) := by
  refine ⟨_, _, _, rfl, ?_, ?_, ?_⟩
  · simp only [Option.getD_some, List.length_take, List.length_drop]
    omega
  · simp only [Option.getD_some]
    rw [List.take_add]
    congr 1
    rw [List.take_eq_take_iff]
    simp only [List.length_take, List.length_drop]
    omega
  · simp only [Option.getD_some]
    constructor
    · intro done
      by_contra other
      rw [if_neg other] at done
      cases failure : outcome.failure <;> simp [failure] at done
    · intro whole
      rw [if_pos whole]

def OutgoingMessage.queued (message : OutgoingMessage) : OutgoingMessage :=
  { message with stream := ⟨message.stream.b, none⟩, adopted := message.call.isNone }

theorem send_message_busy (outcome : WriteOutcome) (message : OutgoingMessage)
    (busy : c.sendStreams ≠ []) :
    sendMessage setup outcome message c =
      (.queued, { c with
        handed := c.handed ++ [message]
        sendStreams := c.sendStreams ++ [message.queued] }) := by
  simp only [sendMessage, ne_eq, busy, not_false_eq_true, if_true]
  rfl

def OutgoingMessage.sentNotices (message : OutgoingMessage) : List Notice :=
  match message.call with
  | none => []
  | some call => [.sent call.serial]

theorem notify_sent_eq (message : OutgoingMessage) :
    notifySent message c = { c with notices := c.notices ++ message.sentNotices } := by
  unfold notifySent OutgoingMessage.sentNotices
  cases message.call with
  | none => simp
  | some call => rfl

/-- A message that is handed over while the pipe flows: it is written at once, waits in the
queue, or is dropped with an exception. -/
inductive Handed (setup : Setup) (strict : Prop) (written waiting : List OutgoingMessage)
    (message : OutgoingMessage) (c : ConnectionI) : SendStatus → ConnectionI → Prop
  | sent {callback : Bool} {d : ConnectionI} (nothing : waiting = [])
      (flows : Flows setup strict d.pipe (written ++ [message]) [])
      (framed : Framed setup message)
      (notices : d.notices = c.notices ++ message.sentNotices) :
      Handed setup strict written waiting message c (.sent callback) d
  | queued {d : ConnectionI} (flows : Flows setup strict d.pipe written (waiting ++ [message]))
      (notices : d.notices = c.notices) :
      Handed setup strict written waiting message c .queued d
  | failed {ex : LocalException} {os : List Byte} {d : ConnectionI} (nothing : waiting = [])
      (stalls : Stalls setup strict d.pipe written [message]) (queue : d.sendStreams = [])
      (notices : d.notices = c.notices) :
      Handed setup strict written waiting message c (.failed ex os) d

theorem send_message_queues (outcome : WriteOutcome) (message : OutgoingMessage)
    (unsent : message.isSent = false) {first front : OutgoingMessage}
    {later rest : List OutgoingMessage} {position : Nat} (queue : c.sendStreams = front :: rest)
    (buffer : c.writeStream = ⟨frame, some position⟩)
    (handed : c.handed = written ++ first :: later)
    (delivered : c.delivered = frames setup written ++ frame.take position)
    (prepared : (prepare setup.bz2 first.compress first.stream.b).frame = .ok frame)
    (stands : Stands front first) (empty : front.stream.b = []) (bounded : position ≤ frame.length)
    (unfinished : strict → position < frame.length) (waits : List.Forall₂ Waits rest later) :
    Handed setup strict written (first :: later) message c
      (sendMessage setup outcome message c).1 (sendMessage setup outcome message c).2 := by
  have busy : c.sendStreams ≠ [] := by
    rw [queue]
    exact List.cons_ne_nil _ _
  have added : Waits message.queued message := ⟨⟨rfl, rfl, unsent⟩, rfl, rfl⟩
  have longer : List.Forall₂ Waits (rest ++ [message.queued]) (later ++ [message]) :=
    List.rel_append waits (.cons added .nil)
  have queued : c.sendStreams ++ [message.queued] = front :: (rest ++ [message.queued]) := by
    rw [queue, List.cons_append]
  have nowHanded : c.handed ++ [message] = written ++ (first :: later ++ [message]) := by
    rw [handed, List.append_assoc]
  rw [send_message_busy outcome message busy]
  apply Handed.queued
  · exact .busy queued buffer rfl nowHanded delivered prepared stands empty bounded unfinished
      longer
  · rfl

theorem send_message_fails {ex : LocalException} {os : List Byte} {message : OutgoingMessage}
    (queue : d.sendStreams = []) (handed : d.handed = written ++ [message])
    (delivered : d.delivered = frames setup written ++ part)
    (inside : part = [] ∨ ∃ frame,
      (prepare setup.bz2 message.compress message.stream.b).frame = .ok frame ∧
      part <+: frame ∧ part.length < frame.length) (notices : d.notices = c.notices) :
    Handed setup strict written [] message c (.failed ex os) d := by
  have stalls : Stalls setup strict d.pipe written [message] := by
    constructor
    · refine ⟨part, handed, delivered, ?_⟩
      obtain nothing | ⟨frame, prepared, begins, short⟩ := inside
      · exact Or.inl nothing
      · exact Or.inr ⟨message, [], frame, rfl, prepared, begins, fun _ => short⟩
    · exact Or.inr ⟨queue, message, rfl⟩
  exact .failed rfl stalls queue notices

theorem send_message_spec (outcome : WriteOutcome) (message : OutgoingMessage)
    (unsent : message.isSent = false) (flows : Flows setup strict c.pipe written waiting) :
    Handed setup strict written waiting message c
      (sendMessage setup outcome message c).1 (sendMessage setup outcome message c).2 := by
  cases flows with
  | busy queue buffer first handed delivered prepared stands empty bounded unfinished waits =>
      subst first
      exact send_message_queues outcome message unsent queue buffer handed delivered prepared
        stands empty bounded unfinished waits
  | idle queue buffer nothing handed delivered =>
      subst nothing
      change c.sendStreams = [] at queue
      change c.handed = written at handed
      change c.delivered = _ at delivered
      change c.writeStream.b = [] at buffer
      have nowHanded : c.handed ++ [message] = written ++ [message] := by rw [handed]
      unfold sendMessage
      simp only [queue, ne_eq, not_true_eq_false, if_false]
      cases prepared : (prepare setup.bz2 message.compress message.stream.b).frame with
      | error ex =>
          dsimp only
          apply send_message_fails rfl nowHanded
          · change c.delivered = frames setup written ++ []
            rw [delivered, List.append_nil]
          · exact Or.inl rfl
          · rfl
      | ok frame =>
          obtain ⟨status, reached, taken, wrote, within, extends_, whole⟩ :=
            write_buffer_at outcome (Nat.zero_le frame.length)
          rw [List.take_zero, List.nil_append] at extends_
          have nowDelivered : c.delivered ++ taken =
              frames setup written ++ frame.take reached := by
            rw [delivered, extends_]
          dsimp only
          rw [wrote]
          cases status with
          | error ex =>
              have short : reached < frame.length := by
                have other : reached ≠ frame.length := fun same => by cases whole.mpr same
                omega
              have shorter : (frame.take reached).length < frame.length := by
                rw [List.length_take]
                omega
              dsimp only
              apply send_message_fails rfl nowHanded nowDelivered
              · exact Or.inr ⟨frame, prepared, List.take_prefix _ _, shorter⟩
              · rfl
          | ok done =>
              cases done with
              | true =>
                  have reachedEnd := whole.mp rfl
                  have complete : c.delivered ++ taken = frames setup (written ++ [message]) := by
                    rw [nowDelivered, reachedEnd, List.take_length, frames_append,
                      frames_singleton, frame_of_ok prepared]
                  dsimp only
                  rw [notify_sent_eq]
                  apply Handed.sent rfl
                  · exact .idle rfl buffer rfl nowHanded complete
                  · exact ⟨frame, prepared⟩
                  · rfl
              | false =>
                  have short : reached < frame.length := by
                    have other : reached ≠ frame.length := fun same => by cases whole.mpr same
                    omega
                  dsimp only
                  apply Handed.queued
                  · exact .busy rfl rfl rfl nowHanded nowDelivered prepared ⟨rfl, rfl, unsent⟩
                      buffer within (fun _ => short) .nil
                  · rfl

/-- The front frame has been written completely, and its message is still in the queue. -/
structure Complete (setup : Setup) (c : ConnectionI) (current : OutgoingMessage)
    (rest written : List OutgoingMessage) (message : OutgoingMessage)
    (later : List OutgoingMessage) : Prop where
  handed : c.handed = written ++ message :: later
  delivered : c.delivered = frames setup (written ++ [message])
  framed : Framed setup message
  stands : Stands current message
  empty : current.stream.b = []
  waits : List.Forall₂ Waits rest later

/-- What the loop of `sendNextMessage` does: the `moved` messages are completely written. -/
structure Shipped (setup : Setup) (strict : Prop) (c : ConnectionI)
    (written waiting : List OutgoingMessage) (result : SendNext)
    (moved left : List OutgoingMessage) : Prop where
  split : waiting = moved ++ left
  flows : result.failure = none → c.state < .closed →
    Flows setup strict result.connection.pipe (written ++ moved) left
  stalls : Stalls setup strict result.connection.pipe (written ++ moved) left
  queue : List.Forall₂ Stands result.connection.sendStreams left
  framed : ∀ message ∈ moved, Framed setup message
  notices : result.connection.notices =
    c.notices ++ moved.flatMap OutgoingMessage.sentNotices

def popped (rest : List OutgoingMessage) (current : OutgoingMessage) (c : ConnectionI) :
    ConnectionI :=
  notifySent current { c with writeStream := current.stream, sendStreams := rest }

section popped

variable {current message : OutgoingMessage} {rest later : List OutgoingMessage}

theorem popped_pipe : (popped rest current c).pipe =
    ⟨rest, current.stream, c.handed, c.delivered⟩ := by
  rw [popped, notify_sent_eq]
  rfl

theorem popped_notices (complete : Complete setup c current rest written message later) :
    (popped rest current c).notices = c.notices ++ message.sentNotices := by
  rw [popped, notify_sent_eq, OutgoingMessage.sentNotices, complete.stands.call]
  rfl

theorem popped_state : (popped rest current c).state = c.state := by
  rw [popped, notify_sent_eq]

theorem Complete.handed_on (complete : Complete setup c current rest written message later) :
    c.handed = (written ++ [message]) ++ later := by
  rw [complete.handed, List.append_assoc]
  rfl

theorem popped_flows (complete : Complete setup c current [] written message []) :
    Flows setup strict (popped [] current c).pipe (written ++ [message]) [] := by
  rw [popped_pipe]
  exact .idle rfl complete.empty rfl complete.handed complete.delivered

theorem popped_stalls (complete : Complete setup c current rest written message later)
    {queue : List OutgoingMessage} (stand : List.Forall₂ Stands queue later) (buffer : Buffer) :
    Stalls setup strict ⟨queue, buffer, c.handed, c.delivered⟩ (written ++ [message]) later := by
  constructor
  · refine ⟨[], complete.handed_on, ?_, Or.inl rfl⟩
    rw [List.append_nil]
    exact complete.delivered
  · exact Or.inl stand

end popped

theorem Shipped.one {message : OutgoingMessage} {later : List OutgoingMessage}
    {result : SendNext}
    (flows : result.failure = none → c.state < .closed →
      Flows setup strict result.connection.pipe (written ++ [message]) later)
    (stalls : Stalls setup strict result.connection.pipe (written ++ [message]) later)
    (queue : List.Forall₂ Stands result.connection.sendStreams later)
    (framed : Framed setup message)
    (notices : result.connection.notices = c.notices ++ message.sentNotices) :
    Shipped setup strict c written (message :: later) result [message] later := by
  constructor
  · rfl
  · exact flows
  · exact stalls
  · exact queue
  · intro only inside
    rw [List.mem_singleton.mp inside]
    exact framed
  · rw [notices]
    simp

theorem Shipped.more {e : ConnectionI} {message : OutgoingMessage}
    {waiting moved left : List OutgoingMessage} {result : SendNext}
    (shipped : Shipped setup strict e (written ++ [message]) waiting result moved left)
    (state : e.state = c.state) (framed : Framed setup message)
    (notices : e.notices = c.notices ++ message.sentNotices) :
    Shipped setup strict c written (message :: waiting) result (message :: moved) left := by
  have joined : (written ++ [message]) ++ moved = written ++ message :: moved := by simp
  constructor
  · rw [shipped.split]
    rfl
  · rw [← joined, ← state]
    exact shipped.flows
  · rw [← joined]
    exact shipped.stalls
  · exact shipped.queue
  · intro other inside
    obtain rfl | later := List.mem_cons.mp inside
    · exact framed
    · exact shipped.framed other later
  · rw [shipped.notices, notices, List.flatMap_cons, List.append_assoc]

theorem send_next_loop_cons (next : OutgoingMessage) (rest : List OutgoingMessage)
    (current : OutgoingMessage) (writes : List WriteOutcome) (callbacks : List Call) :
    sendNextLoop setup (next :: rest) current writes callbacks c =
      let c := popped (next :: rest) current c
      let callbacks := callbacks ++ current.callback
      if .closed ≤ c.state then
        ⟨callbacks, none, c⟩
      else
        let prepared := prepare setup.bz2 next.compress next.stream.b
        match prepared.frame with
        | .error ex =>
            ⟨callbacks, some ex, { c with
              sendStreams := { next with stream := ⟨prepared.stream, none⟩ } :: rest }⟩
        | .ok frame =>
            let front := { next.adopt prepared with stream := c.writeStream }
            let (status, buffer, taken) := writeBuffer (writes.headD ⟨0, none⟩) ⟨frame, some 0⟩
            let c := { c with
              delivered := c.delivered ++ taken
              writeStream := buffer
              sendStreams := front :: rest }
            match status with
            | .error ex => ⟨callbacks, some ex, c⟩
            | .ok false => ⟨callbacks, none, c⟩
            | .ok true => sendNextLoop setup rest front writes.tail callbacks c := by
  rw [sendNextLoop]
  rfl

/-- The next frame has been written up to `reached`. -/
structure Begun (setup : Setup) (strict : Prop) (c e : ConnectionI) (front : OutgoingMessage)
    (rest written : List OutgoingMessage) (message following : OutgoingMessage)
    (after : List OutgoingMessage) (length reached : Nat) : Prop where
  flows : (strict → reached < length) →
    Flows setup strict e.pipe (written ++ [message]) (following :: after)
  queue : List.Forall₂ Stands e.sendStreams (following :: after)
  state : e.state = c.state
  notices : e.notices = c.notices ++ message.sentNotices
  complete : reached = length → Complete setup e front rest (written ++ [message]) following after

section

variable {rest after : List OutgoingMessage} {current next message following : OutgoingMessage}

theorem Complete.next_waits {later : List OutgoingMessage}
    (complete : Complete setup c current (next :: rest) written message later) :
    ∃ following after, later = following :: after ∧ Waits next following ∧
      List.Forall₂ Waits rest after := by
  have waits := complete.waits
  cases waits with
  | cons waits behind => exact ⟨_, _, rfl, waits, behind⟩

theorem shipped_last (complete : Complete setup c current [] written message [])
    (callbacks : List Call) : Shipped setup strict c written [message]
      ⟨callbacks, none, popped [] current c⟩ [message] [] := by
  have flows : Flows setup strict (popped [] current c).pipe (written ++ [message]) [] :=
    popped_flows complete
  have nothing : List.Forall₂ Stands (popped [] current c).sendStreams [] := by
    have queue : (popped [] current c).sendStreams = [] := congrArg Pipe.sendStreams popped_pipe
    rw [queue]
    exact .nil
  exact .one (fun _ _ => flows) flows.stalls nothing complete.framed (popped_notices complete)

variable (complete : Complete setup c current (next :: rest) written message (following :: after))
  (waits : Waits next following) (behind : List.Forall₂ Waits rest after)

include complete waits behind

/-- `parseMessage` has closed the connection. -/
theorem shipped_closed (closed : .closed ≤ c.state) (callbacks : List Call) :
    Shipped setup strict c written (message :: following :: after)
      ⟨callbacks, none, popped (next :: rest) current c⟩ [message] (following :: after) := by
  have stand : List.Forall₂ Stands (next :: rest) (following :: after) :=
    .cons waits.stands (Waits.all_stand behind)
  have nowPipe : (popped (next :: rest) current c).pipe = _ := popped_pipe
  have nowQueue : (popped (next :: rest) current c).sendStreams = next :: rest :=
    congrArg Pipe.sendStreams nowPipe
  refine .one ?_ ?_ ?_ complete.framed (popped_notices complete)
  · intro _ open_
    exact absurd open_ (Nat.not_lt.mpr closed)
  · rw [nowPipe]
    exact popped_stalls complete stand _
  · rw [nowQueue]
    exact stand

omit waits in
theorem shipped_unprepared {front : OutgoingMessage} (stands : Stands front following)
    (callbacks : List Call) (ex : LocalException) :
    Shipped setup strict c written (message :: following :: after)
      ⟨callbacks, some ex, { popped (next :: rest) current c with sendStreams := front :: rest }⟩
      [message] (following :: after) := by
  have nowPipe : (popped (next :: rest) current c).pipe = _ := popped_pipe
  have nowHanded : (popped (next :: rest) current c).handed = c.handed :=
    congrArg Pipe.handed nowPipe
  have nowDelivered : (popped (next :: rest) current c).delivered = c.delivered :=
    congrArg Pipe.delivered nowPipe
  have stand : List.Forall₂ Stands (front :: rest) (following :: after) :=
    .cons stands (Waits.all_stand behind)
  refine .one ?_ ?_ stand complete.framed (popped_notices complete)
  · intro failed
    cases failed
  · have stalls : Stalls setup strict
        ⟨_, (popped (next :: rest) current c).writeStream, c.handed, c.delivered⟩
        (written ++ [message]) (following :: after) := popped_stalls complete stand _
    rw [← nowHanded, ← nowDelivered] at stalls
    exact stalls

theorem begun (strict : Prop) {frame taken : List Byte} {reached : Nat}
    (prepared : (prepare setup.bz2 next.compress next.stream.b).frame = .ok frame)
    (within : reached ≤ frame.length) (extends_ : taken = frame.take reached)
    {front : OutgoingMessage} (isFront : { next.adopt (prepare setup.bz2 next.compress next.stream.b)
      with stream := (popped (next :: rest) current c).writeStream } = front) :
    Begun setup strict c { popped (next :: rest) current c with
        delivered := (popped (next :: rest) current c).delivered ++ taken
        writeStream := ⟨frame, some reached⟩
        sendStreams := front :: rest }
      front rest written message following after frame.length reached := by
  have nowPipe : (popped (next :: rest) current c).pipe = _ := popped_pipe
  have nowStream : (popped (next :: rest) current c).writeStream = current.stream :=
    congrArg Pipe.writeStream nowPipe
  have nowHanded : (popped (next :: rest) current c).handed = c.handed :=
    congrArg Pipe.handed nowPipe
  have nowDelivered : (popped (next :: rest) current c).delivered = c.delivered :=
    congrArg Pipe.delivered nowPipe
  have handed : (popped (next :: rest) current c).handed =
      (written ++ [message]) ++ following :: after := by
    rw [nowHanded]
    exact complete.handed_on
  have delivered : (popped (next :: rest) current c).delivered ++ taken =
      frames setup (written ++ [message]) ++ frame.take reached := by
    rw [nowDelivered, complete.delivered, extends_]
  have stands : Stands front following := by
    rw [← isFront]
    exact ⟨waits.stands.call, waits.stands.requestId, waits.stands.isSent⟩
  have empty : front.stream.b = [] := by
    rw [← isFront]
    change (popped (next :: rest) current c).writeStream.b = []
    rw [nowStream]
    exact complete.empty
  rw [waits.compress, waits.stream] at prepared
  constructor
  · exact fun unfinished =>
      .busy rfl rfl rfl handed delivered prepared stands empty within unfinished behind
  · exact .cons stands (Waits.all_stand behind)
  · exact popped_state
  · exact popped_notices complete
  · intro reachedEnd
    refine ⟨handed, ?_, ⟨frame, prepared⟩, stands, empty, behind⟩
    rw [frames_append _ [following], frames_singleton, frame_of_ok prepared]
    rw [← List.take_length (l := frame), ← reachedEnd]
    exact delivered

end

theorem send_next_loop_spec {rest : List OutgoingMessage} {current message : OutgoingMessage}
    {later : List OutgoingMessage} (writes : List WriteOutcome) (callbacks : List Call)
    (complete : Complete setup c current rest written message later) :
    ∃ moved left, moved ≠ [] ∧ Shipped setup strict c written (message :: later)
      (sendNextLoop setup rest current writes callbacks c) moved left := by
  induction rest generalizing current message later writes callbacks c written with
  | nil =>
      have none_left : later = [] := by
        have waits := complete.waits
        cases waits
        rfl
      subst none_left
      refine ⟨[message], [], List.cons_ne_nil _ _, ?_⟩
      unfold sendNextLoop
      dsimp only
      split
      · exact shipped_last complete _
      · exact shipped_last complete _
  | cons next rest ih =>
      obtain ⟨following, after, isLater, waits, behind⟩ := complete.next_waits
      subst isLater
      rw [send_next_loop_cons]
      dsimp only
      split
      · next closed =>
          rw [popped_state] at closed
          exact ⟨[message], _, List.cons_ne_nil _ _, shipped_closed complete waits behind closed _⟩
      · cases prepared : (prepare setup.bz2 next.compress next.stream.b).frame with
        | error ex =>
            have stands : Stands { next with
                stream := ⟨(prepare setup.bz2 next.compress next.stream.b).stream, none⟩ }
                following := ⟨waits.stands.call, waits.stands.requestId, waits.stands.isSent⟩
            exact ⟨[message], _, List.cons_ne_nil _ _,
              shipped_unprepared complete behind stands (callbacks ++ current.callback) ex⟩
        | ok frame =>
            obtain ⟨status, reached, taken, wrote, within, extends_, whole⟩ :=
              write_buffer_at (writes.headD ⟨0, none⟩) (Nat.zero_le frame.length)
            rw [List.take_zero, List.nil_append] at extends_
            dsimp only
            rw [wrote]
            have begun := begun complete waits behind strict prepared within extends_ rfl
            have short (unfinished : status ≠ .ok true) : reached < frame.length := by
              have other : reached ≠ frame.length := fun same => unfinished (whole.mpr same)
              omega
            cases status with
            | error ex =>
                refine ⟨[message], _, List.cons_ne_nil _ _, .one ?_
                  (begun.flows fun _ => short fun ended => by cases ended).stalls begun.queue complete.framed
                  begun.notices⟩
                intro failed
                cases failed
            | ok done =>
                cases done with
                | false =>
                    have flows := begun.flows fun _ => short fun ended => by cases ended
                    exact ⟨[message], _, List.cons_ne_nil _ _, .one (fun _ _ => flows) flows.stalls
                      begun.queue complete.framed begun.notices⟩
                | true =>
                    obtain ⟨moved, left, _, shipped⟩ := ih writes.tail
                      (callbacks ++ current.callback) (begun.complete (whole.mp rfl))
                    exact ⟨message :: moved, left, List.cons_ne_nil _ _,
                      shipped.more begun.state complete.framed begun.notices⟩

end IceTouch.Connection
