import IceTouch.Connection.State

/-!
# The sending side of a connection

`sendMessage` writes a message at once or queues it, and `sendNextMessage` goes on with the
queue after the transceiver has taken the whole front frame. Streams move by swaps as in the
code: while the queue is not empty, the frame of its front message is in `writeStream` and
the stream of that message is the empty one that was there before.
-/

namespace IceTouch.Connection

open Bytes

/-- `_transceiver->write(buffer)`: the result, the buffer with its iterator moved on and the
bytes that were taken. -/
def writeBuffer (outcome : WriteOutcome) (buffer : Buffer) :
    Except LocalException Bool × Buffer × List Byte :=
  let position := buffer.i.getD 0
  let taken := (buffer.b.drop position).take outcome.accepted
  let reached := position + taken.length
  let status : Except LocalException Bool :=
    if reached = buffer.b.length then .ok true
    else match outcome.failure with
      | some ex => .error ex
      | none => .ok false
  (status, ⟨buffer.b, some reached⟩, taken)

def Buffer.Written (buffer : Buffer) : Prop :=
  buffer.b ≠ [] ∧ buffer.i = some buffer.b.length

instance (buffer : Buffer) : Decidable buffer.Written :=
  inferInstanceAs (Decidable (_ ∧ _))

inductive SendStatus where
  | sent (invokeCallback : Bool)
  | queued
  /-- The message could not be sent; the bytes are those left in the caller's stream. -/
  | failed (ex : LocalException) (os : List Byte)
deriving DecidableEq, Repr

/-- `OutgoingMessage::sent`, as far as the call is told. -/
def notifySent (message : OutgoingMessage) (c : ConnectionI) : ConnectionI :=
  match message.call with
  | none => c
  | some call => { c with notices := c.notices ++ [.sent call.serial] }

/-- The calls for which `sent` asks for a callback. -/
def OutgoingMessage.callback (message : OutgoingMessage) : List Call :=
  match message.call with
  | none => []
  | some call => if call.async && call.notifies then [call] else []

/-- `adopt`: the connection's own messages and compressed frames have a stream of their own. -/
def OutgoingMessage.adopt (message : OutgoingMessage) (prepared : Prepared) : OutgoingMessage :=
  { message with
    adopted := message.call.isNone || prepared.compressed
    original := prepared.stream }

def sendMessage (setup : Setup) (outcome : WriteOutcome) (message : OutgoingMessage)
    (c : ConnectionI) : SendStatus × ConnectionI :=
  let c := { c with handed := c.handed ++ [message] }
  if c.sendStreams ≠ [] then
    let queued :=
      { message with stream := ⟨message.stream.b, none⟩, adopted := message.call.isNone }
    (.queued, { c with sendStreams := c.sendStreams ++ [queued] })
  else
    let prepared := prepare setup.bz2 message.compress message.stream.b
    match prepared.frame with
    | .error ex => (.failed ex prepared.stream, c)
    | .ok frame =>
        match writeBuffer outcome ⟨frame, some 0⟩ with
        | (.error ex, _, taken) =>
            (.failed ex prepared.stream, { c with delivered := c.delivered ++ taken })
        | (.ok true, _, taken) =>
            (.sent (!message.callback.isEmpty),
              notifySent message { c with delivered := c.delivered ++ taken })
        | (.ok false, buffer, taken) =>
            (.queued, { c with
              delivered := c.delivered ++ taken
              sendStreams := [{ message.adopt prepared with stream := c.writeStream }]
              writeStream := buffer })

/-- What the loop of `sendNextMessage` leaves: the calls whose sent callback is due, the
exception that ended it, and the connection. -/
structure SendNext where
  callbacks : List Call
  failure : Option LocalException
  connection : ConnectionI

/-- The loop of `sendNextMessage`, entered with the frame of `current` completely written and
`rest` behind it. It stops after `current` when `parseMessage` has closed the connection. -/
def sendNextLoop (setup : Setup) :
    List OutgoingMessage → OutgoingMessage → List WriteOutcome → List Call → ConnectionI → SendNext
  | rest, current, writes, callbacks, c =>
      let c := notifySent current { c with writeStream := current.stream, sendStreams := rest }
      let callbacks := callbacks ++ current.callback
      if .closed ≤ c.state then
        ⟨callbacks, none, c⟩
      else
        match rest with
        | [] => ⟨callbacks, none, c⟩
        | message :: later =>
            let prepared := prepare setup.bz2 message.compress message.stream.b
            match prepared.frame with
            | .error ex =>
                ⟨callbacks, some ex, { c with
                  sendStreams := { message with stream := ⟨prepared.stream, none⟩ } :: later }⟩
            | .ok frame =>
                let front := { message.adopt prepared with stream := c.writeStream }
                let (status, buffer, taken) :=
                  writeBuffer (writes.headD ⟨0, none⟩) ⟨frame, some 0⟩
                let c := { c with
                  delivered := c.delivered ++ taken
                  writeStream := buffer
                  sendStreams := front :: later }
                match status with
                | .error ex => ⟨callbacks, some ex, c⟩
                | .ok false => ⟨callbacks, none, c⟩
                | .ok true => sendNextLoop setup later front writes.tail callbacks c

end IceTouch.Connection
