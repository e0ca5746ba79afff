import IceTouch.Connection.Moves

/-!
# What the moves do

The functions behind the moves, taken apart: which messages they hand over, what
`parseMessage` makes of a message, and that no move goes back in the life cycle.
-/

namespace IceTouch.Connection

open Bytes Machine

variable {setup : Setup} {permits : Fault → Prop} {c d e : ConnectionI}

theorem Onward.of_life (same : d.life = c.life) : Onward c d :=
  .of_same (congrArg Life.state same) (congrArg Life.exception same)

theorem Onward.of_mute (same : d.mute = c.mute) : Onward c d := by
  have state := congrArg ConnectionI.state same
  have exception := congrArg ConnectionI.exception same
  exact .of_same state exception

theorem Onward.since (later : Onward d e) (state : d.state = c.state)
    (exception : d.exception = c.exception) : Onward c e :=
  (Onward.of_same state exception).trans later

theorem send_own_onward (outcome : WriteOutcome) (message : OutgoingMessage) :
    Onward c (sendOwn setup outcome message c) := by
  have sent : Onward c (sendMessage setup outcome message c).2 :=
    .of_mute (send_message_mute outcome message)
  unfold sendOwn
  generalize sendMessage setup outcome message c = result at sent ⊢
  rcases result with ⟨status, after⟩
  cases status with
  | failed ex os => exact sent.trans (fail_onward ex)
  | sent callback => exact sent
  | queued => exact sent

theorem send_own_bare (outcome : WriteOutcome) (message : OutgoingMessage) :
    (sendOwn setup outcome message c).bare = c.bare := by
  have sent : (sendMessage setup outcome message c).2.bare = c.bare :=
    bare_of_mute (send_message_mute outcome message)
  unfold sendOwn
  generalize sendMessage setup outcome message c = result at sent ⊢
  rcases result with ⟨status, after⟩
  cases status with
  | failed ex os => exact (bare_of_quiet (fail_quiet ex)).trans sent
  | sent callback => exact sent
  | queued => exact sent

theorem shutdown_eq (site : Assertion) (outcome : WriteOutcome) :
    shutdown setup site outcome c =
      let noted := { c with
        assertions :=
          if c.state = .closing ∧ c.dispatchCount = 0 ∧ c.shutdownInitiated = false then
            c.assertions
          else c.assertions ++ [site]
        shutdownInitiated := true
        shutdowns := c.shutdowns ++ [(c.state, c.dispatchCount)] }
      if setup.datagram then noted else sendOwn setup outcome closeMessage noted := by
  unfold shutdown initiateShutdown
  cases datagram : setup.datagram with
  | true => rfl
  | false => rfl

theorem shutdown_onward (site : Assertion) (outcome : WriteOutcome) :
    Onward c (shutdown setup site outcome c) := by
  rw [shutdown_eq]
  dsimp only
  split
  · exact .of_same rfl rfl
  · exact (send_own_onward outcome closeMessage).since rfl rfl

theorem shutdown_spec (site : Assertion) (outcome : WriteOutcome) :
    (shutdown setup site outcome c).table = c.table ∧
      (shutdown setup site outcome c).tally = c.tally ∧
      (shutdown setup site outcome c).ending =
        ⟨true, c.shutdowns ++ [(c.state, c.dispatchCount)]⟩ := by
  rw [shutdown_eq]
  dsimp only
  split
  · exact ⟨rfl, rfl, rfl⟩
  · generalize isNoted : ({ c with
      assertions := _
      shutdownInitiated := true
      shutdowns := c.shutdowns ++ [(c.state, c.dispatchCount)] } : ConnectionI) = noted
    have bare : (sendOwn setup outcome closeMessage noted).bare = noted.bare :=
      send_own_bare outcome closeMessage
    rw [table_of_bare bare, tally_of_bare bare, ending_of_bare bare, ← isNoted]
    exact ⟨rfl, rfl, rfl⟩

theorem send_for_call_onward (outcome : WriteOutcome) (message : OutgoingMessage)
    (response : Bool) : Onward c (sendForCall setup outcome message response c).2 := by
  have sent : Onward c (sendMessage setup outcome message c).2 :=
    .of_mute (send_message_mute outcome message)
  unfold sendForCall
  generalize sendMessage setup outcome message c = result at sent ⊢
  rcases result with ⟨status, after⟩
  cases status with
  | failed ex os => exact sent.trans ((fail_onward ex).since rfl rfl)
  | sent callback => exact sent.trans (.of_same rfl rfl)
  | queued => exact sent.trans (.of_same rfl rfl)

theorem register_onward (requestId : Int) (call : Call) : Onward c (register requestId call c) := by
  unfold register
  split <;> exact .of_same rfl rfl

def requestMessage (async notifies compress response : Bool) (os : RequestStream)
    (c : ConnectionI) : OutgoingMessage :=
  if response then
    callMessage async notifies compress (takenId c.nextRequestId)
      (putInt os.bytes headerSize (takenId c.nextRequestId)) c
  else
    callMessage async notifies compress 0 os.bytes c

def issue (response : Bool) (c : ConnectionI) : ConnectionI :=
  if response then { c with nextRequestId := followingId c.nextRequestId } else c

def enroll (response : Bool) (requestId : Int) (call : Call) (c : ConnectionI) : ConnectionI :=
  if response then register requestId call c else c

variable {async notifies response : Bool} {outcome : WriteOutcome} {ex : LocalException}

variable {compress : Bool} {os : RequestStream} {result : CallResult} {requestId : Int}

theorem send_call_eq (free : c.exception = none)
    (fits : checkSendSize setup os.bytes.length = .ok ()) :
    sendCall setup async notifies compress response os outcome c =
      match sendForCall setup outcome (requestMessage async notifies compress response os c)
        response (issue response c) with
      | (.thrown ex os, d) => (.thrown ex os, d)
      | (result, d) => (result, enroll response (takenId c.nextRequestId)
          ⟨c.calls.length, async, notifies⟩ d) := by
  unfold sendCall
  split
  · next isSet =>
      rw [free] at isSet
      cases isSet
  rw [fits]
  cases response with
  | true => rfl
  | false =>
      change sendForCall setup outcome (callMessage async notifies compress 0 os.bytes c) false c =
        match sendForCall setup outcome (callMessage async notifies compress 0 os.bytes c) false c
          with
        | (.thrown ex os, d) => (.thrown ex os, d)
        | (result, d) => (result, d)
      generalize sendForCall setup outcome (callMessage async notifies compress 0 os.bytes c) false
        c = result
      rcases result with ⟨status, after⟩
      cases status <;> rfl

theorem send_call_refused (free : c.exception = none)
    (large : checkSendSize setup os.bytes.length = .error ex) :
    (sendCall setup async notifies compress response os outcome c).2 = c := by
  unfold sendCall
  rw [free, large]

theorem enroll_onward (response : Bool) (requestId : Int) (call : Call) :
    Onward c (enroll response requestId call c) := by
  unfold enroll
  split
  · exact register_onward requestId call
  · exact .of_same rfl rfl

theorem issue_onward (response : Bool) : Onward c (issue response c) := by
  unfold issue
  split <;> exact .of_same rfl rfl

theorem send_call_onward (async notifies compress response : Bool) (os : RequestStream)
    (outcome : WriteOutcome) (free : c.exception = none) :
    Onward c (sendCall setup async notifies compress response os outcome c).2 := by
  cases fits : checkSendSize setup os.bytes.length with
  | error ex =>
      rw [send_call_refused free fits]
      exact .of_same rfl rfl
  | ok done =>
      have sent : Onward c (sendForCall setup outcome
          (requestMessage async notifies compress response os c) response (issue response c)).2 :=
        (issue_onward response).trans (send_for_call_onward outcome _ response)
      rw [send_call_eq free fits]
      generalize sendForCall setup outcome (requestMessage async notifies compress response os c)
        response (issue response c) = result at sent ⊢
      rcases result with ⟨status, after⟩
      cases status with
      | thrown ex os => exact sent
      | sent callback => exact sent.trans (enroll_onward _ _ _)
      | queued => exact sent.trans (enroll_onward _ _ _)
      | refused ex => exact sent.trans (enroll_onward _ _ _)

def frontBatch (c : ConnectionI) : Batch :=
  { c.batch with stream := c.batch.stream.take c.batch.marker }

def restartBatch (setup : Setup) (lastRequest : List Byte) (c : ConnectionI) :
    Except LocalException Unit × ConnectionI :=
  let c := { c with batch := Batch.reset c.batch.inUse }
  if setup.messageSizeMax < requestBatchHdr.length + lastRequest.length then
    (.error .memoryLimit, c)
  else
    (.ok (), { c with batch := { c.batch with stream := requestBatchHdr ++ lastRequest } })

theorem auto_flush_eq (outcome : WriteOutcome) :
    autoFlush setup outcome c =
      match sendMessage setup outcome (batchMessage none (frontBatch c))
        { c with batch := frontBatch c } with
      | (.failed ex _, d) => (.error ((fail setup ex d).exception.getD ex), fail setup ex d)
      | (_, d) => restartBatch setup (c.batch.stream.drop c.batch.marker) d :=
  rfl

theorem restart_batch_same (lastRequest : List Byte) :
    ∃ batch, (restartBatch setup lastRequest c).2 = { c with batch := batch } := by
  unfold restartBatch
  dsimp only
  split <;> exact ⟨_, rfl⟩

theorem auto_flush_onward (outcome : WriteOutcome) : Onward c (autoFlush setup outcome c).2 := by
  have sent : Onward { c with batch := frontBatch c }
      (sendMessage setup outcome (batchMessage none (frontBatch c))
        { c with batch := frontBatch c }).2 := .of_mute (send_message_mute outcome _)
  replace sent : Onward c _ := sent.since rfl rfl
  have restarted (d : ConnectionI) (lastRequest : List Byte) :
      Onward d (restartBatch setup lastRequest d).2 := by
    obtain ⟨batch, same⟩ : ∃ batch, (restartBatch setup lastRequest d).2 =
      { d with batch := batch } := restart_batch_same lastRequest
    rw [same]
    exact .of_same rfl rfl
  rw [auto_flush_eq]
  generalize sendMessage setup outcome (batchMessage none (frontBatch c))
    { c with batch := frontBatch c } = result at sent ⊢
  rcases result with ⟨status, after⟩
  cases status with
  | failed ex os => exact sent.trans (fail_onward ex)
  | sent callback => exact sent.trans (restarted _ _)
  | queued => exact sent.trans (restarted _ _)

def returnBatch (written : List Byte) (c : ConnectionI) : ConnectionI :=
  { c with batch := { c.batch with stream := c.batch.lent ++ written, lent := [] } }

theorem finish_batch_eq (written : List Byte) (compress : Bool) (outcome : WriteOutcome) :
    finishBatchRequest setup written compress outcome c =
      let returned := returnBatch written c
      match c.exception with
      | some ex => (.error ex, abortBatchRequest returned)
      | none =>
          match (if setup.batchAutoFlush then checkSendSize setup returned.batch.stream.length
              else .ok ()) with
          | .ok () => (.ok (), countBatchRequest written compress returned)
          | .error ex =>
              if 0 < returned.batch.requestNum then
                match autoFlush setup outcome returned with
                | (.error ex, c) => (.error ex, abortBatchRequest c)
                | (.ok (), c) => (.ok (), countBatchRequest written compress c)
              else
                (.error ex, abortBatchRequest returned) :=
  rfl

theorem finish_batch_onward (written : List Byte) (compress : Bool) (outcome : WriteOutcome) :
    Onward c (finishBatchRequest setup written compress outcome c).2 := by
  have same : Onward c (returnBatch written c) := .of_same rfl rfl
  rw [finish_batch_eq]
  dsimp only
  split
  · exact .of_same rfl rfl
  · split
    · exact .of_same rfl rfl
    · split
      · have flushed : Onward (returnBatch written c)
            (autoFlush setup outcome (returnBatch written c)).2 := auto_flush_onward outcome
        generalize autoFlush setup outcome (returnBatch written c) = result at flushed ⊢
        rcases result with ⟨status, after⟩
        replace flushed := same.trans flushed
        cases status with
        | error ex => exact flushed.trans (.of_same rfl rfl)
        | ok done => exact flushed.trans (.of_same rfl rfl)
      · exact .of_same rfl rfl

def swapBatch (c : ConnectionI) : ConnectionI :=
  { c with batch := { c.batch with stream := [] } }

theorem flush_batch_cases (free : c.exception = none)
    (flushed : flushBatch setup async notifies outcome c = some (result, d)) :
    c.batch.inUse = false ∧
      ((c.batch.requestNum = 0 ∧ d = { c with
          calls := c.calls ++ [⟨0, false, true⟩]
          notices := c.notices ++ [.sent c.calls.length] }) ∨
        c.batch.requestNum ≠ 0 ∧ ∃ sent, sendForCall setup outcome
          (batchMessage (some ⟨c.calls.length, async, notifies⟩) c.batch) false (swapBatch c) =
            (result, sent) ∧
          (d = sent ∧ (∃ ex os, result = .thrown ex os) ∨
            d = { sent with batch := Batch.reset sent.batch.inUse } ∧
              ∀ ex os, result ≠ .thrown ex os)) := by
  unfold flushBatch at flushed
  split at flushed
  · cases flushed
  · next unused =>
      have notInUse : c.batch.inUse = false := by
        cases inUse : c.batch.inUse with
        | false => rfl
        | true => exact absurd ⟨inUse, free⟩ unused
      refine ⟨notInUse, ?_⟩
      split at flushed
      · next isSet =>
          rw [free] at isSet
          cases isSet
      · split at flushed
        · next nothing =>
            simp only [Option.some.injEq, Prod.mk.injEq] at flushed
            exact Or.inl ⟨nothing, flushed.2.symm⟩
        · next some_ =>
            refine Or.inr ⟨some_, ?_⟩
            change (match sendForCall setup outcome
              (batchMessage (some ⟨c.calls.length, async, notifies⟩) c.batch) false (swapBatch c) with
              | (.thrown ex os, c) => some (CallResult.thrown ex os, c)
              | (result, c) => some (result, { c with batch := Batch.reset c.batch.inUse })) = _
              at flushed
            generalize sendForCall setup outcome
              (batchMessage (some ⟨c.calls.length, async, notifies⟩) c.batch) false (swapBatch c) =
              outcome at flushed ⊢
            rcases outcome with ⟨status, sent⟩
            cases status with
            | thrown ex os =>
                cases flushed
                exact ⟨_, rfl, Or.inl ⟨rfl, ex, os, rfl⟩⟩
            | sent callback =>
                cases flushed
                exact ⟨_, rfl, Or.inr ⟨rfl, by simp⟩⟩
            | queued =>
                cases flushed
                exact ⟨_, rfl, Or.inr ⟨rfl, by simp⟩⟩
            | refused ex =>
                cases flushed
                exact ⟨_, rfl, Or.inr ⟨rfl, by simp⟩⟩

theorem flush_onward (free : c.exception = none)
    (flushed : flushBatch setup async notifies outcome c = some (result, d)) : Onward c d := by
  obtain ⟨_, ⟨_, rfl⟩ | ⟨_, sent, isSent, rest⟩⟩ := flush_batch_cases free flushed
  · exact .of_same rfl rfl
  · have onward : Onward (swapBatch c) (sendForCall setup outcome
        (batchMessage (some ⟨c.calls.length, async, notifies⟩) c.batch) false (swapBatch c)).2 :=
      send_for_call_onward outcome _ false
    rw [isSent] at onward
    replace onward : Onward c sent := onward.since rfl rfl
    obtain ⟨rfl, _⟩ | ⟨rfl, _⟩ := rest
    · exact onward
    · exact onward.trans (.of_same rfl rfl)

def CallResult.accepted : CallResult → Bool
  | .sent _ => true
  | .queued => true
  | .refused _ => false
  | .thrown _ _ => false

def note (requestId : Int) (response accepted : Bool) (c : ConnectionI) : ConnectionI :=
  { c with calls := c.calls ++ [⟨requestId, response, accepted⟩] }

theorem note_bare {accepted : Bool} (same : d.bare = c.bare) :
    (note requestId response accepted d).bare = (note requestId response accepted c).bare := by
  have noted := congrArg (note requestId response accepted) same
  exact noted

theorem enroll_bare {call : Call} (same : d.bare = c.bare) :
    (enroll response requestId call d).bare = (enroll response requestId call c).bare := by
  have enrolled := congrArg (fun e => (enroll response requestId call e).bare) same
  have inner (e : ConnectionI) :
      (enroll response requestId call e.bare).bare = (enroll response requestId call e).bare := by
    unfold enroll register
    split
    · split <;> rfl
    · rfl
  rw [inner, inner] at enrolled
  exact enrolled

theorem send_for_call_bare (outcome : WriteOutcome) (message : OutgoingMessage)
    (response : Bool) :
    (sendForCall setup outcome message response c).2.bare =
      (note message.requestId response
        (sendForCall setup outcome message response c).1.accepted c).bare := by
  have sent : (sendMessage setup outcome message c).2.bare = c.bare :=
    bare_of_mute (send_message_mute outcome message)
  unfold sendForCall
  generalize sendMessage setup outcome message c = result at sent ⊢
  rcases result with ⟨status, after⟩
  cases status with
  | failed ex os => exact (bare_of_quiet (fail_quiet ex)).trans (note_bare sent)
  | sent callback => exact note_bare sent
  | queued => exact note_bare sent

theorem send_for_call_refused {message : OutgoingMessage} :
    sendForCall setup outcome message response c ≠ (.refused ex, d) := by
  unfold sendForCall
  generalize sendMessage setup outcome message c = result
  rcases result with ⟨status, after⟩
  cases status <;> simp

theorem send_call_bare (free : c.exception = none)
    (fits : checkSendSize setup os.bytes.length = .ok ()) :
    ∃ accepted, (sendCall setup async notifies compress response os outcome c).1.accepted =
        accepted ∧
      (sendCall setup async notifies compress response os outcome c).2.bare =
        (enroll (response && accepted) (takenId c.nextRequestId)
          ⟨c.calls.length, async, notifies⟩
          (note (if response then takenId c.nextRequestId else 0) response accepted
            (issue response c))).bare := by
  have sent : (sendForCall setup outcome (requestMessage async notifies compress response os c)
      response (issue response c)).2.bare = _ := send_for_call_bare outcome _ response
  have isId : (requestMessage async notifies compress response os c).requestId =
      if response then takenId c.nextRequestId else 0 := by
    unfold requestMessage
    split <;> rfl
  have unrefused (ex : LocalException) (e : ConnectionI) :
      sendForCall setup outcome (requestMessage async notifies compress response os c) response
        (issue response c) ≠ (.refused ex, e) := send_for_call_refused
  rw [isId] at sent
  rw [send_call_eq free fits]
  generalize sendForCall setup outcome (requestMessage async notifies compress response os c)
    response (issue response c) = result at sent unrefused ⊢
  rcases result with ⟨status, after⟩
  cases status with
  | thrown ex os =>
      refine ⟨false, rfl, ?_⟩
      rw [Bool.and_false]
      exact sent
  | sent callback =>
      refine ⟨true, rfl, ?_⟩
      rw [Bool.and_true]
      exact enroll_bare sent
  | queued =>
      refine ⟨true, rfl, ?_⟩
      rw [Bool.and_true]
      exact enroll_bare sent
  | refused ex => exact absurd rfl (unrefused ex after)

def ConnectionI.unbatched (c : ConnectionI) : ConnectionI :=
  { c.bare with batch := Batch.reset false, batched := [] }

theorem unbatched_of_bare (same : d.bare = c.bare) : d.unbatched = c.unbatched :=
  congrArg (fun e : ConnectionI => { e with batch := Batch.reset false, batched := [] }) same

theorem table_of_unbatched (same : d.unbatched = c.unbatched) : d.table = c.table := by
  have tables := congrArg ConnectionI.table same
  exact tables

theorem tally_of_unbatched (same : d.unbatched = c.unbatched) : d.tally = c.tally := by
  have tallies := congrArg ConnectionI.tally same
  exact tallies

theorem finish_batch_unbatched (request : List Byte) (compress : Bool) (outcome : WriteOutcome) :
    (finishBatchRequest setup request compress outcome c).2.unbatched = c.unbatched := by
  have flushed : (autoFlush setup outcome (returnBatch request c)).2.unbatched = c.unbatched := by
    have front : ({ returnBatch request c with
        batch := frontBatch (returnBatch request c) } : ConnectionI).unbatched = c.unbatched := rfl
    have sent : (sendMessage setup outcome (batchMessage none (frontBatch (returnBatch request c)))
        { returnBatch request c with batch := frontBatch (returnBatch request c) }).2.unbatched =
          c.unbatched :=
      (unbatched_of_bare (bare_of_mute (send_message_mute outcome _))).trans front
    rw [auto_flush_eq]
    generalize sendMessage setup outcome (batchMessage none (frontBatch (returnBatch request c)))
      { returnBatch request c with batch := frontBatch (returnBatch request c) } = result at sent ⊢
    rcases result with ⟨status, after⟩
    have restarted (lastRequest : List Byte) :
        (restartBatch setup lastRequest after).2.unbatched = after.unbatched := by
      obtain ⟨batch, same⟩ : ∃ batch, (restartBatch setup lastRequest after).2 =
        { after with batch := batch } := restart_batch_same lastRequest
      rw [same]
      rfl
    cases status with
    | failed ex os => exact (unbatched_of_bare (bare_of_quiet (fail_quiet ex))).trans sent
    | sent callback => exact (restarted _).trans sent
    | queued => exact (restarted _).trans sent
  rw [finish_batch_eq]
  dsimp only
  split
  · rfl
  · split
    · rfl
    · split
      · generalize autoFlush setup outcome (returnBatch request c) = result at flushed ⊢
        rcases result with ⟨status, after⟩
        cases status with
        | error ex => exact flushed
        | ok done => exact flushed
      · rfl

theorem flush_unbatched (free : c.exception = none)
    (flushed : flushBatch setup async notifies outcome c = some (result, d)) :
    ∃ accepted, d.unbatched = (note 0 false accepted c).unbatched := by
  obtain ⟨_, ⟨_, rfl⟩ | ⟨_, sent, isSent, rest⟩⟩ := flush_batch_cases free flushed
  · exact ⟨true, rfl⟩
  · have noted : (sendForCall setup outcome
        (batchMessage (some ⟨c.calls.length, async, notifies⟩) c.batch) false
        (swapBatch c)).2.bare = _ := send_for_call_bare outcome _ false
    rw [isSent] at noted
    have swapped (accepted : Bool) : (note 0 false accepted (swapBatch c)).unbatched =
        (note 0 false accepted c).unbatched := rfl
    have same : sent.unbatched = (note 0 false result.accepted (swapBatch c)).unbatched :=
      unbatched_of_bare noted
    rw [swapped] at same
    obtain ⟨rfl, _⟩ | ⟨rfl, _⟩ := rest
    · exact ⟨result.accepted, same⟩
    · exact ⟨result.accepted, same⟩

/-- The connection when `parseMessage` has taken the frame from the read stream. -/
def taken (c : ConnectionI) : ConnectionI :=
  { c with
    readStream := .fresh
    validated := true
    parsed := c.parsed ++ [c.readStream.bytes] }

/-- The outcomes of `parseMessage`; `stream` is the message, when its frame could be opened. -/
inductive Parses (setup : Setup) (refusal : Option LocalException) (c : ConnectionI) :
    Except LocalException (List Byte) → Parsed → ConnectionI → Prop
  | ignored {opened : Except LocalException (List Byte)} {parsed : Parsed}
      (nothing : parsed.invokeNum = 0) (unreplied : parsed.outAsync = none)
      (graceful : setup.datagram = false → ∃ stream, opened = .ok stream ∧
        (c.state = .closing ∧ (stream.getD 8 0 = requestMsg ∨ stream.getD 8 0 = requestBatchMsg) ∨
          stream.getD 8 0 = validateConnectionMsg)) :
      Parses setup refusal c opened parsed (taken c)
  | failed {opened : Except LocalException (List Byte)} {parsed : Parsed} {ex : LocalException}
      (nothing : parsed.invokeNum = 0) (unreplied : parsed.outAsync = none)
      (origin : ex ≠ .closeConnection true ∨ refusal = some ex) :
      Parses setup refusal c opened parsed (fail setup ex (taken c))
  | closes {stream : List Byte} {parsed : Parsed} (nothing : parsed.invokeNum = 0)
      (unreplied : parsed.outAsync = none) (isClose : stream.getD 8 0 = closeConnectionMsg) :
      Parses setup refusal c (.ok stream) parsed (fail setup (.closeConnection true) (taken c))
  | request {stream : List Byte} {requestId : Int} {compress : Byte} (open_ : c.state ≠ .closing)
      (isRequest : stream.getD 8 0 = requestMsg) (isId : intAt stream headerSize = some requestId) :
      Parses setup refusal c (.ok stream) ⟨1, requestId, compress, none⟩
        { taken c with dispatchCount := wrap (c.dispatchCount + 1) }
  | batch {stream : List Byte} {invokeNum : Int} {compress : Byte} (open_ : c.state ≠ .closing)
      (isBatch : stream.getD 8 0 = requestBatchMsg)
      (isCount : intAt stream headerSize = some invokeNum) (nonnegative : 0 ≤ invokeNum) :
      Parses setup refusal c (.ok stream) ⟨invokeNum, 0, compress, none⟩
        { taken c with dispatchCount := wrap (c.dispatchCount + invokeNum) }
  | asyncReply {stream : List Byte} {requestId : Int} {compress : Byte} {call : Call}
      (isReply : stream.getD 8 0 = replyMsg) (isId : intAt stream headerSize = some requestId)
      (found : lookupReply requestId c = some call) (isAsync : call.async = true) :
      Parses setup refusal c (.ok stream) ⟨0, requestId, compress, some (call, stream)⟩
        { taken c with asyncRequests := c.asyncRequests.erase requestId }
  | syncReply {stream : List Byte} {requestId : Int} {compress : Byte} {call : Call}
      (isReply : stream.getD 8 0 = replyMsg) (isId : intAt stream headerSize = some requestId)
      (found : lookupReply requestId c = some call) (isSync : call.async = false) :
      Parses setup refusal c (.ok stream) ⟨0, requestId, compress, none⟩
        { taken c with
          notices := c.notices ++ [.replied call.serial stream]
          requests := c.requests.erase requestId }

theorem Parses.of_error (refusal : Option LocalException)
    (opened : Except LocalException (List Byte)) (compress : Byte)
    (origin : ex ≠ .closeConnection true ∨ refusal = some ex) :
    Parses setup refusal c opened { Parsed.nothing with compress := compress }
      (if setup.datagram then taken c else fail setup ex (taken c)) := by
  split
  · next datagram =>
      apply Parses.ignored rfl rfl
      intro stream
      rw [datagram] at stream
      cases stream
  · exact .failed rfl rfl origin

/-- The end of `parseMessage`: an exception closes the connection. -/
def settle (setup : Setup) (compress : Byte) :
    Except LocalException Parsed × ConnectionI → Parsed × ConnectionI
  | (.ok parsed, c) => (parsed, c)
  | (.error ex, c) => ({ Parsed.nothing with compress := compress },
      if setup.datagram then c else fail setup ex c)

theorem parse_reply_spec (refusal : Option LocalException) {stream : List Byte} (compress : Byte)
    (isReply : stream.getD 8 0 = replyMsg) (isId : intAt stream headerSize = some requestId) :
    Parses setup refusal c (.ok stream)
      (settle setup compress (parseReply refusal stream compress requestId (taken c))).1
      (settle setup compress (parseReply refusal stream compress requestId (taken c))).2 := by
  have sameLookup : lookupReply requestId (taken c) = lookupReply requestId c := rfl
  unfold parseReply
  rw [sameLookup]
  cases found : lookupReply requestId c with
  | none => exact .of_error refusal _ compress (Or.inl (by decide))
  | some call =>
      cases isAsync : call.async with
      | true =>
          simp only [isAsync, if_true]
          exact .asyncReply isReply isId found isAsync
      | false =>
          simp only [isAsync, Bool.false_eq_true, if_false]
          cases refusal with
          | some ex => exact .of_error _ _ compress (Or.inr rfl)
          | none => exact .syncReply isReply isId found isAsync

theorem parse_stream_spec (refusal : Option LocalException) (stream : List Byte)
    (compress : Byte) :
    Parses setup refusal c (.ok stream)
      (settle setup compress (parseStream setup refusal stream compress (taken c))).1
      (settle setup compress (parseStream setup refusal stream compress (taken c))).2 := by
  have sameState : (taken c).state = c.state := rfl
  have dropped (kind : c.state = .closing ∧
      (stream.getD 8 0 = requestMsg ∨ stream.getD 8 0 = requestBatchMsg) ∨
      stream.getD 8 0 = validateConnectionMsg) :
      Parses setup refusal c (.ok stream) ⟨0, 0, compress, none⟩ (taken c) :=
    .ignored rfl rfl (fun _ => ⟨stream, rfl, kind⟩)
  unfold parseStream
  dsimp only
  rw [sameState]
  split
  · next isClose =>
      split
      · next datagram =>
          apply Parses.ignored rfl rfl
          intro isStream
          rw [datagram] at isStream
          cases isStream
      · exact .closes rfl rfl isClose
  · split
    · next isRequest =>
        split
        · next closing => exact dropped (Or.inl ⟨closing, Or.inl isRequest⟩)
        · next open_ =>
            split
            · exact .of_error refusal _ compress (Or.inl (by decide))
            · next isId => exact .request open_ isRequest isId
    · split
      · next isBatch =>
          split
          · next closing => exact dropped (Or.inl ⟨closing, Or.inr isBatch⟩)
          · next open_ =>
              split
              · exact .of_error refusal _ compress (Or.inl (by decide))
              · next isCount =>
                  split
                  · exact .of_error refusal _ compress (Or.inl (by decide))
                  · next nonnegative =>
                      exact .batch open_ isBatch isCount (Int.not_lt.mp nonnegative)
      · split
        · next isReply =>
            split
            · exact .of_error refusal _ compress (Or.inl (by decide))
            · next isId => exact parse_reply_spec refusal compress isReply isId
        · split
          · next isValidate => exact dropped (Or.inr isValidate)
          · exact .of_error refusal _ compress (Or.inl (by decide))

def ConnectionI.opened (setup : Setup) (c : ConnectionI) : Except LocalException (List Byte) :=
  openFrame setup.bz2 setup.messageSizeMax c.readStream.bytes

theorem open_frame_error {bz2 : Bz2} {limit : Nat} {frame : List Byte}
    (failed : openFrame bz2 limit frame = .error ex) : ex ≠ .closeConnection true := by
  unfold openFrame doUncompress at failed
  dsimp only at failed
  repeat' split at failed
  all_goals cases failed
  all_goals decide

section

variable (refusal : Option LocalException)

include refusal

theorem parse_message_error (opened : c.opened setup = .error ex) :
    parseMessage setup refusal c =
      settle setup (c.readStream.bytes.getD 9 0) (.error ex, taken c) := by
  have failed : openFrame setup.bz2 setup.messageSizeMax c.readStream.bytes = .error ex := opened
  unfold parseMessage
  simp only [failed]
  rfl

theorem parse_message_ok {stream : List Byte} (opened : c.opened setup = .ok stream) :
    parseMessage setup refusal c =
      settle setup (c.readStream.bytes.getD 9 0)
        (parseStream setup refusal stream (c.readStream.bytes.getD 9 0) (taken c)) := by
  have read : openFrame setup.bz2 setup.messageSizeMax c.readStream.bytes = .ok stream := opened
  unfold parseMessage
  simp only [read]
  rfl

theorem parse_message_spec :
    Parses setup refusal c (c.opened setup) (parseMessage setup refusal c).1
      (parseMessage setup refusal c).2 := by
  cases opened : c.opened setup with
  | error ex =>
      rw [parse_message_error refusal opened]
      exact .of_error refusal _ _ (Or.inl (open_frame_error opened))
  | ok stream =>
      rw [parse_message_ok refusal opened]
      exact parse_stream_spec refusal stream _

theorem parse_message_onward : Onward c (parseMessage setup refusal c).2 := by
  have parses : Parses setup refusal c (c.opened setup) _ _ := parse_message_spec refusal
  generalize c.opened setup = opened, (parseMessage setup refusal c).1 = parsed at parses
  generalize (parseMessage setup refusal c).2 = after at parses ⊢
  cases parses with
  | ignored => exact .of_same rfl rfl
  | failed => exact (fail_onward _).since rfl rfl
  | closes => exact (fail_onward _).since rfl rfl
  | request => exact .of_same rfl rfl
  | batch => exact .of_same rfl rfl
  | asyncReply => exact .of_same rfl rfl
  | syncReply => exact .of_same rfl rfl

end

theorem send_next_message_onward (writes : List WriteOutcome) :
    Onward c (sendNextMessage setup writes c).2 := by
  unfold sendNextMessage
  split
  · exact .of_same rfl rfl
  · next current rest _ =>
      have looped : Onward c (sendNextLoop setup rest current writes [] c).connection :=
        .of_mute (send_next_loop_mute rest current writes [])
      generalize sendNextLoop setup rest current writes [] c = result at looped ⊢
      rcases result with ⟨callbacks, failure, after⟩
      cases failure with
      | none => exact looped
      | some ex => exact looped.trans (fail_onward ex)

theorem parse_part_onward (ready : Ready) : Onward c (parsePart setup ready c).2 := by
  unfold parsePart
  split
  · exact parse_message_onward _
  · exact .of_same rfl rfl

theorem send_part_onward (ready : Ready) : Onward c (sendPart setup ready c).2 := by
  unfold sendPart
  split
  · exact send_next_message_onward _
  · exact .of_same rfl rfl

theorem processed_onward (ready : Ready) : Onward c (processed setup ready c) := by
  have wrote : Onward c (writePart ready c).2 := .of_life (write_part_life ready)
  have read : Onward c (readPart setup ready (writePart ready c).2).2 :=
    wrote.trans (.of_life (read_part_life ready))
  unfold processed
  generalize (readPart setup ready (writePart ready c).2).2 = r at read ⊢
  have parsed : Onward c (parsePart setup ready r).2 := read.trans (parse_part_onward ready)
  have sent : Onward c (sendPart setup ready (parsePart setup ready r).2).2 :=
    parsed.trans (send_part_onward ready)
  exact sent.trans (.of_life (count_callbacks_life _ _))

theorem finish_state (closed : c.state = .closed) : (finish setup c).state = .finished := by
  have told : (finishCalls c).life = c.life := finish_calls_life
  have closedStill : (finishCalls c).state = .closed := by
    have same := congrArg Life.state told
    exact same.trans closed
  have entered : setState setup noWrite .finished (finishCalls c) =
      enter setup .finished (finishCalls c) := by
    rw [set_state_shift noWrite (by decide), shift, closedStill]
    rfl
  unfold finish
  rw [entered, reap_state]
  rfl

theorem Move.onward (move : Move setup permits c d) :
    Onward c d ∨ c.state = .closed ∧ d = Connection.finish setup c := by
  have wrote {outcome : WriteOutcome} {status : Except LocalException Bool}
      (isWritten : writeMessage outcome c = (status, d)) : Onward c d := by
    have same : (writeMessage outcome c).2.life = c.life := write_message_life outcome
    rw [isWritten] at same
    exact .of_life same
  cases move with
  | life same onward received => exact Or.inl onward
  | validated | dropped | abort | upcall | throws | callbacks | invoke =>
      exact Or.inl (.of_same rfl rfl)
  | shutdown => exact Or.inl (shutdown_onward _ _)
  | call _ _ free => exact Or.inl (send_call_onward _ _ _ _ _ _ free)
  | prepareBatch open_ free prepared =>
      left
      unfold prepareBatchRequest at prepared
      split at prepared
      · cases prepared
      · split at prepared
        · cases prepared
        · cases prepared
          exact .of_same rfl rfl
  | finishBatch => exact Or.inl (finish_batch_onward _ _ _)
  | flush open_ free outside flushed => exact Or.inl (flush_onward free flushed)
  | write open_ busy isWritten => exact Or.inl (wrote isWritten)
  | abandon open_ busy isWritten => exact Or.inl (wrote isWritten)
  | @read _ supply status open_ took =>
      have same : (readMessage setup supply c).2.life = c.life := read_message_life supply
      rw [took] at same
      exact Or.inl (.of_life same)
  | process => exact Or.inl (processed_onward _)
  | forget => exact Or.inl (.of_same reap_state reap_exception)
  | done =>
      left
      unfold retireUpcall
      split
      · exact .of_same reap_state reap_exception
      · exact .of_same rfl rfl
  | answered => exact Or.inl (.of_same reap_state reap_exception)
  | replied => exact Or.inl ((send_own_onward _ _).since reap_state reap_exception)
  | finish closed => exact Or.inr ⟨closed, rfl⟩

theorem Onward.open_before (onward : Onward c d) (open_ : d.state < .closed) : c.state < .closed := by
  have forward := onward.forward
  generalize c.state = before at forward ⊢
  generalize d.state = after at forward open_
  cases before <;> cases after <;> simp_all [State.stage, State.lt_def, State.index]

theorem Onward.unclosing_before (onward : Onward c d) (open_ : d.state < .closing) :
    c.state < .closing := by
  have forward := onward.forward
  generalize c.state = before at forward ⊢
  generalize d.state = after at forward open_
  cases before <;> cases after <;> simp_all [State.stage, State.lt_def, State.index]

theorem Onward.unfinished_before (onward : Onward c d) (open_ : d.state < .finished) :
    c.state < .finished := by
  have forward := onward.forward
  generalize c.state = before at forward ⊢
  generalize d.state = after at forward open_
  cases before <;> cases after <;> simp_all [State.stage, State.lt_def, State.index]

end IceTouch.Connection
