import IceTouch.Connection.Output

/-!
# What a move does to the calls

The moves seen from the calls that wait for their messages to be sent, for their replies or for
the callbacks with the replies. Everything but a call, a flush, a reply, the callbacks and the
end leaves them alone, apart from messages that are sent.
-/

namespace IceTouch.Connection

open Bytes

/-- The asynchronous reply that `dispatch` has still to pass on. -/
def Upcall.pending (upcall : Upcall) : Option (Call × List Byte) :=
  if upcall.called then none else upcall.outAsync

def ConnectionI.pendings (c : ConnectionI) : List (Call × List Byte) :=
  c.upcalls.filterMap Upcall.pending

/-- What becomes of the calls; the messages `moved` are completely written and `left` wait. -/
inductive Traffic (setup : Setup) (strict : Prop) (permits : Fault → Prop) (c d : ConnectionI)
    (written waiting : List OutgoingMessage) :
    List OutgoingMessage → List OutgoingMessage → Prop
  | quiet {added kept moved left : List OutgoingMessage} (table : d.table = c.table)
      (pendings : d.pendings = c.pendings) (own : callsOf added = [])
      (sends : Sends setup strict c d written waiting added kept moved left) :
      Traffic setup strict permits c d written waiting moved left
  | call {async notifies compress response accepted : Bool} {os : RequestStream}
      {moved left : List OutgoingMessage} (open_ : c.state < .closing)
      (fresh : response = true → Reuses c → permits .reuse)
      (table : d.table = (enroll (response && accepted) (takenId c.nextRequestId)
        ⟨c.calls.length, async, notifies⟩
        (note (if response then takenId c.nextRequestId else 0) response accepted
          (issue response c))).table)
      (pendings : d.pendings = c.pendings)
      (sends : Sends setup strict c d written waiting
        [requestMessage async notifies compress response os c]
        (if accepted then [requestMessage async notifies compress response os c] else [])
        moved left) :
      Traffic setup strict permits c d written waiting moved left
  | flushed (table : d.table = (note 0 false true c).table) (pendings : d.pendings = c.pendings)
      (notices : d.notices = c.notices ++ [.sent c.calls.length])
      (queue : d.sendStreams = c.sendStreams)
      (output : Output setup strict d written waiting) :
      Traffic setup strict permits c d written waiting [] waiting
  | flush {async notifies accepted : Bool} {moved left : List OutgoingMessage}
      (open_ : c.state < .closing)
      (table : d.table = (note 0 false accepted c).table) (pendings : d.pendings = c.pendings)
      (sends : Sends setup strict c d written waiting
        [batchMessage (some ⟨c.calls.length, async, notifies⟩) c.batch]
        (if accepted then [batchMessage (some ⟨c.calls.length, async, notifies⟩) c.batch] else [])
        moved left) :
      Traffic setup strict permits c d written waiting moved left
  | asyncReply {stream : List Byte} {requestId : Int} {call : Call}
      {moved left : List OutgoingMessage} (open_ : c.state < .closed)
      (isId : intAt stream headerSize = some requestId)
      (found : lookupReply requestId c = some call) (isAsync : call.async = true)
      (table : d.table = { c.table with asyncRequests := c.asyncRequests.erase requestId })
      (pendings : d.pendings = c.pendings ++ [(call, stream)])
      (sends : Sends setup strict c d written waiting [] [] moved left) :
      Traffic setup strict permits c d written waiting moved left
  | syncReply {stream : List Byte} {requestId : Int} {call : Call}
      {moved left : List OutgoingMessage} (open_ : c.state < .closed)
      (isId : intAt stream headerSize = some requestId)
      (found : lookupReply requestId c = some call) (isSync : call.async = false)
      (table : d.table = { c.table with requests := c.requests.erase requestId })
      (pendings : d.pendings = c.pendings)
      (sends : Sends setup strict
        { c with notices := c.notices ++ [.replied call.serial stream] } d written waiting [] []
        moved left) :
      Traffic setup strict permits c d written waiting moved left
  | callbacks {call : Call} {stream : List Byte} (table : d.table = c.table)
      (pendings : c.pendings.Perm ((call, stream) :: d.pendings))
      (notices : d.notices = c.notices ++ [.replied call.serial stream])
      (queue : d.sendStreams = c.sendStreams)
      (output : Output setup strict d written waiting) :
      Traffic setup strict permits c d written waiting [] waiting
  | lost (permitted : permits .loses) (table : d.table = c.table)
      (pendings : d.pendings.Sublist c.pendings) (notices : d.notices = c.notices)
      (queue : d.sendStreams = c.sendStreams)
      (output : Output setup strict d written waiting) :
      Traffic setup strict permits c d written waiting [] waiting
  | finish (closed : c.state = .closed) (unwritten : FrontWritten c → permits .unmarked)
      (outstanding : RepliedEarly c → permits .early) (ended : d = finish setup c)
      (output : Output setup strict d written waiting) :
      Traffic setup strict permits c d written waiting [] waiting

variable {setup : Setup} {strict : Prop} {permits : Fault → Prop} {c d : ConnectionI}
  {written waiting : List OutgoingMessage}

theorem Traffic.output {moved left : List OutgoingMessage}
    (traffic : Traffic setup strict permits c d written waiting moved left) :
    Output setup strict d (written ++ moved) left := by
  cases traffic with
  | quiet _ _ _ sends => exact sends.output
  | call _ _ _ _ sends => exact sends.output
  | flush _ _ _ sends => exact sends.output
  | asyncReply _ _ _ _ _ _ sends => exact sends.output
  | syncReply _ _ _ _ _ _ sends => exact sends.output
  | flushed _ _ _ _ output => rwa [List.append_nil]
  | callbacks _ _ _ _ output => rwa [List.append_nil]
  | lost _ _ _ _ _ output => rwa [List.append_nil]
  | finish _ _ _ _ output => rwa [List.append_nil]

variable {index : Nat}

theorem split_at {α : Type} {list : List α} {element : α} (found : list[index]? = some element) :
    ∃ before after, list = before ++ element :: after ∧
      list.eraseIdx index = before ++ after ∧
      ∀ other, list.set index other = before ++ other :: after := by
  obtain ⟨inside, isElement⟩ := List.getElem?_eq_some_iff.mp found
  refine ⟨list.take index, list.drop (index + 1), ?_, ?_, ?_⟩
  · rw [← isElement, List.getElem_cons_drop, List.take_append_drop]
  · exact List.eraseIdx_eq_take_drop_succ _ _
  · intro other
    exact List.set_eq_take_append_cons_drop.trans (if_pos inside)

theorem replaced_pendings {old new : Upcall} (found : c.upcalls[index]? = some old)
    (same : new.pending = old.pending) : (replaceUpcall index new c).pendings = c.pendings := by
  obtain ⟨before, after, isList, _, replaced⟩ := split_at found
  change (c.upcalls.set index new).filterMap Upcall.pending = c.upcalls.filterMap Upcall.pending
  rw [replaced, isList]
  simp only [List.filterMap_append, List.filterMap_cons, same]

theorem removed_pendings {old : Upcall} (found : c.upcalls[index]? = some old)
    (nothing : old.pending = none) : (removeUpcall index c).pendings = c.pendings := by
  obtain ⟨before, after, isList, removed, _⟩ := split_at found
  change (c.upcalls.eraseIdx index).filterMap Upcall.pending =
    c.upcalls.filterMap Upcall.pending
  rw [removed, isList]
  simp only [List.filterMap_append, List.filterMap_cons, nothing]

theorem called_pending {upcall : Upcall} (called : upcall.called = true) :
    upcall.pending = none := by
  rw [Upcall.pending, if_pos called]

theorem reap_upcalls : (reapWhenIdle c).upcalls = c.upcalls := by
  unfold reapWhenIdle
  split <;> rfl

theorem reap_table : (reapWhenIdle c).table = c.table := by
  unfold reapWhenIdle
  split <;> rfl

theorem reap_notices : (reapWhenIdle c).notices = c.notices := by
  unfold reapWhenIdle
  split <;> rfl

theorem pendings_of_upcalls (same : d.upcalls = c.upcalls) : d.pendings = c.pendings :=
  congrArg (List.filterMap Upcall.pending) same

theorem pendings_of_tally (same : d.tally = c.tally) : d.pendings = c.pendings :=
  pendings_of_upcalls (congrArg Tally.upcalls same)

theorem mem_calls_of {call : Call} {requestId : Int} {messages : List OutgoingMessage} :
    (call, requestId) ∈ callsOf messages ↔
      ∃ message ∈ messages, message.call = some call ∧ message.requestId = requestId := by
  unfold callsOf
  rw [List.mem_filterMap]
  constructor
  · rintro ⟨message, inside, same⟩
    obtain ⟨other, isCall, pair⟩ := Option.map_eq_some_iff.mp same
    cases pair
    exact ⟨message, inside, isCall, rfl⟩
  · rintro ⟨message, inside, isCall, rfl⟩
    exact ⟨message, inside, by rw [isCall]; rfl⟩

theorem arriving_received {ready : Ready} (reads : ready.read = true) :
    arriving setup ready c = ((received setup ready c).opened setup).toOption := by
  obtain ⟨buffer, delivered, advanced⟩ : ∃ buffer delivered, (writePart ready c).2 =
    advance buffer delivered c := write_part_advances ready
  have isReceived : received setup ready c =
      advance buffer delivered (readMessage setup ready.supply c).2 := by
    unfold received
    rw [advanced, read_part_advanced, readPart, if_pos reads]
  unfold arriving
  rw [if_pos reads, isReceived]
  rfl

theorem count_callbacks_table (callbacks : List Call) (parsed : Parsed) :
    (countCallbacks callbacks parsed c).table = c.table := by
  unfold countCallbacks
  split <;> rfl

theorem count_callbacks_upcalls (callbacks : List Call) (parsed : Parsed) :
    (countCallbacks callbacks parsed c).upcalls = c.upcalls := by
  unfold countCallbacks
  split <;> rfl

theorem processed_table (ready : Ready) :
    (processed setup ready c).table = (parsedState setup ready c).table := by
  have sent : (sendPart setup ready (parsedState setup ready c)).2.table =
      (parsedState setup ready c).table := table_of_bare (send_part_bare ready)
  rw [processed_eq]
  exact (count_callbacks_table _ _).trans sent

theorem processed_pendings (ready : Ready) :
    (processed setup ready c).pendings = (parsedState setup ready c).pendings ++
      (parsePart setup ready (received setup ready c)).1.outAsync.toList := by
  have sent : (sendPart setup ready (parsedState setup ready c)).2.upcalls =
      (parsedState setup ready c).upcalls :=
    congrArg Tally.upcalls (tally_of_bare (send_part_bare ready))
  rw [processed_eq]
  unfold queueUpcall ConnectionI.pendings
  dsimp only
  rw [count_callbacks_upcalls, sent, List.filterMap_append]
  congr 1

theorem processed_traffic {ready : Ready} (output : Output setup strict c written waiting)
    (open_ : c.state < .closed) (busy : ready.write = true → c.sendStreams ≠ [])
    (wrote : (writePart ready c).1 = .ok true) :
    ∃ moved left, Traffic setup strict permits c (processed setup ready c) written waiting moved
      left := by
  obtain ⟨moved, left, _, _, sends⟩ := processed_sends output open_ busy wrote
  have table : (processed setup ready c).table = _ := processed_table ready
  have pendings : (processed setup ready c).pendings = _ := processed_pendings ready
  have sameQueue : (parsedState setup ready c).sendStreams = c.sendStreams := by
    obtain ⟨buffer, delivered, advanced⟩ : ∃ buffer delivered, (writePart ready c).2 =
      advance buffer delivered c := write_part_advances ready
    have pipe : (parsedState setup ready c).pipe = (writePart ready c).2.pipe := parsed_pipe ready
    rw [advanced] at pipe
    exact congrArg Pipe.sendStreams pipe
  obtain ⟨buffer, delivered, stream, consumed, isReceived⟩ := received_eq setup ready c
  refine ⟨moved, left, ?_⟩
  cases reads : ready.read with
  | false =>
      have unparsed : parsePart setup ready (received setup ready c) =
          (.nothing, received setup ready c) := by simp [parsePart, reads]
      have same : parsedState setup ready c = received setup ready c := by
        rw [parsedState, unparsed]
      rw [unparsed, same] at pendings
      rw [same] at table sends
      rw [isReceived] at table pendings sends
      refine .quiet table (pendings.trans (List.append_nil _)) rfl
        (sends.congr rfl rfl (.of_same rfl rfl) rfl rfl)
  | true =>
      have parses : Parses setup ready.refusal (received setup ready c)
          ((received setup ready c).opened setup)
          (parsePart setup ready (received setup ready c)).1 (parsedState setup ready c) := by
        unfold parsedState parsePart
        rw [if_pos reads]
        exact parse_message_spec ready.refusal
      generalize (received setup ready c).opened setup = result at parses
      generalize (parsePart setup ready (received setup ready c)).1 = parsed at parses pendings
      generalize parsedState setup ready c = p at parses sends table pendings sameQueue
      have failed (ex : LocalException) (unreplied : parsed.outAsync = none)
          (isFailed : p = fail setup ex (taken (received setup ready c))) :
          Traffic setup strict permits c (processed setup ready c) written waiting moved left := by
        have same : p.still = (taken (received setup ready c)).still := by
          rw [isFailed]
          exact still_of_quiet (fail_quiet ex)
        rw [isReceived] at same
        rw [unreplied] at pendings
        have sameTable := table_of_bare (bare_of_still same)
        have samePendings := pendings_of_tally (tally_of_bare (bare_of_still same))
        exact .quiet (table.trans sameTable)
          (pendings.trans ((List.append_nil _).trans samePendings)) rfl
          (sends.congr (notices_of_still same).symm sameQueue.symm (.of_same rfl rfl) rfl rfl)
      cases parses with
      | failed nothing unreplied origin => exact failed _ unreplied rfl
      | closes nothing unreplied isClose => exact failed _ unreplied rfl
      | ignored nothing unreplied graceful =>
          rw [isReceived] at table pendings sends
          rw [unreplied] at pendings
          exact .quiet table (pendings.trans (List.append_nil _)) rfl
            (sends.congr rfl rfl (.of_same rfl rfl) rfl rfl)
      | request =>
          rw [isReceived] at table pendings sends
          exact .quiet table (pendings.trans (List.append_nil _)) rfl
            (sends.congr rfl rfl (.of_same rfl rfl) rfl rfl)
      | batch =>
          rw [isReceived] at table pendings sends
          exact .quiet table (pendings.trans (List.append_nil _)) rfl
            (sends.congr rfl rfl (.of_same rfl rfl) rfl rfl)
      | @asyncReply reply requestId compress call isReply isId found isAsync =>
          have foundThen : lookupReply requestId c = some call := by
            rw [isReceived] at found
            exact found
          rw [isReceived] at table pendings sends
          exact .asyncReply open_ isId foundThen isAsync table pendings
            (sends.congr rfl rfl (.of_same rfl rfl) rfl rfl)
      | @syncReply reply requestId compress call isReply isId found isSync =>
          have foundThen : lookupReply requestId c = some call := by
            rw [isReceived] at found
            exact found
          rw [isReceived] at table pendings sends
          exact .syncReply open_ isId foundThen isSync table (pendings.trans (List.append_nil _))
            (sends.congr rfl rfl (.of_same rfl rfl) rfl rfl)

theorem own_calls {message : OutgoingMessage} (own : message.call = none) :
    callsOf [message] = [] := by
  unfold callsOf
  rw [List.filterMap_cons, own]
  rfl

/-- What `finish` tells the call of a message in the queue. -/
def OutgoingMessage.failedNotices (ex : LocalException) (message : OutgoingMessage) :
    List Notice :=
  match message.call with
  | none => []
  | some call => [.failed call.serial ex message.isSent]

def spared (async : Bool) (queue : List (Call × Int)) (entries : List (Int × Call)) :
    List (Int × Call) :=
  entries.filter fun entry =>
    !queue.any fun waiting => waiting.1.async == async && waiting.2 != 0 && waiting.2 == entry.1

theorem spared_nil (async : Bool) (entries : List (Int × Call)) :
    spared async [] entries = entries := by
  simp [spared]

theorem spared_append (async : Bool) (first second : List (Call × Int))
    (entries : List (Int × Call)) :
    spared async (first ++ second) entries = spared async second (spared async first entries) := by
  unfold spared
  rw [List.filter_filter]
  apply List.filter_congr
  intro entry _
  rw [List.any_append, Bool.not_or, Bool.and_comm]

theorem finish_queued_spec (ex : LocalException) (message : OutgoingMessage) :
    (finishQueued ex message c).notices = c.notices ++ message.failedNotices ex ∧
      (finishQueued ex message c).requests.entries =
        spared false (callsOf [message]) c.requests.entries ∧
      (finishQueued ex message c).asyncRequests.entries =
        spared true (callsOf [message]) c.asyncRequests.entries := by
  unfold finishQueued OutgoingMessage.failedNotices
  cases isCall : message.call with
  | none =>
      rw [own_calls isCall, spared_nil, spared_nil]
      exact ⟨(List.append_nil _).symm, rfl, rfl⟩
  | some call =>
      have only : callsOf [message] = [(call, message.requestId)] := by
        unfold callsOf
        rw [List.filterMap_cons, isCall]
        rfl
      rw [only]
      dsimp only
      split
      · next oneway =>
          have all (async : Bool) (entries : List (Int × Call)) :
              spared async [(call, message.requestId)] entries = entries := by
            simp [spared, oneway]
          exact ⟨rfl, (all _ _).symm, (all _ _).symm⟩
      · next twoway =>
          have erased (entries : List (Int × Call)) :
              spared call.async [(call, message.requestId)] entries =
                OrderedMap.erase message.requestId entries := by
            unfold spared OrderedMap.erase
            apply List.filter_congr
            intro entry _
            have nonzero : (message.requestId != 0) = true := bne_iff_ne.mpr twoway
            simp [nonzero, Bool.beq_eq_decide_eq, eq_comm]
          have other (async : Bool) (different : call.async ≠ async) (entries : List (Int × Call)) :
              spared async [(call, message.requestId)] entries = entries := by
            simp [spared, different]
          split
          · next isAsync =>
              rw [isAsync] at erased other
              exact ⟨rfl, (other false (by decide) _).symm, (erased _).symm⟩
          · next isSync =>
              rw [Bool.eq_false_iff.mpr isSync] at erased other
              exact ⟨rfl, (erased _).symm, (other true (by decide) _).symm⟩

theorem finish_all_spec (ex : LocalException) (messages : List OutgoingMessage) :
    (messages.foldl (fun c message => finishQueued ex message c) c).notices =
        c.notices ++ messages.flatMap (OutgoingMessage.failedNotices ex) ∧
      (messages.foldl (fun c message => finishQueued ex message c) c).requests.entries =
        spared false (callsOf messages) c.requests.entries ∧
      (messages.foldl (fun c message => finishQueued ex message c) c).asyncRequests.entries =
        spared true (callsOf messages) c.asyncRequests.entries := by
  induction messages generalizing c with
  | nil => exact ⟨(List.append_nil _).symm, (spared_nil _ _).symm, (spared_nil _ _).symm⟩
  | cons message rest ih =>
      obtain ⟨notices, sync, async⟩ := finish_queued_spec (c := c) ex message
      obtain ⟨restNotices, restSync, restAsync⟩ := ih (c := finishQueued ex message c)
      have split : callsOf (message :: rest) = callsOf [message] ++ callsOf rest :=
        calls_of_append [message] rest
      rw [List.foldl_cons, List.flatMap_cons, split, spared_append, spared_append]
      refine ⟨?_, ?_, ?_⟩
      · rw [restNotices, notices, List.append_assoc]
      · rw [restSync, sync]
      · rw [restAsync, async]

theorem return_front_spec :
    (returnFront c).notices = c.notices ∧ (returnFront c).table = c.table ∧
      callsOf (returnFront c).sendStreams = callsOf c.sendStreams ∧
      ∀ ex, (returnFront c).sendStreams.flatMap (OutgoingMessage.failedNotices ex) =
        c.sendStreams.flatMap (OutgoingMessage.failedNotices ex) := by
  unfold returnFront
  split
  · exact ⟨rfl, rfl, rfl, fun _ => rfl⟩
  · next front rest queue =>
      split
      · exact ⟨rfl, rfl, rfl, fun _ => rfl⟩
      · rw [queue]
        exact ⟨rfl, rfl, rfl, fun _ => rfl⟩

def ConnectionI.spared (c : ConnectionI) : List (Int × Call) :=
  Connection.spared false (callsOf c.sendStreams) c.requests.entries ++
    Connection.spared true (callsOf c.sendStreams) c.asyncRequests.entries

theorem finish_calls_notices : (finishCalls c).notices = c.notices ++
    c.sendStreams.flatMap (OutgoingMessage.failedNotices (c.exception.getD (.other 0))) ++
    c.spared.map fun entry => .failed entry.2.serial (c.exception.getD (.other 0)) true := by
  obtain ⟨notices, table, calls, fails⟩ :=
    return_front_spec (c := { c with startCallback := false })
  unfold finishCalls finishOutstanding
  dsimp only
  generalize returnFront { c with startCallback := false } = r at notices table calls fails
  obtain ⟨told, sync, async⟩ :=
    finish_all_spec (c := r) (c.exception.getD (.other 0)) r.sendStreams
  have requests : r.requests = c.requests := congrArg Table.requests table
  have asyncRequests : r.asyncRequests = c.asyncRequests := congrArg Table.asyncRequests table
  rw [told, sync, async, notices, fails, calls, requests, asyncRequests]
  rfl

theorem finish_calls_table : (finishCalls c).table = ⟨c.nextRequestId, ⟨[], none⟩, ⟨[], none⟩, c.calls⟩ := by
  have told : (finishCalls c).told = c.told := finish_calls_told
  have next := congrArg ConnectionI.nextRequestId told
  have calls := congrArg ConnectionI.calls told
  change (finishCalls c).nextRequestId = c.nextRequestId at next
  change (finishCalls c).calls = c.calls at calls
  rw [← next, ← calls]
  rfl

theorem finish_spec (closed : c.state = .closed) :
    (finish setup c).notices = (finishCalls c).notices ∧
      (finish setup c).table = (finishCalls c).table ∧
      (finish setup c).pendings = c.pendings ∧ (finish setup c).sendStreams = [] := by
  have told : (finishCalls c).told = c.told := finish_calls_told
  have stillClosed : (finishCalls c).state = .closed := by
    have same := congrArg ConnectionI.state told
    exact same.trans closed
  have entered : setState setup noWrite .finished (finishCalls c) =
      enter setup .finished (finishCalls c) := by
    rw [set_state_shift noWrite (by decide), shift, stillClosed]
    rfl
  have upcalls : (finishCalls c).upcalls = c.upcalls := by
    have same := congrArg ConnectionI.upcalls told
    exact same
  unfold finish
  rw [entered]
  refine ⟨reap_notices, reap_table, ?_, ?_⟩
  · exact pendings_of_upcalls (reap_upcalls.trans upcalls)
  · exact congrArg Pipe.sendStreams reap_pipe

theorem finish_batch_table (request : List Byte) (compress : Bool) (outcome : WriteOutcome) :
    (finishBatchRequest setup request compress outcome c).2.table = c.table ∧
      (finishBatchRequest setup request compress outcome c).2.pendings = c.pendings := by
  have same := @finish_batch_unbatched setup c request compress outcome
  exact ⟨table_of_unbatched same, pendings_of_tally (tally_of_unbatched same)⟩

section

variable (output : Output setup strict c written waiting)

include output

theorem Output.silent (onward : Onward c d) (pipe : d.pipe = c.pipe)
    (notices : d.notices = c.notices) : Sends setup strict c d written waiting [] [] [] waiting :=
  .nothing (output.kept onward pipe) notices
    (congrArg (fun pipe => callsOf pipe.sendStreams) pipe)

variable {outcome : WriteOutcome}

theorem call_traffic {async notifies compress response : Bool} {os : RequestStream}
    (open_ : c.state < .closing) (free : c.exception = none)
    (fresh : response = true → checkSendSize setup os.bytes.length = .ok () → Reuses c →
      permits .reuse) :
    ∃ moved left, Traffic setup strict permits c
      (sendCall setup async notifies compress response os outcome c).2 written waiting moved
      left := by
  cases fits : checkSendSize setup os.bytes.length with
  | error ex =>
      rw [send_call_refused free fits]
      exact ⟨[], waiting, .quiet rfl rfl rfl (output.silent (.of_same rfl rfl) rfl rfl)⟩
  | ok done =>
      obtain ⟨accepted, isAccepted, bare⟩ : ∃ accepted, _ ∧
          (sendCall setup async notifies compress response os outcome c).2.bare = _ :=
        send_call_bare free fits
      obtain ⟨moved, left, sends⟩ : ∃ moved left, Sends setup strict c
          (sendCall setup async notifies compress response os outcome c).2 written waiting
          [requestMessage async notifies compress response os c] _ moved left :=
        send_call_sends output (Nat.lt_of_lt_of_le open_ (by decide)) free fits
      rw [isAccepted] at sends
      have sameUpcalls : (enroll (response && accepted) (takenId c.nextRequestId)
          ⟨c.calls.length, async, notifies⟩
          (note (if response then takenId c.nextRequestId else 0) response accepted
            (issue response c))).upcalls = c.upcalls := by
        unfold enroll register issue
        cases response <;> cases accepted <;> cases async <;> rfl
      have upcalls := congrArg Tally.upcalls (tally_of_bare bare)
      exact ⟨moved, left, .call open_ (fun twoWay => fresh twoWay fits) (table_of_bare bare)
        (pendings_of_upcalls (upcalls.trans sameUpcalls)) sends⟩

theorem flush_traffic {async notifies : Bool} {result : CallResult} (open_ : c.state < .closing)
    (free : c.exception = none)
    (flushed : flushBatch setup async notifies outcome c = some (result, d)) :
    ∃ moved left, Traffic setup strict permits c d written waiting moved left := by
  obtain ⟨_, ⟨_, rfl⟩ | ⟨some_, sent, isSent, rest⟩⟩ := flush_batch_cases free flushed
  · exact ⟨[], waiting, .flushed rfl rfl rfl rfl (output.kept (.of_same rfl rfl) rfl)⟩
  · obtain ⟨moved, left, sends⟩ := flush_sends output (Nat.lt_of_lt_of_le open_ (by decide)) free
      some_ flushed
    have noted : (sendForCall setup outcome
        (batchMessage (some ⟨c.calls.length, async, notifies⟩) c.batch) false
        (swapBatch c)).2.bare = _ := send_for_call_bare outcome _ false
    rw [isSent] at noted
    have sentTable := table_of_bare noted
    have sentUpcalls := congrArg Tally.upcalls (tally_of_bare noted)
    obtain ⟨rfl, _⟩ | ⟨rfl, _⟩ := rest
    · exact ⟨moved, left, .flush open_ sentTable (pendings_of_upcalls sentUpcalls) sends⟩
    · exact ⟨moved, left, .flush open_ sentTable (pendings_of_upcalls sentUpcalls) sends⟩

theorem throws_traffic {upcall : Upcall} (found : c.upcalls[index]? = some upcall)
    (replied : upcall.outAsync ≠ none → permits .loses) :
    Traffic setup strict permits c (removeUpcall index c) written waiting [] waiting := by
  by_cases reply : upcall.outAsync = none
  · have nothing : upcall.pending = none := by
      unfold Upcall.pending
      rw [reply]
      split <;> rfl
    exact .quiet rfl (removed_pendings found nothing) rfl
      (output.silent (.of_same rfl rfl) rfl rfl)
  · have fewer : (removeUpcall index c).pendings.Sublist c.pendings :=
      (List.eraseIdx_sublist _ _).filterMap _
    exact .lost (replied reply) rfl fewer rfl rfl (output.kept (.of_same rfl rfl) rfl)

theorem callbacks_traffic {upcall : Upcall} (found : c.upcalls[index]? = some upcall)
    (uncalled : upcall.called = false) :
    Traffic setup strict permits c (makeCallbacks index upcall c) written waiting [] waiting := by
  have kept : Output setup strict (makeCallbacks index upcall c) written waiting :=
    output.kept (.of_same rfl rfl) rfl
  have isPending : upcall.pending = upcall.outAsync := by
    rw [Upcall.pending, uncalled]
    rfl
  cases reply : upcall.outAsync with
  | none =>
      have silent : upcall.notices = [] := by rw [Upcall.notices, reply]
      have samePending : ({ upcall with called := true } : Upcall).pending = upcall.pending := by
        rw [isPending, reply]
        rfl
      have told : (makeCallbacks index upcall c).notices = c.notices := by
        change c.notices ++ upcall.notices = c.notices
        rw [silent, List.append_nil]
      exact .quiet rfl (replaced_pendings (c := { c with
        notices := c.notices ++ upcall.notices }) found samePending) rfl
        (output.silent (.of_same rfl rfl) rfl told)
  | some pair =>
      obtain ⟨call, stream⟩ := pair
      have told : upcall.notices = [.replied call.serial stream] := by rw [Upcall.notices, reply]
      have pendings : c.pendings.Perm
          ((call, stream) :: (makeCallbacks index upcall c).pendings) := by
        obtain ⟨before, after, isList, _, replaced⟩ := split_at found
        have nowPendings : (makeCallbacks index upcall c).pendings =
            before.filterMap Upcall.pending ++ after.filterMap Upcall.pending := by
          change (c.upcalls.set index { upcall with called := true }).filterMap Upcall.pending = _
          rw [replaced, List.filterMap_append, List.filterMap_cons_none rfl]
        have isPendings : c.pendings = before.filterMap Upcall.pending ++
            (call, stream) :: after.filterMap Upcall.pending := by
          change c.upcalls.filterMap Upcall.pending = _
          rw [isList, List.filterMap_append, List.filterMap_cons_some (isPending.trans reply)]
        rw [nowPendings, isPendings]
        exact List.perm_middle
      have nowTold : (makeCallbacks index upcall c).notices =
          c.notices ++ [.replied call.serial stream] := by
        change c.notices ++ upcall.notices = _
        rw [told]
      exact .callbacks rfl pendings nowTold rfl kept

end

theorem retired_notices (index : Nat) : (retire index c).notices = c.notices :=
  reap_notices

theorem Move.traffic (move : Move setup permits c d) (strictly : strict → ¬ permits .abandon)
    (output : Output setup strict c written waiting) :
    ∃ moved left, Traffic setup strict permits c d written waiting moved left := by
  have silent (onward : Onward c d) (table : d.table = c.table)
      (pendings : d.pendings = c.pendings) (pipe : d.pipe = c.pipe)
      (notices : d.notices = c.notices) :
      ∃ moved left, Traffic setup strict permits c d written waiting moved left :=
    ⟨[], waiting, .quiet table pendings rfl (output.silent onward pipe notices)⟩
  have wrote {outcome : WriteOutcome} {status : Except LocalException Bool}
      (isWritten : writeMessage outcome c = (status, d)) (output : Output setup strict d written
        waiting) : ∃ moved left, Traffic setup strict permits c d written waiting moved left := by
    obtain ⟨buffer, delivered, rfl⟩ : ∃ buffer delivered, d = advance buffer delivered c :=
      advanced_of_write isWritten
    exact ⟨[], waiting, .quiet rfl rfl rfl (.nothing output rfl rfl)⟩
  cases move with
  | life same onward =>
      exact silent onward (table_of_bare (bare_of_still same))
        (pendings_of_tally (tally_of_bare (bare_of_still same))) (pipe_of_still same)
        (notices_of_still same)
  | validated | dropped | abort => exact silent (.of_same rfl rfl) rfl rfl rfl rfl
  | shutdown closing =>
      obtain ⟨added, kept, moved, left, isAdded, sends⟩ := shutdown_sends output closing
      have own : callsOf added = [] := by
        obtain ⟨rfl, _⟩ | ⟨rfl, _⟩ := isAdded
        · rfl
        · exact own_calls rfl
      obtain ⟨table, tally, _⟩ := @shutdown_spec setup c _ _
      exact ⟨moved, left, .quiet table (pendings_of_tally tally) own sends⟩
  | call _ open_ free _ fresh => exact call_traffic output open_ free fresh
  | prepareBatch open_ free prepared =>
      obtain ⟨_, rfl⟩ := prepare_batch_eq free prepared
      exact silent (.of_same rfl rfl) rfl rfl rfl rfl
  | @finishBatch request compress outcome _ _ _ free =>
      obtain ⟨added, kept, moved, left, isAdded, sends⟩ := finish_batch_sends output free
      have own : callsOf added = [] := by
        obtain rfl | rfl := isAdded
        · rfl
        · exact own_calls rfl
      have same := @finish_batch_table setup c request compress outcome
      exact ⟨moved, left, .quiet same.1 same.2 own sends⟩
  | flush open_ free outside flushed => exact flush_traffic output open_ free flushed
  | write open_ busy isWritten incomplete =>
      exact wrote isWritten
        (write_message_output output open_ busy isWritten (fun _ => incomplete))
  | abandon open_ busy isWritten permitted =>
      exact wrote isWritten (write_message_output output open_ busy isWritten
        (fun isStrict => absurd permitted (strictly isStrict)))
  | read open_ took incomplete =>
      obtain ⟨stream, consumed, rfl⟩ := left_by_read took
      exact silent (.of_same rfl rfl) rfl rfl rfl rfl
  | process _ open_ busy isWritten => exact processed_traffic output open_ busy isWritten
  | @upcall upcall nothing isSilent unreplied uncalled =>
      have unpending : upcall.pending = none := by rw [Upcall.pending, uncalled, unreplied]; rfl
      have same : (c.upcalls ++ [upcall]).filterMap Upcall.pending =
          c.upcalls.filterMap Upcall.pending := by
        rw [List.filterMap_append, List.filterMap_cons_none unpending]
        exact List.append_nil _
      exact silent (.of_same rfl rfl) rfl same rfl rfl
  | throws found _ _ replied => exact ⟨[], waiting, throws_traffic output found replied⟩
  | callbacks found uncalled => exact ⟨[], waiting, callbacks_traffic output found uncalled⟩
  | @invoke index upcall found called =>
      have same : ({ upcall with invokeNum := upcall.invokeNum - 1 } : Upcall).pending =
          upcall.pending := rfl
      exact silent (.of_same rfl rfl) rfl (replaced_pendings (c := { c with dispatches := c.dispatches ++
        [⟨upcall.frame, upcall.requestId, upcall.compress⟩] }) found same) rfl rfl
  | @forget index upcall found =>
      have same : ({ upcall with invokeNum := 0 } : Upcall).pending = upcall.pending := rfl
      have upcalls : (Connection.forget index upcall c).upcalls = (replaceUpcall index
          { upcall with invokeNum := 0 } c).upcalls := by
        unfold Connection.forget replaceUpcall
        dsimp only
        rw [reap_upcalls]
      exact silent (.of_same reap_state reap_exception) reap_table ((pendings_of_upcalls upcalls).trans (replaced_pendings found same))
        reap_pipe reap_notices
  | @done index upcall found called =>
      have same : (removeUpcall index c).pendings = c.pendings :=
        removed_pendings found (called_pending called)
      by_cases counted : upcall.hasCallbacks = true
      · have isRetired : retireUpcall index upcall c =
            reapWhenIdle (uncount (removeUpcall index c)) := by rw [retireUpcall, if_pos counted]
        rw [isRetired] at silent ⊢
        exact silent (.of_same reap_state reap_exception) reap_table ((pendings_of_upcalls reap_upcalls).trans same) reap_pipe
          reap_notices
      · have isRetired : retireUpcall index upcall c = removeUpcall index c := by
          rw [retireUpcall, if_neg counted]
        rw [isRetired] at silent ⊢
        exact silent (.of_same rfl rfl) rfl same rfl rfl
  | answered =>
      exact silent (.of_same reap_state reap_exception) reap_table (pendings_of_upcalls reap_upcalls) reap_pipe reap_notices
  | @replied index dispatch body outcome found response open_ =>
      have retired : Output setup strict (retire index c) written waiting :=
        output.kept (.of_same reap_state reap_exception) reap_pipe
      have stillOpen : (retire index c).state < .closed := by
        rw [retire, reap_state]
        exact open_
      obtain ⟨kept, moved, left, sends⟩ : ∃ kept moved left, Sends setup strict (retire index c)
          (sendOwn setup outcome (ownMessage (replyStream dispatch.requestId body)
            (0 < dispatch.compress)) (retire index c)) written waiting
          [ownMessage (replyStream dispatch.requestId body) (0 < dispatch.compress)] kept moved
          left := send_own_sends retired stillOpen rfl
      have bare := @send_own_bare setup (retire index c) outcome
        (ownMessage (replyStream dispatch.requestId body) (0 < dispatch.compress))
      have sameTable := (table_of_bare bare).trans reap_table
      have sameUpcalls := (congrArg Tally.upcalls (tally_of_bare bare)).trans reap_upcalls
      have queue : c.sendStreams = (retire index c).sendStreams := by
        have same := congrArg Pipe.sendStreams
          (reap_pipe (c := uncount { c with dispatches := c.dispatches.eraseIdx index }))
        exact same.symm
      exact ⟨moved, left, .quiet sameTable (pendings_of_upcalls sameUpcalls) (own_calls rfl)
        (sends.congr (retired_notices index).symm queue (.of_same rfl rfl) rfl rfl)⟩
  | finish closed unwritten outstanding =>
      exact ⟨[], waiting, .finish closed unwritten outstanding rfl (finish_output output closed)⟩

theorem Move.output (move : Move setup permits c d) (strictly : strict → ¬ permits .abandon)
    (output : Output setup strict c written waiting) :
    ∃ written waiting, Output setup strict d written waiting := by
  obtain ⟨moved, left, traffic⟩ := move.traffic strictly output
  exact ⟨written ++ moved, left, traffic.output⟩

end IceTouch.Connection
