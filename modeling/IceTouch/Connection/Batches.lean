import IceTouch.Connection.Handing

/-!
# Batched requests

The batch messages that were handed over and the batch that is being collected hold the
finished requests in their order. The batch stream belongs to the caller between
`prepareBatchRequest` and `finishBatchRequest`, and the automatic flush cuts it at the marker.
-/

namespace IceTouch.Connection

open Bytes Machine

def OutgoingMessage.isBatch (message : OutgoingMessage) : Bool :=
  message.stream.b.getD 8 0 = requestBatchMsg

/-- The batch messages that were handed to `sendMessage`. -/
def ConnectionI.batchMessages (c : ConnectionI) : List OutgoingMessage :=
  c.handed.filter OutgoingMessage.isBatch

/-- A batch message with the requests of a group: its count is their number, the bytes behind
the count are theirs, and it keeps to the limit. -/
structure Contains (setup : Setup) (message : OutgoingMessage) (group : List (List Byte)) :
    Prop where
  count : intAt message.stream.b headerSize = some (group.length : Int)
  requests : message.stream.b.drop (headerSize + 4) = group.flatten
  bounded : message.stream.b.length ≤ setup.messageSizeMax

def collected (requests : List (List Byte)) : List Byte :=
  requestBatchHdr ++ requests.flatten

/-- The batch of an open connection: `groups` have been handed over, `current` is collected. -/
structure Batching (setup : Setup) (whole : Prop) (c : ConnectionI)
    (groups : List (List (List Byte))) (current : List (List Byte)) : Prop where
  messages : List.Forall₂ (Contains setup) c.batchMessages groups
  history : whole → groups.flatten ++ current = c.batched
  count : c.batch.requestNum = current.length
  nonempty : ∀ request ∈ current, request ≠ []
  idle : c.batch.inUse = false → c.batch.stream = if current = [] then [] else collected current
  lent : c.batch.inUse = true → c.batch.lent = collected current ∧
    c.batch.marker = (collected current).length
  bounded : current ≠ [] → (collected current).length ≤ setup.messageSizeMax

variable {setup : Setup} {whole : Prop} {permits : Fault → Prop} {c d : ConnectionI}
  {groups : List (List (List Byte))} {current : List (List Byte)}

theorem collected_length (requests : List (List Byte)) :
    (collected requests).length = headerSize + 4 + requests.flatten.length := by
  rw [collected, List.length_append]
  rfl

theorem collected_snoc (requests : List (List Byte)) (request : List Byte) :
    collected requests ++ request = collected (requests ++ [request]) := by
  simp [collected]

theorem length_le_flatten {requests : List (List Byte)}
    (nonempty : ∀ request ∈ requests, request ≠ []) : requests.length ≤ requests.flatten.length := by
  induction requests with
  | nil => exact Nat.le_refl _
  | cons request rest ih =>
      have one : 0 < request.length :=
        List.length_pos_iff.mpr (nonempty request List.mem_cons_self)
      have others := ih (fun other inside => nonempty other (List.mem_cons_of_mem _ inside))
      rw [List.flatten_cons, List.length_append, List.length_cons]
      omega

theorem put_count (requests : List (List Byte)) (count : Int) :
    putInt (collected requests) headerSize count =
      header requestBatchMsg 0 0 ++ encodeLE 4 (count % 2 ^ 32).toNat ++ requests.flatten := by
  have split : collected requests =
      header requestBatchMsg 0 0 ++ [0, 0, 0, 0] ++ requests.flatten := rfl
  have fourteen : headerSize = (header requestBatchMsg 0 0).length := rfl
  rw [putInt, split, fourteen]
  exact rewrite_at_hole _ _ _ _ (by simp)

variable {call : Option Call} {batch : Batch} {request : List Byte}

theorem batch_message_contains (stream : batch.stream = collected current)
    (count : batch.requestNum = current.length) (nonempty : ∀ request ∈ current, request ≠ [])
    (bounded : (collected current).length ≤ setup.messageSizeMax) :
    Contains setup (batchMessage call batch) current := by
  have limit := setup.messageSizeMax_le
  have few := length_le_flatten nonempty
  have written : (batchMessage call batch).stream.b = header requestBatchMsg 0 0 ++
      encodeLE 4 ((current.length : Int) % 2 ^ 32).toNat ++ current.flatten := by
    change putInt batch.stream headerSize batch.requestNum = _
    rw [stream, count, put_count]
  rw [collected_length] at bounded
  constructor
  · rw [written]
    exact int_at_word (header requestBatchMsg 0 0) current.flatten (current.length : Int)
      (by omega) (by omega)
  · rw [written]
    exact List.drop_left' (by simp [header, magic, versions, headerSize])
  · rw [written, List.length_append, List.length_append, encode_le_length]
    exact bounded

theorem batch_message_is_batch (stream : batch.stream = collected current) :
    (batchMessage call batch).isBatch = true := by
  change decide ((putInt batch.stream headerSize batch.requestNum).getD 8 0 = _) = true
  rw [stream, put_count]
  rfl

theorem reply_not_batch (requestId : Int) (body : List Byte) (compress : Bool) :
    (ownMessage (replyStream requestId body) compress).isBatch = false := rfl

theorem request_not_batch (async notifies compress response : Bool) (os : RequestStream) :
    (requestMessage async notifies compress response os c).isBatch = false := by
  unfold requestMessage
  split <;> rfl

variable {message : OutgoingMessage}

theorem batch_messages_snoc (handed : d.handed = c.handed ++ [message]) :
    d.batchMessages = c.batchMessages ++ if message.isBatch then [message] else [] := by
  rw [ConnectionI.batchMessages, handed, List.filter_append, ConnectionI.batchMessages]
  simp [List.filter_singleton]

theorem Batching.congr (batching : Batching setup whole c groups current)
    (messages : d.batchMessages = c.batchMessages) (batch : d.batch = c.batch)
    (batched : d.batched = c.batched) : Batching setup whole d groups current where
  messages := messages ▸ batching.messages
  history := batched ▸ batching.history
  count := batch ▸ batching.count
  nonempty := batching.nonempty
  idle := batch ▸ batching.idle
  lent := batch ▸ batching.lent
  bounded := batching.bounded

theorem Batching.empty (messages : List.Forall₂ (Contains setup) d.batchMessages groups)
    (history : whole → groups.flatten = d.batched) (batch : d.batch = Batch.reset false) :
    Batching setup whole d groups [] where
  messages := messages
  history := by
    rw [List.append_nil]
    exact history
  count := by
    rw [batch]
    rfl
  nonempty := by simp
  idle := by
    intro _
    rw [batch]
    rfl
  lent := by
    intro inUse
    rw [batch] at inUse
    cases inUse
  bounded := by simp

theorem Batching.prepared (batching : Batching setup whole c groups current)
    (free : c.exception = none) (prepared : prepareBatchRequest c = some (.ok (), d)) :
    Batching setup whole d groups current := by
  obtain ⟨unused, rfl⟩ := prepare_batch_eq free prepared
  have lends : (if c.batch.stream = [] then requestBatchHdr else c.batch.stream) =
      collected current := by
    rw [batching.idle unused]
    by_cases none_ : current = []
    · rw [if_pos none_, if_pos rfl, none_]
      rfl
    · rw [if_neg none_, if_neg]
      exact List.append_ne_nil_of_left_ne_nil (by decide) _
  constructor
  · exact batching.messages
  · exact batching.history
  · exact batching.count
  · exact batching.nonempty
  · intro unused
    cases unused
  · intro _
    exact ⟨lends, by rw [← lends]⟩
  · exact batching.bounded

theorem Batching.counted (compress : Bool)
    (messages : List.Forall₂ (Contains setup) c.batchMessages groups)
    (history : whole → groups.flatten ++ current = c.batched)
    (count : c.batch.requestNum = current.length)
    (nonempty : ∀ other ∈ current ++ [request], other ≠ [])
    (stream : c.batch.stream = collected (current ++ [request]))
    (bounded : (collected (current ++ [request])).length ≤ setup.messageSizeMax) :
    Batching setup whole (countBatchRequest request compress c) groups (current ++ [request]) := by
  have limit := setup.messageSizeMax_le
  have few := length_le_flatten nonempty
  have small : (current ++ [request]).length ≤ 0x7fffffff := by
    rw [collected_length] at bounded
    omega
  have unwrapped : wrap (c.batch.requestNum + 1) = ((current ++ [request]).length : Int) := by
    rw [count, List.length_append, List.length_singleton] at *
    rw [wrap, BitVec.toInt_ofInt]
    push_cast
    exact Int.bmod_eq_of_le (by omega) (by omega)
  constructor
  · exact messages
  · intro isWhole
    change _ = c.batched ++ [request]
    rw [← history isWhole, List.append_assoc]
  · exact unwrapped
  · exact nonempty
  · intro _
    rw [if_neg (by simp)]
    exact stream
  · intro inUse
    cases inUse
  · intro _
    exact bounded

theorem check_send_size_ok {size : Nat} (fits : checkSendSize setup size = .ok ()) :
    size ≤ setup.messageSizeMax := by
  unfold checkSendSize at fits
  split at fits
  · cases fits
  · next small => exact Nat.not_lt.mp small

theorem fail_late (ex : LocalException) : ¬ (fail setup ex c).state < .closing := by
  have closed : State.closed ≤ (fail setup ex c).state := fail_closed ex
  exact Nat.not_lt.mpr (Nat.le_trans (by decide) closed)

theorem send_message_batch (outcome : WriteOutcome) (message : OutgoingMessage) :
    (sendMessage setup outcome message c).2.batch = c.batch ∧
      (sendMessage setup outcome message c).2.batched = c.batched := by
  have mute : (sendMessage setup outcome message c).2.mute = c.mute :=
    send_message_mute outcome message
  have batch := congrArg ConnectionI.batch mute
  have batched := congrArg ConnectionI.batched mute
  exact ⟨batch, batched⟩

theorem send_for_call_batch (outcome : WriteOutcome) (message : OutgoingMessage)
    (response : Bool) :
    (sendForCall setup outcome message response c).2.batch = c.batch ∧
      (sendForCall setup outcome message response c).2.batched = c.batched := by
  have same := @send_message_batch setup c outcome message
  unfold sendForCall
  generalize sendMessage setup outcome message c = result at same ⊢
  rcases result with ⟨status, after⟩
  cases status with
  | failed ex os =>
      have quiet := @fail_quiet setup
        { after with calls := after.calls ++ [⟨message.requestId, response, false⟩] } ex
      have batch := congrArg ConnectionI.batch quiet
      have batched := congrArg ConnectionI.batched quiet
      exact ⟨batch.trans same.1, batched.trans same.2⟩
  | sent callback => exact same
  | queued => exact same

variable {outcome : WriteOutcome}

theorem send_for_call_thrown {response : Bool} {ex : LocalException} {os : List Byte}
    (thrown : sendForCall setup outcome message response c = (.thrown ex os, d)) :
    .closed ≤ d.state := by
  unfold sendForCall at thrown
  generalize sendMessage setup outcome message c = result at thrown
  rcases result with ⟨status, after⟩
  cases status with
  | failed raised left =>
      cases thrown
      exact fail_closed raised
  | sent callback => cases thrown
  | queued => cases thrown

section

variable (batching : Batching setup whole c groups current)

include batching

theorem Batching.handed (stream : batch.stream = collected current)
    (count : batch.requestNum = current.length) (some_ : current ≠ [])
    (handed : d.handed = c.handed ++ [batchMessage call batch]) :
    List.Forall₂ (Contains setup) d.batchMessages (groups ++ [current]) := by
  rw [batch_messages_snoc handed, batch_message_is_batch stream, if_pos rfl]
  apply List.rel_append batching.messages
  exact .cons (batch_message_contains stream count batching.nonempty (batching.bounded some_)) .nil

theorem Batching.auto_flushed (inUse : c.batch.inUse = true) (some_ : 0 < c.batch.requestNum)
    (open_ : (autoFlush setup outcome (returnBatch request c)).2.state < .closing) :
    List.Forall₂ (Contains setup) (autoFlush setup outcome (returnBatch request c)).2.batchMessages
        (groups ++ [current]) ∧
      (whole → (groups ++ [current]).flatten =
        (autoFlush setup outcome (returnBatch request c)).2.batched) ∧
      ((autoFlush setup outcome (returnBatch request c)).1 = .ok () →
        (autoFlush setup outcome (returnBatch request c)).2.batch =
          { Batch.reset true with stream := collected [request] } ∧
        (collected [request]).length ≤ setup.messageSizeMax) := by
  obtain ⟨lent, marker⟩ := batching.lent inUse
  have someCurrent : current ≠ [] := by
    rw [batching.count] at some_
    exact List.length_pos_iff.mp (by omega)
  have returned : (returnBatch request c).batch.stream = collected current ++ request := by
    rw [← lent]
    rfl
  have cut : (returnBatch request c).batch.stream.drop (returnBatch request c).batch.marker =
      request := by
    rw [returned]
    exact List.drop_left' marker.symm
  have front : (frontBatch (returnBatch request c)).stream = collected current := by
    change (returnBatch request c).batch.stream.take c.batch.marker = _
    rw [returned]
    exact List.take_left' marker.symm
  have handed : (autoFlush setup outcome (returnBatch request c)).2.handed =
      c.handed ++ [batchMessage none (frontBatch (returnBatch request c))] :=
    auto_flush_handed outcome
  refine ⟨batching.handed front batching.count someCurrent handed, ?_⟩
  rw [auto_flush_eq, cut] at open_ ⊢
  obtain ⟨sameBatch, sameBatched⟩ := @send_message_batch setup
    { returnBatch request c with batch := frontBatch (returnBatch request c) } outcome
    (batchMessage none (frontBatch (returnBatch request c)))
  generalize sendMessage setup outcome (batchMessage none (frontBatch (returnBatch request c)))
    { returnBatch request c with batch := frontBatch (returnBatch request c) } = result
    at open_ sameBatch sameBatched ⊢
  rcases result with ⟨status, after⟩
  dsimp only at sameBatch sameBatched
  have restarted : (whole → (groups ++ [current]).flatten =
        (restartBatch setup request after).2.batched) ∧
      ((restartBatch setup request after).1 = .ok () →
        (restartBatch setup request after).2.batch =
          { Batch.reset true with stream := collected [request] } ∧
        (collected [request]).length ≤ setup.messageSizeMax) := by
    have stillInUse : after.batch.inUse = true := by
      rw [sameBatch]
      exact inUse
    have last : requestBatchHdr ++ request = collected [request] := by simp [collected]
    constructor
    · intro isWhole
      obtain ⟨batch, same⟩ : ∃ batch, (restartBatch setup request after).2 =
        { after with batch := batch } := restart_batch_same request
      rw [same]
      change _ = after.batched
      rw [sameBatched, List.flatten_append, List.flatten_singleton]
      exact batching.history isWhole
    · unfold restartBatch
      dsimp only
      split
      · intro fails
        cases fails
      · next small =>
          intro _
          rw [← last]
          refine ⟨?_, ?_⟩
          · rw [stillInUse]
          · rw [List.length_append]
            exact Nat.not_lt.mp small
  cases status with
  | failed ex os => exact absurd open_ (fail_late ex)
  | sent callback => exact restarted
  | queued => exact restarted

theorem Batching.finished {compress : Bool} (inUse : c.batch.inUse = true) (nonempty : request ≠ [])
    (bounded : setup.batchAutoFlush = true ∨
      (c.batch.lent ++ request).length ≤ setup.messageSizeMax) (free : c.exception = none)
    (open_ : (finishBatchRequest setup request compress outcome c).2.state < .closing) :
    ∃ groups current, Batching setup whole
      (finishBatchRequest setup request compress outcome c).2 groups current := by
  obtain ⟨lent, marker⟩ := batching.lent inUse
  have returned : (returnBatch request c).batch.stream = collected (current ++ [request]) := by
    rw [← collected_snoc, ← lent]
    rfl
  have allNonempty : ∀ other ∈ current ++ [request], other ≠ [] := by
    intro other inside
    obtain before | last := List.mem_append.mp inside
    · exact batching.nonempty other before
    · rw [List.mem_singleton.mp last]
      exact nonempty
  rw [finish_batch_eq] at open_ ⊢
  dsimp only at open_ ⊢
  rw [free] at open_ ⊢
  dsimp only at open_ ⊢
  split at open_
  · next fits =>
      have small : (collected (current ++ [request])).length ≤ setup.messageSizeMax := by
        rw [← returned]
        split at fits
        · exact check_send_size_ok fits
        · next manual =>
            obtain automatic | small := bounded
            · exact absurd automatic manual
            · exact small
      exact ⟨groups, current ++ [request], Batching.counted compress batching.messages
        batching.history batching.count allNonempty returned small⟩
  · split at open_
    · next some_ =>
        have stillOpen : (autoFlush setup outcome (returnBatch request c)).2.state < .closing := by
          generalize autoFlush setup outcome (returnBatch request c) = result at open_
          rcases result with ⟨status, after⟩
          cases status <;> exact open_
        obtain ⟨messages, history, restarted⟩ :=
          batching.auto_flushed inUse some_ stillOpen
        rw [if_pos some_]
        generalize autoFlush setup outcome (returnBatch request c) = result
          at messages history restarted ⊢
        rcases result with ⟨status, after⟩
        cases status with
        | error ex => exact ⟨groups ++ [current], [], Batching.empty messages history rfl⟩
        | ok done =>
            obtain ⟨batch, small⟩ := restarted rfl
            refine ⟨groups ++ [current], [] ++ [request], ?_⟩
            apply Batching.counted compress messages
            · rw [List.append_nil]
              exact history
            · rw [batch]
              rfl
            · intro other inside
              rw [List.nil_append, List.mem_singleton] at inside
              rw [inside]
              exact nonempty
            · rw [batch]
              rfl
            · exact small
    · next none_ =>
        have noCurrent : current = [] := by
          change ¬ 0 < c.batch.requestNum at none_
          rw [batching.count] at none_
          exact List.length_eq_zero_iff.mp (by omega)
        rw [if_neg none_]
        refine ⟨groups, [], Batching.empty batching.messages ?_ rfl⟩
        intro isWhole
        rw [← List.append_nil groups.flatten, ← noCurrent]
        exact batching.history isWhole

theorem Batching.flushed {async notifies : Bool} {result : CallResult} (free : c.exception = none)
    (flushed : flushBatch setup async notifies outcome c = some (result, d))
    (open_ : d.state < .closing) : ∃ groups current, Batching setup whole d groups current := by
  obtain ⟨unused, handed⟩ := flush_handed free flushed
  obtain ⟨_, ⟨_, same⟩ | ⟨some_, sent, isSent, rest⟩⟩ := flush_batch_cases free flushed
  · refine ⟨groups, current, batching.congr ?_ ?_ ?_⟩
    · rw [same]
      rfl
    · rw [same]
    · rw [same]
  · have someCurrent : current ≠ [] := by
      intro none_
      rw [batching.count, none_] at some_
      exact some_ rfl
    have stream : c.batch.stream = collected current := by
      rw [batching.idle unused, if_neg someCurrent]
    have handedOver : d.handed = c.handed ++
        [batchMessage (some ⟨c.calls.length, async, notifies⟩) c.batch] := by
      obtain ⟨none_, _⟩ | ⟨_, handed⟩ := handed
      · exact absurd none_ some_
      · exact handed
    obtain ⟨sameBatch, sameBatched⟩ := @send_for_call_batch setup (swapBatch c) outcome
      (batchMessage (some ⟨c.calls.length, async, notifies⟩) c.batch) false
    rw [isSent] at sameBatch sameBatched
    dsimp only at sameBatch sameBatched
    obtain ⟨rfl, ex, os, rfl⟩ | ⟨rfl, _⟩ := rest
    · have closed := send_for_call_thrown isSent
      exact absurd open_ (Nat.not_lt.mpr (Nat.le_trans (by decide) closed))
    · refine ⟨groups ++ [current], [], Batching.empty ?_ ?_ ?_⟩
      · exact batching.handed stream batching.count someCurrent handedOver
      · intro isWhole
        change _ = sent.batched
        rw [sameBatched, List.flatten_append, List.flatten_singleton]
        exact batching.history isWhole
      · change Batch.reset sent.batch.inUse = _
        rw [sameBatch]
        exact congrArg Batch.reset unused

end

def ConnectionI.basket (c : ConnectionI) : Batch × List (List Byte) := (c.batch, c.batched)

theorem basket_of_bare (same : d.bare = c.bare) : d.basket = c.basket := by
  have baskets := congrArg ConnectionI.basket same
  exact baskets

theorem Batching.same (batching : Batching setup whole c groups current)
    (handed : d.handed = c.handed) (basket : d.basket = c.basket) :
    Batching setup whole d groups current := by
  refine batching.congr ?_ (congrArg Prod.fst basket) (congrArg Prod.snd basket)
  rw [ConnectionI.batchMessages, handed]
  rfl

theorem Batching.other (batching : Batching setup whole c groups current)
    (handed : d.handed = c.handed ++ [message]) (single : message.isBatch = false)
    (basket : d.basket = c.basket) : Batching setup whole d groups current := by
  refine batching.congr ?_ (congrArg Prod.fst basket) (congrArg Prod.snd basket)
  rw [batch_messages_snoc handed, single]
  simp

theorem fail_basket (ex : LocalException) : (fail setup ex c).basket = c.basket :=
  basket_of_bare (bare_of_quiet (fail_quiet ex))

theorem send_own_basket (outcome : WriteOutcome) (message : OutgoingMessage) :
    (sendOwn setup outcome message c).basket = c.basket := by
  have sent : (sendMessage setup outcome message c).2.basket = c.basket :=
    basket_of_bare (bare_of_mute (send_message_mute outcome message))
  unfold sendOwn
  generalize sendMessage setup outcome message c = result at sent ⊢
  rcases result with ⟨status, after⟩
  cases status with
  | failed ex os => exact (fail_basket ex).trans sent
  | sent callback => exact sent
  | queued => exact sent

theorem enroll_basket (response : Bool) (requestId : Int) (call : Call) :
    (enroll response requestId call c).basket = c.basket := by
  unfold enroll register
  split
  · split <;> rfl
  · rfl

theorem issue_basket (response : Bool) : (issue response c).basket = c.basket := by
  unfold issue
  split <;> rfl

theorem send_call_basket {async notifies compress response : Bool} {os : RequestStream}
    (free : c.exception = none) (fits : checkSendSize setup os.bytes.length = .ok ()) :
    (sendCall setup async notifies compress response os outcome c).2.basket = c.basket := by
  obtain ⟨batch, batched⟩ : (sendForCall setup outcome
      (requestMessage async notifies compress response os c) response (issue response c)).2.batch =
        (issue response c).batch ∧ (sendForCall setup outcome
      (requestMessage async notifies compress response os c) response
        (issue response c)).2.batched = (issue response c).batched :=
    send_for_call_batch outcome _ response
  have sent : (sendForCall setup outcome (requestMessage async notifies compress response os c)
      response (issue response c)).2.basket = c.basket := by
    have issued : (issue response c).basket = c.basket := issue_basket response
    rw [← issued, ConnectionI.basket, batch, batched]
    rfl
  rw [send_call_eq free fits]
  generalize sendForCall setup outcome (requestMessage async notifies compress response os c)
    response (issue response c) = result at sent ⊢
  rcases result with ⟨status, after⟩
  cases status with
  | thrown ex os => exact sent
  | sent callback => exact (enroll_basket _ _ _).trans sent
  | queued => exact (enroll_basket _ _ _).trans sent
  | refused ex => exact (enroll_basket _ _ _).trans sent

theorem Parses.basket {refusal : Option LocalException}
    {opened : Except LocalException (List Byte)} {parsed : Parsed}
    (parses : Parses setup refusal c opened parsed d) : d.basket = c.basket := by
  cases parses with
  | failed => exact fail_basket _
  | closes => exact fail_basket _
  | ignored | request | batch | asyncReply | syncReply => rfl

theorem processed_basket (ready : Ready) : (processed setup ready c).basket = c.basket := by
  obtain ⟨buffer, delivered, stream, consumed, isReceived⟩ := received_eq setup ready c
  have parsed : (parsedState setup ready c).basket = c.basket := by
    have same : (received setup ready c).basket = c.basket := by
      rw [isReceived]
      rfl
    rw [← same]
    unfold parsedState parsePart
    split
    · exact (parse_message_spec _).basket
    · rfl
  have sent : (sendPart setup ready (parsedState setup ready c)).2.basket = c.basket :=
    (basket_of_bare (send_part_bare ready)).trans parsed
  have counted (callbacks : List Call) (parsed : Parsed) (e : ConnectionI) :
      (countCallbacks callbacks parsed e).basket = e.basket := by
    unfold countCallbacks
    split <;> rfl
  rw [processed_eq]
  exact (counted _ _ _).trans sent

theorem reap_basket : (reapWhenIdle c).basket = c.basket := by
  unfold reapWhenIdle
  split <;> rfl

def Batched (setup : Setup) (whole : Prop) (c : ConnectionI) : Prop :=
  c.state < .closing → ∃ groups current, Batching setup whole c groups current

/-- What a move does to the batch of a connection that stays open: nothing, with at most one other
message handed over, or one of the operations on it. -/
inductive Handles (setup : Setup) (permits : Fault → Prop) : ConnectionI → ConnectionI → Prop
  | kept {c d : ConnectionI} (handed : d.handed = c.handed) (basket : d.basket = c.basket) :
      Handles setup permits c d
  | other {c d : ConnectionI} {message : OutgoingMessage} (handed : d.handed = c.handed ++ [message])
      (single : message.isBatch = false) (basket : d.basket = c.basket) : Handles setup permits c d
  | prepared {c d : ConnectionI} (free : c.exception = none)
      (prepared : prepareBatchRequest c = some (.ok (), d)) : Handles setup permits c d
  | finished {c : ConnectionI} {written : List Byte} {compress : Bool} {outcome : WriteOutcome}
      (inUse : c.batch.inUse = true) (nonempty : written ≠ [])
      (bounded : setup.batchAutoFlush = true ∨
        (c.batch.lent ++ written).length ≤ setup.messageSizeMax)
      (free : c.exception = none) :
      Handles setup permits c (finishBatchRequest setup written compress outcome c).2
  | aborted {c : ConnectionI} (permitted : permits .abort) :
      Handles setup permits c (abortBatchRequest c)
  | flushed {c d : ConnectionI} {async notifies : Bool} {outcome : WriteOutcome}
      {result : CallResult} (free : c.exception = none)
      (flushed : flushBatch setup async notifies outcome c = some (result, d)) :
      Handles setup permits c d

theorem Move.handles (move : Move setup permits c d) (openBefore : c.state < .closing)
    (_open : d.state < .closing) : Handles setup permits c d := by
  cases move with
  | life unchanged =>
      exact .kept (congrArg Pipe.handed (pipe_of_still unchanged))
        (basket_of_bare (bare_of_still unchanged))
  | validated | dropped | upcall | throws | callbacks | invoke => exact .kept rfl rfl
  | shutdown closing =>
      rw [closing] at openBefore
      exact absurd openBefore (by decide)
  | @call async notifies compress response os outcome _ _ free =>
      cases fits : checkSendSize setup os.bytes.length with
      | error ex =>
          rw [send_call_refused free fits]
          exact .kept rfl rfl
      | ok done =>
          exact .other (send_call_handed free fits) (request_not_batch _ _ _ _ _)
            (send_call_basket free fits)
  | prepareBatch _ free prepared => exact .prepared free prepared
  | finishBatch inUse nonempty bounded free =>
      exact .finished inUse nonempty bounded (free.mpr openBefore)
  | abort _ permitted => exact .aborted permitted
  | flush _ free _ flushed => exact .flushed free flushed
  | write _ _ wrote =>
      obtain ⟨buffer, delivered, rfl⟩ := advanced_of_write wrote
      exact .kept rfl rfl
  | abandon _ _ wrote =>
      obtain ⟨buffer, delivered, rfl⟩ := advanced_of_write wrote
      exact .kept rfl rfl
  | read _ took =>
      obtain ⟨stream, consumed, rfl⟩ := left_by_read took
      exact .kept rfl rfl
  | process => exact .kept (processed_handed _) (processed_basket _)
  | forget => exact .kept (congrArg Pipe.handed reap_pipe) reap_basket
  | done =>
      unfold retireUpcall
      split
      · exact .kept (congrArg Pipe.handed reap_pipe) reap_basket
      · exact .kept rfl rfl
  | answered => exact .kept (congrArg Pipe.handed reap_pipe) reap_basket
  | @replied index dispatch body outcome =>
      have retired : (retire index c).handed = c.handed := congrArg Pipe.handed reap_pipe
      apply Handles.other (by rw [send_own_handed, retired]) (reply_not_batch _ _ _)
      rw [send_own_basket]
      exact reap_basket
  | finish closed =>
      rw [closed] at openBefore
      exact absurd openBefore (by decide)

theorem Move.open_before (move : Move setup permits c d) (open_ : d.state < .closing) :
    c.state < .closing := by
  obtain onward | ⟨closed, rfl⟩ := move.onward
  · exact onward.unclosing_before open_
  · rw [finish_state closed] at open_
    exact absurd open_ (by decide)

theorem Move.batched (move : Move setup permits c d) (wholly : whole → ¬ permits .abort)
    (batched : Batched setup whole c) : Batched setup whole d := by
  intro open_
  have openBefore : c.state < .closing := move.open_before open_
  obtain ⟨groups, current, batching⟩ := batched openBefore
  have handles : Handles setup permits c d := move.handles openBefore open_
  cases handles with
  | kept handed basket => exact ⟨groups, current, batching.same handed basket⟩
  | other handed single basket => exact ⟨groups, current, batching.other handed single basket⟩
  | prepared free prepared => exact ⟨groups, current, batching.prepared free prepared⟩
  | finished inUse nonempty bounded free =>
      exact batching.finished inUse nonempty bounded free open_
  | aborted permitted =>
      refine ⟨groups, [], Batching.empty batching.messages ?_ rfl⟩
      intro isWhole
      exact absurd permitted (wholly isWhole)
  | flushed free flushed => exact batching.flushed free flushed open_

theorem batched_initial : Batched setup whole .initial := by
  intro _
  exact ⟨[], [], Batching.empty .nil (fun _ => rfl) rfl⟩

/-- While the connection is open and no batch is given up, the batch messages handed over so far
and the batch stream hold the finished requests in the order in which they were finished. The
count of each message and of the stream is the number of requests in it, and no message
exceeds the limit. -/
theorem batches_lose_nothing
    (reached : Reach (step setup) (Avoids setup [.abort]) .initial c) (open_ : c.state < .closing) :
    ∃ groups current, List.Forall₂ (Contains setup) c.batchMessages groups ∧
      groups.flatten ++ current = c.batched ∧ c.batch.requestNum = current.length ∧
      (c.batch.inUse = false →
        c.batch.stream = if current = [] then [] else requestBatchHdr ++ current.flatten) ∧
      (c.batch.inUse = true → c.batch.lent = requestBatchHdr ++ current.flatten) := by
  have batched : Batched setup True c := by
    apply invariant_of_moves reached batched_initial
    intro before after batched move
    apply move.batched _ batched
    intro _ permitted
    exact permitted (List.mem_singleton_self _)
  obtain ⟨groups, current, batching⟩ := batched open_
  exact ⟨groups, current, batching.messages, batching.history trivial, batching.count,
    batching.idle, fun inUse => (batching.lent inUse).1⟩

/-- Two requests are batched and flushed while the transceiver takes nothing, and a third one
is batched. -/
def batchedRun : List Event :=
  [.start true .done .done, .prepareBatchRequest, .finishBatchRequest [1, 2] false noWrite,
    .prepareBatchRequest, .finishBatchRequest [3] false noWrite, .flushBatchRequests noWrite,
    .prepareBatchRequest, .finishBatchRequest [4] false noWrite]

theorem batched_run_loses_nothing :
    ∃ c, runAll (step tcpSetup) batchedRun .initial = some c ∧ c.state < .closing ∧
      c.batched = [[1, 2], [3], [4]] ∧ c.batchMessages.length = 1 ∧
      ∃ groups current, List.Forall₂ (Contains tcpSetup) c.batchMessages groups ∧
        groups.flatten ++ current = c.batched ∧ c.batch.requestNum = current.length := by
  have ran : (runAll (step tcpSetup) batchedRun .initial).isSome = true := by decide
  obtain ⟨c, isResult⟩ := Option.isSome_iff_exists.mp ran
  have reached : Reach (step tcpSetup) (Avoids tcpSetup [.abort]) .initial c := by
    apply reach_of_run isResult
    intro event inside state fault isFault committed
    rw [List.mem_singleton.mp isFault] at committed
    rw [show event = .abortBatchRequest from committed] at inside
    revert inside
    decide
  have facts : (runAll (step tcpSetup) batchedRun .initial).map
      (fun c => (c.state, c.batched, c.batchMessages.length)) =
        some (.holding, [[1, 2], [3], [4]], 1) := by decide
  rw [isResult] at facts
  simp only [Option.map_some, Option.some.injEq, Prod.mk.injEq] at facts
  obtain ⟨holding, batched, one⟩ := facts
  have open_ : c.state < .closing := by
    rw [holding]
    decide
  obtain ⟨groups, current, messages, history, count, _⟩ := batches_lose_nothing reached open_
  exact ⟨c, isResult, open_, batched, one, groups, current, messages, history, count⟩

end IceTouch.Connection
