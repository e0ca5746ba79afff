import IceTouch.Connection.Traffic

/-!
# Outstanding requests and their replies

The two request maps share one space of ids. As long as no request takes the id of an
outstanding one, the hints find what a plain lookup finds, and a reply completes the request
that was sent with its id.
-/

namespace IceTouch.Connection

open Bytes Machine

/-- All outstanding two-way requests. -/
def Table.entries (table : Table) : List (Int × Call) :=
  table.requests.entries ++ table.asyncRequests.entries

/-- The outstanding requests have distinct positive ids, and each stands under the id with which
it was sent; an iterator of a hint is valid. -/
structure Enrolled (table : Table) : Prop where
  distinct : (OrderedMap.keys table.entries).Nodup
  positive : ∀ entry ∈ table.entries, 0 < entry.1
  sent : ∀ entry ∈ table.entries, table.calls[entry.2.serial]? = some ⟨entry.1, true, true⟩
  synchronous : ∀ entry ∈ table.requests.entries, entry.2.async = false
  asynchronous : ∀ entry ∈ table.asyncRequests.entries, entry.2.async = true
  hint : ∀ key, table.requests.hint = some key →
    key ∈ OrderedMap.keys table.requests.entries
  asyncHint : ∀ key, table.asyncRequests.hint = some key →
    key ∈ OrderedMap.keys table.asyncRequests.entries

def plainLookup (requestId : Int) (c : ConnectionI) : Option Call :=
  match c.requests.find requestId with
  | some call => some call
  | none => c.asyncRequests.find requestId

variable {setup : Setup} {permits : Fault → Prop} {c d : ConnectionI} {table : Table}
  {requestId : Int} {call : Call}

theorem plain_of_async (distinct : (OrderedMap.keys c.table.entries).Nodup)
    (found : c.asyncRequests.find requestId = some call) : plainLookup requestId c = some call := by
  have inAsync := OrderedMap.mem_keys (OrderedMap.mem_of_find found)
  have notInRequests : c.requests.find requestId = none := by
    apply (OrderedMap.find_eq_none _ _).mpr
    intro inRequests
    unfold OrderedMap.keys Table.entries at distinct
    rw [List.map_append, List.nodup_append] at distinct
    exact distinct.2.2 _ inRequests _ inAsync rfl
  rw [plainLookup, notInRequests]
  exact found

theorem lookup_is_plain (distinct : (OrderedMap.keys c.table.entries).Nodup) (requestId : Int) :
    lookupReply requestId c = plainLookup requestId c := by
  have hinted (map : RequestMap) (call : Call) (isHinted : map.hinted requestId = some call) :
      map.find requestId = some call := by
    unfold RequestMap.hinted at isHinted
    split at isHinted
    · exact isHinted
    · cases isHinted
  unfold lookupReply
  split
  · next call isHinted =>
      rw [plainLookup, hinted c.requests call isHinted]
  · split
    · next call isHinted =>
        exact (plain_of_async distinct (hinted c.asyncRequests call isHinted)).symm
    · rfl

theorem plain_mem (found : plainLookup requestId c = some call) :
    (requestId, call) ∈ c.table.entries := by
  unfold plainLookup at found
  split at found
  · next isFound =>
      cases found
      exact List.mem_append_left _ (OrderedMap.mem_of_find isFound)
  · exact List.mem_append_right _ (OrderedMap.mem_of_find found)

theorem taken_positive (next : Int) : 0 < takenId next := by
  unfold takenId
  split <;> omega

theorem Enrolled.more (enrolled : Enrolled table) (record : CallRecord) (next : Int) :
    Enrolled { table with calls := table.calls ++ [record], nextRequestId := next } where
  distinct := enrolled.distinct
  positive := enrolled.positive
  sent := by
    intro entry inside
    have known := enrolled.sent entry inside
    exact List.getElem?_append_left (List.getElem?_eq_some_iff.mp known).1 ▸ known
  synchronous := enrolled.synchronous
  asynchronous := enrolled.asynchronous
  hint := enrolled.hint
  asyncHint := enrolled.asyncHint

variable {map : RequestMap} {async response : Bool} {outcome : WriteOutcome} {next : Int}

theorem insert_hint (fresh : requestId ∉ OrderedMap.keys map.entries) (key : Int)
    (isHint : (map.insert requestId call).hint = some key) :
    key ∈ OrderedMap.keys (map.insert requestId call).entries := by
  have same : requestId = key := Option.some.inj isHint
  have inside : (requestId, call) ∈ (map.insert requestId call).entries :=
    (OrderedMap.insert_perm call fresh).mem_iff.mpr List.mem_cons_self
  rw [← same]
  exact OrderedMap.mem_keys inside

theorem Enrolled.register (enrolled : Enrolled table) (call : Call)
    (freshSync : requestId ∉ OrderedMap.keys table.requests.entries)
    (freshAsync : requestId ∉ OrderedMap.keys table.asyncRequests.entries)
    (positive : 0 < requestId) (sent : table.calls[call.serial]? = some ⟨requestId, true, true⟩) :
    Enrolled (if call.async then
      { table with asyncRequests := table.asyncRequests.insert requestId call }
      else { table with requests := table.requests.insert requestId call }) := by
  generalize isAfter : (if call.async then
    { table with asyncRequests := table.asyncRequests.insert requestId call }
    else { table with requests := table.requests.insert requestId call }) = after
  have more : after.entries.Perm ((requestId, call) :: table.entries) := by
    rw [← isAfter]
    split
    · have added : (table.requests.entries ++
          (table.asyncRequests.insert requestId call).entries).Perm
          (table.requests.entries ++ (requestId, call) :: table.asyncRequests.entries) :=
        (OrderedMap.insert_perm call freshAsync).append_left _
      exact added.trans List.perm_middle
    · exact (OrderedMap.insert_perm call freshSync).append_right _
  have sameCalls : after.calls = table.calls := by
    rw [← isAfter]
    split <;> rfl
  have fresh : requestId ∉ OrderedMap.keys table.entries := by
    unfold OrderedMap.keys Table.entries
    rw [List.map_append, List.mem_append, not_or]
    exact ⟨freshSync, freshAsync⟩
  constructor
  · have keys : (OrderedMap.keys after.entries).Perm
        (requestId :: OrderedMap.keys table.entries) := more.map Prod.fst
    exact keys.nodup_iff.mpr (List.nodup_cons.mpr ⟨fresh, enrolled.distinct⟩)
  · intro entry inside
    obtain rfl | old := List.mem_cons.mp (more.mem_iff.mp inside)
    · exact positive
    · exact enrolled.positive entry old
  · intro entry inside
    rw [sameCalls]
    obtain rfl | old := List.mem_cons.mp (more.mem_iff.mp inside)
    · exact sent
    · exact enrolled.sent entry old
  · intro entry inside
    rw [← isAfter] at inside
    split at inside
    · exact enrolled.synchronous entry inside
    · next isSync =>
        obtain rfl | old := List.mem_cons.mp
          ((OrderedMap.insert_perm call freshSync).mem_iff.mp inside)
        · exact Bool.eq_false_iff.mpr isSync
        · exact enrolled.synchronous entry old
  · intro entry inside
    rw [← isAfter] at inside
    split at inside
    · next isAsync =>
        obtain rfl | old := List.mem_cons.mp
          ((OrderedMap.insert_perm call freshAsync).mem_iff.mp inside)
        · exact isAsync
        · exact enrolled.asynchronous entry old
    · exact enrolled.asynchronous entry inside
  · rw [← isAfter]
    split
    · exact enrolled.hint
    · exact insert_hint freshSync
  · rw [← isAfter]
    split
    · exact insert_hint freshAsync
    · exact enrolled.asyncHint

theorem erase_sublist (requestId : Int) (map : RequestMap) :
    (map.erase requestId).entries.Sublist map.entries :=
  List.filter_sublist

theorem erase_hint (requestId : Int)
    (valid : ∀ key, map.hint = some key → key ∈ OrderedMap.keys map.entries) (key : Int)
    (isHint : (map.erase requestId).hint = some key) :
    key ∈ OrderedMap.keys (map.erase requestId).entries := by
  have kept (other : key ≠ requestId) (before : key ∈ OrderedMap.keys map.entries) :
      key ∈ OrderedMap.keys (map.erase requestId).entries := by
    obtain ⟨entry, inside, isKey⟩ := List.mem_map.mp before
    apply List.mem_map.mpr
    refine ⟨entry, (OrderedMap.mem_erase _ _ _).mpr ⟨inside, ?_⟩, isKey⟩
    rw [isKey]
    exact other
  unfold RequestMap.erase at isHint
  dsimp only at isHint
  split at isHint
  · obtain ⟨before, beyond⟩ := OrderedMap.next_mem isHint
    exact kept beyond.ne' before
  · next other =>
      apply kept _ (valid key isHint)
      intro same
      rw [same] at isHint
      exact other isHint

theorem Enrolled.erase_sync (enrolled : Enrolled table) (requestId : Int) :
    Enrolled { table with requests := table.requests.erase requestId } := by
  have fewer : (Table.entries { table with requests := table.requests.erase requestId }).Sublist
      table.entries := (erase_sublist requestId table.requests).append_right _
  constructor
  · exact enrolled.distinct.sublist (fewer.map Prod.fst)
  · exact fun entry inside => enrolled.positive entry (fewer.subset inside)
  · exact fun entry inside => enrolled.sent entry (fewer.subset inside)
  · exact fun entry inside => enrolled.synchronous entry ((erase_sublist _ _).subset inside)
  · exact enrolled.asynchronous
  · exact erase_hint requestId enrolled.hint
  · exact enrolled.asyncHint

theorem Enrolled.erase_async (enrolled : Enrolled table) (requestId : Int) :
    Enrolled { table with asyncRequests := table.asyncRequests.erase requestId } := by
  have fewer : (Table.entries { table with
      asyncRequests := table.asyncRequests.erase requestId }).Sublist table.entries :=
    (erase_sublist requestId table.asyncRequests).append_left _
  constructor
  · exact enrolled.distinct.sublist (fewer.map Prod.fst)
  · exact fun entry inside => enrolled.positive entry (fewer.subset inside)
  · exact fun entry inside => enrolled.sent entry (fewer.subset inside)
  · exact enrolled.synchronous
  · exact fun entry inside => enrolled.asynchronous entry ((erase_sublist _ _).subset inside)
  · exact enrolled.hint
  · exact erase_hint requestId enrolled.asyncHint

theorem Enrolled.none (calls : List CallRecord) (next : Int) :
    Enrolled ⟨next, ⟨[], none⟩, ⟨[], none⟩, calls⟩ := by
  constructor <;> simp [Table.entries, OrderedMap.keys]

def Answers (calls : List CallRecord) (serial : Nat) (stream : List Byte) : Prop :=
  ∃ requestId, calls[serial]? = some ⟨requestId, true, true⟩ ∧
    intAt stream headerSize = some requestId

theorem Answers.more {calls : List CallRecord} {serial : Nat} {stream : List Byte}
    (answers : Answers calls serial stream) (more : List CallRecord) :
    Answers (calls ++ more) serial stream := by
  obtain ⟨requestId, known, isId⟩ := answers
  refine ⟨requestId, ?_, isId⟩
  rw [List.getElem?_append_left (List.getElem?_eq_some_iff.mp known).1]
  exact known

/-- Every outstanding request stands under its id, and every reply that was passed on, or is
about to be, has the id of its request. -/
structure Matched (c : ConnectionI) : Prop where
  enrolled : Enrolled c.table
  pending : ∀ reply ∈ c.pendings, Answers c.calls reply.1.serial reply.2
  told : ∀ serial stream, .replied serial stream ∈ c.notices → Answers c.calls serial stream

def Unreplied (notices : List Notice) : Prop :=
  ∀ serial stream, .replied serial stream ∉ notices

theorem sent_unreplied (moved : List OutgoingMessage) :
    Unreplied (moved.flatMap OutgoingMessage.sentNotices) := by
  intro serial stream inside
  obtain ⟨message, _, told⟩ := List.mem_flatMap.mp inside
  unfold OutgoingMessage.sentNotices at told
  split at told
  · cases told
  · simp at told

theorem failed_unreplied (ex : LocalException) (queue : List OutgoingMessage) :
    Unreplied (queue.flatMap (OutgoingMessage.failedNotices ex)) := by
  intro serial stream inside
  obtain ⟨message, _, told⟩ := List.mem_flatMap.mp inside
  unfold OutgoingMessage.failedNotices at told
  split at told
  · cases told
  · simp at told

theorem outstanding_unreplied (ex : LocalException) (entries : List (Int × Call)) :
    Unreplied (entries.map fun entry => .failed entry.2.serial ex true) := by
  intro serial stream inside
  obtain ⟨entry, _, told⟩ := List.mem_map.mp inside
  cases told

theorem Unreplied.append {first second : List Notice} (left : Unreplied first)
    (right : Unreplied second) : Unreplied (first ++ second) := by
  intro serial stream inside
  obtain before | after := List.mem_append.mp inside
  · exact left serial stream before
  · exact right serial stream after

theorem Matched.kept (matched : Matched c) (enrolled : Enrolled d.table)
    (calls : ∃ more, d.calls = c.calls ++ more) (pendings : d.pendings.Sublist c.pendings)
    {added : List Notice} (notices : d.notices = c.notices ++ added)
    (unreplied : Unreplied added) : Matched d := by
  obtain ⟨more, isMore⟩ := calls
  refine ⟨enrolled, ?_, ?_⟩
  · intro reply inside
    rw [isMore]
    exact (matched.pending reply (pendings.subset inside)).more more
  · intro serial stream told
    rw [isMore]
    rw [notices, List.mem_append] at told
    obtain before | after := told
    · exact (matched.told serial stream before).more more
    · exact absurd after (unreplied serial stream)

variable {notifies : Bool}

theorem Enrolled.called {accepted : Bool} (enrolled : Enrolled c.table)
    (fresh : response = true → ¬ Reuses c) :
    Enrolled (enroll (response && accepted) (takenId c.nextRequestId)
      ⟨c.calls.length, async, notifies⟩
      (note (if response then takenId c.nextRequestId else 0) response accepted
        (issue response c))).table := by
  cases response with
  | false => exact enrolled.more ⟨0, false, accepted⟩ c.nextRequestId
  | true =>
      have unused := not_or.mp (fresh rfl)
      have more := enrolled.more ⟨takenId c.nextRequestId, true, accepted⟩
        (followingId c.nextRequestId)
      cases accepted with
      | false => exact more
      | true =>
          have known : (c.calls ++ [(⟨takenId c.nextRequestId, true, true⟩ : CallRecord)])[
              c.calls.length]? = some ⟨takenId c.nextRequestId, true, true⟩ :=
            List.getElem?_concat_length
          have registered := more.register ⟨c.calls.length, async, notifies⟩ unused.1 unused.2
            (taken_positive _) known
          cases async with
          | false => exact registered
          | true => exact registered

theorem enrolled_calls {accepted : Bool} :
    (enroll (response && accepted) (takenId c.nextRequestId) ⟨c.calls.length, async, notifies⟩
      (note (if response then takenId c.nextRequestId else 0) response accepted
        (issue response c))).calls =
      c.calls ++ [⟨if response then takenId c.nextRequestId else 0, response, accepted⟩] := by
  unfold enroll register issue
  cases response <;> cases accepted <;> cases async <;> rfl

theorem Matched.answers (matched : Matched c) {stream : List Byte}
    (isId : intAt stream headerSize = some requestId)
    (found : lookupReply requestId c = some call) :
    Answers c.calls call.serial stream := by
  rw [lookup_is_plain matched.enrolled.distinct] at found
  exact ⟨requestId, matched.enrolled.sent _ (plain_mem found), isId⟩

theorem Traffic.matched {strict : Prop} {written waiting moved left : List OutgoingMessage}
    (traffic : Traffic setup strict permits c d written waiting moved left)
    (fresh : ¬ permits .reuse) (matched : Matched c) : Matched d := by
  have same (table : d.table = c.table) : Enrolled d.table ∧ ∃ more, d.calls = c.calls ++ more := by
    have calls : d.calls = c.calls := congrArg Table.calls table
    rw [table]
    exact ⟨matched.enrolled, [], calls.trans (List.append_nil _).symm⟩
  have noted {accepted : Bool} (table : d.table = (note 0 false accepted c).table) :
      Enrolled d.table ∧ ∃ more, d.calls = c.calls ++ more := by
    have calls := congrArg Table.calls table
    rw [table]
    exact ⟨matched.enrolled.more _ _, _, calls⟩
  cases traffic with
  | quiet table pendings _ sends =>
      exact matched.kept (same table).1 (same table).2 (pendings ▸ .refl _) sends.notices
        (sent_unreplied _)
  | call _ fresher table pendings sends =>
      have calls := (congrArg Table.calls table).trans enrolled_calls
      refine matched.kept ?_ ⟨_, calls⟩ (pendings ▸ .refl _) sends.notices (sent_unreplied _)
      rw [table]
      exact matched.enrolled.called (fun response reused => fresh (fresher response reused))
  | flushed table pendings notices =>
      refine matched.kept (noted table).1 (noted table).2 (pendings ▸ .refl _) notices ?_
      intro serial stream inside
      simp at inside
  | flush _ table pendings sends =>
      exact matched.kept (noted table).1 (noted table).2 (pendings ▸ .refl _) sends.notices
        (sent_unreplied _)
  | asyncReply _ isId found _ table pendings sends =>
      have calls : d.calls = c.calls := congrArg Table.calls table
      refine ⟨table ▸ matched.enrolled.erase_async _, ?_, ?_⟩
      · intro reply inside
        rw [calls]
        rw [pendings, List.mem_append, List.mem_singleton] at inside
        obtain before | rfl := inside
        · exact matched.pending reply before
        · exact matched.answers isId found
      · intro serial stream told
        rw [calls]
        rw [sends.notices, List.mem_append] at told
        obtain before | sent := told
        · exact matched.told serial stream before
        · exact absurd sent (sent_unreplied _ serial stream)
  | syncReply _ isId found _ table pendings sends =>
      have calls : d.calls = c.calls := congrArg Table.calls table
      refine ⟨table ▸ matched.enrolled.erase_sync _, ?_, ?_⟩
      · intro reply inside
        rw [calls]
        rw [pendings] at inside
        exact matched.pending reply inside
      · intro serial stream told
        rw [calls]
        rw [sends.notices, List.mem_append, List.mem_append, List.mem_singleton] at told
        obtain (before | now) | sent := told
        · exact matched.told serial stream before
        · cases now
          exact matched.answers isId found
        · exact absurd sent (sent_unreplied _ serial stream)
  | callbacks table pendings notices =>
      have calls : d.calls = c.calls := congrArg Table.calls table
      refine ⟨(same table).1, ?_, ?_⟩
      · intro reply inside
        rw [calls]
        exact matched.pending reply (pendings.mem_iff.mpr (List.mem_cons_of_mem _ inside))
      · intro serial stream told
        rw [calls]
        rw [notices, List.mem_append, List.mem_singleton] at told
        obtain before | now := told
        · exact matched.told serial stream before
        · cases now
          exact matched.pending _ (pendings.mem_iff.mpr List.mem_cons_self)
  | lost _ table pendings notices =>
      refine matched.kept (same table).1 (same table).2 pendings
        (notices.trans (List.append_nil _).symm) ?_
      intro serial stream inside
      cases inside
  | finish closed _ _ ended =>
      obtain ⟨notices, table, pendings, _⟩ : (Connection.finish setup c).notices = _ ∧
          (Connection.finish setup c).table = _ ∧ (Connection.finish setup c).pendings = _ ∧ _ :=
        finish_spec closed
      rw [← ended] at notices table pendings
      rw [finish_calls_notices, List.append_assoc] at notices
      rw [finish_calls_table] at table
      have calls : d.calls = c.calls := congrArg Table.calls table
      exact matched.kept (table ▸ .none _ _) ⟨[], calls.trans (List.append_nil _).symm⟩
        (pendings ▸ .refl _) notices
        ((failed_unreplied _ _).append (outstanding_unreplied _ _))

theorem matched_initial : Matched .initial :=
  ⟨.none [] 1, by simp [ConnectionI.pendings, ConnectionI.initial], by simp [ConnectionI.initial]⟩

theorem matched_of_reached (reached : Reach (step setup) (Avoids setup [.reuse]) .initial c) :
    (∃ written waiting, Output setup False c written waiting) ∧ Matched c := by
  apply invariant_of_moves reached
  · exact ⟨⟨[], [], output_initial⟩, matched_initial⟩
  · rintro before after ⟨⟨written, waiting, output⟩, matched⟩ move
    obtain ⟨moved, left, traffic⟩ : ∃ moved left, Traffic setup False _ before after written
      waiting moved left := move.traffic False.elim output
    refine ⟨⟨_, _, traffic.output⟩, traffic.matched ?_ matched⟩
    exact fun permitted => permitted List.mem_cons_self

/-- What `parseReply` does with a reply for a call: the call is told, or passed on to `dispatch`,
and is no longer outstanding; every other call stays. -/
structure Completes (requestId : Int) (call : Call) (stream : List Byte) (c : ConnectionI)
    (result : Except LocalException Parsed × ConnectionI) : Prop where
  remaining : result.2.table.entries = c.table.entries.filter fun entry => entry.1 ≠ requestId
  passed : ∃ parsed, result.1 = .ok parsed ∧
    parsed.outAsync = if call.async then some (call, stream) else none
  told : result.2.notices =
    if call.async then c.notices else c.notices ++ [.replied call.serial stream]

/-- What is expected of the outstanding requests and their replies. -/
structure RepliesMatch (c : ConnectionI) : Prop where
  distinct : (OrderedMap.keys c.table.entries).Nodup
  positive : ∀ entry ∈ c.table.entries, 0 < entry.1
  sent : ∀ entry ∈ c.table.entries, c.calls[entry.2.serial]? = some ⟨entry.1, true, true⟩
  lookup : ∀ requestId, lookupReply requestId c = plainLookup requestId c
  completes : ∀ requestId call stream compress, plainLookup requestId c = some call →
    Completes requestId call stream c (parseReply none stream compress requestId c)
  told : ∀ serial stream, .replied serial stream ∈ c.notices → Answers c.calls serial stream

def Registered (call : Call) (c d : ConnectionI) : Prop :=
  d.table.entries.Perm ((takenId c.nextRequestId, call) :: c.table.entries)

theorem erase_both (requestId : Int) :
    (c.requests.erase requestId).entries ++ (c.asyncRequests.erase requestId).entries =
      c.table.entries.filter fun entry => entry.1 ≠ requestId :=
  (List.filter_append _ _).symm

theorem erase_absent (absent : requestId ∉ OrderedMap.keys map.entries) :
    (map.erase requestId).entries = map.entries := by
  apply List.filter_eq_self.mpr
  intro entry inside
  apply decide_eq_true
  intro same
  exact absent (same ▸ OrderedMap.mem_keys inside)

theorem Matched.completes (matched : Matched c) (stream : List Byte) (compress : Byte)
    (found : plainLookup requestId c = some call) :
    Completes requestId call stream c (parseReply none stream compress requestId c) := by
  have enrolled := matched.enrolled
  have looked : lookupReply requestId c = some call := by
    rw [lookup_is_plain enrolled.distinct]
    exact found
  have distinct := enrolled.distinct
  unfold OrderedMap.keys Table.entries at distinct
  rw [List.map_append, List.nodup_append] at distinct
  have apart := distinct.2.2
  have present := plain_mem found
  obtain sync | async := List.mem_append.mp present
  · have isSync : call.async = false := enrolled.synchronous _ sync
    have absent : requestId ∉ OrderedMap.keys c.asyncRequests.entries := by
      intro inside
      exact apart _ (OrderedMap.mem_keys sync) _ inside rfl
    have result : parseReply none stream compress requestId c =
        (.ok ⟨0, requestId, compress, none⟩, { c with
          notices := c.notices ++ [.replied call.serial stream]
          requests := c.requests.erase requestId }) := by
      simp [parseReply, looked, isSync]
    rw [result]
    refine ⟨?_, ⟨_, rfl, by rw [isSync]; rfl⟩, by rw [isSync]; rfl⟩
    rw [← erase_both, erase_absent absent]
    rfl
  · have isAsync : call.async = true := enrolled.asynchronous _ async
    have absent : requestId ∉ OrderedMap.keys c.requests.entries := by
      intro inside
      exact apart _ inside _ (OrderedMap.mem_keys async) rfl
    have result : parseReply none stream compress requestId c =
        (.ok ⟨0, requestId, compress, some (call, stream)⟩,
          { c with asyncRequests := c.asyncRequests.erase requestId }) := by
      simp [parseReply, looked, isAsync]
    rw [result]
    refine ⟨?_, ⟨_, rfl, by rw [isAsync]; rfl⟩, by rw [isAsync]; rfl⟩
    rw [← erase_both, erase_absent absent]
    rfl

theorem Matched.replies (matched : Matched c) : RepliesMatch c where
  distinct := matched.enrolled.distinct
  positive := matched.enrolled.positive
  sent := matched.enrolled.sent
  lookup := lookup_is_plain matched.enrolled.distinct
  completes := fun _ _ stream compress found => matched.completes stream compress found
  told := matched.told

theorem registered_fresh (fresh : ¬ Reuses c) :
    Registered ⟨c.calls.length, async, notifies⟩ c
      (enroll true (takenId c.nextRequestId) ⟨c.calls.length, async, notifies⟩
        (note (takenId c.nextRequestId) true true (issue true c))) := by
  obtain ⟨freshSync, freshAsync⟩ := not_or.mp fresh
  cases async with
  | false => exact (OrderedMap.insert_perm _ freshSync).append_right _
  | true =>
      have added : (c.requests.entries ++
          (c.asyncRequests.insert (takenId c.nextRequestId)
            ⟨c.calls.length, true, notifies⟩).entries).Perm _ :=
        (OrderedMap.insert_perm _ freshAsync).append_left _
      exact added.trans List.perm_middle

theorem accepted_call {compress : Bool} {os : RequestStream} {result : CallResult}
    (called : sendCall setup async notifies compress response os outcome c = (result, d))
    (accepted : result.accepted = true) :
    c.exception = none ∧ checkSendSize setup os.bytes.length = .ok () := by
  unfold sendCall at called
  cases isSet : c.exception with
  | some ex =>
      rw [isSet] at called
      cases called
      cases accepted
  | none =>
      refine ⟨rfl, ?_⟩
      rw [isSet] at called
      cases fits : checkSendSize setup os.bytes.length with
      | ok done => rfl
      | error ex =>
          rw [fits] at called
          cases called
          cases accepted

/-- Every run in which no two-way request takes the id of an outstanding one reaches states with
the replies in order, and a two-way request that is accepted next stays in order exactly when
its id is not in use. -/
theorem replies_reach_requests (reached : Reach (step setup) (Avoids setup [.reuse]) .initial c) :
    RepliesMatch c ∧
      ∀ async notifies compress os outcome result d,
        sendCall setup async notifies compress true os outcome c = (result, d) →
        result.accepted = true →
        ((RepliesMatch d ∧ Registered ⟨c.calls.length, async, notifies⟩ c d) ↔ ¬ Reuses c) := by
  obtain ⟨⟨written, waiting, output⟩, matched⟩ := matched_of_reached reached
  refine ⟨matched.replies, ?_⟩
  intro async notifies compress os outcome result d called accepted
  obtain ⟨free, fits⟩ := accepted_call called accepted
  constructor
  · rintro ⟨replies, registered⟩ reuses
    have taken : takenId c.nextRequestId ∈ OrderedMap.keys c.table.entries := by
      unfold OrderedMap.keys Table.entries
      rw [List.map_append, List.mem_append]
      exact reuses
    have keys : (OrderedMap.keys d.table.entries).Perm
        (takenId c.nextRequestId :: OrderedMap.keys c.table.entries) := registered.map Prod.fst
    have distinct := keys.nodup_iff.mp replies.distinct
    exact (List.nodup_cons.mp distinct).1 taken
  · intro fresh
    have cycle : LifeCycle setup c := life_cycle_of_reachable (reached.weaken fun _ _ _ => trivial)
    obtain ⟨moved, left, traffic⟩ : ∃ moved left, Traffic setup False (fun _ => False) c
        (sendCall setup async notifies compress true os outcome c).2 written waiting moved left :=
      call_traffic output (cycle.open_of_free free) free (fun _ _ reuses => fresh reuses)
    have after := traffic.matched id matched
    obtain ⟨status, isStatus, bare⟩ : ∃ status, _ = status ∧
        (sendCall setup async notifies compress true os outcome c).2.bare = _ :=
      send_call_bare free fits
    rw [called] at after isStatus bare
    have isAccepted : status = true := isStatus.symm.trans accepted
    subst isAccepted
    have table := table_of_bare bare
    have registered : Registered ⟨c.calls.length, async, notifies⟩ c _ := registered_fresh fresh
    refine ⟨after.replies, ?_⟩
    unfold Registered at registered ⊢
    rw [table]
    exact registered

theorem send_message_whole {message : OutgoingMessage} {frame : List Byte}
    (idle : c.sendStreams = [])
    (prepared : (prepare setup.bz2 message.compress message.stream.b).frame = .ok frame)
    (room : frame.length ≤ outcome.accepted) :
    sendMessage setup outcome message c = (.sent (!message.callback.isEmpty),
      notifySent message { c with
        handed := c.handed ++ [message]
        delivered := c.delivered ++ frame }) := by
  have taken : frame.take outcome.accepted = frame := List.take_of_length_le room
  have whole : writeBuffer outcome ⟨frame, some 0⟩ =
      (.ok true, ⟨frame, some frame.length⟩, frame) := by
    simp [writeBuffer, taken]
  unfold sendMessage
  simp only [idle, ne_eq, not_true_eq_false, if_false]
  rw [prepared]
  dsimp only
  rw [whole]

theorem read_message_whole {frame : List Byte} {failure : Option LocalException}
    (fresh : c.readStream = .fresh) (stream : setup.datagram = false)
    (long : headerSize ≤ frame.length)
    (checked : checkHeader setup (frame.take headerSize) = .ok frame.length) :
    readMessage setup ⟨frame, failure⟩ c = (.ok true, { c with
      consumed := c.consumed ++ frame
      readStream := ⟨frame, frame.length, false⟩ }) := by
  have first : (frame.take headerSize).length = headerSize := by
    rw [List.length_take]
    omega
  have header : fill ⟨frame, failure⟩ c = (.ok true, ⟨frame.drop headerSize, failure⟩, { c with
      consumed := c.consumed ++ frame.take headerSize
      readStream := ⟨frame.take headerSize, headerSize, true⟩ }) := by
    simp [fill, fresh, ReadState.fresh, first]
  have size : max frame.length headerSize = frame.length := Nat.max_eq_left long
  unfold readMessage readHeader
  rw [fresh]
  simp only [ReadState.fresh, headerSize, Nat.reduceEqDiff, if_false, if_true, stream,
    Bool.false_eq_true]
  rw [header]
  dsimp only
  rw [checked]
  dsimp only
  rw [size]
  unfold readBody fill
  simp only [stream, Bool.false_eq_true, if_false, first]
  split
  · next same =>
      have all : frame.take headerSize = frame := List.take_of_length_le (le_of_eq same.symm)
      rw [all, ← same]
  · have rest : (frame.drop headerSize).take (frame.length - headerSize) =
        frame.drop headerSize := List.take_of_length_le (by rw [List.length_drop])
    rw [rest, List.take_append_drop]
    simp

/-- A request for the operation `op` of the object `a`, without parameters. -/
def ping : RequestStream := ⟨0, 0, 0, [1, 97, 0, 0, 2, 111, 112, 0, 0, 6, 0, 0, 0, 1, 0]⟩

def pong (requestId : Int) : List Byte :=
  header replyMsg 0 25 ++ encodeLE 4 (requestId % 2 ^ 32).toNat ++ [0, 6, 0, 0, 0, 1, 0]

def arrives (bytes : List Byte) : Ready := ⟨true, false, .pending, .pending, ⟨bytes, none⟩, [], none⟩

/-- The first request of the connection has no reply yet, and nothing else is in progress. -/
structure FirstWaits (next : Int) (c : ConnectionI) : Prop where
  state : c.state = .active
  free : c.exception = none
  started : c.started = true
  requests : c.requests.entries = [(1, ⟨0, false, false⟩)]
  asyncRequests : c.asyncRequests = ⟨[], none⟩
  queue : c.sendStreams = []
  stream : c.readStream = .fresh
  upcalls : c.upcalls = []
  next : c.nextRequestId = next

theorem ping_called (waits : FirstWaits next c) :
    ∃ handed delivered notices calls,
      sendCall tcpSetup false false false true ping ⟨1000, none⟩ c = (.sent false, { c with
        nextRequestId := followingId next
        requests := c.requests.insert (takenId next) ⟨c.calls.length, false, false⟩
        handed := handed, delivered := delivered, notices := notices, calls := calls }) := by
  have filled : (putInt ping.bytes headerSize (takenId next)).length = 33 :=
    put_int_length _ (by decide)
  have sized : (putInt (putInt ping.bytes headerSize (takenId next)) 10
      ((putInt ping.bytes headerSize (takenId next)).length : Int)).length = 33 := by
    rw [put_int_length _ (by rw [filled]; decide), filled]
  have prepared : (prepare tcpSetup.bz2 false (putInt ping.bytes headerSize (takenId next))).frame =
      .ok (putInt (putInt ping.bytes headerSize (takenId next)) 10
        ((putInt ping.bytes headerSize (takenId next)).length : Int)) := by
    simp [prepare]
  have message : requestMessage false false false true ping c =
      callMessage false false false (takenId next)
        (putInt ping.bytes headerSize (takenId next)) c := by
    rw [requestMessage, if_pos rfl, waits.next]
  have issued : issue true c = { c with nextRequestId := followingId next } := by
    rw [issue, if_pos rfl, waits.next]
  have sent : sendMessage tcpSetup ⟨1000, none⟩ (callMessage false false false (takenId next)
      (putInt ping.bytes headerSize (takenId next)) c)
      { c with nextRequestId := followingId next } = _ :=
    send_message_whole waits.queue prepared (by rw [sized]; decide)
  obtain ⟨handed, delivered, notices, calls, told⟩ : ∃ handed delivered notices calls,
      sendForCall tcpSetup ⟨1000, none⟩ (callMessage false false false (takenId next)
        (putInt ping.bytes headerSize (takenId next)) c) true
        { c with nextRequestId := followingId next } = (.sent false, { c with
          nextRequestId := followingId next
          handed := handed, delivered := delivered, notices := notices, calls := calls }) := by
    unfold sendForCall
    rw [sent]
    exact ⟨_, _, _, _, rfl⟩
  have fits : checkSendSize tcpSetup ping.bytes.length = .ok () := by decide
  refine ⟨handed, delivered, notices, calls, ?_⟩
  rw [send_call_eq waits.free fits, message, issued, told, waits.next]
  rfl

theorem ping_sent {result : CallResult} (waits : FirstWaits next c)
    (called : sendCall tcpSetup false false false true ping ⟨1000, none⟩ c = (result, d)) :
    step tcpSetup (.sendRequest false true ping ⟨1000, none⟩) c = some d := by
  have validated : State.notValidated < c.state := by
    rw [waits.state]
    decide
  unfold step perform
  rw [if_pos (by intro ex inside; cases inside)]
  dsimp only
  rw [guardAnd, if_pos validated, sendRequest, called]

theorem pong_read (requestId : Int) (fresh : c.readStream = .fresh) :
    readMessage tcpSetup ⟨pong requestId, none⟩ c = (.ok true, { c with
      consumed := c.consumed ++ pong requestId
      readStream := ⟨pong requestId, (pong requestId).length, false⟩ }) := by
  apply read_message_whole fresh rfl
  · change 14 ≤ 25
    decide
  · change checkHeader tcpSetup (header replyMsg 0 25) = .ok 25
    decide

theorem pong_id (low : -2 ^ 31 ≤ requestId) (high : requestId < 2 ^ 31) :
    intAt (pong requestId) headerSize = some requestId :=
  int_at_word (header replyMsg 0 25) _ requestId low high

theorem pong_parsed (low : -2 ^ 31 ≤ requestId) (high : requestId < 2 ^ 31)
    (arrived : c.readStream = ⟨pong requestId, (pong requestId).length, false⟩)
    (hint : c.requests.hint = some requestId) (found : c.requests.find requestId = some call)
    (isSync : call.async = false) :
    parseMessage tcpSetup none c = (⟨0, requestId, 0, none⟩, { taken c with
      notices := c.notices ++ [.replied call.serial (pong requestId)]
      requests := c.requests.erase requestId }) := by
  have looked : lookupReply requestId (taken c) = some call := by
    have hinted : c.requests.hinted requestId = some call := by
      rw [RequestMap.hinted, if_pos hint]
      exact found
    change (match c.requests.hinted requestId with | some call => _ | none => _) = _
    rw [hinted]
  have answered : parseReply none (pong requestId) 0 requestId (taken c) =
      (.ok ⟨0, requestId, 0, none⟩, { taken c with
        notices := c.notices ++ [.replied call.serial (pong requestId)]
        requests := c.requests.erase requestId }) := by
    simp only [parseReply, looked, isSync, Bool.false_eq_true, if_false]
    rfl
  have isReply : parseStream tcpSetup none (pong requestId) 0 (taken c) =
      parseReply none (pong requestId) 0 requestId (taken c) := by
    have kind : (pong requestId).getD 8 0 = 2 := rfl
    unfold parseStream
    rw [pong_id low high]
    dsimp only
    rw [kind]
    rfl
  have opened : c.opened tcpSetup = .ok (pong requestId) := by
    rw [ConnectionI.opened, arrived]
    rfl
  have status : c.readStream.bytes.getD 9 0 = 0 := by
    rw [arrived]
    rfl
  rw [parse_message_ok none opened, status, isReply, answered]
  rfl

theorem pong_arrives (low : -2 ^ 31 ≤ requestId) (high : requestId < 2 ^ 31)
    (active : c.state = .active) (started : c.started = true) (fresh : c.readStream = .fresh)
    (hint : c.requests.hint = some requestId) (found : c.requests.find requestId = some call)
    (isSync : call.async = false) :
    ∃ consumed parsed notices frame,
      step tcpSetup (.message (arrives (pong requestId))) c = some { c with
        readStream := .fresh
        validated := true
        requests := c.requests.erase requestId
        upcalls := c.upcalls ++ [⟨false, [], none, frame, requestId, 0, 0, false⟩]
        consumed := consumed, parsed := parsed, notices := notices } := by
  have read : readPart tcpSetup (arrives (pong requestId)) c = _ := pong_read requestId fresh
  have parsed := pong_parsed (c := { c with
    consumed := c.consumed ++ pong requestId
    readStream := ⟨pong requestId, (pong requestId).length, false⟩ }) low high rfl hint found isSync
  have part : parsePart tcpSetup (arrives (pong requestId)) { c with
    consumed := c.consumed ++ pong requestId
    readStream := ⟨pong requestId, (pong requestId).length, false⟩ } = _ := parsed
  have ready : c.started = true ∧ ((arrives (pong requestId)).write = true →
      .notValidated < c.state → c.sendStreams ≠ []) := ⟨started, by intro writes; cases writes⟩
  have done : exchange tcpSetup (arrives (pong requestId)) c =
      processMessage tcpSetup (arrives (pong requestId)) { c with
        consumed := c.consumed ++ pong requestId
        readStream := ⟨pong requestId, (pong requestId).length, false⟩ } := by
    have wrote : writePart (arrives (pong requestId)) c = (.ok true, c) := rfl
    unfold exchange
    rw [wrote]
    dsimp only
    rw [read]
  refine ⟨c.consumed ++ pong requestId, c.parsed ++ [pong requestId],
    c.notices ++ [.replied call.serial (pong requestId)], c.parsed.length, ?_⟩
  unfold step perform
  rw [if_pos (by intro ex inside; cases inside)]
  dsimp only
  rw [guardAnd, if_pos ready]
  unfold message
  rw [if_neg (by rw [active]; decide), if_neg (by rw [active]; decide), done]
  unfold processMessage
  rw [part]
  rfl

theorem round_trip_turns (waits : FirstWaits next c) (low : 2 ≤ next) (high : next < 2 ^ 31) :
    ∃ d, Reach (step tcpSetup) anyStep c d ∧ FirstWaits (wrap (next + 1)) d := by
  have above : ¬ next < 1 := by omega
  have other : (1 : Int) ≠ next := by omega
  have taken : takenId next = next := if_neg (by omega)
  have following : followingId next = wrap (next + 1) := if_neg (by omega)
  obtain ⟨handed, delivered, notices, calls, called⟩ := ping_called waits
  rw [taken, following] at called
  replace called := ping_sent waits called
  generalize isFirst : ({ c with
    nextRequestId := wrap (next + 1)
    requests := c.requests.insert next ⟨c.calls.length, false, false⟩
    handed := handed, delivered := delivered, notices := notices, calls := calls } :
      ConnectionI) = first at called
  have map : first.requests =
      ⟨[(1, ⟨0, false, false⟩), (next, ⟨c.calls.length, false, false⟩)], some next⟩ := by
    rw [← isFirst]
    change (⟨OrderedMap.insert next _ c.requests.entries, some next⟩ : RequestMap) = _
    rw [waits.requests]
    simp [OrderedMap.insert, above, Ne.symm other]
  have found : first.requests.find next = some ⟨c.calls.length, false, false⟩ := by
    rw [map]
    simp [RequestMap.find, OrderedMap.find, other]
  have erased : first.requests.erase next = ⟨[(1, ⟨0, false, false⟩)], none⟩ := by
    rw [map]
    simp [RequestMap.erase, OrderedMap.erase, OrderedMap.next, other, above]
  have active : first.state = .active := by
    rw [← isFirst]
    exact waits.state
  have started : first.started = true := by
    rw [← isFirst]
    exact waits.started
  have fresh : first.readStream = .fresh := by
    rw [← isFirst]
    exact waits.stream
  have idle : first.upcalls = [] := by
    rw [← isFirst]
    exact waits.upcalls
  obtain ⟨consumed, parsed, told, frame, received⟩ :=
    pong_arrives (by omega) high active started fresh (by rw [map]) found rfl
  rw [erased, idle] at received
  generalize isSecond : ({ first with
    readStream := .fresh
    validated := true
    requests := ⟨[(1, ⟨0, false, false⟩)], none⟩
    upcalls := [] ++ [⟨false, [], none, frame, next, 0, 0, false⟩]
    consumed := consumed, parsed := parsed, notices := told } : ConnectionI) = second at received
  have dispatched : step tcpSetup (.callbacks 0) second = some { second with
      upcalls := [⟨false, [], none, frame, next, 0, 0, true⟩], notices := told ++ [] } := by
    rw [← isSecond]
    rfl
  have ended : step tcpSetup (.dispatchDone 0 noWrite) { second with
      upcalls := [⟨false, [], none, frame, next, 0, 0, true⟩], notices := told ++ [] } =
      some { second with upcalls := [], notices := told ++ [] } := by
    rw [← isSecond]
    rfl
  have one : Reach (step tcpSetup) anyStep c first := .next .here trivial called
  have two : Reach (step tcpSetup) anyStep c second := .next one trivial received
  refine ⟨_, .next (.next two trivial dispatched) trivial ended, ?_⟩
  rw [← isSecond, ← isFirst]
  exact ⟨waits.state, waits.free, waits.started, rfl, waits.asyncRequests, waits.queue, rfl, rfl,
    rfl⟩

/-- The request that never gets a reply. -/
def firstRequest : List Event :=
  [.start true .done .done, .activate, .sendRequest false true ping ⟨1000, none⟩]

theorem first_waits : ∃ c, Reachable tcpSetup c ∧ FirstWaits 2 c := by
  have ran : (runAll (step tcpSetup) firstRequest .initial).isSome = true := by decide
  obtain ⟨c, isResult⟩ := Option.isSome_iff_exists.mp ran
  have life : (runAll (step tcpSetup) firstRequest .initial).map (fun c =>
      (c.state, c.exception, c.started, c.upcalls)) = some (.active, none, true, []) := by
    decide
  have table : (runAll (step tcpSetup) firstRequest .initial).map (fun c =>
      (c.requests.entries, c.asyncRequests, c.nextRequestId)) =
        some ([(1, ⟨0, false, false⟩)], ⟨[], none⟩, 2) := by
    decide
  have streams : (runAll (step tcpSetup) firstRequest .initial).map (fun c =>
      (c.sendStreams, c.readStream)) = some ([], .fresh) := by
    decide
  rw [isResult] at life table streams
  simp only [Option.map_some, Option.some.injEq, Prod.mk.injEq] at life table streams
  exact ⟨c, reach_of_run isResult (fun _ _ _ => trivial), life.1, life.2.1, life.2.2.1, table.1,
    table.2.1, streams.1, streams.2, life.2.2.2, table.2.2⟩

/-- Of three requests the last one is answered first, and the first one next. -/
def outOfOrderRun : List Event :=
  [.start true .done .done, .activate, .sendRequest false true ping ⟨1000, none⟩,
    .sendAsyncRequest false false true ping ⟨1000, none⟩, .sendRequest false true ping ⟨1000, none⟩,
    .message (arrives (pong 3)), .callbacks 0, .dispatchDone 0 noWrite, .message (arrives (pong 1))]

theorem replies_out_of_order : ∃ c, RepliesMatch c ∧ c.table.entries = [(2, ⟨1, true, false⟩)] ∧
    .replied 2 (pong 3) ∈ c.notices ∧ .replied 0 (pong 1) ∈ c.notices := by
  have ran : (runAll (checked (step tcpSetup) (Event.sound tcpSetup)) outOfOrderRun .initial).map
      (fun c => decide (c.table.entries = [(2, ⟨1, true, false⟩)] ∧
        .replied 2 (pong 3) ∈ c.notices ∧ .replied 0 (pong 1) ∈ c.notices)) = some true := by
    decide
  obtain ⟨c, isResult, told⟩ := Option.map_eq_some_iff.mp ran
  have reached := reach_of_checked (avoids_of_sound [.reuse]) isResult
  exact ⟨c, (replies_reach_requests reached).1, of_decide_eq_true told⟩

theorem ids_come_round (count : Nat) (range : (2 : Int) + count < 2 ^ 31) :
    ∃ c, Reachable tcpSetup c ∧ FirstWaits (2 + count) c := by
  induction count with
  | zero => exact first_waits
  | succ count ih =>
      have before : (2 : Int) + count < 2 ^ 31 := by omega
      obtain ⟨c, reached, waits⟩ := ih before
      obtain ⟨d, onward, turned⟩ := round_trip_turns waits (by omega) before
      have next : wrap (2 + count + 1) = 2 + ((count + 1 : Nat) : Int) := by
        rw [wrap_inside (by omega) (by omega)]
        omega
      rw [next] at turned
      exact ⟨d, reached.trans onward, turned⟩

/-- After all ids have been taken once, the id of the first request is taken again while that
request is outstanding, and the second one is not registered. -/
theorem first_id_taken_again :
    ∃ c result d, Reachable tcpSetup c ∧
      sendCall tcpSetup false false false true ping ⟨1000, none⟩ c = (result, d) ∧
      result.accepted = true ∧ Reuses c ∧ d.table.entries = c.table.entries ∧
      ¬ Registered ⟨c.calls.length, false, false⟩ c d := by
  obtain ⟨last, reached, waits⟩ := ids_come_round 2147483645 (by decide)
  obtain ⟨c, onward, turned⟩ := round_trip_turns waits (by decide) (by decide)
  have next : wrap (2 + ((2147483645 : Nat) : Int) + 1) = -2147483648 := by decide
  rw [next] at turned
  obtain ⟨handed, delivered, notices, calls, called⟩ := ping_called turned
  have taken : takenId (-2147483648) = 1 := by decide
  rw [taken] at called
  have inserted : (c.requests.insert 1 ⟨c.calls.length, false, false⟩).entries =
      c.requests.entries := by
    change OrderedMap.insert 1 _ c.requests.entries = _
    rw [turned.requests]
    rfl
  generalize isAfter : ({ c with
    nextRequestId := followingId (-2147483648)
    requests := c.requests.insert 1 ⟨c.calls.length, false, false⟩
    handed := handed, delivered := delivered, notices := notices, calls := calls } :
      ConnectionI) = d at called
  have sameEntries : d.table.entries = c.table.entries := by
    rw [← isAfter]
    exact congrArg (· ++ c.asyncRequests.entries) inserted
  refine ⟨c, _, d, reached.trans onward, called, rfl, ?_, sameEntries, ?_⟩
  · left
    rw [turned.next, taken, turned.requests]
    exact List.mem_singleton_self 1
  · intro registered
    have longer := registered.length_eq
    rw [sameEntries, List.length_cons] at longer
    omega

end IceTouch.Connection
