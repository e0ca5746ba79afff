import IceTouch.Connection.Requests
import Mathlib.Data.List.Nodup
import Mathlib.Data.List.ProdSigma

/-!
# Completions

Every call that was accepted is completed once: it waits in the queue, in a request map or in an
upcall with its reply, or it has been told. A call that fails is told whether all bytes of its
message have passed the transceiver.
-/

namespace IceTouch.Connection

open Bytes Machine

def Notice.serial : Notice → Nat
  | .sent serial => serial
  | .replied serial _ => serial
  | .failed serial _ _ => serial

def Notice.completes (calls : List CallRecord) : Notice → Bool
  | .sent serial => calls[serial]?.any fun record => !record.response
  | .replied _ _ => true
  | .failed _ _ _ => true

/-- The calls that were completed, one entry for each completion. -/
def completed (calls : List CallRecord) (notices : List Notice) : List Nat :=
  (notices.filter (Notice.completes calls)).map Notice.serial

def acceptedCalls (calls : List CallRecord) : List Nat :=
  (List.range calls.length).filter fun serial => calls[serial]?.any CallRecord.accepted

def oneWays (queue : List (Call × Int)) : List Nat :=
  (queue.filter fun pair => pair.2 = 0).map fun pair => pair.1.serial

/-- The call of a message was accepted with the request id of the message, which is zero when no
response is expected. -/
def Noted (calls : List CallRecord) (pair : Call × Int) : Prop :=
  calls[pair.1.serial]? = some ⟨pair.2, decide (pair.2 ≠ 0), true⟩

/-- The accepted calls are those that were completed, those that are `due` and those without a
response whose messages wait, each once. -/
structure Balanced (calls : List CallRecord) (notices : List Notice) (due : List Nat)
    (queue : List (Call × Int)) : Prop where
  known : ∀ notice ∈ notices, notice.serial < calls.length
  queued : ∀ pair ∈ queue, Noted calls pair
  balance : (completed calls notices ++ due ++ oneWays queue).Perm (acceptedCalls calls)

section ledger

variable {calls : List CallRecord} {notices : List Notice} {due later : List Nat}
  {queue rest : List (Call × Int)}

theorem completed_append (notices told : List Notice) :
    completed calls (notices ++ told) = completed calls notices ++ completed calls told := by
  unfold completed
  rw [List.filter_append, List.map_append]

theorem one_ways_append (first rest : List (Call × Int)) :
    oneWays (first ++ rest) = oneWays first ++ oneWays rest := by
  unfold oneWays
  rw [List.filter_append, List.map_append]

theorem completed_more (known : ∀ notice ∈ notices, notice.serial < calls.length)
    (record : CallRecord) : completed (calls ++ [record]) notices = completed calls notices := by
  unfold completed
  congr 1
  apply List.filter_congr
  intro notice inside
  have before := known notice inside
  cases notice with
  | sent serial =>
      change serial < calls.length at before
      unfold Notice.completes
      dsimp only
      rw [List.getElem?_append_left before]
  | replied => rfl
  | failed => rfl

theorem accepted_more (record : CallRecord) :
    acceptedCalls (calls ++ [record]) =
      acceptedCalls calls ++ if record.accepted then [calls.length] else [] := by
  unfold acceptedCalls
  rw [List.length_append, List.length_singleton, List.range_succ, List.filter_append]
  congr 1
  · apply List.filter_congr
    intro serial inside
    rw [List.getElem?_append_left (List.mem_range.mp inside)]
  · rw [List.filter_singleton, List.getElem?_concat_length, Option.any_some, cond_eq_ite]

theorem Noted.more {pair : Call × Int} (noted : Noted calls pair) (record : CallRecord) :
    Noted (calls ++ [record]) pair := by
  unfold Noted at noted ⊢
  rw [List.getElem?_append_left (List.getElem?_eq_some_iff.mp noted).1]
  exact noted

theorem completed_sent {moved : List OutgoingMessage}
    (noted : ∀ pair ∈ callsOf moved, Noted calls pair) :
    completed calls (moved.flatMap OutgoingMessage.sentNotices) = oneWays (callsOf moved) := by
  induction moved with
  | nil => rfl
  | cons message rest ih =>
      have split : callsOf (message :: rest) = callsOf [message] ++ callsOf rest :=
        calls_of_append [message] rest
      rw [split] at noted ⊢
      have behind := ih fun pair inside => noted pair (List.mem_append_right _ inside)
      rw [List.flatMap_cons, completed_append, one_ways_append, behind]
      congr 1
      unfold OutgoingMessage.sentNotices
      cases isCall : message.call with
      | none => rw [own_calls isCall]; rfl
      | some call =>
          have only : callsOf [message] = [(call, message.requestId)] := by
            unfold callsOf
            rw [List.filterMap_cons, isCall]
            rfl
          have record := noted (call, message.requestId)
            (List.mem_append_left _ (only ▸ List.mem_singleton_self _))
          unfold Noted at record
          rw [only]
          unfold completed oneWays Notice.completes
          dsimp only
          rw [List.filter_singleton, List.filter_singleton]
          dsimp only
          rw [record]
          by_cases oneWay : message.requestId = 0 <;> simp [oneWay, Notice.serial]

theorem Balanced.permuted (balanced : Balanced calls notices due queue) (same : due.Perm later) :
    Balanced calls notices later queue where
  known := balanced.known
  queued := balanced.queued
  balance := by
    have moved := ((same.append_left (completed calls notices)).append_right (oneWays queue)).symm
    exact moved.trans balanced.balance

theorem Balanced.sent {moved : List OutgoingMessage}
    (balanced : Balanced calls notices due (callsOf moved ++ rest)) :
    Balanced calls (notices ++ moved.flatMap OutgoingMessage.sentNotices) due rest := by
  have noted : ∀ pair ∈ callsOf moved, Noted calls pair :=
    fun pair inside => balanced.queued pair (List.mem_append_left _ inside)
  constructor
  · intro notice inside
    obtain before | now := List.mem_append.mp inside
    · exact balanced.known notice before
    · obtain ⟨message, isMoved, told⟩ := List.mem_flatMap.mp now
      unfold OutgoingMessage.sentNotices at told
      split at told
      · cases told
      · next call isCall =>
          rw [List.mem_singleton.mp told]
          have record := noted (call, message.requestId) (mem_calls_of.mpr
            ⟨message, isMoved, isCall, rfl⟩)
          exact (List.getElem?_eq_some_iff.mp record).1
  · exact fun pair inside => balanced.queued pair (List.mem_append_right _ inside)
  · have before := balanced.balance
    rw [one_ways_append] at before
    rw [completed_append, completed_sent noted]
    apply List.Perm.trans _ before
    rw [List.append_assoc, List.append_assoc, List.append_assoc]
    apply List.Perm.append_left
    rw [← List.append_assoc, ← List.append_assoc]
    exact List.perm_append_comm.append_right _

theorem Balanced.told {serial : Nat} {notice : Notice}
    (balanced : Balanced calls notices (serial :: due) queue)
    (isSerial : notice.serial = serial) (completes : notice.completes calls = true)
    (known : serial < calls.length) : Balanced calls (notices ++ [notice]) due queue := by
  constructor
  · intro other inside
    obtain before | now := List.mem_append.mp inside
    · exact balanced.known other before
    · rw [List.mem_singleton.mp now, isSerial]
      exact known
  · exact balanced.queued
  · have only : completed calls [notice] = [serial] := by
      unfold completed
      rw [List.filter_singleton, completes]
      exact congrArg (fun serial => [serial]) isSerial
    rw [completed_append, only, List.append_assoc (completed calls notices)]
    exact balanced.balance

section

variable (balanced : Balanced calls notices due queue)

include balanced

theorem Balanced.noted {record : CallRecord} (thrown : record.accepted = false) :
    Balanced (calls ++ [record]) notices due queue := by
  constructor
  · intro notice inside
    have before := balanced.known notice inside
    rw [List.length_append]
    exact Nat.lt_add_right _ before
  · exact fun pair inside => (balanced.queued pair inside).more record
  · rw [completed_more balanced.known, accepted_more, thrown]
    exact balanced.balance.trans (.of_eq (List.append_nil _).symm)

theorem Balanced.twoWay {call : Call} {requestId : Int} (isNew : call.serial = calls.length)
    (isId : requestId ≠ 0) :
    Balanced (calls ++ [⟨requestId, true, true⟩]) notices (calls.length :: due)
      (queue ++ [(call, requestId)]) := by
  constructor
  · intro notice inside
    have before := balanced.known notice inside
    rw [List.length_append]
    exact Nat.lt_add_right _ before
  · intro pair inside
    obtain before | now := List.mem_append.mp inside
    · exact (balanced.queued pair before).more _
    · rw [List.mem_singleton.mp now]
      unfold Noted
      rw [isNew, List.getElem?_concat_length]
      simp [isId]
  · have silent : oneWays [(call, requestId)] = [] := by
      unfold oneWays
      rw [List.filter_singleton]
      simp [isId]
    rw [completed_more balanced.known, accepted_more, one_ways_append, silent, List.append_nil]
    apply List.Perm.trans _ (balanced.balance.append_right [calls.length])
    rw [List.append_assoc, List.append_assoc, List.append_assoc]
    apply List.Perm.append_left
    rw [← List.append_assoc]
    exact (List.perm_append_singleton _ _).symm

theorem Balanced.oneWay {call : Call} (isNew : call.serial = calls.length) :
    Balanced (calls ++ [⟨0, false, true⟩]) notices due (queue ++ [(call, 0)]) := by
  constructor
  · intro notice inside
    have before := balanced.known notice inside
    rw [List.length_append]
    exact Nat.lt_add_right _ before
  · intro pair inside
    obtain before | now := List.mem_append.mp inside
    · exact (balanced.queued pair before).more _
    · rw [List.mem_singleton.mp now]
      unfold Noted
      rw [isNew, List.getElem?_concat_length]
      simp
  · have only : oneWays [(call, (0 : Int))] = [calls.length] := by
      unfold oneWays
      rw [List.filter_singleton]
      simp [isNew]
    rw [completed_more balanced.known, accepted_more, one_ways_append, only, ← List.append_assoc]
    exact balanced.balance.append_right [calls.length]

theorem Balanced.instant :
    Balanced (calls ++ [⟨0, false, true⟩]) (notices ++ [.sent calls.length]) due queue := by
  constructor
  · intro notice inside
    rw [List.length_append, List.length_singleton]
    obtain before | now := List.mem_append.mp inside
    · exact Nat.lt_add_right _ (balanced.known notice before)
    · rw [List.mem_singleton.mp now]
      exact Nat.lt_succ_self _
  · exact fun pair inside => (balanced.queued pair inside).more _
  · have only : completed (calls ++ [⟨0, false, true⟩]) [.sent calls.length] =
        [calls.length] := by
      unfold completed Notice.completes
      rw [List.filter_singleton]
      dsimp only
      rw [List.getElem?_concat_length]
      rfl
    rw [completed_append, completed_more balanced.known, only, accepted_more]
    apply List.Perm.trans _ (balanced.balance.append_right [calls.length])
    rw [List.append_assoc, List.append_assoc, List.append_assoc, List.append_assoc]
    apply List.Perm.append_left
    exact List.perm_append_comm.trans (.of_eq (List.append_assoc _ _ _))

end

theorem Balanced.failed {pending : List Nat} {told : List Notice}
    (balanced : Balanced calls notices (pending ++ due) queue)
    (all : (told.map Notice.serial).Perm (due ++ oneWays queue))
    (fails : ∀ notice ∈ told, notice.completes calls = true)
    (known : ∀ notice ∈ told, notice.serial < calls.length) :
    Balanced calls (notices ++ told) pending [] := by
  constructor
  · intro notice inside
    obtain before | now := List.mem_append.mp inside
    · exact balanced.known notice before
    · exact known notice now
  · intro pair inside
    cases inside
  · have everything : completed calls told = told.map Notice.serial := by
      unfold completed
      rw [List.filter_eq_self.mpr fails]
    rw [completed_append, everything]
    apply List.Perm.trans _ balanced.balance
    change (completed calls notices ++ told.map Notice.serial ++ pending ++ []).Perm _
    rw [List.append_nil, List.append_assoc, List.append_assoc]
    apply List.Perm.append_left
    rw [List.append_assoc]
    exact List.perm_append_comm.trans (all.append_left pending)

end ledger

variable {setup : Setup} {strict : Prop} {permits : Fault → Prop} {c d : ConnectionI}
  {written waiting : List OutgoingMessage}

def ConnectionI.awaiting (c : ConnectionI) : List Nat :=
  (c.pendings.map fun reply => reply.1.serial) ++ c.table.entries.map fun entry => entry.2.serial

abbrev ConnectionI.Balances (c : ConnectionI) : Prop :=
  Balanced c.calls c.notices c.awaiting (callsOf c.sendStreams)

def claimed (async : Bool) (queue : List (Call × Int)) (entries : List (Int × Call)) :
    List (Int × Call) :=
  entries.filter fun entry =>
    queue.any fun waiting => waiting.1.async == async && waiting.2 != 0 && waiting.2 == entry.1

variable {async : Bool} {kept : List OutgoingMessage}

theorem mem_claimed {queue : List (Call × Int)} {entries : List (Int × Call)} {entry : Int × Call} :
    entry ∈ claimed async queue entries ↔
      entry ∈ entries ∧ ∃ call, (call, entry.1) ∈ queue ∧ call.async = async ∧ entry.1 ≠ 0 := by
  unfold claimed
  rw [List.mem_filter]
  apply and_congr_right
  intro _
  rw [List.any_eq_true]
  constructor
  · rintro ⟨⟨call, requestId⟩, inside, holds⟩
    simp only [Bool.and_eq_true, beq_iff_eq, bne_iff_ne] at holds
    obtain ⟨⟨isAsync, nonzero⟩, rfl⟩ := holds
    exact ⟨call, inside, isAsync, nonzero⟩
  · rintro ⟨call, inside, isAsync, nonzero⟩
    refine ⟨(call, entry.1), inside, ?_⟩
    simp [isAsync, nonzero]

/-- While no reply came early, the two-way requests in the queue are those whose entries `finish`
erases before it walks the maps. -/
theorem claimed_by_queue (enrolled : Enrolled c.table) (outstanding : ¬ RepliedEarly c)
    (distinct : ((callsOf c.sendStreams).map fun pair => pair.1.serial).Nodup) :
    (((callsOf c.sendStreams).filter fun pair => pair.2 ≠ 0).map Prod.swap).Perm
      (claimed false (callsOf c.sendStreams) c.requests.entries ++
        claimed true (callsOf c.sendStreams) c.asyncRequests.entries) := by
  have present {call : Call} {requestId : Int} (inside : (call, requestId) ∈ callsOf c.sendStreams)
      (twoWay : requestId ≠ 0) : (requestId, call) ∈
        (if call.async then c.asyncRequests else c.requests).entries := by
    by_contra absent
    obtain ⟨message, queued, isCall, isId⟩ := mem_calls_of.mp inside
    rw [← isId] at absent twoWay
    exact outstanding ⟨message, queued, call, isCall, twoWay, absent⟩
  have same {entry other : Int × Call} (inside : entry ∈ c.table.entries)
      (otherInside : other ∈ c.table.entries) (sameId : entry.1 = other.1) : entry = other :=
    List.inj_on_of_nodup_map enrolled.distinct inside otherInside sameId
  have queueNodup := List.Nodup.of_map _ distinct
  have entriesNodup := List.Nodup.of_map _ enrolled.distinct
  apply (List.perm_ext_iff_of_nodup ?_ ?_).mpr
  · rintro ⟨requestId, call⟩
    rw [List.mem_append, mem_claimed, mem_claimed, List.mem_map_swap]
    constructor
    · intro inside
      obtain ⟨queued, twoWay⟩ := List.mem_filter.mp inside
      have nonzero : requestId ≠ 0 := of_decide_eq_true twoWay
      have entry := present queued nonzero
      cases isAsync : call.async with
      | false =>
          rw [isAsync] at entry
          exact Or.inl ⟨entry, call, queued, isAsync, nonzero⟩
      | true =>
          rw [isAsync] at entry
          exact Or.inr ⟨entry, call, queued, isAsync, nonzero⟩
    · intro either
      obtain ⟨inside, other, queued, nonzero, otherInside⟩ :
          (requestId, call) ∈ c.table.entries ∧ ∃ other,
            (other, requestId) ∈ callsOf c.sendStreams ∧ requestId ≠ 0 ∧
              (requestId, other) ∈ c.table.entries := by
        obtain ⟨inside, other, queued, isAsync, nonzero⟩ |
          ⟨inside, other, queued, isAsync, nonzero⟩ := either
        · have entry := present queued nonzero
          rw [isAsync] at entry
          exact ⟨List.mem_append_left _ inside, other, queued, nonzero,
            List.mem_append_left _ entry⟩
        · have entry := present queued nonzero
          rw [isAsync] at entry
          exact ⟨List.mem_append_right _ inside, other, queued, nonzero,
            List.mem_append_right _ entry⟩
      have sameCall : call = other := congrArg Prod.snd (same inside otherInside rfl)
      subst sameCall
      exact List.mem_filter.mpr ⟨queued, decide_eq_true nonzero⟩
  · exact (queueNodup.filter _).map Prod.swap_injective
  · exact entriesNodup.sublist (List.filter_sublist.append List.filter_sublist)

theorem finished_calls (enrolled : Enrolled c.table) (outstanding : ¬ RepliedEarly c)
    (distinct : ((callsOf c.sendStreams).map fun pair => pair.1.serial).Nodup) :
    (((callsOf c.sendStreams).map fun pair => pair.1.serial) ++
        c.spared.map fun entry => entry.2.serial).Perm
      ((c.table.entries.map fun entry => entry.2.serial) ++ oneWays (callsOf c.sendStreams)) := by
  have queue : ((callsOf c.sendStreams).map fun pair => pair.1.serial).Perm
      (((claimed false (callsOf c.sendStreams) c.requests.entries ++
        claimed true (callsOf c.sendStreams) c.asyncRequests.entries).map
          fun entry => entry.2.serial) ++ oneWays (callsOf c.sendStreams)) := by
    have split := (List.filter_append_perm (fun pair : Call × Int => decide (pair.2 ≠ 0))
      (callsOf c.sendStreams)).symm
    have twoWays := (claimed_by_queue enrolled outstanding distinct).map
      fun entry : Int × Call => entry.2.serial
    rw [List.map_map] at twoWays
    apply (split.map fun pair => pair.1.serial).trans
    rw [List.map_append]
    apply List.Perm.append
    · exact twoWays
    · simp only [oneWays, ne_eq, decide_not, Bool.not_not]
      exact .refl _
  have entries : (claimed false (callsOf c.sendStreams) c.requests.entries ++
      claimed true (callsOf c.sendStreams) c.asyncRequests.entries ++ c.spared).Perm
        c.table.entries := by
    have sync := List.filter_append_perm (fun entry : Int × Call =>
      (callsOf c.sendStreams).any fun waiting => waiting.1.async == false && waiting.2 != 0 &&
        waiting.2 == entry.1) c.requests.entries
    have async := List.filter_append_perm (fun entry : Int × Call =>
      (callsOf c.sendStreams).any fun waiting => waiting.1.async == true && waiting.2 != 0 &&
        waiting.2 == entry.1) c.asyncRequests.entries
    apply List.Perm.trans _ (sync.append async)
    unfold ConnectionI.spared claimed spared
    rw [List.append_assoc, List.append_assoc]
    apply List.Perm.append_left
    rw [← List.append_assoc, ← List.append_assoc]
    exact List.perm_append_comm.append_right _
  apply (queue.append_right _).trans
  have erased := (entries.map fun entry => entry.2.serial).append_right
    (oneWays (callsOf c.sendStreams))
  apply List.Perm.trans _ erased
  generalize claimed false (callsOf c.sendStreams) c.requests.entries ++
    claimed true (callsOf c.sendStreams) c.asyncRequests.entries = taken
  rw [List.map_append, List.append_assoc, List.append_assoc]
  exact List.perm_append_comm.append_left _

/-- Where the messages of the calls are: those in the queue and those that were lost wait, and the
calls of the latter were not accepted. -/
structure Tracked (setup : Setup) (c : ConnectionI) (written waiting : List OutgoingMessage) :
    Prop where
  distinct : ((callsOf (written ++ waiting)).map fun pair => pair.1.serial).Nodup
  recorded : ∀ pair ∈ callsOf (written ++ waiting), pair.1.serial < c.calls.length
  lined : c.state ≠ .finished → ∃ lost, callsOf waiting = callsOf c.sendStreams ++ lost ∧
    ∀ pair ∈ lost, ¬ Noted c.calls pair
  carried : ∀ entry ∈ c.table.entries, (entry.2, entry.1) ∈ callsOf (written ++ waiting)
  framed : ∀ message ∈ written, Framed setup message

theorem Noted.fewer {calls more : List CallRecord} {pair : Call × Int}
    (noted : Noted (calls ++ more) pair) (recorded : pair.1.serial < calls.length) :
    Noted calls pair := by
  unfold Noted at noted ⊢
  rw [List.getElem?_append_left recorded] at noted
  exact noted

theorem Tracked.queue_distinct (tracked : Tracked setup c written waiting)
    (unfinished : c.state ≠ .finished) :
    ((callsOf c.sendStreams).map fun pair => pair.1.serial).Nodup := by
  obtain ⟨lost, line, _⟩ := tracked.lined unfinished
  have distinct := tracked.distinct
  rw [calls_of_append, line, List.map_append, List.map_append] at distinct
  exact (distinct.of_append_right).of_append_left

variable {moved left : List OutgoingMessage} {call : Call} {requestId : Int}

/-- Messages are handed over and written. The calls of those that are handed over are new, and
they are in the queue or were not accepted. -/
theorem Tracked.sends {added : List OutgoingMessage} {more : List CallRecord}
    (tracked : Tracked setup c written waiting)
    (unfinished : d.state ≠ .finished → c.state ≠ .finished)
    (split : waiting ++ added = moved ++ left) (framed : ∀ message ∈ moved, Framed setup message)
    (queue : callsOf c.sendStreams ++ callsOf kept = callsOf moved ++ callsOf d.sendStreams)
    (calls : d.calls = c.calls ++ more)
    (distinct : ((callsOf added).map fun pair => pair.1.serial).Nodup)
    (fresh : ∀ pair ∈ callsOf added,
      c.calls.length ≤ pair.1.serial ∧ pair.1.serial < d.calls.length)
    (losing : callsOf added = [] ∧ callsOf kept = [] ∨
      callsOf waiting = callsOf c.sendStreams ∧ (callsOf kept = callsOf added ∨
        callsOf kept = [] ∧ ∀ pair ∈ callsOf added, ¬ Noted d.calls pair))
    (entries : ∀ entry ∈ d.table.entries,
      entry ∈ c.table.entries ∨ (entry.2, entry.1) ∈ callsOf added) :
    Tracked setup d (written ++ moved) left := by
  have joined : callsOf ((written ++ moved) ++ left) =
      callsOf (written ++ waiting) ++ callsOf added := by
    rw [List.append_assoc, ← split, ← List.append_assoc, calls_of_append]
  have splitCalls : callsOf waiting ++ callsOf added = callsOf moved ++ callsOf left := by
    rw [← calls_of_append, split, calls_of_append]
  constructor
  · rw [joined, List.map_append]
    apply tracked.distinct.append distinct
    intro serial old new
    obtain ⟨pair, inside, rfl⟩ := List.mem_map.mp old
    obtain ⟨other, isAdded, same⟩ := List.mem_map.mp new
    have before := tracked.recorded pair inside
    have after := (fresh other isAdded).1
    rw [same] at after
    exact absurd before (Nat.not_lt.mpr after)
  · rw [joined]
    intro pair inside
    obtain old | new := List.mem_append.mp inside
    · have before := tracked.recorded pair old
      rw [calls, List.length_append]
      exact Nat.lt_add_right _ before
    · exact (fresh pair new).2
  · intro stillUnfinished
    obtain ⟨lost, line, refused⟩ := tracked.lined (unfinished stillUnfinished)
    obtain ⟨nothing, nothingKept⟩ | ⟨all, kept_⟩ := losing
    · refine ⟨lost, ?_, ?_⟩
      · rw [nothing, List.append_nil, line] at splitCalls
        rw [nothingKept, List.append_nil] at queue
        rw [queue, List.append_assoc] at splitCalls
        exact (List.append_cancel_left splitCalls).symm
      · intro pair inside noted
        rw [calls] at noted
        apply refused pair inside (noted.fewer _)
        apply tracked.recorded
        rw [calls_of_append, line]
        exact List.mem_append_right _ (List.mem_append_right _ inside)
    · rw [all] at splitCalls
      obtain same | ⟨nothingKept, thrown⟩ := kept_
      · refine ⟨[], ?_, by simp⟩
        rw [same, splitCalls] at queue
        exact (List.append_cancel_left queue).trans (List.append_nil _).symm
      · refine ⟨callsOf added, ?_, thrown⟩
        rw [nothingKept, List.append_nil] at queue
        rw [queue, List.append_assoc] at splitCalls
        exact (List.append_cancel_left splitCalls).symm
  · intro entry inside
    rw [joined]
    obtain old | new := entries entry inside
    · exact List.mem_append_left _ (tracked.carried entry old)
    · exact List.mem_append_right _ new
  · intro message inside
    obtain old | new := List.mem_append.mp inside
    · exact tracked.framed message old
    · exact framed message new

theorem request_calls {notifies compress response : Bool} {os : RequestStream} :
    callsOf [requestMessage async notifies compress response os c] =
      [(⟨c.calls.length, async, notifies⟩, if response then takenId c.nextRequestId else 0)] := by
  unfold requestMessage
  cases response <;> rfl

theorem batch_calls {batch : Batch} : callsOf [batchMessage (some call) batch] = [(call, 0)] :=
  rfl

theorem enroll_entries {notifies response accepted : Bool} (fresh : response = true → ¬ Reuses c) :
    (enroll (response && accepted) (takenId c.nextRequestId) ⟨c.calls.length, async, notifies⟩
      (note (if response then takenId c.nextRequestId else 0) response accepted
        (issue response c))).table.entries.Perm
      ((if response && accepted then
        [(takenId c.nextRequestId, ⟨c.calls.length, async, notifies⟩)] else []) ++
          c.table.entries) := by
  cases response with
  | false => exact .refl _
  | true =>
      cases accepted with
      | false => exact .refl _
      | true => exact registered_fresh (fresh rfl)

theorem reply_entries {map : RequestMap} {entry : Int × Call}
    (inside : entry ∈ (map.erase requestId).entries) : entry ∈ map.entries :=
  (erase_sublist requestId map).subset inside

section

variable {kept : List OutgoingMessage} {more : List CallRecord}
  (tracked : Tracked setup c written waiting)
  (unfinished : d.state ≠ .finished → c.state ≠ .finished)

include tracked unfinished

theorem Tracked.quietly {added : List OutgoingMessage} (own : callsOf added = [])
    (ownKept : callsOf kept = []) (split : waiting ++ added = moved ++ left)
    (framed : ∀ message ∈ moved, Framed setup message)
    (queue : callsOf c.sendStreams ++ callsOf kept = callsOf moved ++ callsOf d.sendStreams)
    (calls : d.calls = c.calls ++ more)
    (entries : ∀ entry ∈ d.table.entries, entry ∈ c.table.entries) :
    Tracked setup d (written ++ moved) left := by
  apply tracked.sends unfinished split framed queue calls
  · rw [own]
    exact .nil
  · rw [own]
    intro pair inside
    cases inside
  · exact Or.inl ⟨own, ownKept⟩
  · exact fun entry inside => Or.inl (entries entry inside)

theorem Tracked.still (queue : d.sendStreams = c.sendStreams) (calls : d.calls = c.calls ++ more)
    (entries : ∀ entry ∈ d.table.entries, entry ∈ c.table.entries) :
    Tracked setup d (written ++ []) waiting := by
  have sameQueue : callsOf c.sendStreams ++ callsOf [] = callsOf [] ++ callsOf d.sendStreams := by
    rw [queue]
    exact List.append_nil _
  apply tracked.quietly unfinished rfl rfl (List.append_nil _) _ sameQueue calls entries
  intro message inside
  cases inside

/-- One call is handed over. Its message is in the queue or has been written, or the call is not
accepted. -/
theorem Tracked.one_call {message : OutgoingMessage} {accepted : Bool} {record : CallRecord}
    (own : callsOf [message] = [(call, requestId)]) (serial : call.serial = c.calls.length)
    (calls : d.calls = c.calls ++ [record]) (noted : record.accepted = accepted)
    (lined : callsOf waiting = callsOf c.sendStreams)
    (sends : Sends setup strict c d written waiting [message] (if accepted then [message] else [])
      moved left)
    (entries : ∀ entry ∈ d.table.entries,
      entry ∈ c.table.entries ∨ (entry.2, entry.1) = (call, requestId)) :
    Tracked setup d (written ++ moved) left := by
  apply tracked.sends unfinished sends.split sends.framed sends.queue calls
  · rw [own]
    exact List.nodup_singleton _
  · rw [own, calls]
    intro pair inside
    rw [List.mem_singleton.mp inside, List.length_append, serial]
    exact ⟨le_rfl, Nat.lt_succ_self _⟩
  · refine Or.inr ⟨lined, ?_⟩
    cases accepted with
    | true => exact Or.inl rfl
    | false =>
        refine Or.inr ⟨rfl, ?_⟩
        rw [own, calls]
        intro pair inside isNoted
        rw [List.mem_singleton.mp inside] at isNoted
        unfold Noted at isNoted
        rw [serial, List.getElem?_concat_length] at isNoted
        have accepted := congrArg CallRecord.accepted (Option.some.inj isNoted)
        rw [noted] at accepted
        cases accepted
  · intro entry inside
    obtain old | new := entries entry inside
    · exact Or.inl old
    · rw [own]
      exact Or.inr (List.mem_singleton.mpr new)

end

theorem Tracked.finish (tracked : Tracked setup c written waiting) (closed : c.state = .closed) :
    Tracked setup (Connection.finish setup c) (written ++ []) waiting := by
  obtain ⟨_, table, _, _⟩ : (Connection.finish setup c).notices = _ ∧
      (Connection.finish setup c).table = _ ∧ (Connection.finish setup c).pendings = _ ∧ _ :=
    finish_spec closed
  rw [finish_calls_table] at table
  rw [List.append_nil]
  have calls : (Connection.finish setup c).calls = c.calls := congrArg Table.calls table
  constructor
  · exact tracked.distinct
  · rw [calls]
    exact tracked.recorded
  · intro stillUnfinished
    exact absurd (finish_state closed) stillUnfinished
  · rw [table]
    intro entry inside
    cases inside
  · exact tracked.framed

/-- A two-way request that is registered is the call that was handed over. -/
theorem enrolled_entry {notifies response accepted : Bool} (fresh : response = true → ¬ Reuses c)
    (table : d.table = (enroll (response && accepted) (takenId c.nextRequestId)
      ⟨c.calls.length, async, notifies⟩ (note (if response then takenId c.nextRequestId else 0)
        response accepted (issue response c))).table) :
    ∀ entry ∈ d.table.entries, entry ∈ c.table.entries ∨ (entry.2, entry.1) =
      (⟨c.calls.length, async, notifies⟩, if response then takenId c.nextRequestId else 0) := by
  rw [table]
  intro entry inside
  obtain now | before := List.mem_append.mp ((enroll_entries fresh).mem_iff.mp inside)
  · cases response with
    | false => cases now
    | true =>
        cases accepted with
        | false => cases now
        | true =>
            rw [List.mem_singleton.mp now]
            exact Or.inr rfl
  · exact Or.inl before

theorem Traffic.tracked (traffic : Traffic setup strict permits c d written waiting moved left)
    (unfinished : d.state ≠ .finished → c.state ≠ .finished) (fresh : ¬ permits .reuse)
    (output : Output setup strict c written waiting) (tracked : Tracked setup c written waiting) :
    Tracked setup d (written ++ moved) left := by
  have lined (open_ : c.state < .closing) : callsOf waiting = callsOf c.sendStreams :=
    (output.flows (Nat.lt_of_lt_of_le open_ (by decide))).same_calls.symm
  have same (calls : d.calls = c.calls) : d.calls = c.calls ++ [] :=
    calls.trans (List.append_nil _).symm
  cases traffic with
  | quiet table _ own sends =>
      exact tracked.quietly unfinished own (sends.own_kept own) sends.split sends.framed sends.queue
        (same (congrArg Table.calls table)) fun entry inside => table ▸ inside
  | call open_ fresher table _ sends =>
      have calls := (congrArg Table.calls table).trans enrolled_calls
      change d.calls = _ at calls
      exact tracked.one_call unfinished request_calls rfl calls rfl (lined open_) sends
        (enrolled_entry (fun response reused => fresh (fresher response reused)) table)
  | flushed table _ _ queue =>
      refine tracked.still unfinished queue (congrArg Table.calls table) fun entry inside => ?_
      rwa [table] at inside
  | @flush _ _ accepted _ _ open_ table _ sends =>
      have calls : d.calls = c.calls ++ [⟨0, false, accepted⟩] := congrArg Table.calls table
      refine tracked.one_call unfinished batch_calls rfl calls rfl (lined open_) sends
        fun entry inside => Or.inl ?_
      rwa [table] at inside
  | asyncReply _ _ _ _ table _ sends =>
      apply tracked.quietly unfinished rfl rfl sends.split sends.framed sends.queue
        (same (congrArg Table.calls table))
      rw [table]
      intro entry inside
      obtain sync | async := List.mem_append.mp inside
      · exact List.mem_append_left _ sync
      · exact List.mem_append_right _ (reply_entries async)
  | syncReply _ _ _ _ table _ sends =>
      apply tracked.quietly unfinished rfl rfl sends.split sends.framed sends.queue
        (same (congrArg Table.calls table))
      rw [table]
      intro entry inside
      obtain sync | async := List.mem_append.mp inside
      · exact List.mem_append_left _ (reply_entries sync)
      · exact List.mem_append_right _ async
  | callbacks table _ _ queue =>
      exact tracked.still unfinished queue (same (congrArg Table.calls table)) fun entry inside =>
        table ▸ inside
  | lost _ table _ _ queue =>
      exact tracked.still unfinished queue (same (congrArg Table.calls table)) fun entry inside =>
        table ▸ inside
  | finish closed _ _ ended =>
      rw [ended]
      exact tracked.finish closed

theorem entries_without (enrolled : Enrolled c.table)
    (inside : (requestId, call) ∈ c.table.entries) :
    c.table.entries.Perm
      ((requestId, call) :: c.table.entries.filter fun entry => entry.1 ≠ requestId) := by
  have nodup := List.Nodup.of_map _ enrolled.distinct
  have removed : (requestId, call) ∉ c.table.entries.filter fun entry => entry.1 ≠ requestId := by
    intro kept
    exact of_decide_eq_true (List.mem_filter.mp kept).2 rfl
  apply (List.perm_ext_iff_of_nodup nodup (List.nodup_cons.mpr ⟨removed, nodup.filter _⟩)).mpr
  intro entry
  rw [List.mem_cons, List.mem_filter]
  constructor
  · intro present
    by_cases same : entry.1 = requestId
    · exact Or.inl (List.inj_on_of_nodup_map enrolled.distinct present inside same)
    · exact Or.inr ⟨present, decide_eq_true same⟩
  · rintro (rfl | ⟨present, _⟩)
    · exact inside
    · exact present

theorem reply_without (enrolled : Enrolled c.table) (found : lookupReply requestId c = some call) :
    c.table.entries.Perm ((requestId, call) :: (if call.async then
      { c.table with asyncRequests := c.asyncRequests.erase requestId }
      else { c.table with requests := c.requests.erase requestId } : Table).entries) := by
  rw [lookup_is_plain enrolled.distinct] at found
  have present := plain_mem found
  have distinct := enrolled.distinct
  unfold OrderedMap.keys Table.entries at distinct
  rw [List.map_append, List.nodup_append] at distinct
  have apart := distinct.2.2
  apply (entries_without enrolled present).trans
  rw [← erase_both]
  apply List.Perm.of_eq
  congr 1
  obtain sync | async := List.mem_append.mp present
  · rw [if_neg (Bool.eq_false_iff.mp (enrolled.synchronous _ sync))]
    have absent : requestId ∉ OrderedMap.keys c.asyncRequests.entries :=
      fun inside => apart _ (OrderedMap.mem_keys sync) _ inside rfl
    rw [erase_absent absent]
    rfl
  · rw [if_pos (enrolled.asynchronous _ async)]
    have absent : requestId ∉ OrderedMap.keys c.requests.entries :=
      fun inside => apart _ inside _ (OrderedMap.mem_keys async) rfl
    rw [erase_absent absent]
    rfl

theorem awaiting_of_same (table : d.table = c.table) (pendings : d.pendings = c.pendings) :
    d.awaiting = c.awaiting := by
  unfold ConnectionI.awaiting
  rw [table, pendings]

theorem queue_of_kept (nothing : callsOf kept = [])
    (queue : callsOf c.sendStreams ++ callsOf kept = callsOf moved ++ callsOf d.sendStreams) :
    callsOf c.sendStreams = callsOf moved ++ callsOf d.sendStreams := by
  rw [nothing, List.append_nil] at queue
  exact queue

theorem failed_serials (ex : LocalException) (queue : List OutgoingMessage) :
    (queue.flatMap (OutgoingMessage.failedNotices ex)).map Notice.serial =
      (callsOf queue).map fun pair => pair.1.serial := by
  induction queue with
  | nil => rfl
  | cons message rest ih =>
      have split : callsOf (message :: rest) = callsOf [message] ++ callsOf rest :=
        calls_of_append [message] rest
      rw [split, List.flatMap_cons, List.map_append, List.map_append, ih]
      congr 1
      unfold OutgoingMessage.failedNotices
      cases isCall : message.call with
      | none => rw [own_calls isCall]; rfl
      | some call =>
          unfold callsOf
          rw [List.filterMap_cons, isCall]
          rfl

theorem Balanced.finishes {lost : List Nat}
    (balances : Balanced c.calls c.notices (c.awaiting ++ lost) (callsOf c.sendStreams))
    (enrolled : Enrolled c.table) (outstanding : ¬ RepliedEarly c) (ex : LocalException)
    (distinct : ((callsOf c.sendStreams).map fun pair => pair.1.serial).Nodup) :
    Balanced c.calls (c.notices ++ c.sendStreams.flatMap (OutgoingMessage.failedNotices ex) ++
      c.spared.map fun entry => Notice.failed entry.2.serial ex true)
      ((c.pendings.map fun reply => reply.1.serial) ++ lost) [] := by
  have serials : ((c.sendStreams.flatMap (OutgoingMessage.failedNotices ex) ++
      c.spared.map fun entry => Notice.failed entry.2.serial ex true).map Notice.serial) =
      ((callsOf c.sendStreams).map fun pair => pair.1.serial) ++
        c.spared.map fun entry => entry.2.serial := by
    rw [List.map_append, failed_serials, List.map_map]
    rfl
  have sameCalls := finished_calls enrolled outstanding distinct
  have due : (c.awaiting ++ lost).Perm ((c.pendings.map fun reply => reply.1.serial) ++ lost ++
      c.table.entries.map fun entry => entry.2.serial) := by
    unfold ConnectionI.awaiting
    rw [List.append_assoc, List.append_assoc]
    exact List.perm_append_comm.append_left _
  rw [List.append_assoc]
  apply (balances.permuted due).failed
  · rw [serials]
    exact sameCalls
  · intro notice inside
    obtain queued | spared := List.mem_append.mp inside
    · obtain ⟨message, _, told⟩ := List.mem_flatMap.mp queued
      unfold OutgoingMessage.failedNotices at told
      split at told
      · cases told
      · rw [List.mem_singleton.mp told]
        rfl
    · obtain ⟨entry, _, rfl⟩ := List.mem_map.mp spared
      rfl
  · intro notice inside
    have serial : notice.serial ∈ (c.table.entries.map fun entry => entry.2.serial) ++
        oneWays (callsOf c.sendStreams) := by
      rw [← sameCalls.mem_iff, ← serials]
      exact List.mem_map_of_mem inside
    obtain entry | oneWay := List.mem_append.mp serial
    · obtain ⟨entry, isEntry, same⟩ := List.mem_map.mp entry
      rw [← same]
      exact (List.getElem?_eq_some_iff.mp (enrolled.sent entry isEntry)).1
    · obtain ⟨pair, isQueued, same⟩ := List.mem_map.mp oneWay
      rw [← same]
      exact (List.getElem?_eq_some_iff.mp
        (balances.queued pair (List.mem_filter.mp isQueued).1)).1

theorem awaiting_of_entries {more : List (Int × Call)} (pendings : d.pendings = c.pendings)
    (entries : d.table.entries.Perm (more ++ c.table.entries)) :
    d.awaiting.Perm ((more.map fun entry => entry.2.serial) ++ c.awaiting) := by
  have serials := entries.map fun entry => entry.2.serial
  rw [List.map_append] at serials
  unfold ConnectionI.awaiting
  rw [pendings]
  apply (serials.append_left _).trans
  rw [← List.append_assoc, ← List.append_assoc]
  exact List.perm_append_comm.append_right _

section called

variable {due : List Nat} {notifies accepted : Bool}
  (balances : Balanced c.calls c.notices due (callsOf c.sendStreams))

include balances

theorem Balanced.thrown (requestId : Int) (response : Bool) :
    Balanced (c.calls ++ [⟨requestId, response, false⟩]) c.notices due
      (callsOf c.sendStreams ++ callsOf []) :=
  (List.append_nil (callsOf c.sendStreams)).symm ▸ balances.noted rfl

theorem Balanced.requested {compress response : Bool} {os : RequestStream} :
    Balanced (c.calls ++ [⟨if response then takenId c.nextRequestId else 0, response, accepted⟩])
      c.notices ((if response && accepted then [c.calls.length] else []) ++ due)
      (callsOf c.sendStreams ++
        callsOf (if accepted then [requestMessage async notifies compress response os c] else [])) := by
  cases accepted with
  | false =>
      rw [Bool.and_false]
      exact balances.thrown _ response
  | true =>
      rw [if_pos rfl, request_calls]
      cases response with
      | true =>
          have nonzero : takenId c.nextRequestId ≠ 0 :=
            Int.ne_of_gt (taken_positive c.nextRequestId)
          exact balances.twoWay rfl nonzero
      | false => exact balances.oneWay rfl

theorem Balanced.flushed {batch : Batch} :
    Balanced (c.calls ++ [⟨0, false, accepted⟩]) c.notices due
      (callsOf c.sendStreams ++ callsOf (if accepted then
        [batchMessage (some ⟨c.calls.length, async, notifies⟩) batch] else [])) := by
  cases accepted with
  | false => exact balances.thrown 0 false
  | true => exact balances.oneWay rfl

end called

theorem finish_balances {lost : List Nat} (closed : c.state = .closed) (enrolled : Enrolled c.table)
    (outstanding : ¬ RepliedEarly c) (tracked : Tracked setup c written waiting)
    (balances : Balanced c.calls c.notices (c.awaiting ++ lost) (callsOf c.sendStreams)) :
    Balanced (Connection.finish setup c).calls (Connection.finish setup c).notices
      ((Connection.finish setup c).awaiting ++ lost)
      (callsOf (Connection.finish setup c).sendStreams) := by
  obtain ⟨notices, table, pendings, queue⟩ : (Connection.finish setup c).notices = _ ∧
      (Connection.finish setup c).table = _ ∧ (Connection.finish setup c).pendings = _ ∧
      (Connection.finish setup c).sendStreams = [] := finish_spec closed
  rw [finish_calls_table] at table
  rw [finish_calls_notices] at notices
  have calls : (Connection.finish setup c).calls = c.calls := congrArg Table.calls table
  have awaiting : (Connection.finish setup c).awaiting =
      c.pendings.map fun reply => reply.1.serial := by
    unfold ConnectionI.awaiting
    rw [table, pendings]
    exact List.append_nil _
  have unfinished : c.state ≠ .finished := by
    rw [closed]
    decide
  rw [calls, notices, awaiting, queue]
  exact balances.finishes enrolled outstanding _ (tracked.queue_distinct unfinished)

theorem Traffic.balances {lost : List Nat}
    (traffic : Traffic setup strict permits c d written waiting moved left)
    (fresh : ¬ permits .reuse) (loses : ¬ permits .loses) (early : ¬ permits .early)
    (matched : Matched c) (tracked : Tracked setup c written waiting)
    (balances : Balanced c.calls c.notices (c.awaiting ++ lost) (callsOf c.sendStreams)) :
    Balanced d.calls d.notices (d.awaiting ++ lost) (callsOf d.sendStreams) := by
  have enrolled := matched.enrolled
  cases traffic with
  | @quiet added kept _ _ table pendings own sends =>
      have calls : d.calls = c.calls := congrArg Table.calls table
      have ownKept := sends.own_kept own
      rw [calls, sends.notices, awaiting_of_same table pendings]
      exact Balanced.sent (queue_of_kept ownKept sends.queue ▸ balances)
  | @call async notifies compress response accepted os _ _ open_ fresher table pendings sends =>
      have calls := (congrArg Table.calls table).trans enrolled_calls
      change d.calls = _ at calls
      have entries : (enroll (response && accepted) (takenId c.nextRequestId)
          ⟨c.calls.length, async, notifies⟩
          (note (if response then takenId c.nextRequestId else 0) response accepted
            (issue response c))).table.entries.Perm _ :=
        enroll_entries (fun response reused => fresh (fresher response reused))
      rw [← table] at entries
      have awaiting := awaiting_of_entries pendings entries
      rw [apply_ite (List.map fun entry : Int × Call => entry.2.serial)] at awaiting
      rw [calls, sends.notices]
      apply Balanced.sent
      rw [← sends.queue]
      apply Balanced.permuted _ (awaiting.symm.append_right lost)
      rw [List.append_assoc]
      exact balances.requested
  | flushed table pendings notices queue =>
      have calls : d.calls = c.calls ++ [⟨0, false, true⟩] := congrArg Table.calls table
      have awaiting : d.awaiting = c.awaiting := by
        unfold ConnectionI.awaiting
        rw [table, pendings]
        rfl
      rw [calls, notices, awaiting, queue]
      exact balances.instant
  | @flush async notifies accepted _ _ open_ table pendings sends =>
      have calls : d.calls = c.calls ++ [⟨0, false, accepted⟩] := congrArg Table.calls table
      have awaiting : d.awaiting = c.awaiting := by
        unfold ConnectionI.awaiting
        rw [table, pendings]
        rfl
      rw [calls, sends.notices, awaiting]
      apply Balanced.sent
      rw [← sends.queue]
      exact balances.flushed
  | @asyncReply stream requestId call _ _ open_ isId found isAsync table pendings sends =>
      have calls : d.calls = c.calls := congrArg Table.calls table
      have entries := reply_without enrolled found
      rw [if_pos isAsync, ← table] at entries
      have awaiting : c.awaiting.Perm d.awaiting := by
        unfold ConnectionI.awaiting
        rw [pendings, List.map_append, List.append_assoc]
        exact (entries.map fun entry => entry.2.serial).append_left _
      rw [calls, sends.notices]
      have before := balances.permuted (awaiting.append_right lost)
      exact Balanced.sent (queue_of_kept rfl sends.queue ▸ before)
  | @syncReply stream requestId call _ _ open_ isId found isSync table pendings sends =>
      have calls : d.calls = c.calls := congrArg Table.calls table
      have entries := reply_without enrolled found
      rw [if_neg (Bool.eq_false_iff.mp isSync), ← table] at entries
      have taken : c.table.entries.Perm ([(requestId, call)] ++ d.table.entries) := entries
      have awaiting := awaiting_of_entries pendings.symm taken
      have known : call.serial < c.calls.length := by
        have present := entries.mem_iff.mpr List.mem_cons_self
        exact (List.getElem?_eq_some_iff.mp (enrolled.sent _ present)).1
      rw [calls, sends.notices]
      have told : Balanced c.calls (c.notices ++ [.replied call.serial stream])
          (d.awaiting ++ lost) (callsOf c.sendStreams) :=
        (balances.permuted (awaiting.append_right lost)).told rfl rfl known
      have queue : callsOf c.sendStreams = _ := queue_of_kept rfl sends.queue
      exact Balanced.sent (queue ▸ told)
  | @callbacks call stream table pendings notices queue =>
      have calls : d.calls = c.calls := congrArg Table.calls table
      have awaiting : c.awaiting.Perm (call.serial :: d.awaiting) := by
        unfold ConnectionI.awaiting
        rw [table]
        exact (pendings.map fun reply => reply.1.serial).append_right _
      have known : call.serial < c.calls.length := by
        obtain ⟨requestId, record, _⟩ :=
          matched.pending _ (pendings.mem_iff.mpr List.mem_cons_self)
        exact (List.getElem?_eq_some_iff.mp record).1
      rw [calls, notices, queue]
      exact (balances.permuted (awaiting.append_right lost)).told rfl rfl known
  | lost permitted => exact absurd permitted loses
  | finish closed _ outstanding ended =>
      rw [ended]
      exact finish_balances closed enrolled (fun replied => early (outstanding replied)) tracked balances

/-- All bytes of the message of a call have passed the transceiver. -/
def Passed (setup : Setup) (c : ConnectionI) (serial : Nat) : Prop :=
  ∃ before message after call, c.handed = before ++ message :: after ∧
    message.call = some call ∧ call.serial = serial ∧ Framed setup message ∧
    frames setup (before ++ [message]) <+: c.delivered

theorem Passed.congr {serial : Nat} (handed : d.handed = c.handed)
    (delivered : d.delivered = c.delivered) : Passed setup d serial ↔ Passed setup c serial := by
  unfold Passed
  rw [handed, delivered]

theorem framed_nonempty {message : OutgoingMessage} (framed : Framed setup message) :
    0 < (frameOf setup message).length := by
  obtain ⟨frame, prepared⟩ := framed
  rw [frame_of_ok prepared]
  exact List.length_pos_iff.mpr (prepared_nonempty prepared)

theorem written_passed {part : List Byte}
    (carries : Carries setup strict c.pipe written waiting part)
    (framed : ∀ message ∈ written, Framed setup message)
    (inside : (call, requestId) ∈ callsOf written) : Passed setup c call.serial := by
  obtain ⟨message, isWritten, isCall, _⟩ := mem_calls_of.mp inside
  obtain ⟨before, after, split⟩ := List.append_of_mem isWritten
  refine ⟨before, message, after ++ waiting, call, ?_, isCall, rfl, framed message isWritten, ?_⟩
  · have handed : c.handed = written ++ waiting := carries.handed
    rw [handed, split, List.append_assoc]
    rfl
  · have delivered : c.delivered = frames setup written ++ part := carries.delivered
    have whole : written = (before ++ [message]) ++ after := by
      rw [split, List.append_assoc]
      rfl
    rw [delivered, whole, frames_append (before ++ [message]) after, List.append_assoc]
    exact List.prefix_append _ _

/-- Of the calls whose messages wait none has passed, as long as the first message does not
belong to a call and have a complete frame. -/
theorem waiting_unpassed {part : List Byte}
    (carries : Carries setup strict c.pipe written waiting part)
    (unfinished : ∀ first later, waiting = first :: later → first.call ≠ none → strict)
    (distinct : ((callsOf (written ++ waiting)).map fun pair => pair.1.serial).Nodup)
    (inside : (call, requestId) ∈ callsOf waiting) : ¬ Passed setup c call.serial := by
  rintro ⟨before, message, after, other, handed, isCall, sameSerial, framed, passed⟩
  have split : c.handed = written ++ waiting := carries.handed
  have delivered : c.delivered = frames setup written ++ part := carries.delivered
  rw [calls_of_append, List.map_append] at distinct
  have apart := List.disjoint_of_nodup_append distinct
  have notWritten : message ∉ written := by
    intro isWritten
    apply apart (a := call.serial)
    · exact List.mem_map.mpr ⟨(other, message.requestId),
        mem_calls_of.mpr ⟨message, isWritten, isCall, rfl⟩, sameSerial⟩
    · exact List.mem_map.mpr ⟨(call, requestId), inside, rfl⟩
  obtain ⟨skipped, isBefore, isWaiting⟩ : ∃ skipped, before = written ++ skipped ∧
      waiting = skipped ++ message :: after := by
    rw [handed] at split
    obtain ⟨skipped, isBefore, rest⟩ | ⟨skipped, isWritten, rest⟩ :=
      List.append_eq_append_iff.mp split.symm
    · exact ⟨skipped, isBefore, rest⟩
    · cases skipped with
      | nil =>
          rw [List.append_nil] at isWritten
          exact ⟨[], by rw [isWritten, List.append_nil], rest.symm⟩
      | cons head tail =>
          cases rest
          exact absurd (isWritten ▸ List.mem_append_right _ List.mem_cons_self) notWritten
  rw [isBefore, List.append_assoc, frames_append, delivered, List.prefix_append_right_inj] at passed
  have short := passed.length_le
  rw [frames_append, frames_singleton, List.length_append] at short
  have some_ := framed_nonempty framed
  obtain nothing | ⟨first, later, frame, isFirst, prepared, begins, shorter⟩ := carries.inside
  · rw [nothing, List.length_nil] at short
    omega
  · have isFrame : frameOf setup first = frame := frame_of_ok prepared
    have within := begins.length_le
    rw [isFirst] at isWaiting
    cases skipped with
    | nil =>
        have below : part.length < frame.length := by
          apply shorter (unfinished first later isFirst _)
          cases isWaiting
          rw [isCall]
          exact Option.some_ne_none _
        cases isWaiting
        change (frames setup []).length + _ ≤ _ at short
        rw [isFrame] at short
        omega
    | cons head tail =>
        cases isWaiting
        have longer : frames setup (first :: tail) = frameOf setup first ++ frames setup tail :=
          List.flatten_cons
        rw [longer, isFrame, List.length_append] at short
        omega

theorem spared_entry (enrolled : Enrolled c.table) (inside : (requestId, call) ∈ c.spared) :
    (requestId, call) ∈ c.table.entries ∧ (call, requestId) ∉ callsOf c.sendStreams := by
  have unclaimed {async : Bool} {entries : List (Int × Call)}
      (kept : (requestId, call) ∈ spared async (callsOf c.sendStreams) entries)
      (present : (requestId, call) ∈ c.table.entries) (isAsync : call.async = async) :
      (call, requestId) ∉ callsOf c.sendStreams := by
    intro queued
    have nonzero : requestId ≠ 0 := Int.ne_of_gt (enrolled.positive _ present)
    have kept_ := (List.mem_filter.mp kept).2
    rw [Bool.not_eq_true', List.any_eq_false] at kept_
    apply kept_ _ queued
    simp [isAsync, nonzero]
  obtain sync | async := List.mem_append.mp inside
  · have entry : (requestId, call) ∈ c.requests.entries := (List.mem_filter.mp sync).1
    have present : (requestId, call) ∈ c.table.entries := List.mem_append_left _ entry
    exact ⟨present, unclaimed sync present (enrolled.synchronous _ entry)⟩
  · have entry : (requestId, call) ∈ c.asyncRequests.entries := (List.mem_filter.mp async).1
    have present : (requestId, call) ∈ c.table.entries := List.mem_append_right _ entry
    exact ⟨present, unclaimed async present (enrolled.asynchronous _ entry)⟩

/-- A connection that is closed: the calls in the queue have not passed, and those that only wait
for a reply have. -/
theorem closed_passed (output : Output setup strict c written waiting) (closed : c.state = .closed)
    (tracked : Tracked setup c written waiting) (enrolled : Enrolled c.table)
    (unwritten : ¬ FrontWritten c) :
    (∀ pair ∈ callsOf c.sendStreams, ¬ Passed setup c pair.1.serial) ∧
      ∀ entry ∈ c.spared, Passed setup c entry.2.serial := by
  have unfinished : c.state ≠ .finished := by
    rw [closed]
    decide
  have below : c.state < .finished := by
    rw [closed]
    decide
  obtain ⟨lost, line, refused⟩ := tracked.lined unfinished
  have stalls := output.stalls below
  have inQueue {pair : Call × Int} (inside : pair ∈ callsOf c.sendStreams) :
      pair ∈ callsOf waiting := by
    rw [line]
    exact List.mem_append_left _ inside
  constructor
  · rintro ⟨call, requestId⟩ inside
    obtain ⟨part, carries⟩ := stalls.carries
    apply waiting_unpassed carries _ tracked.distinct (inQueue inside)
    intro first later isFirst isCall
    right
    intro isWritten
    apply unwritten
    refine ⟨?_, isWritten⟩
    obtain stand | ⟨empty, _⟩ := stalls.queue
    · change List.Forall₂ Stands c.sendStreams waiting at stand
      rw [isFirst] at stand
      cases queue : c.sendStreams with
      | nil =>
          rw [queue] at stand
          cases stand
      | cons front rest =>
          rw [queue] at stand
          cases stand with
          | cons stands _ =>
              refine ⟨front, rfl, ?_⟩
              rw [stands.call]
              exact isCall
    · change c.sendStreams = [] at empty
      rw [empty] at inside
      cases inside
  · rintro ⟨requestId, call⟩ inside
    obtain ⟨part, carries⟩ := stalls.all_carried
    obtain ⟨isEntry, notQueued⟩ := spared_entry enrolled inside
    have carried := tracked.carried _ isEntry
    rw [calls_of_append, line] at carried
    obtain isWritten | waits := List.mem_append.mp carried
    · exact written_passed carries tracked.framed isWritten
    · obtain queued | isLost := List.mem_append.mp waits
      · exact absurd queued notQueued
      · have positive := enrolled.positive _ isEntry
        have record := enrolled.sent _ isEntry
        apply absurd _ (refused _ isLost)
        unfold Noted
        change c.calls[call.serial]? = some ⟨requestId, true, true⟩ at record
        have nonzero : requestId ≠ 0 := Int.ne_of_gt positive
        rw [record, decide_eq_true nonzero]

def Notice.isFailure : Notice → Bool
  | .failed _ _ _ => true
  | _ => false

/-- The calls that have failed are told by `finish`, with the truth about their messages. -/
def Honest (setup : Setup) (c : ConnectionI) : Prop :=
  ∀ serial ex isSent, .failed serial ex isSent ∈ c.notices →
    c.state = .finished ∧ (isSent = true ↔ Passed setup c serial)

theorem Traffic.failures (traffic : Traffic setup strict permits c d written waiting moved left) :
    c.state = .closed ∧ d = Connection.finish setup c ∧ (FrontWritten c → permits .unmarked) ∨
      ∃ added, d.notices = c.notices ++ added ∧ ∀ notice ∈ added, notice.isFailure = false := by
  have sent (moved : List OutgoingMessage) (notice : Notice)
      (inside : notice ∈ moved.flatMap OutgoingMessage.sentNotices) :
      notice.isFailure = false := by
    obtain ⟨message, _, told⟩ := List.mem_flatMap.mp inside
    unfold OutgoingMessage.sentNotices at told
    split at told
    · cases told
    · rw [List.mem_singleton.mp told]
      rfl
  have only {notice : Notice} (unfailed : notice.isFailure = false) :
      ∀ other ∈ [notice], other.isFailure = false := by
    intro other inside
    rw [List.mem_singleton.mp inside]
    exact unfailed
  cases traffic with
  | quiet _ _ _ sends => exact Or.inr ⟨_, sends.notices, sent _⟩
  | call _ _ _ _ sends => exact Or.inr ⟨_, sends.notices, sent _⟩
  | flush _ _ _ sends => exact Or.inr ⟨_, sends.notices, sent _⟩
  | asyncReply _ _ _ _ _ _ sends => exact Or.inr ⟨_, sends.notices, sent _⟩
  | syncReply _ _ _ _ _ _ sends =>
      refine Or.inr ⟨_, sends.notices.trans (List.append_assoc _ _ _), ?_⟩
      intro notice inside
      obtain reply | written := List.mem_append.mp inside
      · exact only rfl notice reply
      · exact sent _ notice written
  | flushed _ _ notices => exact Or.inr ⟨_, notices, only rfl⟩
  | callbacks _ _ notices => exact Or.inr ⟨_, notices, only rfl⟩
  | lost _ _ _ notices =>
      refine Or.inr ⟨[], notices.trans (List.append_nil _).symm, ?_⟩
      intro notice inside
      cases inside
  | finish closed unwritten _ ended => exact Or.inl ⟨closed, ended, unwritten⟩

theorem Stalls.unsent {pipe : Pipe} (stalls : Stalls setup strict pipe written waiting)
    {entry : OutgoingMessage} (inside : entry ∈ pipe.sendStreams) : entry.isSent = false := by
  obtain stand | ⟨empty, _⟩ := stalls.queue
  · obtain ⟨index, bound, isEntry⟩ := List.getElem_of_mem inside
    have stands := (List.forall₂_iff_get.mp stand).2 index bound (stand.length_eq ▸ bound)
    rw [← isEntry]
    exact stands.isSent
  · rw [empty] at inside
    cases inside

theorem Move.finished_pipe (move : Move setup permits c d) (finished : c.state = .finished) :
    d.pipe = c.pipe := by
  have early {state : State} (before : c.state < state) (last : state ≤ .finished) :
      d.pipe = c.pipe := by
    rw [finished] at before
    exact absurd before (Nat.not_lt.mpr last)
  have other {state : State} (isState : c.state = state) (different : state ≠ .finished) :
      d.pipe = c.pipe := by
    rw [finished] at isState
    exact absurd isState.symm different
  cases move with
  | life same => exact pipe_of_still same
  | validated | dropped | abort | upcall | throws | callbacks | invoke => rfl
  | shutdown closing => exact other closing (by decide)
  | call _ open_ => exact early open_ (by decide)
  | prepareBatch open_ => exact early open_ (by decide)
  | flush open_ => exact early open_ (by decide)
  | write open_ => exact early open_ (by decide)
  | abandon open_ => exact early open_ (by decide)
  | read open_ => exact early open_ (by decide)
  | process _ open_ => exact early open_ (by decide)
  | replied _ _ open_ => exact early open_ (by decide)
  | finish closed => exact other closed (by decide)
  | @finishBatch request compress outcome _ _ _ free =>
      have isSet : c.exception ≠ none := by
        intro isFree
        have open_ := free.mp isFree
        rw [finished] at open_
        exact absurd open_ (by decide)
      obtain ⟨ex, isException⟩ := Option.ne_none_iff_exists'.mp isSet
      rw [finish_batch_eq]
      dsimp only
      rw [isException]
      rfl
  | forget => exact reap_pipe
  | answered => exact reap_pipe
  | done =>
      unfold retireUpcall
      split
      · exact reap_pipe
      · rfl

theorem Traffic.honest (traffic : Traffic setup strict permits c d written waiting moved left)
    (move : Move setup permits c d) (unmarked : ¬ permits .unmarked)
    (output : Output setup strict c written waiting) (tracked : Tracked setup c written waiting)
    (enrolled : Enrolled c.table) (honest : Honest setup c) : Honest setup d := by
  obtain ⟨closed, rfl, unwritten⟩ | ⟨added, notices, unfailed⟩ := traffic.failures
  · have passed := closed_passed output closed tracked enrolled
      (fun wrote => unmarked (unwritten wrote))
    have same (serial : Nat) : Passed setup (Connection.finish setup c) serial ↔ Passed setup c serial :=
      Passed.congr (finish_handed closed) (finish_delivered closed)
    have below : c.state < .finished := by
      rw [closed]
      decide
    obtain ⟨notices, _⟩ : (Connection.finish setup c).notices = _ ∧ _ := finish_spec closed
    rw [finish_calls_notices, List.append_assoc] at notices
    intro serial ex isSent told
    refine ⟨finish_state closed, ?_⟩
    rw [same]
    rw [notices, List.mem_append, List.mem_append] at told
    obtain before | queued | spared := told
    · have finished := (honest serial ex isSent before).1
      rw [closed] at finished
      cases finished
    · obtain ⟨entry, inside, isTold⟩ := List.mem_flatMap.mp queued
      unfold OutgoingMessage.failedNotices at isTold
      cases isCall : entry.call with
      | none =>
          rw [isCall] at isTold
          cases isTold
      | some call =>
          rw [isCall] at isTold
          cases List.mem_singleton.mp isTold
          have unsent : entry.isSent = false := (output.stalls below).unsent inside
          have unpassed := passed.1 (call, entry.requestId)
            (mem_calls_of.mpr ⟨entry, inside, isCall, rfl⟩)
          rw [unsent]
          constructor
          · intro impossible
            cases impossible
          · intro isPassed
            exact absurd isPassed unpassed
    · obtain ⟨entry, inside, isTold⟩ := List.mem_map.mp spared
      cases isTold
      exact ⟨fun _ => passed.2 entry inside, fun _ => rfl⟩
  · intro serial ex isSent told
    rw [notices, List.mem_append] at told
    obtain before | now := told
    · obtain ⟨finished, truth⟩ := honest serial ex isSent before
      have pipe := move.finished_pipe finished
      refine ⟨?_, ?_⟩
      · obtain onward | ⟨closed, _⟩ := move.onward
        · exact onward.finished_iff.mpr finished
        · rw [finished] at closed
          cases closed
      · have same : Passed setup d serial ↔ Passed setup c serial :=
          Passed.congr (congrArg Pipe.handed pipe) (congrArg Pipe.delivered pipe)
        rw [same]
        exact truth
    · cases unfailed _ now

def Emptied (c : ConnectionI) : Prop :=
  c.state = .finished → c.table.entries = [] ∧ c.sendStreams = []

theorem Traffic.emptied (traffic : Traffic setup strict permits c d written waiting moved left)
    (move : Move setup permits c d) (emptied : Emptied c) : Emptied d := by
  intro finished
  have before (onward : Onward c d) : c.state = .finished := onward.finished_iff.mp finished
  have kept (same : d.table.entries = c.table.entries) (isFinished : c.state = .finished) :
      d.table.entries = [] ∧ d.sendStreams = [] := by
    obtain ⟨noEntries, noMessages⟩ := emptied isFinished
    have queue : d.sendStreams = c.sendStreams :=
      congrArg Pipe.sendStreams (move.finished_pipe isFinished)
    exact ⟨same.trans noEntries, queue.trans noMessages⟩
  obtain onward | ⟨closed, rfl⟩ := move.onward
  · have wasFinished := before onward
    have late {state : State} (open_ : c.state < state) (last : state ≤ .finished) :
        d.table.entries = [] ∧ d.sendStreams = [] := by
      rw [wasFinished] at open_
      exact absurd open_ (Nat.not_lt.mpr last)
    cases traffic with
    | quiet table => exact kept (congrArg Table.entries table) wasFinished
    | call open_ => exact late open_ (by decide)
    | flushed table =>
        have entries : d.table.entries = (note 0 false true c).table.entries :=
          congrArg Table.entries table
        exact kept entries wasFinished
    | flush open_ => exact late open_ (by decide)
    | asyncReply open_ => exact late open_ (by decide)
    | syncReply open_ => exact late open_ (by decide)
    | callbacks table => exact kept (congrArg Table.entries table) wasFinished
    | lost _ table => exact kept (congrArg Table.entries table) wasFinished
    | finish closed =>
        rw [wasFinished] at closed
        cases closed
  · obtain ⟨_, table, _, queue⟩ : (Connection.finish setup c).notices = _ ∧
        (Connection.finish setup c).table = _ ∧ (Connection.finish setup c).pendings = _ ∧
        (Connection.finish setup c).sendStreams = [] := finish_spec closed
    rw [table, finish_calls_table]
    exact ⟨rfl, queue⟩

structure Settles (setup : Setup) (c : ConnectionI) : Prop where
  matched : Matched c
  balances : c.Balances
  honest : Honest setup c
  emptied : Emptied c
  tracked : ∃ written waiting, Output setup False c written waiting ∧
    Tracked setup c written waiting

theorem settles_initial : Settles setup .initial where
  matched := matched_initial
  balances := by
    constructor
    · intro notice inside
      cases inside
    · intro pair inside
      cases inside
    · exact .refl _
  honest := by
    intro serial ex isSent told
    cases told
  emptied := fun _ => ⟨rfl, rfl⟩
  tracked := by
    refine ⟨[], [], output_initial, ?_⟩
    constructor
    · exact List.nodup_nil
    · intro pair inside
      cases inside
    · exact fun _ => ⟨[], rfl, by simp⟩
    · intro entry inside
      cases inside
    · intro message inside
      cases inside

theorem Move.settles (move : Move setup permits c d) (fresh : ¬ permits .reuse)
    (loses : ¬ permits .loses) (unmarked : ¬ permits .unmarked) (early : ¬ permits .early)
    (settles : Settles setup c) : Settles setup d := by
  obtain ⟨written, waiting, output, tracked⟩ := settles.tracked
  obtain ⟨moved, left, traffic⟩ : ∃ moved left, Traffic setup False permits c d written waiting
    moved left := move.traffic False.elim output
  have unfinished : d.state ≠ .finished → c.state ≠ .finished := by
    intro stillUnfinished finished
    obtain onward | ⟨closed, _⟩ := move.onward
    · exact stillUnfinished (onward.finished_iff.mpr finished)
    · rw [finished] at closed
      cases closed
  have nothingLost : c.Balances = Balanced c.calls c.notices (c.awaiting ++ [])
      (callsOf c.sendStreams) := by rw [List.append_nil]
  have balances := traffic.balances fresh loses early settles.matched tracked
    (nothingLost ▸ settles.balances)
  rw [List.append_nil] at balances
  exact ⟨traffic.matched fresh settles.matched, balances,
    traffic.honest move unmarked output tracked settles.matched.enrolled settles.honest,
    traffic.emptied move settles.emptied,
    _, _, traffic.output, traffic.tracked unfinished fresh output tracked⟩

theorem settles_of_reached
    (reached : Reach (step setup) (Avoids setup [.reuse, .loses, .unmarked, .early]) .initial c) :
    Settles setup c := by
  apply invariant_of_moves reached settles_initial
  intro before after settles move
  exact move.settles (by decide) (by decide) (by decide) (by decide) settles

/-- Every call that was accepted is completed once, or will be when `dispatch` passes its reply
on, and a call that has failed was told whether all bytes of its message passed the
transceiver. -/
structure CompletedOnce (setup : Setup) (c : ConnectionI) : Prop where
  once : ∀ serial record, c.calls[serial]? = some record → record.accepted = true →
    (completed c.calls c.notices ++ c.pendings.map fun reply => reply.1.serial).count serial = 1
  honest : ∀ serial ex isSent, .failed serial ex isSent ∈ c.notices →
    (isSent = true ↔ Passed setup c serial)

theorem Settles.completed_once (settles : Settles setup c) (finished : c.state = .finished) :
    CompletedOnce setup c where
  once := by
    intro serial record known accepted
    obtain ⟨noEntries, noMessages⟩ := settles.emptied finished
    have balance := settles.balances.balance
    unfold ConnectionI.awaiting at balance
    rw [noEntries, noMessages] at balance
    change (completed c.calls c.notices ++ (_ ++ []) ++ []).Perm _ at balance
    rw [List.append_nil, List.append_nil] at balance
    rw [balance.count_eq]
    apply List.count_eq_one_of_mem
    · exact List.nodup_range.filter _
    · apply List.mem_filter.mpr
      rw [List.mem_range, known]
      exact ⟨(List.getElem?_eq_some_iff.mp known).1, accepted⟩
  honest := fun serial ex isSent told => (settles.honest serial ex isSent told).2

/-- Every finished connection has completed every accepted call once, in the runs in which no
two-way request takes the id of an outstanding one, no user Dispatcher throws a reply away, and
`finish` finds no completely written front frame of a call and no queued request whose reply has
come. -/
theorem requests_complete_once
    (reached : Reach (step setup) (Avoids setup [.reuse, .loses, .unmarked, .early]) .initial c)
    (finished : c.state = .finished) : CompletedOnce setup c :=
  (settles_of_reached reached).completed_once finished

/-- A request is answered, and another one is partly written when the connection is closed. -/
def cutOffRun : List Event :=
  [.start true .done .done, .activate, .sendRequest false true ping ⟨1000, none⟩,
    .message (arrives (pong 1)), .callbacks 0, .dispatchDone 0 noWrite,
    .sendAsyncRequest false false true ping ⟨5, none⟩, .close true noWrite, .finish]

theorem cut_off_run_completes : ∃ c, CompletedOnce tcpSetup c ∧
    completed c.calls c.notices = [0, 1] ∧ ¬ Passed tcpSetup c 1 := by
  have ran : (runAll (checked (step tcpSetup) (Event.sound tcpSetup)) cutOffRun .initial).map
      (fun c => (c.state, c.notices, completed c.calls c.notices)) =
        some (.finished, [.sent 0, .replied 0 (pong 1), .failed 1 .forcedCloseConnection false],
          [0, 1]) := by
    decide
  obtain ⟨c, isResult, told⟩ := Option.map_eq_some_iff.mp ran
  simp only [Prod.mk.injEq] at told
  obtain ⟨finished, notices, completes⟩ := told
  have once : CompletedOnce tcpSetup c :=
    requests_complete_once (reach_of_checked (avoids_of_sound _) isResult) finished
  refine ⟨c, once, completes, ?_⟩
  have truth := once.honest 1 .forcedCloseConnection false (by rw [notices]; simp)
  intro passed
  cases truth.mpr passed

/-- An event reads and writes: the rest of a request is written, and nothing can be read. Then the
connection is closed. -/
def abandonedRun : List Event :=
  [.start true .done .done, .activate, .sendRequest false true ping ⟨5, none⟩,
    .message ⟨true, true, .pending, .pending, ⟨[], none⟩, [⟨1000, none⟩], none⟩,
    .close true noWrite, .finish]

/-- The request has passed the transceiver, and its caller is told that it was not sent. -/
theorem written_request_not_sent : ∃ c, Reachable tcpSetup c ∧ c.state = .finished ∧
    c.notices = [.failed 0 .forcedCloseConnection false] ∧ Passed tcpSetup c 0 ∧
    ¬ CompletedOnce tcpSetup c := by
  have ends : (runAll (step tcpSetup) abandonedRun .initial).map
      (fun c => (c.state, c.notices)) =
        some (.finished, [.failed 0 .forcedCloseConnection false]) := by
    decide
  have streams : (runAll (step tcpSetup) abandonedRun .initial).map
      (fun c => (c.handed, c.delivered)) =
        some ([callMessage false false false 1 (putInt ping.bytes headerSize 1) .initial],
          putInt (putInt ping.bytes headerSize 1) 10 33) := by
    decide
  obtain ⟨c, isResult, told⟩ := Option.map_eq_some_iff.mp ends
  rw [isResult] at streams
  simp only [Option.map_some, Option.some.injEq, Prod.mk.injEq] at told streams
  obtain ⟨finished, notices⟩ := told
  obtain ⟨handed, delivered⟩ := streams
  have passed : Passed tcpSetup c 0 := by
    refine ⟨[], _, [], ⟨0, false, false⟩, handed, rfl, rfl, ⟨_, rfl⟩, ?_⟩
    rw [delivered]
    decide
  refine ⟨c, reach_of_run isResult (fun _ _ _ => trivial), finished, notices, passed, ?_⟩
  intro once
  have truth := once.honest 0 .forcedCloseConnection false (by rw [notices]; simp)
  cases truth.mpr passed

end IceTouch.Connection
