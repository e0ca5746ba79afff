import IceTouch.Connection.Batches

/-!
# Giving up a batched request

`abortBatchRequest` resets the batch. Nothing is lost when no other request is queued: a batch
without requests has an empty stream and no compress flag.
-/

namespace IceTouch.Connection

open Bytes Machine

def Restored (before after : ConnectionI) : Prop :=
  after.batch.stream = before.batch.stream ∧
    after.batch.requestNum = before.batch.requestNum ∧
    after.batch.compress = before.batch.compress

instance (before after : ConnectionI) : Decidable (Restored before after) :=
  inferInstanceAs (Decidable (_ ∧ _ ∧ _))

/-- The caller of `prepareBatchRequest` writes to the stream that it was lent. -/
def writeLent (written : List Byte) (c : ConnectionI) : ConnectionI :=
  { c with batch := { c.batch with lent := c.batch.lent ++ written } }

variable {setup : Setup} {permits : Fault → Prop} {c d : ConnectionI}

def Uncompressed (c : ConnectionI) : Prop :=
  c.state < .closing → c.batch.requestNum = 0 → c.batch.compress = false

theorem uncompressed_reset (inUse : Bool) (reset : d.batch = Batch.reset inUse) : Uncompressed d := by
  intro _ _
  rw [reset]
  rfl

variable {outcome : WriteOutcome}

theorem auto_flush_restarts (flushed : (autoFlush setup outcome c).1 = .ok ()) :
    (autoFlush setup outcome c).2.batch.stream ≠ [] := by
  revert flushed
  rw [auto_flush_eq]
  generalize sendMessage setup outcome (batchMessage none (frontBatch c))
    { c with batch := frontBatch c } = result
  rcases result with ⟨status, after⟩
  have restarted : (restartBatch setup (c.batch.stream.drop c.batch.marker) after).1 = .ok () →
      (restartBatch setup (c.batch.stream.drop c.batch.marker) after).2.batch.stream ≠ [] := by
    unfold restartBatch
    split
    · exact nofun
    · intro _
      exact List.append_ne_nil_of_left_ne_nil (by decide) _
  cases status with
  | failed ex os => exact nofun
  | sent callback => exact restarted
  | queued => exact restarted

theorem finish_batch_result {written : List Byte} (compress : Bool) (outcome : WriteOutcome)
    (nonempty : written ≠ []) :
    (finishBatchRequest setup written compress outcome c).2.batch = Batch.reset false ∨
      (finishBatchRequest setup written compress outcome c).2.batch.inUse = false ∧
        (finishBatchRequest setup written compress outcome c).2.batch.stream ≠ [] := by
  rw [finish_batch_eq]
  dsimp only
  split
  · exact Or.inl rfl
  · split
    · right
      exact ⟨rfl, List.append_ne_nil_of_right_ne_nil _ nonempty⟩
    · split
      · have restarts : (autoFlush setup outcome (returnBatch written c)).1 = .ok () →
            (autoFlush setup outcome (returnBatch written c)).2.batch.stream ≠ [] :=
          auto_flush_restarts
        generalize autoFlush setup outcome (returnBatch written c) = result at restarts ⊢
        rcases result with ⟨status, after⟩
        cases status with
        | error ex => exact Or.inl rfl
        | ok done => exact Or.inr ⟨rfl, restarts rfl⟩
      · exact Or.inl rfl

theorem Uncompressed.flushed {async notifies : Bool} {result : CallResult}
    (uncompressed : Uncompressed c) (open_ : c.state < .closing) (free : c.exception = none)
    (flushed : flushBatch setup async notifies outcome c = some (result, d)) : Uncompressed d := by
  obtain ⟨-, ⟨-, rfl⟩ | ⟨some_, sent, isSent, rest⟩⟩ := flush_batch_cases free flushed
  · intro _ empty
    exact uncompressed open_ empty
  · obtain ⟨rfl, ex, os, rfl⟩ | ⟨rfl, -⟩ := rest
    · intro openAfter
      have closed := send_for_call_thrown isSent
      exact absurd openAfter (Nat.not_lt.mpr (Nat.le_trans (by decide) closed))
    · exact uncompressed_reset _ rfl

theorem Uncompressed.finished {written : List Byte} {groups : List (List (List Byte))}
    {current : List (List Byte)} {compress : Bool} (nonempty : written ≠ [])
    (batching : Batching setup False (finishBatchRequest setup written compress outcome c).2
      groups current) : Uncompressed (finishBatchRequest setup written compress outcome c).2 := by
  obtain reset | ⟨idle, holds⟩ := finish_batch_result compress outcome nonempty
  · exact uncompressed_reset false reset
  · intro _ empty
    rw [batching.count] at empty
    have none_ : current = [] := List.length_eq_zero_iff.mp (by omega)
    have stream := batching.idle idle
    rw [if_pos none_] at stream
    exact absurd stream holds

theorem Move.uncompressed (move : Move setup permits c d) (uncompressed : Uncompressed c)
    (batched : Batched setup False d) : Uncompressed d := by
  intro open_
  have openBefore : c.state < .closing := move.open_before open_
  have same (basket : d.basket = c.basket) :
      d.batch.requestNum = 0 → d.batch.compress = false := by
    have batch : d.batch = c.batch := congrArg Prod.fst basket
    rw [batch]
    exact uncompressed openBefore
  have handles : Handles setup permits c d := move.handles openBefore open_
  cases handles with
  | kept _ basket => exact same basket
  | other _ _ basket => exact same basket
  | prepared free prepared =>
      obtain ⟨-, rfl⟩ := prepare_batch_eq free prepared
      exact uncompressed openBefore
  | finished _ nonempty =>
      obtain ⟨groups, current, batching⟩ := batched open_
      exact Uncompressed.finished nonempty batching open_
  | aborted => exact uncompressed_reset false rfl open_
  | flushed free flushed => exact uncompressed.flushed openBefore free flushed open_

theorem empty_batch_of_reachable (reached : Reachable setup c) (open_ : c.state < .closing)
    (unused : c.batch.inUse = false) (empty : c.batch.requestNum = 0) :
    c.batch.stream = [] ∧ c.batch.compress = false := by
  have both : Batched setup False c ∧ Uncompressed c := by
    have allowed : Reach (step setup) (Avoids setup []) .initial c :=
      reached.weaken (fun _ _ _ _ inside => nomatch inside)
    apply invariant_of_moves allowed ⟨batched_initial, fun _ _ => rfl⟩
    rintro before after ⟨batched, uncompressed⟩ move
    have batchedAfter : Batched setup False after := move.batched False.elim batched
    exact ⟨batchedAfter, move.uncompressed uncompressed batchedAfter⟩
  obtain ⟨batched, uncompressed⟩ := both
  obtain ⟨groups, current, batching⟩ := batched open_
  have none_ : current = [] := by
    rw [batching.count] at empty
    exact List.length_eq_zero_iff.mp (by omega)
  constructor
  · rw [batching.idle unused, if_pos none_]
  · exact uncompressed open_ empty

/-- Whatever the caller of `prepareBatchRequest` wrote to the stream, `abortBatchRequest` leaves
the batch as it was exactly when no request was queued. -/
theorem abort_restores_iff (written : List Byte) (reached : Reachable setup c)
    (prepared : prepareBatchRequest c = some (.ok (), d)) :
    Restored c (abortBatchRequest (writeLent written d)) ↔ c.batch.requestNum = 0 := by
  have free : c.exception = none := by
    cases isSet : c.exception with
    | none => rfl
    | some ex =>
        simp only [prepareBatchRequest, isSet, reduceCtorEq, and_false, if_false] at prepared
        cases prepared
  have open_ : c.state < .closing := (life_cycle_of_reachable reached).free_iff.mp free
  obtain ⟨unused, -⟩ := prepare_batch_eq free prepared
  constructor
  · rintro ⟨-, count, -⟩
    exact count.symm
  · intro empty
    obtain ⟨stream, compress⟩ := empty_batch_of_reachable reached open_ unused empty
    exact ⟨stream.symm, empty.symm, compress.symm⟩

def oneQueuedRun : List Event :=
  [.start true .done .done, .prepareBatchRequest, .finishBatchRequest [1, 2] true noWrite]

/-- The request that was queued is lost, its count and the compress flag with it. -/
theorem abort_loses_queued_request :
    ∃ c d, Reachable tcpSetup c ∧ prepareBatchRequest c = some (.ok (), d) ∧
      ¬ Restored c (abortBatchRequest (writeLent [3] d)) := by
  have ran : ∃ c, runAll (step tcpSetup) oneQueuedRun .initial = some c ∧
      ∃ d, prepareBatchRequest c = some (.ok (), d) ∧
        ¬ Restored c (abortBatchRequest (writeLent [3] d)) :=
    ⟨_, rfl, _, rfl, by decide⟩
  obtain ⟨c, isResult, d, prepared, lost⟩ := ran
  exact ⟨c, d, reach_of_run isResult (fun _ _ _ => trivial), prepared, lost⟩

/-- The first request of a batch is given up. -/
theorem first_request_given_up :
    ∃ c d, Reachable tcpSetup c ∧ prepareBatchRequest c = some (.ok (), d) ∧
      (Restored c (abortBatchRequest (writeLent [3] d)) ↔ c.batch.requestNum = 0) := by
  have ran : ∃ c, runAll (step tcpSetup) [.start true .done .done] .initial = some c ∧
      ∃ d, prepareBatchRequest c = some (.ok (), d) := ⟨_, rfl, _, rfl⟩
  obtain ⟨c, isResult, d, prepared⟩ := ran
  have reached : Reachable tcpSetup c := reach_of_run isResult (fun _ _ _ => trivial)
  exact ⟨c, d, reached, prepared, abort_restores_iff [3] reached prepared⟩

end IceTouch.Connection
