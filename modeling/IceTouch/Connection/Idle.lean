import IceTouch.Connection.Completion
import IceTouch.Connection.Counting
import IceTouch.Connection.Batches

/-!
# Closing an idle connection

What the connection monitor leaves behind when it closes a connection that has not been used for
some time. The check of `monitor` looks at the buffers and counters of the connection; the batch
stream is not among them while it belongs to the caller of `prepareBatchRequest`.
-/

namespace IceTouch.Connection

open Bytes Machine

/-- What `_dispatchCount` has to account for. -/
def ConnectionI.load (c : ConnectionI) : Int := c.unanswered + c.callbackBatches

/-- The dispatch count accounts for the dispatches and the callback batches. It is too high once a
user Dispatcher has thrown. -/
structure Covered (c : ConnectionI) : Prop where
  upcalls : ∀ upcall ∈ c.upcalls, 0 ≤ upcall.invokeNum
  covered : c.load ≤ c.dispatchCount
  range : c.dispatchCount < 2 ^ 31

def ConnectionI.excess (c : ConnectionI) : Int := c.dispatchCount - c.load

structure Covers (c d : ConnectionI) : Prop extends Covered d where
  excess : c.excess ≤ d.excess

variable {setup : Setup} {permits : Fault → Prop} {c d e : ConnectionI}

theorem load_nonneg (upcalls : ∀ upcall ∈ c.upcalls, 0 ≤ upcall.invokeNum) : 0 ≤ c.load := by
  have sum := invoke_sum_nonneg c.upcalls upcalls
  unfold ConnectionI.load ConnectionI.unanswered
  omega

theorem Covered.natural (covered : Covered c) : 0 ≤ c.dispatchCount :=
  (load_nonneg covered.upcalls).trans covered.covered

theorem covered_initial : Covered .initial where
  upcalls := by simp [ConnectionI.initial]
  covered := by decide
  range := by decide

theorem Covered.same (covered : Covered c) (count : d.dispatchCount = c.dispatchCount)
    (load : d.load = c.load) (upcalls : ∀ upcall ∈ d.upcalls, 0 ≤ upcall.invokeNum) :
    Covers c d := by
  have before := covered.covered
  refine ⟨⟨upcalls, ?_, ?_⟩, ?_⟩
  · rw [count, load]
    exact before
  · rw [count]
    exact covered.range
  · unfold ConnectionI.excess
    rw [count, load]

theorem Covered.same_tally (covered : Covered c) (tally : d.tally = c.tally) : Covers c d := by
  have upcalls : d.upcalls = c.upcalls := congrArg Tally.upcalls tally
  have dispatches : d.dispatches = c.dispatches := congrArg Tally.dispatches tally
  apply covered.same
  · exact congrArg Tally.dispatchCount tally
  · unfold ConnectionI.load ConnectionI.unanswered ConnectionI.callbackBatches
    rw [upcalls, dispatches]
  · rw [upcalls]
    exact covered.upcalls

theorem Covered.lower (covered : Covered c) {ended : Int} (some_ : 0 ≤ ended)
    (count : d.dispatchCount = wrap (c.dispatchCount - ended)) (load : d.load = c.load - ended)
    (upcalls : ∀ upcall ∈ d.upcalls, 0 ≤ upcall.invokeNum) : Covers c d := by
  have before := covered.covered
  have range := covered.range
  have natural := load_nonneg upcalls
  have inside : wrap (c.dispatchCount - ended) = c.dispatchCount - ended :=
    wrap_inside (by omega) (by omega)
  rw [inside] at count
  refine ⟨⟨upcalls, by omega, by omega⟩, ?_⟩
  unfold ConnectionI.excess
  omega

theorem Covers.trans (first : Covers c d) (second : Covers d e) : Covers c e :=
  ⟨second.toCovered, first.excess.trans second.excess⟩

theorem Covers.reaped (covers : Covers c d) : Covers c (reapWhenIdle d) := by
  unfold reapWhenIdle
  split
  · exact ⟨⟨covers.upcalls, covers.covered, covers.range⟩, covers.excess⟩
  · exact covers

theorem Covered.processed {ready : Ready} (covered : Covered c)
    (validated : .notValidated < c.state) (open_ : c.state < .closed)
    (wrote : (writePart ready c).1 = .ok true) (took : (readPart setup ready c).1 = .ok true)
    (fits : ¬ Overflows setup ready c) : Covers c (processed setup ready c) := by
  obtain ⟨upcall, count, tally, _, nonneg, _, isCount, below⟩ :=
    processed_tally covered.natural validated open_ wrote took fits
  have asked : (c.upcalls ++ [upcall]).map Upcall.invokeNum =
      c.upcalls.map Upcall.invokeNum ++ [upcall.invokeNum] := List.map_append
  have more : ({ c with dispatchCount := count, upcalls := c.upcalls ++ [upcall] } :
      ConnectionI).load = c.load + upcall.invokeNum + if upcall.hasCallbacks then 1 else 0 := by
    unfold ConnectionI.load ConnectionI.unanswered ConnectionI.callbackBatches
    dsimp only
    rw [asked, List.sum_append, List.sum_singleton, List.countP_append, List.countP_singleton]
    split <;> push_cast <;> omega
  have before := covered.covered
  have added : Covers c { c with dispatchCount := count, upcalls := c.upcalls ++ [upcall] } := by
    refine ⟨⟨?_, ?_, below⟩, ?_⟩
    · intro other inside
      obtain old | last := List.mem_append.mp inside
      · exact covered.upcalls other old
      · rw [List.mem_singleton.mp last]
        exact nonneg
    · rw [more]
      dsimp only
      omega
    · unfold ConnectionI.excess
      rw [more]
      dsimp only
      omega
  exact added.trans (added.toCovered.same_tally tally)

theorem Covered.replaced (covered : Covered c) {index : Nat} {old new : Upcall}
    (found : c.upcalls[index]? = some old) (callbacks : new.hasCallbacks = old.hasCallbacks)
    (nonneg : 0 ≤ new.invokeNum) :
    (replaceUpcall index new c).load = c.load - old.invokeNum + new.invokeNum ∧
      ∀ upcall ∈ (replaceUpcall index new c).upcalls, 0 ≤ upcall.invokeNum := by
  obtain ⟨unanswered, batches, members⟩ := replaced_counts new found callbacks
  constructor
  · unfold ConnectionI.load
    rw [unanswered, batches]
    omega
  · intro upcall inside
    obtain before | rfl := members upcall inside
    · exact covered.upcalls upcall before
    · exact nonneg

variable {index : Nat} {upcall : Upcall}

section

variable (covered : Covered c)

include covered

theorem Covered.removed (found : c.upcalls[index]? = some upcall) :
    (removeUpcall index c).load =
        c.load - upcall.invokeNum - (if upcall.hasCallbacks then 1 else 0) ∧
      ∀ other ∈ (removeUpcall index c).upcalls, 0 ≤ other.invokeNum := by
  obtain ⟨unanswered, batches, members⟩ := removed_counts found
  constructor
  · unfold ConnectionI.load
    rw [unanswered, batches]
    omega
  · exact fun other inside => covered.upcalls other (members other inside)

theorem Covered.thrown (found : c.upcalls[index]? = some upcall) :
    Covered (removeUpcall index c) ∧
      c.excess + (if upcall.hasCallbacks then 1 else 0) ≤ (removeUpcall index c).excess := by
  obtain ⟨load, upcalls⟩ := covered.removed found
  have nonneg := covered.upcalls upcall (List.mem_of_getElem? found)
  have before := covered.covered
  have count : (removeUpcall index c).dispatchCount = c.dispatchCount := rfl
  refine ⟨⟨upcalls, ?_, covered.range⟩, ?_⟩
  · rw [count, load]
    split <;> omega
  · unfold ConnectionI.excess
    rw [count, load]
    omega

theorem Covered.retired {dispatch : Dispatch} (found : c.dispatches[index]? = some dispatch) :
    Covers c (retire index c) := by
  have inside : index < c.dispatches.length := (List.getElem?_eq_some_iff.mp found).1
  have shorter : ((c.dispatches.eraseIdx index).length : Int) = c.dispatches.length - 1 := by
    rw [List.length_eraseIdx_of_lt inside]
    omega
  have lowered : Covers c (uncount { c with dispatches := c.dispatches.eraseIdx index }) := by
    refine covered.lower (d := uncount { c with dispatches := c.dispatches.eraseIdx index })
      Int.one_nonneg rfl ?_ covered.upcalls
    change (c.upcalls.map Upcall.invokeNum).sum + ((c.dispatches.eraseIdx index).length : Int) +
      c.callbackBatches = _
    rw [shorter]
    unfold ConnectionI.load ConnectionI.unanswered
    omega
  exact lowered.reaped

section

variable (found : c.upcalls[index]? = some upcall)

include found

theorem Covered.called : Covers c (makeCallbacks index upcall c) := by
  have nonneg := covered.upcalls upcall (List.mem_of_getElem? found)
  obtain ⟨load, upcalls⟩ := @Covered.replaced _ covered _ _ { upcall with called := true } found rfl nonneg
  refine covered.same (d := makeCallbacks index upcall c) rfl ?_ upcalls
  exact load.trans (Int.sub_add_cancel _ _)

theorem Covered.invoked (more : 0 < upcall.invokeNum) :
    Covers c (invoke setup index upcall none c) := by
  obtain ⟨load, upcalls⟩ := @Covered.replaced _ covered _ _
    { upcall with invokeNum := upcall.invokeNum - 1 } found rfl (by
      dsimp only
      omega)
  refine covered.same (d := invoke setup index upcall none c) rfl ?_ upcalls
  have longer : (invoke setup index upcall none c).load =
      (replaceUpcall index { upcall with invokeNum := upcall.invokeNum - 1 } c).load + 1 := by
    unfold ConnectionI.load ConnectionI.unanswered
    change _ + ((c.dispatches ++ [_]).length : Int) + _ = _ + (c.dispatches.length : Int) + _ + 1
    rw [List.length_append, List.length_singleton]
    push_cast
    rw [add_right_comm (_ + (c.dispatches.length : Int)), add_assoc _ (c.dispatches.length : Int)]
    rfl
  rw [longer, load]
  dsimp only
  omega

theorem Covered.forgotten (more : 0 < upcall.invokeNum) : Covers c (forget index upcall c) := by
  obtain ⟨load, upcalls⟩ := @Covered.replaced _ covered _ _ { upcall with invokeNum := 0 } found rfl le_rfl
  have result : forget index upcall c = reapWhenIdle
      { replaceUpcall index { upcall with invokeNum := 0 } c with
        dispatchCount := wrap (c.dispatchCount - upcall.invokeNum) } := by
    unfold forget reapWhenIdle replaceUpcall
    split <;> rfl
  rw [result]
  have lowered := covered.lower (d := { replaceUpcall index { upcall with invokeNum := 0 } c with
    dispatchCount := wrap (c.dispatchCount - upcall.invokeNum) }) more.le rfl
    (load.trans (add_zero _)) upcalls
  exact lowered.reaped

end

end

theorem Covered.done (covered : Covered c) {index : Nat} {upcall : Upcall}
    (found : c.upcalls[index]? = some upcall) (nothing : upcall.invokeNum ≤ 0) :
    Covers c (retireUpcall index upcall c) := by
  have none_ : upcall.invokeNum = 0 :=
    le_antisymm nothing (covered.upcalls upcall (List.mem_of_getElem? found))
  obtain ⟨load, upcalls⟩ := covered.removed found
  rw [none_, sub_zero] at load
  unfold retireUpcall
  split
  · next calls =>
      rw [if_pos calls] at load
      have lowered := covered.lower (d := uncount (removeUpcall index c)) Int.one_nonneg rfl load
        upcalls
      exact lowered.reaped
  · next silent =>
      rw [if_neg silent, sub_zero] at load
      exact covered.same (d := removeUpcall index c) rfl load upcalls

theorem Covered.idle (covered : Covered c) (nothing : upcall.invokeNum = 0)
    (silent : ¬ upcall.hasCallbacks = true) :
    Covers c { c with upcalls := c.upcalls ++ [upcall] } := by
  refine covered.same (d := { c with upcalls := c.upcalls ++ [upcall] }) rfl ?_ ?_
  · unfold ConnectionI.load ConnectionI.unanswered ConnectionI.callbackBatches
    simp [nothing, silent]
  · intro other inside
    obtain before | last := List.mem_append.mp inside
    · exact covered.upcalls other before
    · rw [List.mem_singleton.mp last, nothing]

/-- Every move of a connection that goes on keeps the count above what it has to account for. -/
theorem Move.covered (move : Move setup permits c d) (overflow : ¬ permits .overflow)
    (unfinished : d.state ≠ .finished) (covered : Covered c) :
    Covers c d := by
  cases move with
  | life same => exact covered.same_tally (tally_of_bare (bare_of_still same))
  | validated | dropped | abort => exact covered.same_tally rfl
  | shutdown =>
      obtain ⟨_, tally, _⟩ := @shutdown_spec setup c _ _
      exact covered.same_tally tally
  | call _ _ free => exact covered.same_tally (send_call_tally free).1
  | prepareBatch open_ free prepared =>
      obtain ⟨_, rfl⟩ := prepare_batch_eq free prepared
      exact covered.same_tally rfl
  | @finishBatch request compress outcome =>
      have same : (finishBatchRequest setup request compress outcome c).2.unbatched =
          c.unbatched := finish_batch_unbatched request compress outcome
      exact covered.same_tally (tally_of_unbatched same)
  | flush open_ free outside flushed =>
      obtain ⟨accepted, same⟩ := flush_unbatched free flushed
      have tally := tally_of_unbatched same
      exact covered.same_tally tally
  | write open_ busy wrote =>
      obtain ⟨buffer, delivered, rfl⟩ := advanced_of_write wrote
      exact covered.same_tally rfl
  | abandon open_ busy wrote =>
      obtain ⟨buffer, delivered, rfl⟩ := advanced_of_write wrote
      exact covered.same_tally rfl
  | read open_ took =>
      obtain ⟨stream, consumed, rfl⟩ := left_by_read took
      exact covered.same_tally rfl
  | process validated open_ busy wrote took outside counted =>
      exact covered.processed validated open_ wrote took (fun exceeds => overflow (counted exceeds))
  | @upcall upcall nothing silent unreplied => exact covered.idle nothing (by
      rw [Upcall.hasCallbacks, silent, unreplied]
      decide)
  | @throws index upcall found =>
      obtain ⟨thrown, excess⟩ := covered.thrown found
      exact ⟨thrown, (le_add_of_nonneg_right (by split <;> decide)).trans excess⟩
  | callbacks found => exact covered.called found
  | invoke found _ more => exact covered.invoked found more
  | forget found _ more => exact covered.forgotten found more
  | done found _ nothing => exact covered.done found nothing
  | answered found => exact covered.retired found
  | replied found =>
      have retired := covered.retired found
      exact retired.trans (retired.toCovered.same_tally (tally_of_bare (send_own_bare _ _)))
  | finish closed => exact absurd (finish_state closed) unfinished

/-- What holds of a connection that is not finished, in the runs in which no two-way request takes
the id of an outstanding one and the dispatch count does not overflow. The calls whose replies a
user Dispatcher threw away are `lost`; each of them is still counted. -/
structure Kept (setup : Setup) (c : ConnectionI) : Prop where
  matched : Matched c
  tracked : ∃ written waiting, Output setup False c written waiting ∧
    Tracked setup c written waiting
  covered : Covered c
  ledger : ∃ lost : List Nat,
    Balanced c.calls c.notices (c.awaiting ++ lost) (callsOf c.sendStreams) ∧
      (lost.length : Int) ≤ c.excess

theorem kept_initial : Kept setup .initial where
  matched := matched_initial
  tracked := settles_initial.tracked
  covered := covered_initial
  ledger := ⟨[], (@settles_initial setup).balances, by decide⟩

theorem thrown_awaiting (found : c.upcalls[index]? = some upcall) (lost : List Nat) :
    (c.awaiting ++ lost).Perm ((removeUpcall index c).awaiting ++
      ((upcall.pending.toList.map fun reply => reply.1.serial) ++ lost)) := by
  obtain ⟨before, after, isList, removed, _⟩ := split_at found
  have now : (removeUpcall index c).upcalls = before ++ after := removed
  have moved : c.pendings.Perm ((removeUpcall index c).pendings ++ upcall.pending.toList) := by
    unfold ConnectionI.pendings
    rw [now, isList, List.filterMap_append, List.filterMap_append, List.filterMap_cons,
      List.append_assoc]
    apply List.Perm.append_left
    cases upcall.pending with
    | none => exact (List.append_nil _).symm ▸ List.Perm.refl _
    | some reply => exact (List.perm_append_singleton reply _).symm
  have serials := moved.map fun reply => reply.1.serial
  rw [List.map_append] at serials
  have table : (removeUpcall index c).table = c.table := rfl
  unfold ConnectionI.awaiting
  rw [table]
  apply ((serials.append_right _).append_right lost).trans
  rw [List.append_assoc, List.append_assoc, List.append_assoc]
  apply List.Perm.append_left
  rw [← List.append_assoc, ← List.append_assoc]
  exact List.perm_append_comm.append_right lost

theorem pending_counted (upcall : Upcall) :
    (upcall.pending.toList.length : Int) ≤ if upcall.hasCallbacks then 1 else 0 := by
  unfold Upcall.pending Upcall.hasCallbacks
  cases upcall.outAsync with
  | none =>
      have nothing : (if upcall.called then none else (none : Option (Call × List Byte))) = none := by
        split <;> rfl
      rw [nothing]
      split <;> decide
  | some reply =>
      rw [Option.isSome_some, Bool.or_true, if_pos rfl]
      split
      · exact Int.one_nonneg
      · exact le_rfl

theorem Move.kept (move : Move setup permits c d) (fresh : ¬ permits .reuse)
    (overflow : ¬ permits .overflow) (kept : c.state ≠ .finished → Kept setup c) :
    d.state ≠ .finished → Kept setup d := by
  intro unfinished
  have still : d.state ≠ .finished → c.state ≠ .finished := by
    intro stillUnfinished finished
    obtain onward | ⟨closed, _⟩ := move.onward
    · exact stillUnfinished (onward.finished_iff.mpr finished)
    · rw [finished] at closed
      cases closed
  have before := kept (still unfinished)
  obtain ⟨written, waiting, output, tracked⟩ := before.tracked
  obtain ⟨moved, left, traffic⟩ : ∃ moved left, Traffic setup False permits c d written waiting
    moved left := move.traffic False.elim output
  have covers := move.covered overflow unfinished before.covered
  refine ⟨traffic.matched fresh before.matched,
    ⟨_, _, traffic.output, traffic.tracked still fresh output tracked⟩, covers.toCovered, ?_⟩
  obtain ⟨lost, balanced, few⟩ := before.ledger
  have milder : ∀ fault, fault ∉ [.throws, .loses, .unmarked, .early] → permits fault →
      permits fault ∧ fault ∉ [.loses, .early] := by
    intro fault other permitted
    refine ⟨permitted, fun inside => other ?_⟩
    obtain rfl | inside := List.mem_cons.mp inside
    · decide
    · rw [List.mem_singleton.mp inside]
      decide
  obtain narrowed | ⟨index, upcall, found, _, _, _, rfl⟩ | ⟨closed, _, _, rfl⟩ :=
    move.narrow milder
  · obtain ⟨moved, left, traffic⟩ : ∃ moved left, Traffic setup False
        (fun fault => permits fault ∧ fault ∉ [.loses, .early]) c d written waiting moved left :=
      narrowed.traffic False.elim output
    exact ⟨lost, traffic.balances (fun reuse => fresh reuse.1) (fun loses => loses.2 (by decide))
      (fun early => early.2 (by decide)) before.matched tracked balanced,
      few.trans covers.excess⟩
  · obtain ⟨_, excess⟩ := before.covered.thrown found
    have counted := pending_counted upcall
    refine ⟨_, balanced.permuted (thrown_awaiting found lost), ?_⟩
    rw [List.length_append, List.length_map]
    push_cast
    omega
  · exact absurd (finish_state closed) unfinished

theorem kept_of_reached (reached : Reach (step setup) (Avoids setup [.reuse, .overflow]) .initial c) :
    (c.state ≠ .finished → Kept setup c) ∧ Batched setup False c := by
  apply invariant_of_moves reached
  · exact ⟨fun _ => kept_initial, batched_initial⟩
  · rintro before after ⟨kept, batched⟩ move
    exact ⟨move.kept (by decide) (by decide) kept, move.batched False.elim batched⟩

/-- The checks of `monitor` find nothing to do on an active connection. -/
def SeemsIdle (setup : Setup) (c : ConnectionI) : Prop :=
  c.state = .active ∧ 0 < setup.acmTimeout ∧ c.requests.entries = [] ∧
    c.asyncRequests.entries = [] ∧ c.dispatchCount ≤ 0 ∧ c.readStream.size ≤ headerSize ∧
    c.writeStream.b = [] ∧ c.batch.stream = []

/-- The idle time of a connection that seems idle has expired while a batch request is being
prepared. -/
def Interrupts (setup : Setup) (expired : Bool) (c : ConnectionI) : Prop :=
  expired = true ∧ SeemsIdle setup c ∧ c.batch.inUse = true

/-- Nothing is left to do: no request is outstanding and every call that was accepted has been
completed, no dispatch and no callback is in progress, no message waits, and no batch request has
been finished without being flushed or is being prepared. -/
structure WorkDone (c : ConnectionI) : Prop where
  requests : c.requests.entries = [] ∧ c.asyncRequests.entries = []
  completed : ∀ serial record, c.calls[serial]? = some record → record.accepted = true →
    serial ∈ completed c.calls c.notices
  dispatches : c.dispatches = [] ∧
    ∀ upcall ∈ c.upcalls, upcall.invokeNum = 0 ∧ upcall.hasCallbacks = false
  messages : c.sendStreams = []
  batch : c.batch.inUse = false ∧ c.batch.stream = [] ∧ c.batch.requestNum = 0

theorem monitor_eq (setup : Setup) (expired : Bool) (outcome : WriteOutcome) (c : ConnectionI)
    (stays : ¬ (expired = true ∧ SeemsIdle setup c)) : monitor setup expired outcome c = c := by
  unfold monitor
  split
  · rfl
  · next active =>
      split
      · rfl
      · next idle =>
          split
          · next isExpired =>
              simp only [not_or, not_le, not_lt, not_not] at idle active
              exact absurd ⟨isExpired, active, idle⟩ stays
          · rfl

variable {outcome : WriteOutcome}

theorem shutdown_past {site : Assertion} (closing : c.state = .closing) :
    (shutdown setup site outcome c).state ≠ .active := by
  have onward : Onward c (shutdown setup site outcome c) := shutdown_onward site outcome
  intro stays
  have forward := onward.forward
  rw [stays, closing] at forward
  exact absurd forward (by decide)

theorem monitor_closes {expired : Bool} (isExpired : expired = true) (idle : SeemsIdle setup c) :
    (monitor setup expired outcome c).state ≠ .active := by
  obtain ⟨active, acm, noRequests, noAsync, zero, nothingRead, nothingWritten, noBatch⟩ := idle
  have passes : ¬ (setup.acmTimeout ≤ 0 ∨ c.requests.entries ≠ [] ∨ c.asyncRequests.entries ≠ [] ∨
      0 < c.dispatchCount ∨ headerSize < c.readStream.size ∨ c.writeStream.b ≠ [] ∨
      c.batch.stream ≠ []) := by
    simp only [not_or, not_le, not_lt, not_not]
    exact ⟨acm, noRequests, noAsync, zero, nothingRead, nothingWritten, noBatch⟩
  have closes : monitor setup expired outcome c =
      setStateWith setup outcome .closing .connectionTimeout c := by
    rw [monitor, if_neg (not_not.mpr active), if_neg passes, if_pos isExpired]
  have settled : .closed ≤ c.state → c.exception.isSome := by
    rw [active]
    exact fun closed => absurd closed (by decide)
  have open_ : ¬ State.closing ≤ c.state := by
    rw [active]
    decide
  rw [closes, set_closing_eq outcome _ settled, if_neg open_]
  split
  · exact State.noConfusion
  · split
    · exact shutdown_past rfl
    · exact State.noConfusion

theorem Covered.done_all (covered : Covered c) (zero : c.dispatchCount ≤ 0) :
    c.excess = 0 ∧ c.dispatches = [] ∧
      ∀ upcall ∈ c.upcalls, upcall.invokeNum = 0 ∧ upcall.hasCallbacks = false := by
  have natural := load_nonneg covered.upcalls
  have before := covered.covered
  have sum := invoke_sum_nonneg c.upcalls covered.upcalls
  have load : c.load = (c.upcalls.map Upcall.invokeNum).sum + c.dispatches.length +
      c.callbackBatches := rfl
  refine ⟨?_, ?_, ?_⟩
  · unfold ConnectionI.excess
    omega
  · apply List.eq_nil_of_length_eq_zero
    omega
  · intro upcall inside
    constructor
    · have single := List.single_le_sum (l := c.upcalls.map Upcall.invokeNum) (by
        intro count isCount
        obtain ⟨other, isOther, rfl⟩ := List.mem_map.mp isCount
        exact covered.upcalls other isOther) _ (List.mem_map_of_mem inside)
      have nonneg := covered.upcalls upcall inside
      omega
    · have none_ : c.callbackBatches = 0 := by omega
      exact Bool.eq_false_iff.mpr (List.countP_eq_zero.mp none_ upcall inside)

theorem work_done (kept : Kept setup c) (batched : Batched setup False c)
    (idle : SeemsIdle setup c) (free : c.batch.inUse = false) : WorkDone c := by
  obtain ⟨active, _, noRequests, noAsync, zero, _, nothingWritten, noBatch⟩ := idle
  obtain ⟨excess, noDispatches, noCalls⟩ := kept.covered.done_all zero
  obtain ⟨written, waiting, output, _⟩ := kept.tracked
  have open_ : c.state < .closing := by
    rw [active]
    decide
  have noMessages : c.sendStreams = [] := by
    have flows := output.flows (by
      rw [active]
      decide)
    cases flows with
    | idle queue => exact queue
    | busy _ buffer _ _ _ prepared =>
        -- The frame of the front message would be in the write stream.
        have frame : c.writeStream = _ := buffer
        rw [frame] at nothingWritten
        exact absurd nothingWritten (prepared_nonempty prepared)
  have noPendings : c.pendings = [] := by
    apply List.filterMap_eq_nil_iff.mpr
    intro upcall inside
    have silent := (noCalls upcall inside).2
    unfold Upcall.hasCallbacks at silent
    unfold Upcall.pending
    rw [Bool.or_eq_false_iff, Option.isSome_eq_false_iff, Option.isNone_iff_eq_none] at silent
    rw [silent.2]
    split <;> rfl
  obtain ⟨groups, current, batching⟩ := batched open_
  have nothingCollected : current = [] := by
    have stream := batching.idle free
    rw [noBatch] at stream
    by_contra some_
    rw [if_neg some_] at stream
    exact absurd stream.symm (by simp [collected, requestBatchHdr])
  refine ⟨⟨noRequests, noAsync⟩, ?_, ⟨noDispatches, noCalls⟩, noMessages, free, noBatch, ?_⟩
  · intro serial record known accepted
    obtain ⟨lost, balanced, few⟩ := kept.ledger
    have noneLost : lost = [] := by
      apply List.eq_nil_of_length_eq_zero
      omega
    have entries : c.table.entries = [] := by
      unfold Table.entries
      exact List.append_eq_nil_iff.mpr ⟨noRequests, noAsync⟩
    have balance := balanced.balance
    unfold ConnectionI.awaiting at balance
    rw [noPendings, entries, noneLost, noMessages] at balance
    change (Connection.completed c.calls c.notices ++ [] ++ []).Perm _ at balance
    rw [List.append_nil, List.append_nil] at balance
    apply balance.mem_iff.mpr
    apply List.mem_filter.mpr
    rw [List.mem_range, known]
    exact ⟨(List.getElem?_eq_some_iff.mp known).1, accepted⟩
  · rw [batching.count, nothingCollected]
    rfl

/-- In the runs in which no two-way request takes the id of an outstanding one and the dispatch
count does not overflow, the monitor closes only connections that have nothing left to do, unless
it runs while a batch request is being prepared. -/
theorem monitor_discards_nothing
    (reached : Reach (step setup) (Avoids setup [.reuse, .overflow]) .initial c)
    (expired : Bool) (outcome : WriteOutcome) :
    (c.state = .active → (monitor setup expired outcome c).state ≠ .active → WorkDone c) ↔
      ¬ Interrupts setup expired c := by
  obtain ⟨kept, batched⟩ := kept_of_reached reached
  constructor
  · rintro discards ⟨isExpired, idle, inUse⟩
    have done := discards idle.1 (monitor_closes isExpired idle)
    rw [done.batch.1] at inUse
    cases inUse
  · intro uninterrupted active moved
    have unfinished : c.state ≠ .finished := by
      rw [active]
      decide
    by_cases closes : expired = true ∧ SeemsIdle setup c
    · have free : c.batch.inUse = false :=
        Bool.eq_false_iff.mpr fun inUse => uninterrupted ⟨closes.1, closes.2, inUse⟩
      exact work_done (kept unfinished) batched closes.2 free
    · rw [monitor_eq setup expired outcome c closes] at moved
      exact absurd active moved

def preparingRun : List Event :=
  [.start true .done .done, .activate, .prepareBatchRequest, .finishBatchRequest [1, 2] false noWrite,
    .prepareBatchRequest]

def collectedRun : List Event :=
  preparingRun ++ [.finishBatchRequest [3] false noWrite]

theorem collected_not_closed : ∃ c, c.batch.requestNum = 2 ∧
    (c.state = .active → (monitor tcpSetup true noWrite c).state ≠ .active → WorkDone c) := by
  have ran : (runAll (checked (step tcpSetup) (Event.sound tcpSetup)) collectedRun
      .initial).isSome = true := by decide
  obtain ⟨c, isResult⟩ := Option.isSome_iff_exists.mp ran
  have reached : Reach (step tcpSetup) (Avoids tcpSetup [.reuse, .overflow]) .initial c :=
    reach_of_checked (avoids_of_sound _) isResult
  have facts : (runAll (checked (step tcpSetup) (Event.sound tcpSetup)) collectedRun .initial).map
      (fun c => (c.batch.requestNum, c.batch.inUse)) = some (2, false) := by decide
  rw [isResult] at facts
  simp only [Option.map_some, Option.some.injEq, Prod.mk.injEq] at facts
  refine ⟨c, facts.1, (monitor_discards_nothing reached true noWrite).mpr ?_⟩
  rintro ⟨_, _, inUse⟩
  rw [facts.2] at inUse
  cases inUse

/-- The requests of a batch that is being prepared are not seen. -/
theorem prepared_batch_discarded : ¬ ∀ c, Reachable tcpSetup c → ∀ expired outcome,
    c.state = .active → (monitor tcpSetup expired outcome c).state ≠ .active → WorkDone c := by
  intro discards
  have ran : (runAll (step tcpSetup) preparingRun .initial).isSome = true := by decide
  obtain ⟨c, isResult⟩ := Option.isSome_iff_exists.mp ran
  have reached : Reachable tcpSetup c := reach_of_run isResult (fun _ _ _ => trivial)
  have facts : (runAll (step tcpSetup) preparingRun .initial).map (fun c =>
      (c.state, (monitor tcpSetup true noWrite c).state, c.batch.inUse)) =
        some (.active, .closing, true) := by decide
  rw [isResult] at facts
  simp only [Option.map_some, Option.some.injEq, Prod.mk.injEq] at facts
  obtain ⟨active, closing, inUse⟩ := facts
  have done := discards c reached true noWrite active (by
    rw [closing]
    decide)
  rw [done.batch.1] at inUse
  cases inUse

end IceTouch.Connection
