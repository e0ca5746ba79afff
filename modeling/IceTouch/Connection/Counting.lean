import IceTouch.Connection.Traffic
import Mathlib.Algebra.Order.BigOperators.Group.List

/-!
# The dispatch count

The count is the number of dispatches that are not answered and of callback batches in
progress. The shutdown is initiated and the connection is reaped when it is zero, each at the
one time when that is due.
-/

namespace IceTouch.Connection

open Bytes Machine

/-- The dispatches that are not answered: those that `invokeAll` has still to make, and those
that are in progress. -/
def ConnectionI.unanswered (c : ConnectionI) : Int :=
  (c.upcalls.map Upcall.invokeNum).sum + c.dispatches.length

def ConnectionI.callbackBatches (c : ConnectionI) : Nat :=
  c.upcalls.countP Upcall.hasCallbacks

structure Counted (c : ConnectionI) : Prop where
  count : c.dispatchCount = c.unanswered + c.callbackBatches
  upcalls : ∀ upcall ∈ c.upcalls, 0 ≤ upcall.invokeNum
  range : c.dispatchCount < 2 ^ 31
  initiated : c.shutdownInitiated = true → c.unanswered = 0 ∧ .closing ≤ c.state
  shutdowns : c.shutdowns = if c.shutdownInitiated then [(.closing, 0)] else []

structure Tallied (c : ConnectionI) : Prop extends Counted c where
  reaped : c.reaped = if c.state = .finished ∧ c.dispatchCount = 0 then [(.finished, 0)] else []

variable {setup : Setup} {permits : Fault → Prop} {c d : ConnectionI}

theorem invoke_sum_nonneg (upcalls : List Upcall)
    (nonneg : ∀ upcall ∈ upcalls, 0 ≤ upcall.invokeNum) :
    0 ≤ (upcalls.map Upcall.invokeNum).sum := by
  apply List.sum_nonneg
  intro count inside
  obtain ⟨upcall, isUpcall, rfl⟩ := List.mem_map.mp inside
  exact nonneg upcall isUpcall

theorem Counted.unanswered_nonneg (counted : Counted c) : 0 ≤ c.unanswered := by
  have sum := invoke_sum_nonneg c.upcalls counted.upcalls
  unfold ConnectionI.unanswered
  omega

theorem Counted.count_nonneg (counted : Counted c) : 0 ≤ c.dispatchCount := by
  have unanswered := counted.unanswered_nonneg
  have count := counted.count
  omega

theorem Tallied.unreaped (tallied : Tallied c) (busy : 0 < c.dispatchCount) : c.reaped = [] := by
  rw [tallied.reaped, if_neg]
  rintro ⟨_, idle⟩
  omega

theorem Counted.reap (counted : Counted c) (unreaped : c.reaped = []) :
    Tallied (reapWhenIdle c) := by
  unfold reapWhenIdle
  split
  · next due =>
      refine ⟨⟨counted.count, counted.upcalls, counted.range, counted.initiated,
        counted.shutdowns⟩, ?_⟩
      change c.reaped ++ [(c.state, c.dispatchCount)] =
        if c.state = .finished ∧ c.dispatchCount = 0 then _ else _
      rw [if_pos due.symm, unreaped, due.1, due.2]
      rfl
  · next early =>
      refine ⟨counted, ?_⟩
      rw [if_neg (fun both => early both.symm), unreaped]

theorem Onward.closing_after (onward : Onward c d) (closing : .closing ≤ c.state) :
    .closing ≤ d.state := by
  have forward := onward.forward
  generalize c.state = before at forward closing
  generalize d.state = after at forward
  cases before <;> cases after <;> simp_all [State.stage, State.le_def, State.index]

theorem Tallied.same (tallied : Tallied c) (onward : Onward c d) (tally : d.tally = c.tally)
    (ending : d.ending = c.ending) : Tallied d := by
  have count : d.dispatchCount = c.dispatchCount := congrArg Tally.dispatchCount tally
  have upcalls : d.upcalls = c.upcalls := congrArg Tally.upcalls tally
  have dispatches : d.dispatches = c.dispatches := congrArg Tally.dispatches tally
  have reaped : d.reaped = c.reaped := congrArg Tally.reaped tally
  have initiated : d.shutdownInitiated = c.shutdownInitiated :=
    congrArg Ending.shutdownInitiated ending
  have shutdowns : d.shutdowns = c.shutdowns := congrArg Ending.shutdowns ending
  have unanswered : d.unanswered = c.unanswered := by
    unfold ConnectionI.unanswered
    rw [upcalls, dispatches]
  have batches : d.callbackBatches = c.callbackBatches := by
    unfold ConnectionI.callbackBatches
    rw [upcalls]
  refine ⟨⟨?_, ?_, ?_, ?_, ?_⟩, ?_⟩
  · rw [count, unanswered, batches]
    exact tallied.count
  · rw [upcalls]
    exact tallied.upcalls
  · rw [count]
    exact tallied.range
  · rw [initiated, unanswered]
    intro isInitiated
    obtain ⟨idle, closing⟩ := tallied.initiated isInitiated
    exact ⟨idle, onward.closing_after closing⟩
  · rw [shutdowns, initiated]
    exact tallied.shutdowns
  · rw [reaped, tallied.reaped, count]
    simp only [onward.finished_iff]

theorem tallied_initial : Tallied .initial := by
  constructor
  · constructor <;> simp [ConnectionI.initial, ConnectionI.unanswered,
      ConnectionI.callbackBatches]
  · rfl

theorem Tallied.shut (tallied : Tallied c) (site : Assertion) (outcome : WriteOutcome)
    (closing : c.state = .closing) (idle : c.dispatchCount = 0)
    (first : c.shutdownInitiated = false) : Tallied (shutdown setup site outcome c) := by
  obtain ⟨_, tally, ending⟩ : _ ∧ (shutdown setup site outcome c).tally = _ ∧
    (shutdown setup site outcome c).ending = _ := shutdown_spec site outcome
  have onward : Onward c (shutdown setup site outcome c) := shutdown_onward site outcome
  generalize shutdown setup site outcome c = d at tally ending onward
  have marked : Tallied { c with
      shutdownInitiated := true
      shutdowns := c.shutdowns ++ [(c.state, c.dispatchCount)] } := by
    refine ⟨⟨tallied.count, tallied.upcalls, tallied.range, ?_, ?_⟩, tallied.reaped⟩
    · intro _
      have count := tallied.count
      have nonneg := tallied.unanswered_nonneg
      refine ⟨?_, ?_⟩
      · change c.unanswered = 0
        omega
      · change State.closing ≤ c.state
        rw [closing]
        exact Nat.le_refl _
    · change c.shutdowns ++ [(c.state, c.dispatchCount)] = _
      rw [tallied.shutdowns, first, closing, idle]
      rfl
  exact marked.same (onward.since rfl rfl) tally ending

theorem announced_nonneg (state : State) (stream : List Byte) : 0 ≤ announced state stream := by
  unfold announced
  repeat' split
  · exact le_rfl
  · decide
  · exact le_max_left _ _
  · exact le_rfl

/-- The message that was parsed adds the dispatches it asks for to the count, and asks for none
when the connection is closing. -/
structure Adds (opened : Except LocalException (List Byte)) (parsed : Parsed)
    (c d : ConnectionI) : Prop where
  nonneg : 0 ≤ parsed.invokeNum
  announced : parsed.invokeNum ≤ (opened.toOption.map (announced c.state)).getD 0
  closing : c.state = .closing → parsed.invokeNum = 0
  ending : d.ending = c.ending
  tally : ∃ count, d.tally = ⟨count, c.upcalls, c.dispatches, c.reaped⟩ ∧
    (count = c.dispatchCount ∧ parsed.invokeNum = 0 ∨
      count = wrap (c.dispatchCount + parsed.invokeNum))

variable {opened : Except LocalException (List Byte)}

theorem Adds.nothing {parsed : Parsed} (none_ : parsed.invokeNum = 0) (ending : d.ending = c.ending)
    (tally : d.tally = c.tally) :
    Adds opened parsed c d where
  nonneg := le_of_eq none_.symm
  announced := by
    rw [none_]
    cases opened with
    | error ex => exact le_rfl
    | ok stream => exact announced_nonneg c.state stream
  closing := fun _ => none_
  ending := ending
  tally := ⟨c.dispatchCount, tally, Or.inl ⟨rfl, none_⟩⟩

theorem Parses.adds {refusal : Option LocalException} {parsed : Parsed}
    (parses : Parses setup refusal c opened parsed d) : Adds opened parsed c d := by
  have failed (none_ : parsed.invokeNum = 0) (ex : LocalException) :
      Adds opened parsed c (fail setup ex (taken c)) := by
    have bare : (fail setup ex (taken c)).bare = (taken c).bare := bare_of_quiet (fail_quiet ex)
    have ending := ending_of_bare bare
    have tally := tally_of_bare bare
    exact .nothing none_ ending tally
  cases parses with
  | ignored none_ => exact .nothing none_ rfl rfl
  | failed none_ => exact failed none_ _
  | closes none_ => exact failed none_ _
  | asyncReply => exact .nothing rfl rfl rfl
  | syncReply => exact .nothing rfl rfl rfl
  | @request stream requestId compress open_ isRequest isId =>
      have one : announced c.state stream = 1 := by
        rw [announced, if_neg open_, if_pos isRequest]
      exact ⟨Int.one_nonneg, le_of_eq one.symm, fun closing => absurd closing open_, rfl, _, rfl,
        Or.inr rfl⟩
  | @batch stream invokeNum compress open_ isBatch isCount nonnegative =>
      have all : announced c.state stream = invokeNum := by
        have other : stream.getD 8 0 ≠ requestMsg := by
          rw [isBatch]
          decide
        rw [announced, if_neg open_, if_neg other, if_pos isBatch, isCount]
        exact max_eq_right nonnegative
      exact ⟨nonnegative, le_of_eq all.symm, fun closing => absurd closing open_, rfl, _, rfl,
        Or.inr rfl⟩

theorem parse_part_adds (ready : Ready) :
    Adds (if ready.read then (received setup ready c).opened setup else .error (.other 0))
      (parsePart setup ready (received setup ready c)).1 (received setup ready c)
      (parsedState setup ready c) := by
  unfold parsedState parsePart
  split
  · exact (parse_message_spec ready.refusal).adds
  · exact .nothing rfl rfl rfl

theorem processed_tally {ready : Ready} (natural : 0 ≤ c.dispatchCount)
    (validated : .notValidated < c.state) (open_ : c.state < .closed)
    (wrote : (writePart ready c).1 = .ok true) (took : (readPart setup ready c).1 = .ok true)
    (fits : ¬ Overflows setup ready c) :
    ∃ upcall count, (processed setup ready c).tally =
        ⟨count, c.upcalls ++ [upcall], c.dispatches, c.reaped⟩ ∧
      (processed setup ready c).ending = c.ending ∧ 0 ≤ upcall.invokeNum ∧
      (c.state = .closing → upcall.invokeNum = 0) ∧
      count = c.dispatchCount + upcall.invokeNum + (if upcall.hasCallbacks then 1 else 0) ∧
      count < 2 ^ 31 := by
  obtain ⟨nonneg, announces, closing, ending, count, tally, added⟩ :=
    @parse_part_adds setup c ready
  have arrived : (if ready.read then (received setup ready c).opened setup
      else .error (.other 0)).toOption = arriving setup ready c := by
    by_cases reads : ready.read = true
    · rw [if_pos reads]
      exact (arriving_received reads).symm
    · rw [if_neg reads, arriving, if_neg reads]
      rfl
  obtain ⟨buffer, delivered, stream, consumed, isReceived⟩ := received_eq setup ready c
  have state : (received setup ready c).state = c.state := by rw [isReceived]
  have dispatchCount : (received setup ready c).dispatchCount = c.dispatchCount := by
    rw [isReceived]
  have sameEnding : (received setup ready c).ending = c.ending := by rw [isReceived]; rfl
  have sameTally : (received setup ready c).tally = c.tally := by rw [isReceived]; rfl
  rw [arrived, state] at announces
  have inRange : c.dispatchCount + ((arriving setup ready c).map (announced c.state)).getD 0 +
      (if CallsBack setup ready c then 1 else 0) < 2 ^ 31 := by
    by_contra exceeds
    exact fits ⟨validated, open_, wrote, took, not_lt.mp exceeds⟩
  rw [state] at closing
  rw [sameEnding] at ending
  rw [dispatchCount] at added
  have callsBack : CallsBack setup ready c ↔
      (sendPart setup ready (parsedState setup ready c)).1 ≠ [] ∨
        (parsePart setup ready (received setup ready c)).1.outAsync ≠ none := Iff.rfl
  have sent : (sendPart setup ready (parsedState setup ready c)).2.bare =
      (parsedState setup ready c).bare := send_part_bare ready
  have sentTally := (tally_of_bare sent).trans tally
  have sentEnding := (ending_of_bare sent).trans ending
  have upcalls : (received setup ready c).upcalls = c.upcalls := congrArg Tally.upcalls sameTally
  have dispatches : (received setup ready c).dispatches = c.dispatches :=
    congrArg Tally.dispatches sameTally
  have reaped : (received setup ready c).reaped = c.reaped := congrArg Tally.reaped sameTally
  rw [upcalls, dispatches, reaped] at sentTally
  have result : processed setup ready c = _ := processed_eq ready
  rw [result]
  generalize (sendPart setup ready (parsedState setup ready c)).1 = callbacks at callsBack ⊢
  generalize (sendPart setup ready (parsedState setup ready c)).2 = s at sentTally sentEnding ⊢
  generalize (parsePart setup ready (received setup ready c)).1 = parsed
    at nonneg announces closing added callsBack ⊢
  generalize (received setup ready c).parsed.length = frame
  generalize ((arriving setup ready c).map (announced c.state)).getD 0 = asked at announces inRange
  let upcall : Upcall :=
    ⟨false, callbacks, parsed.outAsync, frame, parsed.requestId, parsed.compress,
      parsed.invokeNum, false⟩
  have hasCallbacks : upcall.hasCallbacks = true ↔ CallsBack setup ready c := by
    rw [callsBack]
    unfold Upcall.hasCallbacks
    rw [Bool.or_eq_true, Bool.not_eq_true', List.isEmpty_eq_false_iff, Option.isSome_iff_ne_none]
  have countNow : count = c.dispatchCount + parsed.invokeNum := by
    obtain ⟨rfl, none_⟩ | rfl := added
    · omega
    · apply wrap_inside
      · omega
      · split at inRange <;> omega
  have below : count + (if upcall.hasCallbacks then 1 else 0) < 2 ^ 31 := by
    simp only [hasCallbacks]
    omega
  have sentCount : s.dispatchCount = count := congrArg Tally.dispatchCount sentTally
  have sameCondition : (!callbacks.isEmpty || parsed.outAsync.isSome) = upcall.hasCallbacks := rfl
  have counts : (countCallbacks callbacks parsed s).tally =
      ⟨count + (if upcall.hasCallbacks then 1 else 0), c.upcalls, c.dispatches, c.reaped⟩ ∧
      (countCallbacks callbacks parsed s).ending = c.ending := by
    unfold countCallbacks
    rw [sameCondition]
    split
    · next calls =>
        rw [if_pos calls] at below
        have added : wrap (s.dispatchCount + 1) = count + 1 := by
          rw [sentCount]
          exact wrap_inside (by omega) below
        refine ⟨?_, sentEnding⟩
        change (⟨wrap (s.dispatchCount + 1), s.upcalls, s.dispatches, s.reaped⟩ : Tally) = _
        rw [added]
        exact congrArg (fun tally : Tally => { tally with dispatchCount := count + 1 }) sentTally
    · exact ⟨sentTally.trans (by rw [add_zero]), sentEnding⟩
  obtain ⟨countsTally, countsEnding⟩ := counts
  generalize countCallbacks callbacks parsed s = counts at countsTally countsEnding ⊢
  refine ⟨upcall, count + (if upcall.hasCallbacks then 1 else 0), ?_, countsEnding, nonneg, closing,
    by rw [countNow], below⟩
  exact congrArg (fun tally : Tally => { tally with upcalls := tally.upcalls ++ [upcall] })
    countsTally

variable {upcall : Upcall} {index : Nat}

theorem Tallied.idle (tallied : Tallied c) (none_ : upcall.invokeNum = 0)
    (silent : ¬ upcall.hasCallbacks = true) :
    Tallied { c with upcalls := c.upcalls ++ [upcall] } := by
  have unanswered : ({ c with upcalls := c.upcalls ++ [upcall] } : ConnectionI).unanswered =
      c.unanswered := by
    unfold ConnectionI.unanswered
    simp [none_]
  have batches : ({ c with upcalls := c.upcalls ++ [upcall] } : ConnectionI).callbackBatches =
      c.callbackBatches := by
    unfold ConnectionI.callbackBatches
    simp [silent]
  refine ⟨⟨?_, ?_, tallied.range, ?_, tallied.shutdowns⟩, tallied.reaped⟩
  · rw [unanswered, batches]
    exact tallied.count
  · intro other inside
    obtain before | last := List.mem_append.mp inside
    · exact tallied.upcalls other before
    · rw [List.mem_singleton.mp last, none_]
  · rw [unanswered]
    exact tallied.initiated

theorem Tallied.processed {ready : Ready} (tallied : Tallied c)
    (validated : .notValidated < c.state) (open_ : c.state < .closed)
    (wrote : (writePart ready c).1 = .ok true) (took : (readPart setup ready c).1 = .ok true)
    (fits : ¬ Overflows setup ready c) : Tallied (processed setup ready c) := by
  obtain ⟨upcall, count, tally, ending, nonneg, closing, isCount, below⟩ :=
    processed_tally tallied.count_nonneg validated open_ wrote took fits
  have onward : Onward c (Connection.processed setup ready c) := processed_onward ready
  have asked : (c.upcalls ++ [upcall]).map Upcall.invokeNum =
      c.upcalls.map Upcall.invokeNum ++ [upcall.invokeNum] := List.map_append
  have added : Tallied { c with dispatchCount := count, upcalls := c.upcalls ++ [upcall] } := by
    refine ⟨⟨?_, ?_, below, ?_, tallied.shutdowns⟩, ?_⟩
    · have before := tallied.count
      unfold ConnectionI.unanswered ConnectionI.callbackBatches at before ⊢
      dsimp only
      rw [asked, List.sum_append, List.sum_singleton, List.countP_append, List.countP_singleton,
        isCount, before]
      split <;> push_cast <;> omega
    · intro other inside
      obtain before | last := List.mem_append.mp inside
      · exact tallied.upcalls other before
      · rw [List.mem_singleton.mp last]
        exact nonneg
    · intro initiated
      obtain ⟨idle, late⟩ := tallied.initiated initiated
      have isClosing : c.state = .closing := by
        generalize c.state = state at late open_
        cases state <;> simp_all [State.le_def, State.lt_def, State.index]
      have none_ := closing isClosing
      refine ⟨?_, late⟩
      unfold ConnectionI.unanswered at idle ⊢
      dsimp only
      rw [asked, List.sum_append, List.sum_singleton, none_, add_zero]
      exact idle
    · have unfinished : c.state ≠ .finished := by
        intro finished
        rw [finished] at open_
        exact absurd open_ (by decide)
      rw [if_neg (fun both => unfinished both.1)]
      exact tallied.reaped.trans (if_neg (fun both => unfinished both.1))
  exact added.same (onward.since rfl rfl) tally ending

theorem replaced_counts {old : Upcall} (new : Upcall) (found : c.upcalls[index]? = some old)
    (callbacks : new.hasCallbacks = old.hasCallbacks) :
    (replaceUpcall index new c).unanswered = c.unanswered - old.invokeNum + new.invokeNum ∧
      (replaceUpcall index new c).callbackBatches = c.callbackBatches ∧
      ∀ upcall ∈ (replaceUpcall index new c).upcalls, upcall ∈ c.upcalls ∨ upcall = new := by
  obtain ⟨before, after, isList, _, replaced⟩ := split_at found
  have now : (replaceUpcall index new c).upcalls = before ++ new :: after := replaced new
  refine ⟨?_, ?_, ?_⟩
  · unfold ConnectionI.unanswered
    rw [now, isList]
    change _ + (c.dispatches.length : Int) = _
    simp only [List.map_append, List.map_cons, List.sum_append, List.sum_cons]
    omega
  · unfold ConnectionI.callbackBatches
    rw [now, isList]
    simp only [List.countP_append, List.countP_cons, callbacks]
  · rw [now, isList]
    intro upcall inside
    simp only [List.mem_append, List.mem_cons] at inside ⊢
    tauto

theorem removed_counts {old : Upcall} (found : c.upcalls[index]? = some old) :
    (removeUpcall index c).unanswered = c.unanswered - old.invokeNum ∧
      ((removeUpcall index c).callbackBatches : Int) =
        c.callbackBatches - (if old.hasCallbacks then 1 else 0) ∧
      ∀ upcall ∈ (removeUpcall index c).upcalls, upcall ∈ c.upcalls := by
  obtain ⟨before, after, isList, removed, _⟩ := split_at found
  have now : (removeUpcall index c).upcalls = before ++ after := removed
  refine ⟨?_, ?_, ?_⟩
  · unfold ConnectionI.unanswered
    rw [now, isList]
    change _ + (c.dispatches.length : Int) = _
    simp only [List.map_append, List.map_cons, List.sum_append, List.sum_cons]
    omega
  · unfold ConnectionI.callbackBatches
    rw [now, isList]
    simp only [List.countP_append, List.countP_cons]
    split <;> push_cast <;> omega
  · exact fun upcall inside => List.mem_of_mem_eraseIdx inside

theorem Counted.lower (counted : Counted c) (ended : Int)
    (count : d.dispatchCount = c.dispatchCount - ended)
    (balance : d.unanswered + d.callbackBatches = c.unanswered + c.callbackBatches - ended)
    (fewer : d.unanswered ≤ c.unanswered) (some_ : 0 ≤ ended)
    (nonneg : ∀ upcall ∈ d.upcalls, 0 ≤ upcall.invokeNum) (state : d.state = c.state)
    (ending : d.ending = c.ending) : Counted d := by
  have initiated : d.shutdownInitiated = c.shutdownInitiated :=
    congrArg Ending.shutdownInitiated ending
  have shutdowns : d.shutdowns = c.shutdowns := congrArg Ending.shutdowns ending
  have before := counted.count
  have range := counted.range
  refine ⟨by omega, nonneg, by omega, ?_, ?_⟩
  · rw [initiated, state]
    intro isInitiated
    obtain ⟨idle, closing⟩ := counted.initiated isInitiated
    have sum := invoke_sum_nonneg d.upcalls nonneg
    have unanswered : d.unanswered = (d.upcalls.map Upcall.invokeNum).sum + d.dispatches.length :=
      rfl
    exact ⟨by omega, closing⟩
  · rw [shutdowns, initiated]
    exact counted.shutdowns

theorem Tallied.steady (tallied : Tallied c) (count : d.dispatchCount = c.dispatchCount)
    (counted : Counted d) (state : d.state = c.state) (reaped : d.reaped = c.reaped) :
    Tallied d := by
  refine ⟨counted, ?_⟩
  rw [reaped, state, count]
  exact tallied.reaped

theorem Tallied.called (tallied : Tallied c) (found : c.upcalls[index]? = some upcall) :
    Tallied (makeCallbacks index upcall c) := by
  obtain ⟨unanswered, batches, members⟩ :=
    replaced_counts { upcall with called := true } found rfl
  have nonneg : ∀ other ∈ (makeCallbacks index upcall c).upcalls, 0 ≤ other.invokeNum := by
    intro other inside
    obtain before | rfl := members other inside
    · exact tallied.upcalls other before
    · exact tallied.upcalls upcall (List.mem_of_getElem? found)
  have sameUnanswered : (makeCallbacks index upcall c).unanswered = c.unanswered := by
    change (replaceUpcall index { upcall with called := true } c).unanswered = _
    rw [unanswered]
    exact Int.sub_add_cancel _ _
  have sameBatches : (makeCallbacks index upcall c).callbackBatches = c.callbackBatches := batches
  refine tallied.steady (d := makeCallbacks index upcall c) rfl ?_ rfl rfl
  refine tallied.lower (d := makeCallbacks index upcall c) 0 (sub_zero _).symm ?_
    sameUnanswered.le le_rfl nonneg rfl rfl
  rw [sameUnanswered, sameBatches, sub_zero]

theorem Tallied.invoked (tallied : Tallied c) (found : c.upcalls[index]? = some upcall)
    (more : 0 < upcall.invokeNum) : Tallied (invoke setup index upcall none c) := by
  obtain ⟨unanswered, batches, members⟩ :=
    replaced_counts { upcall with invokeNum := upcall.invokeNum - 1 } found rfl
  have nonneg : ∀ other ∈ (invoke setup index upcall none c).upcalls, 0 ≤ other.invokeNum := by
    intro other inside
    obtain before | rfl := members other inside
    · exact tallied.upcalls other before
    · exact Int.sub_nonneg_of_le more
  have sameUnanswered : (invoke setup index upcall none c).unanswered = c.unanswered := by
    have longer : (invoke setup index upcall none c).unanswered =
        (replaceUpcall index { upcall with invokeNum := upcall.invokeNum - 1 } c).unanswered + 1 := by
      unfold ConnectionI.unanswered
      change _ + ((c.dispatches ++ [_]).length : Int) = _ + (c.dispatches.length : Int) + 1
      rw [List.length_append, List.length_singleton]
      push_cast
      exact (Int.add_assoc _ _ _).symm
    rw [longer, unanswered]
    dsimp only
    omega
  have sameBatches : (invoke setup index upcall none c).callbackBatches = c.callbackBatches :=
    batches
  refine tallied.steady (d := Connection.invoke setup index upcall none c) rfl ?_ rfl rfl
  refine tallied.lower (d := Connection.invoke setup index upcall none c) 0 (sub_zero _).symm ?_
    sameUnanswered.le le_rfl nonneg rfl rfl
  rw [sameUnanswered, sameBatches, sub_zero]

theorem Counted.wrap_lower (counted : Counted c) {ended : Int} (some_ : 0 ≤ ended)
    (covered : ended ≤ c.dispatchCount) : wrap (c.dispatchCount - ended) = c.dispatchCount - ended := by
  have range := counted.range
  exact wrap_inside (by omega) (by omega)

theorem Counted.covers (counted : Counted c) (found : c.upcalls[index]? = some upcall) :
    upcall.invokeNum + (if upcall.hasCallbacks then 1 else 0) ≤ c.dispatchCount := by
  obtain ⟨unanswered, batches, members⟩ := removed_counts found
  have sum := invoke_sum_nonneg (removeUpcall index c).upcalls
    (fun other inside => counted.upcalls other (members other inside))
  have rest : (removeUpcall index c).unanswered =
      ((removeUpcall index c).upcalls.map Upcall.invokeNum).sum +
        (removeUpcall index c).dispatches.length := rfl
  have count := counted.count
  omega

theorem Tallied.forgotten (tallied : Tallied c) (found : c.upcalls[index]? = some upcall)
    (more : 0 < upcall.invokeNum) : Tallied (forget index upcall c) := by
  obtain ⟨unanswered, batches, members⟩ :=
    replaced_counts { upcall with invokeNum := 0 } found rfl
  have covered : upcall.invokeNum ≤ c.dispatchCount := by
    have covers := tallied.covers found
    split at covers <;> omega
  have nonneg : ∀ other ∈ (replaceUpcall index { upcall with invokeNum := 0 } c).upcalls,
      0 ≤ other.invokeNum := by
    intro other inside
    obtain before | rfl := members other inside
    · exact tallied.upcalls other before
    · exact le_rfl
  have counted : Counted { replaceUpcall index { upcall with invokeNum := 0 } c with
      dispatchCount := wrap (c.dispatchCount - upcall.invokeNum) } := by
    have fewer : (replaceUpcall index { upcall with invokeNum := 0 } c).unanswered =
        c.unanswered - upcall.invokeNum := by
      rw [unanswered]
      exact add_zero _
    apply tallied.lower upcall.invokeNum
    · exact tallied.wrap_lower more.le covered
    · change (replaceUpcall index { upcall with invokeNum := 0 } c).unanswered +
        (replaceUpcall index { upcall with invokeNum := 0 } c).callbackBatches = _
      rw [fewer, batches]
      omega
    · change (replaceUpcall index { upcall with invokeNum := 0 } c).unanswered ≤ _
      omega
    · exact more.le
    · exact nonneg
    · rfl
    · rfl
  have result : forget index upcall c = reapWhenIdle
      { replaceUpcall index { upcall with invokeNum := 0 } c with
        dispatchCount := wrap (c.dispatchCount - upcall.invokeNum) } := by
    unfold forget reapWhenIdle replaceUpcall
    split <;> rfl
  rw [result]
  exact counted.reap (tallied.unreaped (by omega))

theorem Tallied.removed (tallied : Tallied c) (found : c.upcalls[index]? = some upcall)
    (none_ : upcall.invokeNum = 0) (silent : ¬ upcall.hasCallbacks = true) :
    Tallied (removeUpcall index c) := by
  obtain ⟨unanswered, batches, members⟩ := removed_counts found
  rw [none_, sub_zero] at unanswered
  rw [if_neg silent, sub_zero] at batches
  refine tallied.steady (d := removeUpcall index c) rfl ?_ rfl rfl
  refine tallied.lower (d := removeUpcall index c) 0 (sub_zero _).symm ?_ unanswered.le le_rfl
    (fun other inside => tallied.upcalls other (members other inside)) rfl rfl
  rw [unanswered, batches, sub_zero]

theorem Tallied.retired_upcall (tallied : Tallied c) (found : c.upcalls[index]? = some upcall)
    (nothing : upcall.invokeNum ≤ 0) : Tallied (retireUpcall index upcall c) := by
  have none_ : upcall.invokeNum = 0 :=
    le_antisymm nothing (tallied.upcalls upcall (List.mem_of_getElem? found))
  unfold retireUpcall
  split
  · next calls =>
      obtain ⟨unanswered, batches, members⟩ := removed_counts found
      have covers := tallied.covers found
      rw [none_, sub_zero] at unanswered
      rw [if_pos calls] at covers batches
      have counted : Counted (uncount (removeUpcall index c)) := by
        refine tallied.lower (d := uncount (removeUpcall index c)) 1
          (tallied.wrap_lower Int.one_nonneg (by omega)) ?_ unanswered.le Int.one_nonneg
          (fun other inside => tallied.upcalls other (members other inside)) rfl rfl
        change (removeUpcall index c).unanswered + (removeUpcall index c).callbackBatches = _
        omega
      exact counted.reap (tallied.unreaped (by omega))
  · next silent => exact tallied.removed found none_ silent

theorem Tallied.retired (tallied : Tallied c) {dispatch : Dispatch}
    (found : c.dispatches[index]? = some dispatch) : Tallied (retire index c) := by
  have inside : index < c.dispatches.length := (List.getElem?_eq_some_iff.mp found).1
  have shorter : ((c.dispatches.eraseIdx index).length : Int) = c.dispatches.length - 1 := by
    rw [List.length_eraseIdx_of_lt inside]
    omega
  have fewer : ({ c with dispatches := c.dispatches.eraseIdx index } : ConnectionI).unanswered =
      c.unanswered - 1 := by
    unfold ConnectionI.unanswered
    rw [shorter]
    exact (Int.add_sub_assoc _ _ _).symm
  have busy : 0 < c.dispatchCount := by
    have sum := invoke_sum_nonneg c.upcalls tallied.upcalls
    have unanswered : c.unanswered = (c.upcalls.map Upcall.invokeNum).sum + c.dispatches.length :=
      rfl
    have count := tallied.count
    omega
  have counted : Counted (uncount { c with dispatches := c.dispatches.eraseIdx index }) := by
    apply tallied.lower 1
    · exact tallied.wrap_lower Int.one_nonneg busy
    · change ({ c with dispatches := c.dispatches.eraseIdx index } : ConnectionI).unanswered +
        c.callbackBatches = _
      omega
    · change ({ c with dispatches := c.dispatches.eraseIdx index } : ConnectionI).unanswered ≤ _
      omega
    · exact Int.one_nonneg
    · exact tallied.upcalls
    · rfl
    · rfl
  exact counted.reap (tallied.unreaped busy)

theorem Tallied.finished (tallied : Tallied c) (closed : c.state = .closed) :
    Tallied (finish setup c) := by
  have told : (finish setup c).told = (reapWhenIdle (enter setup .finished c)).told :=
    finish_told closed
  have tally : (finish setup c).tally = (reapWhenIdle (enter setup .finished c)).tally := by
    have same := congrArg ConnectionI.tally told
    exact same
  have ending : (finish setup c).ending = (reapWhenIdle (enter setup .finished c)).ending := by
    have same := congrArg ConnectionI.ending told
    exact same
  have state : (finish setup c).state = (reapWhenIdle (enter setup .finished c)).state := by
    have same := congrArg ConnectionI.state told
    exact same
  have exception : (finish setup c).exception =
      (reapWhenIdle (enter setup .finished c)).exception := by
    have same := congrArg ConnectionI.exception told
    exact same
  have unreaped : c.reaped = [] := by
    rw [tallied.reaped, if_neg]
    rintro ⟨finished, _⟩
    rw [closed] at finished
    cases finished
  have entered : Counted (enter setup .finished c) := by
    refine ⟨tallied.count, tallied.upcalls, tallied.range, ?_, tallied.shutdowns⟩
    intro initiated
    refine ⟨(tallied.initiated initiated).1, ?_⟩
    change State.closing ≤ .finished
    decide
  exact (entered.reap unreaped).same (.of_same state exception) tally ending

theorem ending_of_unbatched (same : d.unbatched = c.unbatched) : d.ending = c.ending := by
  have endings := congrArg ConnectionI.ending same
  exact endings

theorem send_call_tally {async notifies compress response : Bool} {os : RequestStream}
    {outcome : WriteOutcome} (free : c.exception = none) :
    (sendCall setup async notifies compress response os outcome c).2.tally = c.tally ∧
      (sendCall setup async notifies compress response os outcome c).2.ending = c.ending := by
  cases fits : checkSendSize setup os.bytes.length with
  | error ex =>
      rw [send_call_refused free fits]
      exact ⟨rfl, rfl⟩
  | ok done =>
      obtain ⟨accepted, _, bare⟩ : ∃ accepted, _ ∧
          (sendCall setup async notifies compress response os outcome c).2.bare = _ :=
        send_call_bare free fits
      have same : (enroll (response && accepted) (takenId c.nextRequestId)
          ⟨c.calls.length, async, notifies⟩
          (note (if response then takenId c.nextRequestId else 0) response accepted
            (issue response c))).tally = c.tally ∧
          (enroll (response && accepted) (takenId c.nextRequestId)
            ⟨c.calls.length, async, notifies⟩
            (note (if response then takenId c.nextRequestId else 0) response accepted
              (issue response c))).ending = c.ending := by
        unfold enroll register issue
        cases response <;> cases accepted <;> cases async <;> exact ⟨rfl, rfl⟩
      exact ⟨(tally_of_bare bare).trans same.1, (ending_of_bare bare).trans same.2⟩

theorem Tallied.call (tallied : Tallied c) {async notifies compress response : Bool}
    {os : RequestStream} {outcome : WriteOutcome} (free : c.exception = none) :
    Tallied (sendCall setup async notifies compress response os outcome c).2 := by
  have onward : Onward c (sendCall setup async notifies compress response os outcome c).2 :=
    send_call_onward async notifies compress response os outcome free
  obtain ⟨tally, ending⟩ := @send_call_tally setup c async notifies compress response os outcome free
  exact tallied.same onward tally ending

theorem Move.tallied (move : Move setup permits c d) (throws : ¬ permits .throws)
    (overflow : ¬ permits .overflow) (late : ¬ permits .late) (tallied : Tallied c) :
    Tallied d := by
  cases move with
  | life same onward =>
      exact tallied.same onward (tally_of_bare (bare_of_still same))
        (ending_of_bare (bare_of_still same))
  | validated | dropped | abort => exact tallied.same (.of_same rfl rfl) rfl rfl
  | shutdown closing idle first =>
      apply tallied.shut _ _ closing idle
      apply Bool.eq_false_iff.mpr
      exact fun initiated => late (first initiated)
  | call _ _ free => exact tallied.call free
  | prepareBatch open_ free prepared =>
      obtain ⟨_, rfl⟩ := prepare_batch_eq free prepared
      exact tallied.same (.of_same rfl rfl) rfl rfl
  | @finishBatch request compress outcome =>
      have same : (finishBatchRequest setup request compress outcome c).2.unbatched =
          c.unbatched := finish_batch_unbatched request compress outcome
      exact tallied.same (finish_batch_onward _ _ _) (tally_of_unbatched same)
        (ending_of_unbatched same)
  | flush open_ free outside flushed =>
      obtain ⟨accepted, same⟩ := flush_unbatched free flushed
      have tally := tally_of_unbatched same
      have ending := ending_of_unbatched same
      exact tallied.same (flush_onward free flushed) tally ending
  | write open_ busy wrote =>
      obtain ⟨buffer, delivered, rfl⟩ := advanced_of_write wrote
      exact tallied.same (.of_same rfl rfl) rfl rfl
  | abandon open_ busy wrote =>
      obtain ⟨buffer, delivered, rfl⟩ := advanced_of_write wrote
      exact tallied.same (.of_same rfl rfl) rfl rfl
  | read open_ took =>
      obtain ⟨stream, consumed, rfl⟩ := left_by_read took
      exact tallied.same (.of_same rfl rfl) rfl rfl
  | process validated open_ busy wrote took outside counted =>
      exact tallied.processed validated open_ wrote took (fun exceeds => overflow (counted exceeds))
  | @upcall upcall nothing silent unreplied =>
      have uncounted : ¬ upcall.hasCallbacks = true := by
        rw [Upcall.hasCallbacks, silent, unreplied]
        decide
      exact tallied.idle nothing uncounted
  | @throws index upcall found _ counted =>
      have uncounted : ¬ (upcall.invokeNum ≠ 0 ∨ upcall.hasCallbacks = true) :=
        fun counts => throws (counted counts)
      obtain ⟨none_, silent⟩ := not_or.mp uncounted
      exact tallied.removed found (not_not.mp none_) silent
  | callbacks found => exact tallied.called found
  | invoke found _ more => exact tallied.invoked found more
  | forget found _ more => exact tallied.forgotten found more
  | done found _ nothing => exact tallied.retired_upcall found nothing
  | answered found => exact tallied.retired found
  | replied found =>
      exact (tallied.retired found).same (send_own_onward _ _) (tally_of_bare (send_own_bare _ _))
        (ending_of_bare (send_own_bare _ _))
  | finish closed => exact tallied.finished closed

theorem Counted.answered (counted : Counted c) (initiated : c.shutdownInitiated = true) :
    c.dispatches = [] := by
  have idle := (counted.initiated initiated).1
  have sum := invoke_sum_nonneg c.upcalls counted.upcalls
  have unanswered : c.unanswered = (c.upcalls.map Upcall.invokeNum).sum + c.dispatches.length :=
    rfl
  apply List.eq_nil_of_length_eq_zero
  omega

theorem Counted.never_late {event : Event} (counted : Counted c)
    (stepped : step setup event c = some d) : ¬ event.commits setup c .late := by
  rintro ⟨initiated, index, body, outcome, closing, rfl⟩
  obtain ⟨_, performed⟩ := step_some stepped
  unfold perform at performed
  dsimp only at performed
  rw [counted.answered initiated] at performed
  cases performed

theorem tallied_of_reached
    (reached : Reach (step setup) (Avoids setup [.throws, .overflow]) .initial c) :
    LifeCycle setup c ∧ Tallied c := by
  apply reached.invariant ⟨life_cycle_initial, tallied_initial⟩
  rintro event before after ⟨cycle, tallied⟩ avoids stepped
  refine ⟨(cycle.after_step stepped).cycle, ?_⟩
  have avoidsLate : Avoids setup [.throws, .overflow, .late] event before := by
    intro fault inside
    obtain rfl | inside := List.mem_cons.mp inside
    · exact avoids .throws (by decide)
    obtain rfl | inside := List.mem_cons.mp inside
    · exact avoids .overflow (by decide)
    obtain rfl := List.mem_singleton.mp inside
    exact tallied.never_late stepped
  apply (moves_of_step cycle avoidsLate stepped).invariant _ tallied
  intro before after tallied move
  exact move.tallied (by decide) (by decide) (by decide) tallied

/-- The count of the dispatches, the shutdown that follows its last decrement in closing, and the
reaper that follows it in finished. -/
structure Accounted (c : ConnectionI) : Prop where
  count : c.dispatchCount = c.unanswered + c.callbackBatches
  nonneg : 0 ≤ c.dispatchCount
  initiated : c.shutdowns = [] ∨ c.shutdowns = [(.closing, 0)]
  reaped : c.reaped = if c.state = .finished ∧ c.dispatchCount = 0 then [(.finished, 0)] else []

theorem Tallied.accounted (tallied : Tallied c) : Accounted c where
  count := tallied.count
  nonneg := tallied.count_nonneg
  initiated := by
    rw [tallied.shutdowns]
    split
    · exact Or.inr rfl
    · exact Or.inl rfl
  reaped := tallied.reaped

/-- Every run in which no user Dispatcher throws away dispatches or callbacks and the count
stays in its range reaches states with the right count. -/
theorem dispatch_accounting
    (reached : Reach (step setup) (Avoids setup [.throws, .overflow]) .initial c) :
    Accounted c :=
  (tallied_of_reached reached).2.accounted

/-- A request of the peer with the operation `op` on the object `a`. -/
def incoming : List Byte :=
  header requestMsg 0 33 ++ [1, 0, 0, 0] ++ [1, 97, 0, 0, 2, 111, 112, 0, 0, 6, 0, 0, 0, 1, 0]

/-- A request is dispatched while the connection is destroyed, and its answer ends it. -/
def answeredRun : List Event :=
  [.start true .done .done, .activate, .message ⟨true, false, .pending, .pending,
    ⟨incoming, none⟩, [], none⟩, .callbacks 0, .invoke 0 none, .dispatchDone 0 noWrite,
    .destroy .communicatorDestroyed noWrite, .answer 0 [0] ⟨100, none⟩ ⟨100, none⟩,
    .exception .connectionLost, .finish]

theorem answered_run_accounted : ∃ c, Accounted c ∧ c.shutdowns = [(.closing, 0)] ∧
    c.reaped = [(.finished, 0)] := by
  have ran : (runAll (checked (step tcpSetup) (Event.sound tcpSetup)) answeredRun .initial).map
      (fun c => (c.shutdowns, c.reaped)) = some ([(.closing, 0)], [(.finished, 0)]) := by
    decide
  obtain ⟨c, isResult, told⟩ := Option.map_eq_some_iff.mp ran
  obtain ⟨shutdowns, reaped⟩ := Prod.mk.inj told
  have reached : Reach (step tcpSetup) (Avoids tcpSetup [.throws, .overflow]) .initial c :=
    reach_of_checked (avoids_of_sound _) isResult
  exact ⟨c, dispatch_accounting reached, shutdowns, reaped⟩

def dispatcherSetup : Setup :=
  { tcpSetup with dispatcher := true }

def thrownRun : List Event :=
  [.start true .done .done, .activate, .message ⟨true, false, .pending, .pending,
    ⟨incoming, none⟩, [], none⟩, .dispatcherThrows 0, .destroy .communicatorDestroyed noWrite,
    .timedOut, .finish]

/-- A batch message that announces as many requests as an `int` can count. -/
def incomingBatch : List Byte :=
  header requestBatchMsg 0 18 ++ [255, 255, 255, 127]

def overflownRun : List Event :=
  [.start true .done .done, .activate,
    .message ⟨true, false, .pending, .pending, ⟨incomingBatch, none⟩, [], none⟩,
    .message ⟨true, false, .pending, .pending, ⟨incomingBatch, none⟩, [], none⟩]

/-- A connection whose Dispatcher threw counts a request that nobody will answer: the shutdown is
never initiated, and the finished connection is not reaped. Two large batches make the count
negative. -/
theorem thrown_request_stays_counted :
    (∃ c, Reachable dispatcherSetup c ∧ c.state = .finished ∧
      c.dispatchCount = 1 ∧ c.unanswered = 0 ∧ c.callbackBatches = 0 ∧ c.shutdowns = [] ∧
      c.reaped = [] ∧ ¬ Accounted c) ∧
    ∃ c, Reachable tcpSetup c ∧ c.dispatchCount = -2 ∧ ¬ Accounted c := by
  constructor
  · have counts : (runAll (step dispatcherSetup) thrownRun .initial).map
        (fun c => (c.dispatchCount, c.unanswered, c.callbackBatches)) = some (1, 0, 0) := by
      decide
    have ends : (runAll (step dispatcherSetup) thrownRun .initial).map
        (fun c => (c.state, c.shutdowns, c.reaped)) = some (.finished, [], []) := by
      decide
    obtain ⟨c, isResult, told⟩ := Option.map_eq_some_iff.mp counts
    rw [isResult] at ends
    simp only [Option.map_some, Option.some.injEq, Prod.mk.injEq] at ends told
    obtain ⟨count, unanswered, batches⟩ := told
    obtain ⟨state, shutdowns, reaped⟩ := ends
    have reached : Reachable dispatcherSetup c := reach_of_run isResult (fun _ _ _ => trivial)
    refine ⟨c, reached, state, count, unanswered, batches, shutdowns, reaped, ?_⟩
    intro accounted
    have counted := accounted.count
    rw [count, unanswered, batches] at counted
    cases counted
  · have ran : (runAll (step tcpSetup) overflownRun .initial).map ConnectionI.dispatchCount =
        some (-2) := by
      decide
    obtain ⟨c, isResult, count⟩ := Option.map_eq_some_iff.mp ran
    refine ⟨c, reach_of_run isResult (fun _ _ _ => trivial), count, ?_⟩
    intro accounted
    have nonneg := accounted.nonneg
    rw [count] at nonneg
    omega

end IceTouch.Connection
