import IceTouch.Library.Lists
import IceTouch.Library.Machine
import IceTouch.Threading.ThreadPool

/-!
# Leaders and followers

One thread at most leads: it selects when no thread performs IO, and hands the leadership on when
it finds more handlers to run or has to wait. The counters of the pool are the numbers of threads
that run handlers, and the pool never runs out of threads before its maximum.
-/

namespace IceTouch.Threading

open IceTouch.Lists Machine

variable {η : Type} {config : Config} {s t : Pool η} {thread : Nat} {leader : Bool}
  {place other : Place η} {before after : ThreadPoolCurrent η}

def givens (history : List (Event η)) : List (Nat × η) :=
  history.filterMap fun event =>
    match event with
    | .given thread handler => some (thread, handler)
    | _ => none

/-- The handlers that `select` has returned. -/
def readied (history : List (Event η)) : List η :=
  history.flatMap fun event =>
    match event with
    | .ready handlers => handlers
    | _ => []

theorem givens_append (history events : List (Event η)) :
    givens (history ++ events) = givens history ++ givens events :=
  List.filterMap_append

theorem readied_append (history events : List (Event η)) :
    readied (history ++ events) = readied history ++ readied events :=
  List.flatMap_append

/-- An event that has nothing to do with handing out handlers. -/
def Event.plain : Event η → Bool
  | .given _ _ => false
  | .ready _ => false
  | _ => true

structure Counts (config : Config) (s : Pool η) : Prop where
  leaders : (s.threads.countP ThreadPoolCurrent.leader : Int) = if s.promote then 0 else 1
  performing : s.inUseIO = s.threads.countP ThreadPoolCurrent.performing
  bounded : s.inUseIO ≤ config.sizeIO
  dispatching : s.inUse = s.threads.countP ThreadPoolCurrent.dispatching
  selectors : ∀ current ∈ s.threads, current.selecting = true → current.leader = true
  exclusive : 0 < s.threads.countP ThreadPoolCurrent.selecting → s.inUseIO = 0 ∧ s.atEnd = true
  handed : (givens s.history).map Prod.snd ++ s.handlers.drop s.nextHandler = readied s.history
  intact : s.failed = none

/-- Outside a locked section a leader selects or performs IO. -/
def ThreadPoolCurrent.settled (current : ThreadPoolCurrent η) : Prop :=
  current.leader = true → current.selecting = true ∨ current.performing = true

theorem follower_settled (place : Place η) : (⟨false, place⟩ : ThreadPoolCurrent η).settled :=
  fun leads => absurd leads Bool.false_ne_true

/-- The invariant between two steps. -/
structure Invariant (config : Config) (s : Pool η) : Prop extends Counts config s where
  enough : .notCreated ∉ s.history → s.inUse < config.sizeMax → s.inUse < s.threadCount
  settled : ∀ current ∈ s.threads, current.settled

variable {threads : List (ThreadPoolCurrent η)} {events : List (Event η)}

theorem count_changed {a b : Bool} (p : ThreadPoolCurrent η → Bool) (after : ThreadPoolCurrent η)
    (found : threads[thread]? = some before) (was : p before = a) (now : p after = b) :
    ((threads.set thread after).countP p : Int) =
      threads.countP p + (if b then 1 else 0) - if a then 1 else 0 := by
  rw [count_replaced p after found, was, now]

theorem put_found (found : s.threads[thread]? = some before) : s.put thread before = s := by
  have same : s.threads.set thread before = s.threads := by
    rw [List.getElem?_eq_some_iff] at found
    obtain ⟨inside, found⟩ := found
    rw [← found]
    exact List.set_getElem_self inside
  rw [Pool.put, same]

theorem selectors_le_leaders (threads : List (ThreadPoolCurrent η))
    (selectors : ∀ current ∈ threads, current.selecting = true → current.leader = true) :
    threads.countP ThreadPoolCurrent.selecting ≤ threads.countP ThreadPoolCurrent.leader :=
  List.countP_mono_left selectors

theorem found_put (inside : thread < s.threads.length) (current : ThreadPoolCurrent η) :
    (s.put thread current).threads[thread]? = some current :=
  List.getElem?_set_self inside

theorem Counts.leads (counts : Counts config (s.put thread ⟨true, place⟩))
    (inside : thread < s.threads.length) : s.promote = false := by
  have positive : 0 < (s.put thread ⟨true, place⟩).threads.countP ThreadPoolCurrent.leader :=
    List.countP_pos_iff.mpr ⟨_, List.mem_of_getElem? (found_put inside _), rfl⟩
  have one := counts.leaders
  cases now : s.promote with
  | false => rfl
  | true =>
      rw [show (s.put thread ⟨true, place⟩).promote = true from now, if_pos rfl] at one
      omega

theorem Counts.none_selects (counts : Counts config (s.put thread ⟨true, place⟩))
    (inside : thread < s.threads.length)
    (elsewhere : (⟨true, place⟩ : ThreadPoolCurrent η).selecting = false)
    (awake : after.selecting = false) :
    (s.threads.set thread after).countP ThreadPoolCurrent.selecting = 0 := by
  have found := found_put inside ⟨true, place⟩
  have fewer := selectors_le_leaders
    ((s.threads.set thread ⟨true, place⟩).set thread ⟨false, place⟩) (by
      intro current member selects
      obtain old | new := List.mem_or_eq_of_mem_set member
      · exact counts.selectors current old selects
      · rw [new] at selects
        exact absurd (elsewhere.symm.trans selects) Bool.false_ne_true)
  have leaders := count_changed (a := true) (b := false) ThreadPoolCurrent.leader
    ⟨false, place⟩ found rfl rfl
  have selecting := count_changed ThreadPoolCurrent.selecting ⟨false, place⟩ found elsewhere
    elsewhere
  have now := count_changed ThreadPoolCurrent.selecting after found elsewhere awake
  have one := counts.leaders
  rw [show (s.put thread ⟨true, place⟩).promote = false from counts.leads inside] at one
  simp only [Pool.put, List.set_set, Bool.false_eq_true, if_false, if_true]
    at leaders selecting now one fewer
  omega

theorem Counts.told (counts : Counts config s) (plain : ∀ event ∈ events, event.plain = true) :
    Counts config { s with history := s.history ++ events } := by
  have given : givens events = [] :=
    List.filterMap_eq_nil_iff.mpr fun event member => by
      cases event <;> first | rfl | cases plain _ member
  have ready : readied events = [] :=
    List.flatMap_eq_nil_iff.mpr fun event member => by
      cases event <;> first | rfl | cases plain _ member
  exact { counts with
    handed := by
      rw [givens_append, readied_append, given, ready, List.append_nil, List.append_nil]
      exact counts.handed }

theorem Counts.emit (counts : Counts config s) (event : Event η) (plain : event.plain = true) :
    Counts config (s.emit event) :=
  counts.told fun _ member => by
    rw [List.mem_singleton.mp member]
    exact plain

section

variable (counts : Counts config (s.put thread before))

include counts

theorem Counts.moved (inside : thread < s.threads.length)
    (threads : t.threads = s.threads.set thread after)
    (leaders : (if t.promote then (0 : Int) else 1) = (if s.promote then 0 else 1) +
      (if after.leader then 1 else 0) - if before.leader then 1 else 0)
    (performing : t.inUseIO =
      s.inUseIO + (if after.performing then 1 else 0) - if before.performing then 1 else 0)
    (bounded : t.inUseIO ≤ config.sizeIO)
    (dispatching : t.inUse =
      s.inUse + (if after.dispatching then 1 else 0) - if before.dispatching then 1 else 0)
    (selects : after.selecting = true → after.leader = true)
    (exclusive : 0 < (s.threads.set thread after).countP ThreadPoolCurrent.selecting →
      t.inUseIO = 0 ∧ t.atEnd = true)
    (handed : (givens t.history).map Prod.snd ++ t.handlers.drop t.nextHandler =
      readied t.history) (intact : t.failed = none) : Counts config t := by
  have found := found_put inside before
  have set : t.threads = (s.put thread before).threads.set thread after := by
    rw [threads, Pool.put, List.set_set]
  have old := counts.leaders
  have io : s.inUseIO = _ := counts.performing
  have use : s.inUse = _ := counts.dispatching
  constructor
  · rw [set, count_replaced _ after found, leaders, old]
    rfl
  · rw [set, count_replaced _ after found, performing, io]
  · exact bounded
  · rw [set, count_replaced _ after found, dispatching, use]
  · intro current member
    rw [set] at member
    obtain same | new := List.mem_or_eq_of_mem_set member
    · exact counts.selectors current same
    · rw [new]
      exact selects
  · rw [threads]
    exact exclusive
  · exact handed
  · exact intact

theorem Counts.still_exclusive (inside : thread < s.threads.length)
    (elsewhere : before.selecting = false) (awake : after.selecting = false)
    (some : 0 < (s.threads.set thread after).countP ThreadPoolCurrent.selecting) :
    s.inUseIO = 0 ∧ s.atEnd = true := by
  have changed := count_changed ThreadPoolCurrent.selecting after (found_put inside before)
    elsewhere awake
  simp only [Pool.put, List.set_set] at changed
  refine counts.exclusive ?_
  change 0 < (s.threads.set thread before).countP _
  omega

/-- A thread changes its place, no handler begins or ends, and it selects neither before nor
after. -/
theorem Counts.placed (inside : thread < s.threads.length) {promote : Bool}
    (leaders : (if promote then (0 : Int) else 1) = (if s.promote then 0 else 1) +
      (if after.leader then 1 else 0) - if before.leader then 1 else 0)
    (performing : after.performing = before.performing)
    (dispatching : after.dispatching = before.dispatching) (elsewhere : before.selecting = false)
    (awake : after.selecting = false) :
    Counts config ({ s with promote := promote }.put thread after) := by
  refine counts.moved inside rfl leaders ?_ counts.bounded ?_ ?_
    (counts.still_exclusive inside elsewhere awake) counts.handed counts.intact
  · rw [performing]
    exact (Int.add_sub_cancel _ _).symm
  · rw [dispatching]
    exact (Int.add_sub_cancel _ _).symm
  · rw [awake]
    exact fun selects => absurd selects Bool.false_ne_true

end

/-- What a section makes of a pool in which a thread was `before` and counted so. -/
structure Proceeds (config : Config) (thread : Nat) (s t : Pool η) : Prop extends
    Counts config t where
  threads : ∃ after, t.threads = s.threads.set thread after ∧ after.settled ∧ after.pooled = true
  inUse : t.inUse = s.inUse
  failures : .notCreated ∈ s.history → .notCreated ∈ t.history

theorem Counts.proceeds (counts : Counts config (s.put thread after)) (settled : after.settled)
    (pooled : after.pooled = true) : Proceeds config thread s (s.put thread after) :=
  { counts with
    threads := ⟨after, rfl, settled, pooled⟩
    inUse := rfl
    failures := id }

theorem Proceeds.told (proceeds : Proceeds config thread s t)
    (plain : ∀ event ∈ events, event.plain = true) :
    Proceeds config thread s { t with history := t.history ++ events } :=
  { proceeds.toCounts.told plain with
    threads := proceeds.threads
    inUse := proceeds.inUse
    failures := fun failed => List.mem_append_left _ (proceeds.failures failed) }

theorem promote_follower_eq (config : Config) (thread : Nat) (place : Place η)
    (free : s.promote = false) :
    ∃ events, (∀ event ∈ events, event.plain = true) ∧
      s.promoteFollower config thread ⟨true, place⟩ =
        { s with
          promote := true
          threads := s.threads.set thread ⟨false, place⟩
          history := s.history ++ events } := by
  unfold Pool.promoteFollower
  rw [free]
  by_cases told : s.inUseIO < config.sizeIO ∧ (¬ s.atEnd ∨ s.inUseIO = 0)
  · refine ⟨[.notified], by simp [Event.plain], ?_⟩
    simp only [if_pos told]
    rfl
  · refine ⟨[], by simp, ?_⟩
    simp only [if_neg told, List.append_nil]
    rfl

theorem Counts.promote_follower (counts : Counts config (s.put thread ⟨true, place⟩))
    (inside : thread < s.threads.length)
    (elsewhere : (⟨true, place⟩ : ThreadPoolCurrent η).selecting = false)
    (pooled : (⟨true, place⟩ : ThreadPoolCurrent η).pooled = true) :
    Proceeds config thread s (s.promoteFollower config thread ⟨true, place⟩) := by
  have leading := counts.leads inside
  have awake : ThreadPoolCurrent.selecting ⟨false, place⟩ = false := elsewhere
  have promoted : Counts config ({ s with promote := true }.put thread ⟨false, place⟩) := by
    refine counts.placed inside ?_ rfl rfl elsewhere awake
    rw [leading]
    rfl
  obtain ⟨events, plain, same⟩ := promote_follower_eq config thread place leading
  rw [same]
  have proceeds : Proceeds config thread { s with promote := true } _ :=
    promoted.proceeds (follower_settled place) pooled
  exact { proceeds.told plain with }

theorem Counts.get_next (counts : Counts config (s.put thread ⟨true, .entering⟩))
    (inside : thread < s.threads.length) (several : 1 < config.sizeMax)
    (room : s.inUseIO < config.sizeIO) :
    Proceeds config thread s (s.getNext config thread true) := by
  have count : s.inUseIO = _ := counts.performing
  unfold Pool.getNext
  cases next : s.handlers[s.nextHandler]? with
  | some handler =>
      obtain ⟨bound, here⟩ := List.getElem?_eq_some_iff.mp next
      let counted : Pool η :=
        { s with
          nextHandler := s.nextHandler + 1
          inUseIO := s.inUseIO + 1
          history := s.history ++ [.given thread handler] }
      have taken : Counts config (counted.put thread ⟨true, .running handler false⟩) := by
        refine counts.moved inside rfl ?_ ?_ room ?_ ?_ ?_ ?_ counts.intact
        · exact (Int.add_sub_cancel _ _).symm
        · exact (Int.sub_zero _).symm
        · exact (Int.add_sub_cancel _ _).symm
        · exact fun _ => rfl
        · rw [counts.none_selects inside rfl rfl]
          exact fun some => absurd some (Nat.lt_irrefl 0)
        · have handed : (givens s.history).map Prod.snd ++ s.handlers.drop s.nextHandler =
              readied s.history := counts.handed
          rw [List.drop_eq_getElem_cons bound, here] at handed
          change (givens (s.history ++ [.given thread handler])).map Prod.snd ++
            s.handlers.drop (s.nextHandler + 1) = readied (s.history ++ [.given thread handler])
          rw [givens_append, readied_append, List.map_append, List.append_assoc]
          exact handed.trans (List.append_nil _).symm
      have failures : .notCreated ∈ s.history → .notCreated ∈ counted.history :=
        List.mem_append_left _
      simp only [if_pos several]
      split
      · have proceeds := taken.promote_follower inside rfl rfl
        exact { proceeds with failures := fun failed => proceeds.failures (failures failed) }
      · have proceeds : Proceeds config thread counted _ := taken.proceeds (fun _ => .inr rfl) rfl
        exact { proceeds with failures := failures }
  | none =>
      have finished : s.handlers.length ≤ s.nextHandler := List.getElem?_eq_none_iff.mp next
      simp only
      split
      · exact counts.promote_follower inside rfl rfl
      · next idle =>
          have selects : Counts config (s.put thread ⟨true, .selecting⟩) := by
            refine counts.moved inside rfl ?_ ?_ counts.bounded ?_ (fun _ => rfl) ?_ counts.handed
              counts.intact
            · exact (Int.add_sub_cancel _ _).symm
            · exact (Int.add_sub_cancel _ _).symm
            · exact (Int.add_sub_cancel _ _).symm
            · intro _
              refine ⟨?_, decide_eq_true finished⟩
              change s.inUseIO = 0
              omega
          have plain : ∀ event ∈ [(Event.startedSelect : Event η)], event.plain = true := by
            simp [Event.plain]
          exact (selects.proceeds (fun _ => .inl rfl) rfl).told plain

theorem Counts.await_turn (counts : Counts config (s.put thread ⟨false, .entering⟩))
    (inside : thread < s.threads.length) (several : 1 < config.sizeMax) :
    Proceeds config thread s (s.awaitTurn config thread false) := by
  unfold Pool.awaitTurn
  split
  · have waits : Counts config (s.put thread ⟨false, .waiting⟩) :=
      counts.placed inside (Int.add_sub_cancel _ _).symm rfl rfl rfl rfl
    exact waits.proceeds (follower_settled _) rfl
  · next free =>
      simp only [Pool.blocked, Bool.or_eq_true, Bool.not_eq_true', beq_iff_eq, not_or,
        Bool.not_eq_false] at free
      obtain ⟨⟨promote, room⟩, -⟩ := free
      have bounded : s.inUseIO ≤ config.sizeIO := counts.bounded
      have leads : Counts config
          ({ s with promote := false }.put thread ⟨true, .entering⟩) := by
        refine counts.placed inside ?_ rfl rfl rfl rfl
        rw [promote]
        rfl
      have room : s.inUseIO < config.sizeIO := by omega
      have proceeds := leads.get_next inside several room
      exact { proceeds with }

theorem Counts.proceed (counts : Counts config (s.put thread ⟨leader, .entering⟩))
    (inside : thread < s.threads.length) (several : 1 < config.sizeMax)
    (room : leader = true → s.inUseIO < config.sizeIO) :
    Proceeds config thread s (s.proceed config thread leader) := by
  cases leader with
  | true => exact counts.get_next inside several (room rfl)
  | false => exact counts.await_turn inside several

theorem ThreadPoolCurrent.settled.follows
    (settled : (⟨leader, place⟩ : ThreadPoolCurrent η).settled)
    (elsewhere : (⟨leader, place⟩ : ThreadPoolCurrent η).selecting = false)
    (idle : (⟨leader, place⟩ : ThreadPoolCurrent η).performing = false) : leader = false := by
  cases leader with
  | false => rfl
  | true =>
      obtain selects | performs := settled rfl
      · exact absurd (elsewhere.symm.trans selects) Bool.false_ne_true
      · exact absurd (idle.symm.trans performs) Bool.false_ne_true

def ThreadPoolCurrent.waiting (current : ThreadPoolCurrent η) : Bool :=
  match current.place with
  | .waiting => true
  | _ => false

theorem occupied_le (threads : List (ThreadPoolCurrent η)) :
    threads.countP ThreadPoolCurrent.dispatching + threads.countP ThreadPoolCurrent.performing +
        threads.countP ThreadPoolCurrent.selecting + threads.countP ThreadPoolCurrent.waiting ≤
      threads.countP ThreadPoolCurrent.pooled := by
  induction threads with
  | nil => exact Nat.le_refl _
  | cons current threads ih =>
      simp only [List.countP_cons]
      obtain ⟨leader, place⟩ := current
      have one : (if (⟨leader, place⟩ : ThreadPoolCurrent η).dispatching then 1 else 0) +
          (if (⟨leader, place⟩ : ThreadPoolCurrent η).performing then 1 else 0) +
          (if (⟨leader, place⟩ : ThreadPoolCurrent η).selecting then 1 else 0) +
          (if (⟨leader, place⟩ : ThreadPoolCurrent η).waiting then 1 else 0) ≤
            if (⟨leader, place⟩ : ThreadPoolCurrent η).pooled then 1 else 0 := by
        cases place with
        | running handler ioCompleted => cases ioCompleted <;> exact Nat.le_refl _
        | entering => exact Nat.zero_le _
        | selecting => exact Nat.le_refl _
        | waiting => exact Nat.le_refl _
        | returned => exact Nat.le_refl _
      omega

theorem Counts.used_le (counts : Counts config s) : s.inUse ≤ s.threadCount := by
  have occupied := occupied_le s.threads
  have count := counts.dispatching
  unfold Pool.threadCount
  omega

theorem settled_set (thread : Nat) (settled : ∀ current ∈ threads, current.settled)
    (now : after.settled) : ∀ current ∈ threads.set thread after, current.settled := by
  intro current member
  obtain old | new := List.mem_or_eq_of_mem_set member
  · exact settled current old
  · rw [new]
    exact now

theorem Proceeds.invariant (proceeds : Proceeds config thread s t)
    (settled : ∀ current ∈ s.threads, current.settled)
    (found : s.threads[thread]? = some before) (pooled : before.pooled = true)
    (enough : .notCreated ∉ s.history → s.inUse < config.sizeMax → s.inUse < s.threadCount) :
    Invariant config t := by
  obtain ⟨after, threads, now, still⟩ := proceeds.threads
  have same : t.threadCount = s.threadCount := by
    have changed := count_changed ThreadPoolCurrent.pooled after found pooled still
    rw [← threads] at changed
    exact changed.trans (Int.add_sub_cancel _ _)
  refine { proceeds.toCounts with enough := ?_, settled := ?_ }
  · intro always
    rw [proceeds.inUse, same]
    exact enough fun failed => always (proceeds.failures failed)
  · rw [threads]
    exact settled_set thread settled now

theorem assert_holds {assertion : Assertion} {holds : Bool} (true_ : holds = true) :
    s.assert assertion holds = s :=
  if_pos true_

theorem Invariant.hold (inv : Invariant config s) (found : s.threads[thread]? = some before) :
    Counts config (s.put thread before) := by
  rw [put_found found]
  exact inv.toCounts

theorem inside_of_found (found : s.threads[thread]? = some before) : thread < s.threads.length :=
  (List.getElem?_eq_some_iff.mp found).1

section

variable (inv : Invariant config s)

include inv

theorem Invariant.emit (event : Event η) (plain : event.plain = true) :
    Invariant config (s.emit event) :=
  { inv.toCounts.emit event plain with
    enough := fun always => inv.enough fun failed => always (List.mem_append_left _ failed)
    settled := inv.settled }

theorem Invariant.enter (several : 1 < config.sizeMax)
    (found : s.threads[thread]? = some ⟨leader, .entering⟩) :
    Invariant config (s.proceed config thread leader) := by
  have follows := (inv.settled _ (List.mem_of_getElem? found)).follows rfl rfl
  subst follows
  have proceeds := (inv.hold found).proceed (inside_of_found found) several fun leads =>
    absurd leads Bool.false_ne_true
  exact proceeds.invariant inv.settled found rfl inv.enough

theorem Invariant.await_turn (several : 1 < config.sizeMax)
    (found : s.threads[thread]? = some ⟨leader, .waiting⟩) :
    Invariant config (s.awaitTurn config thread leader) := by
  have follows := (inv.settled _ (List.mem_of_getElem? found)).follows rfl rfl
  subst follows
  have inside := inside_of_found found
  have counts := inv.hold found
  have enters : Counts config (s.put thread ⟨false, .entering⟩) :=
    counts.placed inside (Int.add_sub_cancel _ _).symm rfl rfl rfl rfl
  exact (enters.await_turn inside several).invariant inv.settled found rfl inv.enough

/-- Where one thread waits although it was not promoted, another one leads or performs IO. -/
theorem Invariant.spare (positive : 1 ≤ config.sizeIO)
    (found : s.threads[thread]? = some ⟨leader, .waiting⟩) (blocked : s.blocked config = true) :
    s.inUse + 1 < s.threadCount := by
  have occupied := occupied_le s.threads
  have uses := inv.dispatching
  have performs := inv.performing
  have waits : 0 < s.threads.countP ThreadPoolCurrent.waiting :=
    List.countP_pos_iff.mpr ⟨_, List.mem_of_getElem? found, rfl⟩
  have busy : 0 < s.threads.countP ThreadPoolCurrent.selecting +
      s.threads.countP ThreadPoolCurrent.performing := by
    simp only [Pool.blocked, Bool.or_eq_true, Bool.not_eq_true', beq_iff_eq, Bool.and_eq_true,
      decide_eq_true_eq] at blocked
    obtain (promote | full) | ⟨-, some⟩ := blocked
    · have leads := inv.leaders
      rw [promote] at leads
      have positive : 0 < s.threads.countP ThreadPoolCurrent.leader := by
        simp only [Bool.false_eq_true, if_false] at leads
        omega
      obtain ⟨current, member, leading⟩ := List.countP_pos_iff.mp positive
      obtain selects | performs := inv.settled current member leading
      · exact Nat.add_pos_left (List.countP_pos_iff.mpr ⟨current, member, selects⟩) _
      · exact Nat.add_pos_right _ (List.countP_pos_iff.mpr ⟨current, member, performs⟩)
    · omega
    · omega
  unfold Pool.threadCount
  omega

theorem Invariant.idle (several : 1 < config.sizeMax) (positive : 1 ≤ config.sizeIO)
    (found : s.threads[thread]? = some ⟨leader, .waiting⟩) :
    Invariant config (s.idle config thread leader) := by
  unfold Pool.idle
  split
  · next blocked =>
      have spare := inv.spare positive found blocked
      have follows := (inv.settled _ (List.mem_of_getElem? found)).follows rfl rfl
      subst follows
      have inside := inside_of_found found
      have counts := inv.hold found
      have used : (0 : Int) ≤ s.inUse := by
        rw [inv.dispatching]
        exact Int.natCast_nonneg _
      have holds : decide (1 < s.threadCount) = true := by
        rw [decide_eq_true_eq]
        omega
      have leaves : Counts config (s.put thread ⟨false, .returned⟩) :=
        counts.placed inside (Int.add_sub_cancel _ _).symm rfl rfl rfl rfl
      have fewer := count_changed ThreadPoolCurrent.pooled ⟨false, .returned⟩ found rfl rfl
      have left : Invariant config (s.put thread ⟨false, .returned⟩) :=
        { leaves with
          enough := fun _ _ => by
            change s.inUse < ((s.threads.set thread _).countP _ : Int)
            rw [fewer]
            change s.inUse < s.threadCount + 0 - 1
            omega
          settled := settled_set thread inv.settled (follower_settled _) }
      rw [assert_holds holds]
      exact left.emit (.join thread) rfl
  · exact inv.await_turn several found

theorem Invariant.selected (several : 1 < config.sizeMax) (positive : 1 ≤ config.sizeIO)
    (found : s.threads[thread]? = some ⟨leader, .selecting⟩) (handlers : List η) :
    Invariant config (({ s with handlers := handlers, nextHandler := 0 }.emit
      (.ready handlers)).getNext config thread leader) := by
  have member := List.mem_of_getElem? found
  have leads : leader = true := inv.selectors _ member rfl
  subst leads
  have inside := inside_of_found found
  have here : 0 < s.threads.countP ThreadPoolCurrent.selecting :=
    List.countP_pos_iff.mpr ⟨_, member, rfl⟩
  obtain ⟨free, ended⟩ := inv.exclusive here
  have alone := selectors_le_leaders _ inv.selectors
  have one := inv.leaders
  have changed := count_changed (a := true) (b := false) ThreadPoolCurrent.selecting
    ⟨true, .entering⟩ found rfl rfl
  let swapped : Pool η :=
    { s with
      handlers := handlers
      nextHandler := 0
      history := s.history ++ [.ready handlers] }
  have entered : Counts config (swapped.put thread ⟨true, .entering⟩) := by
    refine (inv.hold found).moved inside rfl ?_ ?_ inv.bounded ?_ (fun _ => rfl) ?_ ?_ inv.intact
    · exact (Int.add_sub_cancel _ _).symm
    · exact (Int.add_sub_cancel _ _).symm
    · exact (Int.add_sub_cancel _ _).symm
    · intro some
      simp only [Bool.false_eq_true, if_false, if_true] at changed
      split at one <;> omega
    · have handed := inv.handed
      rw [List.drop_eq_nil_of_le (of_decide_eq_true ended), List.append_nil] at handed
      change (givens (s.history ++ [.ready handlers])).map Prod.snd ++ handlers =
        readied (s.history ++ [.ready handlers])
      rw [givens_append, readied_append, List.map_append, handed, List.append_assoc]
      exact congrArg _ (List.append_nil _).symm
  have room : s.inUseIO < config.sizeIO := by omega
  have proceeds := entered.get_next inside several room
  exact proceeds.invariant inv.settled found rfl fun always =>
    inv.enough fun failed => always (List.mem_append_left _ failed)

end

theorem Invariant.finish (inv : Invariant config s) (several : 1 < config.sizeMax)
    {handler : η} {ioCompleted : Bool}
    (found : s.threads[thread]? = some ⟨leader, .running handler ioCompleted⟩) :
    Invariant config (s.finish config thread leader handler ioCompleted) := by
  have member := List.mem_of_getElem? found
  have inside := inside_of_found found
  have counts := inv.hold found
  have bounded := inv.bounded
  unfold Pool.finish
  rw [if_pos several]
  cases ioCompleted with
  | false =>
      have released : Counts config
          ({ s with inUseIO := s.inUseIO - 1 }.put thread ⟨leader, .entering⟩) := by
        refine counts.moved inside rfl (Int.add_sub_cancel _ _).symm ?_ ?_ ?_ ?_ ?_ inv.handed
          inv.intact
        · change s.inUseIO - 1 = s.inUseIO + 0 - 1
          omega
        · change s.inUseIO - 1 ≤ config.sizeIO
          omega
        · exact (Int.add_sub_cancel _ _).symm
        · exact fun selects => absurd selects Bool.false_ne_true
        · intro some
          obtain ⟨none_, -⟩ := counts.still_exclusive inside rfl rfl some
          have performs : 0 < s.threads.countP ThreadPoolCurrent.performing :=
            List.countP_pos_iff.mpr ⟨_, member, rfl⟩
          have count := inv.performing
          omega
      have room : leader = true → s.inUseIO - 1 < config.sizeIO := fun _ => by omega
      exact (released.proceed inside several room).invariant inv.settled found rfl inv.enough
  | true =>
      have follows := (inv.settled _ member).follows rfl rfl
      subst follows
      have uses : 0 < s.threads.countP ThreadPoolCurrent.dispatching :=
        List.countP_pos_iff.mpr ⟨_, member, rfl⟩
      have count := inv.dispatching
      have holds : decide (0 < s.inUse) = true := by
        rw [decide_eq_true_eq]
        omega
      have told := inv.emit (.enabled handler) rfl
      have released : Counts config
          ({ s.emit (.enabled handler) with inUse := s.inUse - 1 }.put thread
            ⟨false, .entering⟩) := by
        refine (told.hold found).moved inside rfl (Int.add_sub_cancel _ _).symm ?_ bounded ?_ ?_
          ?_ told.handed inv.intact
        · exact (Int.add_sub_cancel _ _).symm
        · change s.inUse - 1 = s.inUse + 0 - 1
          omega
        · exact fun selects => absurd selects Bool.false_ne_true
        · exact counts.still_exclusive inside rfl rfl
      have proceeds := released.proceed inside several fun leads =>
        absurd leads Bool.false_ne_true
      have spare := inv.used_le
      rw [if_pos rfl, assert_holds holds]
      refine proceeds.invariant inv.settled found rfl fun _ _ => ?_
      change s.inUse - 1 < s.threadCount
      omega

theorem disabled_eq (config : Config) (handler : η) (s : Pool η) :
    ∃ events, (∀ event ∈ events, event.plain = true) ∧
      (if config.serialize then s.emit (.disabled handler) else s) =
        { s with history := s.history ++ events } := by
  cases config.serialize with
  | true => exact ⟨[.disabled handler], by simp [Event.plain], rfl⟩
  | false => exact ⟨[], by simp, by simp⟩

theorem pass_on_eq (config : Config) (thread : Nat) (handler : η)
    (free : leader = true → s.promote = false) :
    ∃ events, (∀ event ∈ events, event.plain = true) ∧
      s.passOn config thread leader handler =
        { s with
          promote := s.promote || leader
          inUseIO := s.inUseIO - 1
          threads := s.threads.set thread ⟨false, .running handler true⟩
          history := s.history ++ events } := by
  obtain ⟨first, before, serialized⟩ :=
    disabled_eq config handler { s with inUseIO := s.inUseIO - 1 }
  unfold Pool.passOn
  simp only [serialized]
  cases leader with
  | true =>
      obtain ⟨later, after, same⟩ := promote_follower_eq config thread (.running handler true)
        (s := { s with inUseIO := s.inUseIO - 1, history := s.history ++ first }) (free rfl)
      refine ⟨first ++ later, ?_, ?_⟩
      · exact List.forall_mem_append.mpr ⟨before, after⟩
      · rw [if_pos rfl, Bool.or_true, ← List.append_assoc]
        exact same
  | false =>
      simp only [Bool.false_eq_true, if_false, Bool.or_false]
      split
      · refine ⟨first ++ [.notified], ?_, ?_⟩
        · exact List.forall_mem_append.mpr ⟨before, by simp [Event.plain]⟩
        · rw [← List.append_assoc]
          rfl
      · exact ⟨first, before, rfl⟩

theorem Counts.grow (counts : Counts config s)
    (settled : ∀ current ∈ s.threads, current.settled) (creates : Bool) :
    Invariant config (s.grow config creates) := by
  have spare := counts.used_le
  unfold Pool.grow
  split
  · cases creates with
    | true =>
        let newcomer : ThreadPoolCurrent η := ⟨false, .entering⟩
        have kept (p : ThreadPoolCurrent η → Bool) (fresh : p newcomer = false) :
            (s.threads ++ [newcomer]).countP p = s.threads.countP p := by
          rw [List.countP_append, List.countP_singleton, fresh]
          rfl
        have grown : Invariant config { s with threads := s.threads ++ [newcomer] } :=
          { leaders := (congrArg Nat.cast (kept _ rfl)).trans counts.leaders
            performing := counts.performing.trans (congrArg Nat.cast (kept _ rfl).symm)
            bounded := counts.bounded
            dispatching := counts.dispatching.trans (congrArg Nat.cast (kept _ rfl).symm)
            selectors := List.forall_mem_append.mpr
              ⟨counts.selectors, by simp [newcomer, ThreadPoolCurrent.selecting]⟩
            exclusive := fun some => counts.exclusive (Nat.lt_of_lt_of_eq some (kept _ rfl))
            enough := fun _ _ => by
              rw [Pool.threadCount, List.countP_append]
              change s.inUse < ((s.threads.countP _ + 1 : Nat) : Int)
              unfold Pool.threadCount at spare
              omega
            handed := counts.handed
            intact := counts.intact
            settled := List.forall_mem_append.mpr
              ⟨settled, List.forall_mem_singleton.mpr (follower_settled _)⟩ }
        exact grown.emit .created rfl
    | false =>
        exact { counts.emit .notCreated rfl with
          enough := fun always =>
            absurd (List.mem_append_right _ (List.mem_singleton_self _)) always
          settled := settled }
  · next rest =>
      refine { counts with enough := ?_, settled := settled }
      intro _ below
      omega

theorem Counts.count_use (counts : Counts config s)
    (settled : ∀ current ∈ s.threads, current.settled) (creates : Bool) {warned : Pool η}
    (warns : warned = if s.inUse = config.sizeWarn then s.emit .lowOnThreads else s) :
    Invariant config ((warned.assert .ioCompletedThreads
      (warned.inUse ≤ warned.threadCount)).grow config creates) := by
  split at warns
  · subst warns
    have told : Counts config (s.emit .lowOnThreads) := counts.emit _ rfl
    rw [assert_holds (decide_eq_true told.used_le)]
    exact told.grow settled creates
  · subst warns
    rw [assert_holds (decide_eq_true counts.used_le)]
    exact counts.grow settled creates

theorem Invariant.io_completed (inv : Invariant config s) (several : 1 < config.sizeMax)
    {handler : η} (found : s.threads[thread]? = some ⟨leader, .running handler false⟩)
    (creates : Bool) :
    Invariant config (s.ioCompleted config thread leader handler creates) := by
  have member := List.mem_of_getElem? found
  have inside := inside_of_found found
  have counts := inv.hold found
  have bounded := inv.bounded
  have free : leader = true → s.promote = false := by
    intro leads
    subst leads
    exact counts.leads inside
  obtain ⟨events, plain, same⟩ := pass_on_eq config thread handler free
  have moved : Counts config
      { s with
        promote := s.promote || leader
        inUseIO := s.inUseIO - 1
        inUse := s.inUse + 1
        threads := s.threads.set thread ⟨false, .running handler true⟩ } := by
    refine counts.moved inside rfl ?_ ?_ ?_ ?_ ?_ ?_ inv.handed inv.intact
    · cases leader with
      | true =>
          rw [Bool.or_true, free rfl]
          rfl
      | false =>
          rw [Bool.or_false]
          exact (Int.add_sub_cancel _ _).symm
    · change s.inUseIO - 1 = s.inUseIO + 0 - 1
      omega
    · change s.inUseIO - 1 ≤ config.sizeIO
      omega
    · change s.inUse + 1 = s.inUse + 1 - 0
      omega
    · exact fun selects => absurd selects Bool.false_ne_true
    · intro some
      obtain ⟨none_, -⟩ := counts.still_exclusive inside rfl rfl some
      have performs : 0 < s.threads.countP ThreadPoolCurrent.performing :=
        List.countP_pos_iff.mpr ⟨_, member, rfl⟩
      have count := inv.performing
      omega
  have used := moved.told plain
  have settled := settled_set thread inv.settled (follower_settled (.running handler true))
  have nonnegative : (0 : Int) ≤ s.inUse := by
    rw [inv.dispatching]
    exact Int.natCast_nonneg _
  unfold Pool.ioCompleted
  rw [if_pos several, same]
  simp only [assert_holds (decide_eq_true nonnegative)]
  exact used.count_use settled creates rfl

theorem act_invariant (inv : Invariant config s) (several : 1 < config.sizeMax)
    (positive : 1 ≤ config.sizeIO) (found : s.threads[thread]? = some ⟨leader, place⟩)
    {action : Action η} (stepped : s.act config thread leader place action = some t) :
    Invariant config t := by
  unfold Pool.act at stepped
  split at stepped
  · rw [← Option.some.inj stepped]
    exact inv.enter several found
  · rw [← Option.some.inj stepped]
    exact inv.selected several positive found _
  · rw [← Option.some.inj stepped]
    split
    · exact inv.emit .shutdown rfl
    · exact inv
  · rw [← Option.some.inj stepped]
    exact inv.io_completed several found _
  · rw [← Option.some.inj stepped]
    exact inv.finish several found
  · rw [← Option.some.inj stepped]
    exact inv.await_turn several found
  · split at stepped
    · cases stepped
    · rw [← Option.some.inj stepped]
      exact inv.idle several positive found
  · cases stepped

theorem step_invariant (inv : Invariant config s) (several : 1 < config.sizeMax)
    (positive : 1 ≤ config.sizeIO) {event : Nat × Action η}
    (stepped : s.step config event = some t) : Invariant config t := by
  unfold Pool.step at stepped
  split at stepped
  · cases stepped
  · obtain ⟨current, found, acted⟩ := Option.bind_eq_some_iff.mp stepped
    exact act_invariant inv several positive found acted

theorem start_invariant (positive : 1 ≤ config.sizeIO) :
    Invariant config (Pool.start config : Pool η) := by
  have threads (p : ThreadPoolCurrent η → Bool) :
      (Pool.start config : Pool η).threads.countP p =
        if p ⟨false, .entering⟩ then config.size.toNat else 0 :=
    List.countP_replicate
  have member {current : ThreadPoolCurrent η} (member : current ∈ (Pool.start config).threads) :
      current = ⟨false, .entering⟩ := List.eq_of_mem_replicate member
  refine
    { leaders := ?_, performing := ?_, bounded := ?_, dispatching := ?_, selectors := ?_
      exclusive := ?_, enough := ?_, handed := rfl, intact := rfl, settled := ?_ }
  · rw [threads]
    rfl
  · rw [threads]
    rfl
  · exact Int.le_trans Int.one_nonneg positive
  · rw [threads]
    rfl
  · intro current inside
    rw [member inside]
    exact fun selects => absurd selects Bool.false_ne_true
  · rw [threads]
    exact fun some => absurd some (Nat.lt_irrefl 0)
  · intro _ _
    have populated := config.populated
    change 0 < ((Pool.start config : Pool η).threads.countP ThreadPoolCurrent.pooled : Int)
    rw [threads]
    change 0 < (config.size.toNat : Int)
    omega
  · intro current inside
    rw [member inside]
    exact follower_settled _

def Reachable (config : Config) (s : Pool η) : Prop :=
  Reach (Pool.step config) (fun _ _ => True) (Pool.start config) s

theorem reachable_invariant (several : 1 < config.sizeMax) (positive : 1 ≤ config.sizeIO)
    (reached : Reachable config s) : Invariant config s :=
  Reach.invariant reached (start_invariant positive) fun _ _ _ inv _ stepped =>
    step_invariant inv several positive stepped

/-- What is seen of the pool between two steps. Handlers are handed out one by one, in the order
in which they were ready. -/
structure Orderly (config : Config) (s : Pool η) : Prop where
  leader_iff : (∃ current ∈ s.threads, current.leader = true) ↔ s.promote = false
  one_leader : ∀ (thread other : Nat) (current second : ThreadPoolCurrent η),
    s.threads[thread]? = some current → s.threads[other]? = some second →
      current.leader = true → second.leader = true → thread = other
  performing : s.inUseIO = s.threads.countP ThreadPoolCurrent.performing
  bounds : 0 ≤ s.inUseIO ∧ s.inUseIO ≤ config.sizeIO
  dispatching : s.inUse = s.threads.countP ThreadPoolCurrent.dispatching
  select : ∀ current ∈ s.threads, current.selecting = true →
    current.leader = true ∧ s.inUseIO = 0
  handed : (givens s.history).map Prod.snd ++ s.handlers.drop s.nextHandler = readied s.history
  ready : .notCreated ∉ s.history → s.inUse < config.sizeMax →
    ∃ current ∈ s.threads, current.pooled = true ∧ current.dispatching = false
  intact : s.failed = none

theorem Counts.leader_iff (counts : Counts config s) :
    (∃ current ∈ s.threads, current.leader = true) ↔ s.promote = false := by
  have one := counts.leaders
  rw [← List.countP_pos_iff]
  cases now : s.promote with
  | true =>
      rw [now, if_pos rfl] at one
      exact ⟨fun some => by omega, fun free => absurd free.symm Bool.false_ne_true⟩
  | false =>
      rw [now] at one
      simp only [Bool.false_eq_true, if_false] at one
      exact ⟨fun _ => rfl, fun _ => by omega⟩

theorem Counts.one_leader (counts : Counts config s) {other : Nat}
    (found : s.threads[thread]? = some before) (there : s.threads[other]? = some after)
    (leads : before.leader = true) (also : after.leader = true) : thread = other := by
  by_contra apart
  have fewer := count_changed (b := false) ThreadPoolCurrent.leader ⟨false, .entering⟩ found
    leads rfl
  have kept : (s.threads.set thread ⟨false, .entering⟩)[other]? = some after := by
    rw [List.getElem?_set_ne apart]
    exact there
  have positive := List.countP_pos_iff.mpr ⟨after, List.mem_of_getElem? kept, also⟩
  have one := counts.leaders
  simp only [Bool.false_eq_true, if_false, if_true] at fewer
  split at one <;> omega

theorem exists_spare (below : s.inUse < s.threadCount)
    (count : s.inUse = s.threads.countP ThreadPoolCurrent.dispatching) :
    ∃ current ∈ s.threads, current.pooled = true ∧ current.dispatching = false := by
  by_contra none_
  have every : ∀ current ∈ s.threads, current.pooled = true → current.dispatching = true := by
    intro current member pooled
    cases busy : current.dispatching with
    | true => rfl
    | false => exact absurd ⟨current, member, pooled, busy⟩ none_
  have most := List.countP_mono_left every
  unfold Pool.threadCount at below
  omega

/-- In every state the pool can be in, its leader and its counters are what they should be. -/
theorem leader_follower (several : 1 < config.sizeMax) (positive : 1 ≤ config.sizeIO)
    (reached : Reachable config s) : Orderly config s := by
  have inv := reachable_invariant several positive reached
  constructor
  · exact inv.leader_iff
  · intro thread other current second found there leads also
    exact inv.one_leader found there leads also
  · exact inv.performing
  · refine ⟨?_, inv.bounded⟩
    rw [inv.performing]
    exact Int.natCast_nonneg _
  · exact inv.dispatching
  · intro current member selects
    have some := List.countP_pos_iff.mpr ⟨current, member, selects⟩
    exact ⟨inv.selectors current member selects, (inv.exclusive some).1⟩
  · exact inv.handed
  · intro always below
    exact exists_spare (inv.enough always below) inv.dispatching
  · exact inv.intact

/-- A thread runs one handler and another one leads. -/
theorem two_threads_orderly :
    ∃ s : Pool Nat, s.inUse = 1 ∧ s.inUseIO = 1 ∧
      Orderly (configure 2 (some 4) 0 60 2 false) s := by
  have ran : ∃ s, runAll (Pool.step (configure 2 (some 4) 0 60 2 false))
      [(0, .enter), (0, .selected [7, 8, 9]), (1, .enter), (0, .ioCompleted true)]
      (Pool.start (configure 2 (some 4) 0 60 2 false)) = some s ∧ s.inUse = 1 ∧ s.inUseIO = 1 := by
    refine ⟨_, rfl, ?_, ?_⟩ <;> rfl
  obtain ⟨s, ran, use, io⟩ := ran
  exact ⟨s, use, io, leader_follower (by decide) (by decide)
    (reach_of_run ran fun _ _ _ => trivial)⟩

end IceTouch.Threading
