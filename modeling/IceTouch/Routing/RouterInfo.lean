import IceTouch.Library.Machine
import IceTouch.Strings.Identities
import Mathlib.Data.Finset.Erase
import Mathlib.Data.Finset.Insert
import Mathlib.Data.Finset.SDiff
import Mathlib.Data.Multiset.Count
import Mathlib.Algebra.BigOperators.Group.List.Basic

/-!
# The client's copy of the routing table

`RouterInfo::addProxy`, `addAndEvictProxies` and `clearCache`, with a router that holds a set
of identities. A call is asked, then handled by the router, which may evict identities it
holds, and then its response is processed; calls overtake each other at both stages.
-/

namespace IceTouch.Routing

open Identities Machine

structure RouterInfo where
  identities : Finset Identity
  evictedIdentities : Multiset Identity
deriving DecidableEq

/-- The first half of `addAndEvictProxies`. -/
def RouterInfo.addOne (info : RouterInfo) (ident : Identity) : RouterInfo :=
  if ident ∈ info.evictedIdentities then
    { info with evictedIdentities := info.evictedIdentities.erase ident }
  else
    { info with identities := insert ident info.identities }

def RouterInfo.evictOne (info : RouterInfo) (ident : Identity) : RouterInfo :=
  if ident ∈ info.identities then
    { info with identities := info.identities.erase ident }
  else
    { info with evictedIdentities := ident ::ₘ info.evictedIdentities }

def RouterInfo.addAndEvictProxies (info : RouterInfo) (ident : Identity)
    (evicted : List Identity) : RouterInfo :=
  evicted.foldl RouterInfo.evictOne (info.addOne ident)

def RouterInfo.clearCache (info : RouterInfo) (ident : Identity) : RouterInfo :=
  { info with identities := info.identities.erase ident }

structure Response where
  ident : Identity
  evicted : List Identity
deriving DecidableEq

structure State where
  info : RouterInfo
  /-- What the router holds. -/
  table : Finset Identity
  /-- Calls the router has not handled. -/
  asked : List Identity
  /-- Responses that have not been processed. -/
  answered : List Response
deriving DecidableEq

inductive Event where
  /-- A call of `addProxy`. -/
  | addProxy (ident : Identity)
  /-- The router handles a call and evicts some of the identities it holds. -/
  | handle (call : Nat) (evicted : List Identity)
  /-- A call fails before the router gets to handle it. -/
  | fail (call : Nat)
  /-- A response is processed. -/
  | respond (call : Nat)
  | clearCache (ident : Identity)
deriving DecidableEq

def step : Event → State → Option State
  | .addProxy ident, state =>
      if ident ∈ state.info.identities then some state
      else some { state with asked := state.asked ++ [ident] }
  | .handle call evicted, state => do
      let ident ← state.asked[call]?
      let held := insert ident state.table
      if evicted.Nodup ∧ evicted.toFinset ⊆ held then
        some { state with
          table := held \ evicted.toFinset
          asked := state.asked.eraseIdx call
          answered := state.answered ++ [{ ident := ident, evicted := evicted }] }
      else none
  | .fail call, state =>
      if call < state.asked.length then
        some { state with asked := state.asked.eraseIdx call }
      else none
  | .respond call, state => do
      let response ← state.answered[call]?
      some { state with
        info := state.info.addAndEvictProxies response.ident response.evicted
        answered := state.answered.eraseIdx call }
  | .clearCache ident, state => some { state with info := state.info.clearCache ident }

def start (table : Finset Identity) : State where
  info := { identities := ∅, evictedIdentities := 0 }
  table := table
  asked := []
  answered := []

/-- How often the client takes the identity to be in the router, early evictions deducted. -/
def RouterInfo.known (info : RouterInfo) (ident : Identity) : Int :=
  (if ident ∈ info.identities then 1 else 0) - info.evictedIdentities.count ident

def Response.credit (ident : Identity) (response : Response) : Int :=
  (if response.ident = ident then 1 else 0) - response.evicted.count ident

def State.balance (state : State) (ident : Identity) : Int :=
  state.info.known ident + (state.answered.map (Response.credit ident)).sum

/-- An identity is not known and evicted early at once. -/
def RouterInfo.Consistent (info : RouterInfo) : Prop :=
  ∀ ident ∈ info.identities, ident ∉ info.evictedIdentities

/-- The router evicts an identity, and the client is left with a count of it. -/
def LeavesCount (event : Event) (state : State) : Prop :=
  match event with
  | .handle call evicted =>
      ∃ added ∈ state.asked[call]?, ∃ ident ∈ evicted,
        2 ≤ state.balance ident + if added = ident then 1 else 0
  | _ => False

instance (event : Event) (state : State) : Decidable (LeavesCount event state) := by
  unfold LeavesCount
  cases event <;> infer_instance

variable {info : RouterInfo} {state : State}

theorem add_one_consistent (consistent : info.Consistent) (ident : Identity) :
    (info.addOne ident).Consistent := by
  unfold RouterInfo.addOne
  split
  · intro other inside early
    exact consistent other inside (Multiset.mem_of_mem_erase early)
  · next notEarly =>
      intro other inside early
      rcases Finset.mem_insert.mp inside with same | old
      · rw [same] at early
        exact notEarly early
      · exact consistent other old early

theorem evict_one_consistent (consistent : info.Consistent) (ident : Identity) :
    (info.evictOne ident).Consistent := by
  unfold RouterInfo.evictOne
  split
  · intro other inside
    exact consistent other (Finset.mem_of_mem_erase inside)
  · next absent =>
      intro other inside early
      rcases Multiset.mem_cons.mp early with same | old
      · rw [same] at inside
        exact absent inside
      · exact consistent other inside old

theorem add_one_known (info : RouterInfo) (ident other : Identity) :
    (info.addOne ident).known other ≤ info.known other + if ident = other then 1 else 0 := by
  unfold RouterInfo.addOne RouterInfo.known
  by_cases same : ident = other
  · subst same
    split
    · next early =>
        have counted := Multiset.count_erase_self ident info.evictedIdentities
        have positive := Multiset.count_pos.mpr early
        simp only [if_true]
        omega
    · simp only [Finset.mem_insert, true_or, if_true]
      split <;> omega
  · have different : other ≠ ident := fun eq => same eq.symm
    split
    · simp only [Multiset.count_erase_of_ne different]
      omega
    · simp only [Finset.mem_insert, different, false_or]
      omega

theorem evict_one_known (info : RouterInfo) (ident other : Identity) :
    (info.evictOne ident).known other = info.known other - if ident = other then 1 else 0 := by
  unfold RouterInfo.evictOne RouterInfo.known
  by_cases same : ident = other
  · subst same
    split
    · next inside =>
        simp only [Finset.mem_erase, ne_eq, not_true_eq_false, false_and, if_false, inside, if_true]
        omega
    · simp only [Multiset.count_cons_self, if_true]
      omega
  · have different : other ≠ ident := fun eq => same eq.symm
    split
    · simp only [Finset.mem_erase, different, ne_eq, not_false_eq_true, true_and]
      omega
    · simp only [Multiset.count_cons_of_ne different]
      omega

theorem evict_all_known (evicted : List Identity) (info : RouterInfo) (other : Identity) :
    (evicted.foldl RouterInfo.evictOne info).known other =
      info.known other - evicted.count other := by
  induction evicted generalizing info with
  | nil => simp
  | cons ident rest ih =>
      rw [List.foldl_cons, ih, evict_one_known, List.count_cons]
      by_cases same : ident = other
      · simp only [same, if_true, beq_self_eq_true]
        omega
      · simp only [same, if_false, beq_iff_eq]
        omega

theorem evict_all_consistent (evicted : List Identity) (consistent : info.Consistent) :
    (evicted.foldl RouterInfo.evictOne info).Consistent := by
  induction evicted generalizing info with
  | nil => exact consistent
  | cons ident rest ih => exact ih (evict_one_consistent consistent ident)

theorem add_and_evict_known (info : RouterInfo) (response : Response) (other : Identity) :
    (info.addAndEvictProxies response.ident response.evicted).known other ≤
      info.known other + response.credit other := by
  have added := add_one_known info response.ident other
  rw [RouterInfo.addAndEvictProxies, evict_all_known, Response.credit]
  omega

theorem clear_cache_known (info : RouterInfo) (ident other : Identity) :
    (info.clearCache ident).known other ≤ info.known other := by
  unfold RouterInfo.clearCache RouterInfo.known
  by_cases inside : other ∈ info.identities.erase ident
  · simp only [if_pos inside, if_pos (Finset.mem_of_mem_erase inside)]
    exact le_refl _
  · simp only [if_neg inside]
    split <;> omega

structure Covered (state : State) : Prop where
  consistent : state.info.Consistent
  /-- What the router does not hold the client does not count. -/
  held : ∀ ident ∉ state.table, state.balance ident ≤ 0

theorem start_covered (table : Finset Identity) : Covered (start table) where
  consistent := fun _ inside => absurd inside (Finset.notMem_empty _)
  held := fun ident _ => by
    simp only [State.balance, start, RouterInfo.known, Finset.notMem_empty, if_false,
      Multiset.count_zero, List.map_nil, List.sum_nil]
    omega

theorem sum_erase {response : Response} {responses : List Response} {call : Nat}
    (here : responses[call]? = some response) (ident : Identity) :
    (responses.map (Response.credit ident)).sum =
      response.credit ident + ((responses.eraseIdx call).map (Response.credit ident)).sum := by
  obtain ⟨bound, value⟩ := List.getElem?_eq_some_iff.mp here
  have perm := List.getElem_cons_eraseIdx_perm bound
  rw [value] at perm
  rw [← (perm.map (Response.credit ident)).sum_eq, List.map_cons, List.sum_cons]

theorem balance_answered (state : State) (table : Finset Identity) (asked : List Identity)
    (response : Response) (other : Identity) :
    State.balance { state with
      table := table, asked := asked, answered := state.answered ++ [response] } other =
      state.balance other + response.credit other := by
  simp only [State.balance, List.map_append, List.map_cons, List.map_nil, List.sum_append,
    List.sum_cons, List.sum_nil, add_zero, add_assoc]

theorem handle_covered {after : State} {call : Nat} {evicted : List Identity}
    (covered : Covered state) (careful : ¬ LeavesCount (.handle call evicted) state)
    (stepped : step (.handle call evicted) state = some after) : Covered after := by
  simp only [step, Option.bind_eq_bind, Option.bind_eq_some_iff] at stepped
  obtain ⟨ident, isAsked, stepped⟩ := stepped
  split at stepped
  · next legal =>
      cases stepped
      refine ⟨covered.consistent, fun other absent => ?_⟩
      rw [balance_answered, Response.credit]
      simp only [Finset.mem_sdiff, Finset.mem_insert, List.mem_toFinset, not_and, not_not]
        at absent
      by_cases gone : other ∈ evicted
      · have once : 0 < evicted.count other := List.count_pos_iff.mpr gone
        have few : ¬ 2 ≤ state.balance other + if ident = other then 1 else 0 :=
          fun many => careful ⟨ident, isAsked, other, gone, many⟩
        dsimp only
        omega
      · have neither : ¬ (other = ident ∨ other ∈ state.table) := fun held => gone (absent held)
        rw [not_or] at neither
        have bound := covered.held other neither.2
        have different : ident ≠ other := fun eq => neither.1 eq.symm
        dsimp only
        rw [if_neg different]
        omega
  · cases stepped

theorem step_covered {event : Event} {after : State} (covered : Covered state)
    (careful : ¬ LeavesCount event state) (stepped : step event state = some after) :
    Covered after := by
  cases event with
  | addProxy ident =>
      simp only [step] at stepped
      split at stepped
      · cases stepped
        exact covered
      · cases stepped
        exact ⟨covered.consistent, covered.held⟩
  | handle call evicted => exact handle_covered covered careful stepped
  | fail call =>
      simp only [step] at stepped
      split at stepped
      · cases stepped
        exact ⟨covered.consistent, covered.held⟩
      · cases stepped
  | respond call =>
      simp only [step, Option.bind_eq_bind, Option.bind_eq_some_iff] at stepped
      obtain ⟨response, isAnswered, stepped⟩ := stepped
      cases stepped
      refine ⟨evict_all_consistent _ (add_one_consistent covered.consistent _), fun other absent => ?_⟩
      have bound := covered.held other absent
      have known := add_and_evict_known state.info response other
      have sum := sum_erase isAnswered other
      simp only [State.balance] at bound ⊢
      omega
  | clearCache ident =>
      simp only [step, Option.some.injEq] at stepped
      cases stepped
      refine ⟨fun other inside => covered.consistent other (Finset.mem_of_mem_erase inside),
        fun other absent => ?_⟩
      have bound := covered.held other absent
      have known := clear_cache_known state.info ident other
      simp only [State.balance] at bound ⊢
      omega

/-- The states of a run in which every eviction ends the client's count of the identity. -/
abbrev Reached (table : Finset Identity) : State → Prop :=
  Reach step (fun event state => ¬ LeavesCount event state) (start table)

theorem reached_covered {table : Finset Identity} (reached : Reached table state) : Covered state :=
  reached.invariant (start_covered table) fun _ _ _ covered careful stepped =>
    step_covered covered careful stepped

/-- Once all responses have been processed the router holds what the client believes it to
hold. -/
theorem router_table_not_behind {table : Finset Identity} {state : State}
    (reached : Reached table state) (processed : state.answered = []) :
    state.info.identities ⊆ state.table := by
  intro ident believed
  have covered := reached_covered reached
  by_contra evicted
  have bound := covered.held ident evicted
  have early : state.info.evictedIdentities.count ident = 0 :=
    Multiset.count_eq_zero.mpr (covered.consistent ident believed)
  simp only [State.balance, RouterInfo.known, processed, List.map_nil, List.sum_nil, if_pos believed,
    early] at bound
  omega

def printer : Identity := { name := [97], category := [] }

def reader : Identity := { name := [98], category := [] }

/-- The notice that the first identity has been evicted overtakes the response to its addition,
and two calls add the second. -/
def overtakenRun : List Event :=
  [.addProxy printer, .addProxy reader, .addProxy reader, .handle 0 [], .handle 0 [printer],
    .handle 0 [], .respond 1, .respond 0, .respond 0]

def overtakenEnd : State where
  info := { identities := {reader}, evictedIdentities := 0 }
  table := {reader}
  asked := []
  answered := []

theorem overtaken_run_not_behind :
    runAll step overtakenRun (start ∅) = some overtakenEnd ∧
      overtakenEnd.info.identities ⊆ overtakenEnd.table := by
  have ran : runAll (checked step fun event state => decide (¬ LeavesCount event state))
      overtakenRun (start ∅) = some overtakenEnd := by decide
  have reached : Reached ∅ overtakenEnd :=
    reach_of_checked (fun _ _ passed => of_decide_eq_true passed) ran
  exact ⟨by decide, router_table_not_behind reached rfl⟩

/-- Two calls add the same identity, the router evicts it for a third, and the notice is
processed between the two responses. -/
def overlappedRun : List Event :=
  [.addProxy printer, .addProxy printer, .addProxy reader, .handle 0 [], .handle 0 [],
    .handle 0 [printer], .respond 0, .respond 1, .respond 0]

def overlappedEnd : State where
  info := { identities := {printer, reader}, evictedIdentities := 0 }
  table := {reader}
  asked := []
  answered := []

theorem overlapped_run_behind :
    runAll step overlappedRun (start ∅) = some overlappedEnd ∧ overlappedEnd.answered = [] ∧
      printer ∈ overlappedEnd.info.identities ∧ printer ∉ overlappedEnd.table := by
  have ran : runAll step overlappedRun (start ∅) = some overlappedEnd := by decide
  exact ⟨ran, rfl, by decide, by decide⟩

end IceTouch.Routing
