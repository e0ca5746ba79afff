import IceTouch.Sequences.SizeCheck
import Mathlib.Algebra.GroupWithZero.Nat

/-!
# The estimate of the sequence-size check

`_startSeq` and `_minSeqSize` say how far the sequences read so far reach at least. What the
checks do to them depends only on where the sequences begin and how many bytes they announce.
`checks` is a run of checks over a list of announcements, in the arithmetic of the source;
`walk` is the same run over natural numbers. A run that starts again at some sequence, because
the estimate lies behind it, goes on like a run on a new stream; until then every sequence is
added to what was announced before, and the run fails when such a sum lies beyond the buffer
and is still a 32-bit number.
-/

namespace IceTouch.Sequences

open InStream Transfer

/-- A sequence announces `bytes` bytes from `position` on. -/
structure Announcement where
  position : Nat
  bytes : Nat
deriving DecidableEq, Repr

structure Estimate where
  startSeq : Int
  minSeqSize : Int
deriving DecidableEq, Repr

/-- `readAndCheckSeqSize` once the size has been read. -/
def check (limit : Nat) (estimate : Estimate) (next : Announcement) : Option Estimate :=
  let needed := wrap32 next.bytes
  let after : Estimate :=
    if estimate.startSeq = -1 ∨ estimate.startSeq + estimate.minSeqSize < next.position then
      ⟨wrap32 next.position, needed⟩
    else
      ⟨estimate.startSeq, wrap32 (estimate.minSeqSize + needed)⟩
  if wrap32 limit < wrap32 (after.startSeq + after.minSeqSize) then none else some after

/-- The checks over a list of announcements in a buffer of `limit` bytes. -/
def checks (limit : Nat) : Estimate → List Announcement → Option Estimate
  | estimate, [] => some estimate
  | estimate, next :: rest =>
      match check limit estimate next with
      | none => none
      | some after => checks limit after rest

def extended (estimate : Option Nat) (next : Announcement) : Nat :=
  match estimate with
  | none => next.position + next.bytes
  | some reached =>
      if reached < next.position then next.position + next.bytes else reached + next.bytes

def walk (limit : Nat) : Option Nat → List Announcement → Option (Option Nat)
  | estimate, [] => some estimate
  | estimate, next :: rest =>
      if limit < extended estimate next then none
      else walk limit (some (extended estimate next)) rest

/-- The estimates while sequences are added to `reached`: all those that begin no later. -/
def sums (reached : Nat) : List Announcement → List Nat
  | [] => []
  | next :: rest =>
      if reached < next.position then []
      else (reached + next.bytes) :: sums (reached + next.bytes) rest

def total (calls : List Announcement) : Nat := (calls.map Announcement.bytes).sum

section Walks

variable {limit low high : Nat}

theorem checks_append (estimate : Estimate) (left right : List Announcement) :
    checks limit estimate (left ++ right) =
      (checks limit estimate left).bind fun middle => checks limit middle right := by
  induction left generalizing estimate with
  | nil => rfl
  | cons next rest ih =>
      rw [List.cons_append, checks, checks]
      cases check limit estimate next with
      | none => rfl
      | some after => exact ih after

theorem walk_append (estimate : Option Nat) (left right : List Announcement) :
    walk limit estimate (left ++ right) =
      (walk limit estimate left).bind fun middle => walk limit middle right := by
  induction left generalizing estimate with
  | nil => rfl
  | cons next rest ih =>
      rw [List.cons_append, walk, walk]
      split
      · rfl
      · exact ih _

theorem extended_mono (less : low ≤ high) (next : Announcement) :
    extended (some low) next ≤ extended (some high) next := by
  simp only [extended]
  split <;> split <;> omega

theorem extended_least (estimate : Option Nat) (next : Announcement) :
    next.position + next.bytes ≤ extended estimate next := by
  cases estimate with
  | none => exact le_rfl
  | some reached =>
      simp only [extended]
      split <;> omega

theorem walk_mono (calls : List Announcement) (less : low ≤ high)
    (passes : (walk limit (some high) calls).isSome = true) :
    (walk limit (some low) calls).isSome = true := by
  induction calls generalizing low high with
  | nil => rfl
  | cons next rest ih =>
      have smaller := extended_mono less next
      rw [walk] at passes ⊢
      by_cases fits : limit < extended (some high) next
      · rw [if_pos fits] at passes
        cases passes
      · rw [if_neg fits] at passes
        rw [if_neg (by omega)]
        exact ih smaller passes

theorem sums_least {reached sum : Nat} (calls : List Announcement) (member : sum ∈ sums reached calls) :
    reached ≤ sum := by
  induction calls generalizing reached with
  | nil => cases member
  | cons next rest ih =>
      rw [sums] at member
      split at member
      · cases member
      · rcases List.mem_cons.mp member with rfl | later
        · exact Nat.le_add_right _ _
        · exact (Nat.le_add_right _ _).trans (ih later)

theorem walk_adds {reached : Nat} {final : Option Nat} (calls : List Announcement)
    (beyond : ∀ call ∈ calls, call.position ≤ reached)
    (walked : walk limit (some reached) calls = some final) : final = some (reached + total calls) := by
  induction calls generalizing reached with
  | nil =>
      cases walked
      rfl
  | cons next rest ih =>
      have added : extended (some reached) next = reached + next.bytes :=
        if_neg (Nat.not_lt.mpr (beyond next List.mem_cons_self))
      rw [walk, added] at walked
      split at walked
      · cases walked
      · have later := ih (fun call member =>
          (beyond call (List.mem_cons_of_mem _ member)).trans (Nat.le_add_right _ _)) walked
        rw [later, total, total, List.map_cons, List.sum_cons, Nat.add_assoc]

end Walks

section Checks

variable {limit : Nat} (small : limit < 2 ^ 31)

include small in
theorem wrap_limit : wrap32 limit = limit := wrap32_of_lt (by omega) (by exact_mod_cast small)

variable {next : Announcement}

include small in
theorem check_restarts {estimate : Estimate}
    (behind : estimate.startSeq = -1 ∨ estimate.startSeq + estimate.minSeqSize < next.position)
    (fits : next.position + next.bytes ≤ limit) :
    check limit estimate next = some ⟨next.position, next.bytes⟩ := by
  have position : wrap32 (next.position : Int) = next.position := wrap32_of_lt (by omega) (by omega)
  have bytes : wrap32 (next.bytes : Int) = next.bytes := wrap32_of_lt (by omega) (by omega)
  have sum : wrap32 ((next.position : Int) + next.bytes) = (next.position : Int) + next.bytes :=
    wrap32_of_lt (by omega) (by omega)
  simp only [check, if_pos behind, position, bytes, sum, wrap_limit small]
  rw [if_neg (by omega)]

variable {start least : Nat}

include small in
/-- A check that adds to the estimate: the sum passes if it is in the buffer, or if it has
wrapped. -/
theorem check_adds (starts : start < 2 ^ 31) (bytesSmall : next.bytes < 2 ^ 31)
    (sum : start + least + next.bytes < 2 ^ 32) (ahead : next.position ≤ start + least) :
    check limit ⟨start, least⟩ next =
      if limit < start + least + next.bytes ∧ start + least + next.bytes < 2 ^ 31 then none
      else some ⟨start, wrap32 ((least : Int) + next.bytes)⟩ := by
  have kept : ¬((start : Int) = -1 ∨ (start : Int) + least < next.position) := by omega
  have bytes : wrap32 (next.bytes : Int) = next.bytes := wrap32_of_lt (by omega) (by omega)
  simp only [check, if_neg kept, bytes, wrap32_add_right, wrap_limit small, ← Int.add_assoc]
  by_cases within : start + least + next.bytes < 2 ^ 31
  · have same : wrap32 ((start : Int) + least + next.bytes) = (start : Int) + least + next.bytes :=
      wrap32_of_lt (by omega) (by omega)
    rw [same]
    by_cases beyond : limit < start + least + next.bytes
    · rw [if_pos (by omega), if_pos ⟨beyond, within⟩]
    · rw [if_neg (by omega), if_neg (by omega)]
  · have negative : wrap32 ((start : Int) + least + next.bytes) < 0 := by
      rw [wrap32_bmod, Int.bmod_def]
      have whole : ((start : Int) + least + next.bytes) % (2 ^ 32 : Nat) = start + least + next.bytes :=
        Int.emod_eq_of_lt (by omega) (by norm_num; omega)
      rw [whole, if_neg (by norm_num; omega)]
      norm_num
      omega
    rw [if_neg (by omega), if_neg (by omega)]

include small in
theorem checks_walk {final : Option Nat} (calls : List Announcement) (room : start + least ≤ limit)
    (walked : walk limit (some (start + least)) calls = some final) :
    ∃ last size : Nat, checks limit ⟨start, least⟩ calls = some ⟨last, size⟩ ∧ final = some (last + size) := by
  induction calls generalizing start least with
  | nil =>
      cases walked
      exact ⟨start, least, rfl, rfl⟩
  | cons next rest ih =>
      rw [walk] at walked
      by_cases fits : limit < extended (some (start + least)) next
      · rw [if_pos fits] at walked
        cases walked
      · rw [if_neg fits] at walked
        rw [checks]
        by_cases behind : start + least < next.position
        · have earlier : (start : Int) + least < next.position := by exact_mod_cast behind
          have restarted : extended (some (start + least)) next = next.position + next.bytes :=
            if_pos behind
          rw [restarted] at fits walked
          rw [check_restarts small (Or.inr earlier) (Nat.le_of_not_lt fits)]
          exact ih (Nat.le_of_not_lt fits) walked
        · have added : extended (some (start + least)) next = start + least + next.bytes :=
            if_neg behind
          rw [added] at fits walked
          have same : wrap32 ((least : Int) + next.bytes) = ((least + next.bytes : Nat) : Int) := by
            rw [Nat.cast_add]
            exact wrap32_of_lt (by omega) (by omega)
          rw [check_adds small (by omega) (by omega) (by omega) (Nat.le_of_not_lt behind),
            if_neg (by omega), same]
          rw [Nat.add_assoc] at fits walked
          exact ih (Nat.le_of_not_lt fits) walked

include small in
theorem checks_of_walk (calls : List Announcement) (room : start + least ≤ limit)
    (passes : (walk limit (some (start + least)) calls).isSome = true) :
    (checks limit ⟨start, least⟩ calls).isSome = true := by
  obtain ⟨final, walked⟩ := Option.isSome_iff_exists.mp passes
  obtain ⟨last, size, passed, -⟩ := checks_walk small calls room walked
  rw [passed]
  rfl

/-- An estimate that has wrapped: it is a sum beyond the 32-bit numbers, or it has become
negative and is forgotten at the next sequence. -/
def Wrapped (estimate : Estimate) (calls : List Announcement) : Prop :=
  (∃ start least : Nat, estimate = ⟨start, least⟩ ∧ start < 2 ^ 31 ∧ least < 2 ^ 31 ∧
    2 ^ 31 ≤ start + least ∧ start + least + total calls < 2 ^ 32) ∨
  estimate.startSeq + estimate.minSeqSize < 0

theorem wrapped_sum {rest : List Announcement} (starts : start < 2 ^ 31)
    (leastSmall : least < 2 ^ 31) (bytesSmall : next.bytes < 2 ^ 31)
    (large : 2 ^ 31 ≤ start + least + next.bytes)
    (sum : start + least + total (next :: rest) < 2 ^ 32) :
    Wrapped ⟨start, wrap32 ((least : Int) + next.bytes)⟩ rest := by
  rw [total, List.map_cons, List.sum_cons] at sum
  by_cases within : least + next.bytes < 2 ^ 31
  · have same : wrap32 ((least : Int) + next.bytes) = ((least + next.bytes : Nat) : Int) := by
      rw [Nat.cast_add]
      exact wrap32_of_lt (by omega) (by omega)
    rw [same]
    refine Or.inl ⟨start, least + next.bytes, rfl, starts, within, by omega, ?_⟩
    rw [total]
    omega
  · have negative : wrap32 ((least : Int) + next.bytes) = (least : Int) + next.bytes - 2 ^ 32 := by
      rw [wrap32_bmod, Int.bmod_def]
      have whole : ((least : Int) + next.bytes) % (2 ^ 32 : Nat) = least + next.bytes :=
        Int.emod_eq_of_lt (by omega) (by norm_num; omega)
      rw [whole, if_neg (by norm_num; omega)]
      norm_num
    right
    simp only [negative]
    omega

include small in
theorem checks_of_wrapped {low : Nat} {estimate : Estimate} (calls : List Announcement)
    (wrapped : Wrapped estimate calls) (passes : (walk limit (some low) calls).isSome = true) :
    (checks limit estimate calls).isSome = true := by
  induction calls generalizing low estimate with
  | nil => rfl
  | cons next rest ih =>
      rw [walk] at passes
      have least := extended_least (some low) next
      by_cases fits : limit < extended (some low) next
      · rw [if_pos fits] at passes
        cases passes
      · rw [if_neg fits] at passes
        rw [checks]
        rcases wrapped with ⟨start, size, rfl, starts, sizeSmall, large, sum⟩ | negative
        · have whole := sum
          rw [total, List.map_cons, List.sum_cons] at whole
          rw [check_adds small starts (by omega) (by omega) (by omega), if_neg (by omega)]
          exact ih (wrapped_sum starts sizeSmall (by omega) (by omega) sum) passes
        · rw [check_restarts small (Or.inr (by omega)) (by omega)]
          exact checks_of_walk small rest (by omega) (walk_mono rest least passes)

include small in
/-- Exactly when the sequences of a value pass that come after an estimate of `start + least`, if
they pass on a new stream. -/
theorem checks_some_iff {low : Nat} (calls : List Announcement) (less : low ≤ start + least)
    (unwrapped : start + least < 2 ^ 31) (few : total calls ≤ limit)
    (passes : (walk limit (some low) calls).isSome = true) :
    (checks limit ⟨start, least⟩ calls).isSome = true ↔
      ∀ sum ∈ sums (start + least) calls, sum ≤ limit ∨ 2 ^ 31 ≤ sum := by
  have bound : start + least + total calls < 2 ^ 32 := by omega
  clear few
  induction calls generalizing start least low with
  | nil => exact ⟨fun _ => nofun, fun _ => rfl⟩
  | cons next rest ih =>
      have lower := extended_least (some low) next
      have whole := bound
      rw [total, List.map_cons, List.sum_cons] at whole
      rw [walk] at passes
      by_cases fits : limit < extended (some low) next
      · rw [if_pos fits] at passes
        cases passes
      rw [if_neg fits] at passes
      rw [checks, sums]
      by_cases behind : start + least < next.position
      · have earlier : (start : Int) + least < next.position := by exact_mod_cast behind
        rw [if_pos behind, check_restarts small (Or.inr earlier) (by omega)]
        refine ⟨fun _ => nofun, fun _ => ?_⟩
        exact checks_of_walk small rest (by omega) (walk_mono rest lower passes)
      · rw [if_neg behind]
        rw [check_adds small (by omega) (by omega) (by omega) (Nat.le_of_not_lt behind)]
        by_cases fails : limit < start + least + next.bytes ∧ start + least + next.bytes < 2 ^ 31
        · rw [if_pos fails]
          refine ⟨nofun, fun clear => ?_⟩
          have first := clear _ List.mem_cons_self
          omega
        · rw [if_neg fails]
          by_cases wraps : 2 ^ 31 ≤ start + least + next.bytes
          · constructor
            · intro _ sum member
              rcases List.mem_cons.mp member with rfl | later
              · exact Or.inr wraps
              · exact Or.inr (wraps.trans (sums_least rest later))
            · intro _
              exact checks_of_wrapped small rest
                (wrapped_sum (by omega) (by omega) (by omega) wraps bound) passes
          · have same : wrap32 ((least : Int) + next.bytes) = ((least + next.bytes : Nat) : Int) := by
              rw [Nat.cast_add]
              exact wrap32_of_lt (by omega) (by omega)
            have smaller : extended (some low) next ≤ start + (least + next.bytes) := by
              simp only [extended]
              split <;> omega
            have later := ih smaller (by omega) passes (by rw [total]; omega)
            rw [same, List.forall_mem_cons, Nat.add_assoc]
            constructor
            · exact fun passed => ⟨Or.inl (by omega), later.mp passed⟩
            · exact fun clear => later.mpr clear.2

end Checks

end IceTouch.Sequences
