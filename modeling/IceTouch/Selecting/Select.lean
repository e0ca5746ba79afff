import IceTouch.Selecting.Sets

/-!
# The sets of select

Three sets of descriptors for reading, writing and errors, the interrupt pipe in the first, and
a map from the descriptors to the handlers. A set has room for `FD_SETSIZE` descriptors, and
`FD_SET` does nothing where it is full.
-/

namespace IceTouch.Selecting

/-- The descriptors of an `fd_set`. -/
abbrev FdSet := List Socket

def fdSet (fdSetSize : Nat) (socket : Socket) (set : FdSet) : FdSet :=
  if socket ∈ set then set
  else if set.length < fdSetSize then set ++ [socket]
  else set

def fdClr (socket : Socket) (set : FdSet) : FdSet := set.erase socket

structure SelectSets (η : Type) where
  readFdSet : FdSet
  writeFdSet : FdSet
  errorFdSet : FdSet
  handlers : Socket → Option η

namespace SelectSets

variable {η : Type}

def start (fdIntrRead : Socket) : SelectSets η where
  readFdSet := [fdIntrRead]
  writeFdSet := []
  errorFdSet := []
  handlers := fun _ => none

def store (fdSetSize : Nat) (fd : η → Socket) (handler : η) (status : SocketOperation)
    (sets : SelectSets η) : SelectSets η :=
  let put (condition : Bool) (set : FdSet) :=
    if condition then fdSet fdSetSize (fd handler) set else fdClr (fd handler) set
  if status ≠ 0 then
    { readFdSet := put (has status operationRead) sets.readFdSet
      -- Once for `SocketOperationWrite`, and once for `SocketOperationConnect`.
      writeFdSet :=
        put (has status operationConnect) (put (has status operationWrite) sets.writeFdSet)
      errorFdSet := put (has status operationConnect) sets.errorFdSet
      handlers := Function.update sets.handlers (fd handler) (some handler) }
  else
    { readFdSet := fdClr (fd handler) sets.readFdSet
      writeFdSet := fdClr (fd handler) sets.writeFdSet
      errorFdSet := fdClr (fd handler) sets.errorFdSet
      handlers := Function.update sets.handlers (fd handler) none }

variable [DecidableEq η]

/-- The set has the handlers that are watched for an operation, and else at most one descriptor,
that of the interrupt pipe. -/
structure Watches (fd : η → Socket) (used : Finset η) (extra : Socket)
    (operation : SocketOperation) (statuses : η → SocketOperation) (set : FdSet) : Prop where
  mem_iff : ∀ handler, fd handler ∈ set ↔ has (statuses handler) operation = true
  nodup : set.Nodup
  bounded : set.toFinset ⊆ insert extra (used.image fd)

structure Agrees (fd : η → Socket) (used : Finset η) (extra : Socket)
    (statuses : η → SocketOperation) (sets : SelectSets η) : Prop where
  read : Watches fd used extra operationRead statuses sets.readFdSet
  write : Watches fd used extra operationWrite statuses sets.writeFdSet
  error : Watches fd used extra operationConnect statuses sets.errorFdSet
  handlers : ∀ handler, sets.handlers (fd handler) =
    if statuses handler = 0 then none else some handler

variable {fd : η → Socket} {used : Finset η} {extra : Socket} {operation : SocketOperation}
  {statuses : η → SocketOperation} {set : FdSet} {handler : η} {fdSetSize : Nat}

omit [DecidableEq η] in
theorem Watches.room (watches : Watches fd used extra operation statuses set)
    (enough : used.card < fdSetSize) (inside : handler ∈ used) (outside : fd handler ∉ set) :
    set.length < fdSetSize := by
  have within : set.toFinset ⊆ (insert extra (used.image fd)).erase (fd handler) := by
    intro socket member
    refine Finset.mem_erase.mpr ⟨?_, watches.bounded member⟩
    intro same
    rw [same, List.mem_toFinset] at member
    exact outside member
  have here : fd handler ∈ insert extra (used.image fd) :=
    Finset.mem_insert_of_mem (Finset.mem_image_of_mem fd inside)
  have size := Finset.card_le_card within
  rw [Finset.card_erase_of_mem here, List.toFinset_card_of_nodup watches.nodup] at size
  have inserted := Finset.card_insert_le extra (used.image fd)
  have image := Finset.card_image_le (s := used) (f := fd)
  omega

variable {status : SocketOperation}

section

variable (watches : Watches fd used extra operation statuses set)

include watches

theorem Watches.added (distinct : Function.Injective fd) (enough : used.card < fdSetSize)
    (inside : handler ∈ used) (asked : has status operation = true) :
    Watches fd used extra operation (Function.update statuses handler status)
      (fdSet fdSetSize (fd handler) set) := by
  have member : ∀ socket, socket ∈ fdSet fdSetSize (fd handler) set ↔
      socket = fd handler ∨ socket ∈ set := by
    intro socket
    unfold fdSet
    split
    · next known =>
        constructor
        · exact .inr
        · intro either
          obtain same | old := either
          · rw [same]
            exact known
          · exact old
    · next unknown =>
        rw [if_pos (watches.room enough inside unknown)]
        simp [or_comm]
  constructor
  · intro other
    rw [member]
    by_cases same : other = handler
    · rw [same, Function.update_self, asked]
      simp
    · rw [Function.update_of_ne same, ← watches.mem_iff other]
      simp [distinct.ne same]
  · unfold fdSet
    split
    · exact watches.nodup
    · next unknown =>
        split
        · exact watches.nodup.append (List.nodup_singleton _) (by simpa using unknown)
        · exact watches.nodup
  · intro socket there
    rw [List.mem_toFinset, member] at there
    obtain same | old := there
    · rw [same]
      exact Finset.mem_insert_of_mem (Finset.mem_image_of_mem fd inside)
    · exact watches.bounded (List.mem_toFinset.mpr old)

theorem Watches.cleared (distinct : Function.Injective fd) (unasked : has status operation = false) :
    Watches fd used extra operation (Function.update statuses handler status)
      (fdClr (fd handler) set) := by
  constructor
  · intro other
    rw [fdClr, watches.nodup.mem_erase_iff]
    by_cases same : other = handler
    · rw [same, Function.update_self, unasked]
      simp
    · rw [Function.update_of_ne same, ← watches.mem_iff other]
      simp [distinct.ne same]
  · exact watches.nodup.erase _
  · intro socket there
    rw [List.mem_toFinset] at there
    exact watches.bounded (List.mem_toFinset.mpr (List.mem_of_mem_erase there))

theorem Watches.put (distinct : Function.Injective fd) (enough : used.card < fdSetSize)
    (inside : handler ∈ used) (status : SocketOperation) :
    Watches fd used extra operation (Function.update statuses handler status)
      (if has status operation then fdSet fdSetSize (fd handler) set
        else fdClr (fd handler) set) := by
  split
  · next asked => exact watches.added distinct enough inside asked
  · next unasked => exact watches.cleared distinct (by simpa using unasked)

end

theorem handlers_update (distinct : Function.Injective fd) {handlers : Socket → Option η}
    (known : ∀ other, handlers (fd other) = if statuses other = 0 then none else some other)
    {place : Option η} (right : place = if status = 0 then none else some handler) (other : η) :
    Function.update handlers (fd handler) place (fd other) =
      if Function.update statuses handler status other = 0 then none else some other := by
  by_cases same : other = handler
  · rw [same, Function.update_self, Function.update_self]
    exact right
  · rw [Function.update_of_ne (distinct.ne same), Function.update_of_ne same]
    exact known other

theorem stores (distinct : Function.Injective fd) (enough : used.card < fdSetSize) :
    SetSelector.Stores (store fdSetSize fd) (fun handler => handler ∈ used)
      (Agrees fd used extra) := by
  intro statuses sets handler status inside agrees
  unfold store
  by_cases something : status ≠ 0
  · rw [if_pos something]
    constructor
    · exact agrees.read.put distinct enough inside status
    · have once := agrees.write.put distinct enough inside status
      have twice := once.put distinct enough inside status
      rw [Function.update_idem] at twice
      exact twice
    · exact agrees.error.put distinct enough inside status
    · exact handlers_update distinct agrees.handlers (if_neg something).symm
  · rw [if_neg something]
    have nothing := not_not.mp something
    have unasked (operation : SocketOperation) : has status operation = false := by
      rw [nothing]
      revert operation
      decide
    constructor
    · exact agrees.read.cleared distinct (unasked _)
    · exact agrees.write.cleared distinct (unasked _)
    · exact agrees.error.cleared distinct (unasked _)
    · exact handlers_update distinct agrees.handlers (if_pos nothing).symm

omit [DecidableEq η] in
theorem start_agrees {fdIntrRead : Socket} (apart : ∀ handler, fd handler ≠ fdIntrRead) :
    Agrees fd used fdIntrRead (fun _ => 0) (start fdIntrRead : SelectSets η) := by
  have unasked (operation : SocketOperation) : has 0 operation = false := by
    revert operation
    decide
  have empty (operation : SocketOperation) :
      Watches fd used fdIntrRead operation (fun _ => 0) [] := by
    constructor
    · intro handler
      rw [unasked]
      simp
    · exact List.nodup_nil
    · simp
  refine ⟨?_, empty _, empty _, fun _ => rfl⟩
  constructor
  · intro handler
    rw [unasked]
    simp [start, apart handler]
  · exact List.pairwise_singleton _ _
  · simp [start]

end SelectSets

end IceTouch.Selecting
