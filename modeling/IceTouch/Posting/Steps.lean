import IceTouch.Posting.Issues

/-!
# Steps that keep the invariant

`Steps` says what a run of a reader does to the decoder: it keeps `Tracked`, never loses an
instance or a cell, and pays the cells in `paid`. The decoder of an encoding may owe cells of its
own, and it may hand out the numbers of the instances itself.
-/

namespace IceTouch.Posting

open WireTypes InStream Classes Decoder Run

variable {κ : Type}

/-- What one encoding adds: the cells that it owes, and what it keeps of the numbers in use. -/
structure Ledger (κ : Type) where
  owes : κ → List Handle
  fine : List (Nat × ObjectId) → κ → Prop

variable {ledger : Ledger κ} {paid : List Handle}

def Ledger.Fine (ledger : Ledger κ) (decoder : EncapsDecoder κ) : Prop :=
  ledger.fine decoder.unmarshaledMap decoder.own

structure Steps (ledger : Ledger κ) (paid : List Handle) (before after : EncapsDecoder κ) :
    Prop where
  grows : before.handles.length ≤ after.handles.length
  found : ∀ index id, before.unmarshaledMap.lookup index = some id →
    after.unmarshaledMap.lookup index = some id
  fine : ledger.Fine before → ledger.Fine after
  tracked : ledger.Fine before → ∀ building owed,
    Tracked building (paid ++ (ledger.owes before.own ++ owed)) before →
      Tracked building (ledger.owes after.own ++ owed) after

theorem Steps.refl (decoder : EncapsDecoder κ) : Steps ledger [] decoder decoder where
  grows := le_rfl
  found := fun _ _ => id
  fine := id
  tracked := fun _ _ _ => id

variable {first second third : EncapsDecoder κ}

theorem Steps.before (one : Steps ledger [] first second) (two : Steps ledger paid second third) :
    Steps ledger paid first third where
  grows := one.grows.trans two.grows
  found := fun index id known => two.found index id (one.found index id known)
  fine := fun fine => two.fine (one.fine fine)
  tracked := by
    intro fine building owed tracked
    refine two.tracked (one.fine fine) building owed ?_
    have owing := one.tracked fine building (paid ++ owed) (tracked.reorder (by
      rw [List.nil_append]
      exact List.perm_append_comm_assoc _ _ _))
    exact owing.reorder (List.perm_append_comm_assoc _ _ _)

theorem Steps.restate (decoder : EncapsDecoder κ) (own : κ) (typeIds : List Str)
    (same : ledger.owes own = ledger.owes decoder.own)
    (fine : ledger.fine decoder.unmarshaledMap decoder.own → ledger.fine decoder.unmarshaledMap own) :
    Steps ledger [] decoder { decoder with own := own, typeIdMap := typeIds } where
  grows := le_rfl
  found := fun _ _ => id
  fine := fine
  tracked := by
    intro _ building owed tracked
    rw [same]
    exact tracked.restate own typeIds

theorem Steps.cell {decoder after : EncapsDecoder κ}
    (steps : Steps ledger [decoder.handles.length]
      { decoder with handles := decoder.handles ++ [none] } after) :
    Steps ledger [] decoder after where
  grows := by
    have grown := steps.grows
    simp only [List.length_append, List.length_singleton] at grown
    omega
  found := steps.found
  fine := steps.fine
  tracked := fun fine building owed tracked => steps.tracked fine building owed tracked.newCell

theorem Steps.patchNil (decoder : EncapsDecoder κ) (handle : Handle) :
    Steps ledger [handle] decoder (decoder.ask handle 0) where
  grows := le_rfl
  found := fun _ _ => id
  fine := id
  tracked := fun _ _ _ tracked => tracked.patchNil

variable {handle : Handle}

variable {index : Nat} {change : EncapsDecoder κ → EncapsDecoder κ} {value : Unit}
  {growth : Growth (EncapsDecoder κ)}

theorem Steps.patch (decoder : EncapsDecoder κ) {id : ObjectId} (numbered : index ≠ 0)
    (found : decoder.unmarshaledMap.lookup index = some id) :
    Steps ledger [handle] decoder ((decoder.ask handle index).patch handle id) where
  grows := by simp [EncapsDecoder.patch, EncapsDecoder.ask]
  found := fun _ _ known => known
  fine := fun fine => fine
  tracked := fun _ _ _ tracked => tracked.patch numbered found

@[simp] theorem add_entry_fields (decoder : EncapsDecoder κ) (index : Nat) (handle : Handle) :
    (decoder.addEntry index handle).handles.length = decoder.handles.length ∧
    (decoder.addEntry index handle).unmarshaledMap = decoder.unmarshaledMap ∧
    (decoder.addEntry index handle).own = decoder.own := by
  unfold EncapsDecoder.addEntry
  split <;> simp [EncapsDecoder.patch, EncapsDecoder.ask]

theorem Steps.addEntry (decoder : EncapsDecoder κ) (numbered : index ≠ 0) :
    Steps ledger [handle] decoder (decoder.addEntry index handle) := by
  obtain ⟨length, unmarshaledMap, own⟩ := add_entry_fields decoder index handle
  refine ⟨length.ge, fun _ _ known => ?_, fun fine => ?_, fun _ building owed tracked => ?_⟩
  · rwa [unmarshaledMap]
  · rwa [Ledger.Fine, unmarshaledMap, own]
  · rw [own]
    exact tracked.addEntry numbered

def stepping (ledger : Ledger κ) : Growth (EncapsDecoder κ) where
  moves := Steps ledger []
  size := fun decoder => decoder.handles.length
  refl := Steps.refl
  trans := Steps.before
  grows := Steps.grows

variable {before after : ReadStream (EncapsDecoder κ)}

theorem new_cell_run (ran : newCell before = .ok handle after) :
    handle = before.decoder.handles.length ∧
      after.decoder = { before.decoder with handles := before.decoder.handles ++ [none] } := by
  cases ran
  exact ⟨rfl, rfl⟩

theorem modify_decoder_run (ran : modifyDecoder change before = .ok value after) :
    after.decoder = change before.decoder := by
  cases ran
  rfl

theorem add_entry_run (ran : addPatchEntry index handle before = .ok value after) :
    index ≠ 0 ∧ after.decoder = before.decoder.addEntry index handle := by
  unfold addPatchEntry at ran
  split at ran
  case isTrue => cases ran
  case isFalse numbered => exact ⟨numbered, modify_decoder_run ran⟩

theorem moves_decoder (fine : ∀ decoder, growth.moves decoder (change decoder)) :
    Moves growth (modifyDecoder change) := by
  intro known before value after ran
  rw [modify_decoder_run ran]
  exact ⟨fine _, by simp⟩

theorem moves_type_id
    (fine : ∀ decoder typeIds, growth.moves decoder { decoder with typeIdMap := typeIds })
    (isIndex : Bool) : Moves growth (readTypeId isIndex) := by
  intro known
  refine .ite (.bind (moves_size _) fun index => .get fun stream => .ite .throw ?_)
    (.bind (moves_string _) fun typeId =>
      .bind (moves_decoder (fun decoder => fine decoder _) _) fun _ => .nothing)
  split
  · exact .nothing
  · exact .throw

theorem check_patch_map_run (ran : checkPatchMap before = .ok value after) :
    after = before ∧ before.decoder.patchMap = [] := by
  unfold checkPatchMap at ran
  rw [bind_get] at ran
  split at ran
  case isTrue resolved =>
    cases ran
    exact ⟨rfl, resolved⟩
  case isFalse => cases ran

@[simp] theorem post_unmarshal_fields (decoder : EncapsDecoder κ) (id : ObjectId) :
    (decoder.postUnmarshal id).patchMap = decoder.patchMap ∧
    (decoder.postUnmarshal id).unmarshaledMap = decoder.unmarshaledMap ∧
    (decoder.postUnmarshal id).handles = decoder.handles ∧
    (decoder.postUnmarshal id).own = decoder.own := by
  unfold EncapsDecoder.postUnmarshal EncapsDecoder.post
  split
  · simp
  · dsimp only
    split <;> simp

theorem unmarshal_run {readObject : DecoderM κ (Obj Handle Handle)} {id : ObjectId}
    (ran : unmarshal index readObject before = .ok id after) :
    id = before.decoder.objects.length ∧ ∃ obj middle,
      readObject { before with decoder := before.decoder.allocate index } = .ok obj middle ∧
      after = { middle with decoder := (middle.decoder.complete index id obj).postUnmarshal id } := by
  unfold unmarshal at ran
  rw [bind_get] at ran
  obtain ⟨_, _, allocated, ran⟩ := of_bind_ok ran
  cases allocated
  obtain ⟨obj, middle, read, ran⟩ := of_bind_ok ran
  obtain ⟨_, _, completed, ran⟩ := of_bind_ok ran
  cases completed
  obtain ⟨_, _, posted, ran⟩ := of_bind_ok ran
  cases posted
  cases ran
  exact ⟨rfl, obj, middle, read, rfl⟩

/-- An instance is read: the members that it is given are cells allocated meanwhile, and the
cells that the decoder owes are the same before and behind them. -/
theorem Tracked.unmarshal {building : List (Nat × ObjectId)} {owed : List Handle} {index : Nat}
    {readObject : DecoderM κ (Obj Handle Handle)} {id : ObjectId}
    {before after : ReadStream (EncapsDecoder κ)}
    (tracked : Tracked building (ledger.owes before.decoder.own ++ owed) before.decoder)
    (fine : ledger.Fine (before.decoder.allocate index))
    (fresh : before.decoder.unmarshaledMap.lookup index = none ∨ building = [])
    (reads : ∀ obj middle,
      readObject { before with decoder := before.decoder.allocate index } = .ok obj middle →
      Steps ledger [] (before.decoder.allocate index) middle.decoder ∧
        ledger.owes middle.decoder.own = ledger.owes before.decoder.own ∧
        ∀ handle ∈ cells obj, before.decoder.handles.length ≤ handle ∧
          handle < middle.decoder.handles.length)
    (ran : unmarshal index readObject before = .ok id after) :
    Tracked building (ledger.owes after.decoder.own ++ owed) after.decoder := by
  obtain ⟨rfl, obj, middle, read, rfl⟩ := unmarshal_run ran
  obtain ⟨steps, same, new⟩ := reads obj middle read
  have inside := steps.tracked fine _ owed (tracked.allocate index)
  have started : ∃ id, (before.decoder.allocate index).unmarshaledMap.lookup index = some id ∧
      (before.decoder.unmarshaledMap.lookup index = none → id = before.decoder.objects.length) := by
    rw [EncapsDecoder.allocate, List.lookup_append]
    cases before.decoder.unmarshaledMap.lookup index with
    | none => exact ⟨_, by simp, fun _ => rfl⟩
    | some id => exact ⟨id, rfl, fun absent => absurd absent (Option.some_ne_none id)⟩
  obtain ⟨id, known, own⟩ := started
  have still := steps.found index id known
  have finished := @Tracked.finish _ building _ middle.decoder _ _ obj inside (fun handle waits => ?_)
    (fun handle member => ?_)
  · have own : ((middle.decoder.complete index before.decoder.objects.length obj).postUnmarshal
        before.decoder.objects.length).own = middle.decoder.own := by simp
    rw [own]
    exact finished
  · rw [still]
    rcases fresh with absent | idle
    · rw [own absent]
    · subst idle
      have only := (inside.waiting index handle waits).2.2 id still
      exact congrArg some (congrArg Prod.snd (List.mem_singleton.mp only))
  · obtain ⟨least, bound⟩ := new handle member
    refine inside.asked_of_not_owed bound fun owing => ?_
    rw [same] at owing
    exact absurd (tracked.owed_lt owing) (Nat.not_lt.mpr least)

end IceTouch.Posting
