import IceTouch.Decoder11
import IceTouch.Posting.Steps

/-!
# Posting in encoding 1.1

Instances are read inside each other, and a slice with an indirection table keeps the cells that
refer to it until its end. The decoder numbers the instances itself, so a number is never used
twice. A reader of the content of a slice adds to the innermost frame of the stack at most; one
that reads slices leaves that frame without cells that wait; one that reads an instance leaves
the stack as it was.
-/

namespace IceTouch.Posting.Nested11

open Bytes WireTypes StreamHelpers InStream Classes Decoder
open Decoder11 Run
open Encoder11 (SliceType FLAG_HAS_INDIRECTION_TABLE FLAG_HAS_OPTIONAL_MEMBERS
  FLAG_IS_LAST_SLICE)

variable {α : Type} {known : List Nat} {paid : List Handle}

def indirect (data : InstanceData) : List Handle := data.indirectPatchList.map Prod.snd

/-- The decoder owes what waits for an indirection table, and a number beyond the last one is
free. -/
def ledger : Ledger Nesting where
  owes := fun own => own.current.flatMap indirect
  fine := fun unmarshaledMap own =>
    ∀ index, own.objectIdIndex < index → unmarshaledMap.lookup index = none

variable {data : InstanceData}

theorem owes_cons {own : Nesting} {outer : List InstanceData}
    (shape : own.current = data :: outer) :
    ledger.owes own = indirect data ++ outer.flatMap indirect := by
  change own.current.flatMap indirect = _
  rw [shape, List.flatMap_cons]

structure Advance (paid : List Handle) (before after : EncapsDecoder11) : Prop
    extends Steps ledger paid before after where
  counted : before.own.objectIdIndex ≤ after.own.objectIdIndex
  unused : ∀ index ≤ before.own.objectIdIndex, before.unmarshaledMap.lookup index = none →
    after.unmarshaledMap.lookup index = none

variable {first second third : EncapsDecoder11}

theorem Advance.refl (decoder : EncapsDecoder11) : Advance [] decoder decoder where
  toSteps := Steps.refl decoder
  counted := le_rfl
  unused := fun _ _ => id

theorem Advance.of_steps (steps : Steps ledger paid first second)
    (unmarshaledMap : second.unmarshaledMap = first.unmarshaledMap)
    (counter : second.own.objectIdIndex = first.own.objectIdIndex) : Advance paid first second where
  toSteps := steps
  counted := counter.ge
  unused := by
    intro index _ absent
    rw [unmarshaledMap, absent]

theorem Advance.before (one : Advance [] first second) (two : Advance paid second third) :
    Advance paid first third where
  toSteps := one.toSteps.before two.toSteps
  counted := one.counted.trans two.counted
  unused := fun index bound absent =>
    two.unused index (bound.trans one.counted) (one.unused index bound absent)

/-- The stack after the content of a slice has been read: cells may wait in the innermost frame. -/
def Frames : List InstanceData → List InstanceData → Prop
  | [], after => after = []
  | data :: outer, after => ∃ data', after = data' :: outer ∧ data'.sliceFlags = data.sliceFlags ∧
      (hasFlag data.sliceFlags FLAG_HAS_INDIRECTION_TABLE = false →
        data'.indirectPatchList = data.indirectPatchList)

theorem Frames.refl (stack : List InstanceData) : Frames stack stack := by
  cases stack with
  | nil => exact rfl
  | cons data outer => exact ⟨data, rfl, rfl, fun _ => rfl⟩

theorem Frames.trans {one two three : List InstanceData} (early : Frames one two)
    (late : Frames two three) : Frames one three := by
  cases one with
  | nil =>
      obtain rfl : two = [] := early
      exact late
  | cons data outer =>
      obtain ⟨data', rfl, flags, kept⟩ := early
      obtain ⟨data'', rfl, flags', kept'⟩ := late
      refine ⟨data'', rfl, flags'.trans flags, fun plain => ?_⟩
      rw [kept' (by rw [flags, plain]), kept plain]

def content : Growth EncapsDecoder11 where
  moves := fun before after => Advance [] before after ∧ Frames before.own.current after.own.current
  size := fun decoder => decoder.handles.length
  refl := fun decoder => ⟨Advance.refl decoder, Frames.refl _⟩
  trans := fun one two => ⟨one.1.before two.1, one.2.trans two.2⟩
  grows := fun moved => moved.1.grows

def whole : Growth EncapsDecoder11 where
  moves := fun before after => Advance [] before after ∧ after.own.current = before.own.current
  size := fun decoder => decoder.handles.length
  refl := fun decoder => ⟨Advance.refl decoder, rfl⟩
  trans := fun one two => ⟨one.1.before two.1, two.2.trans one.2⟩
  grows := fun moved => moved.1.grows

def Idle (outer : List InstanceData) (decoder : EncapsDecoder11) : Prop :=
  ∃ data, decoder.own.current = data :: outer ∧ data.indirectPatchList = []

def level : Growth EncapsDecoder11 where
  moves := fun before after => before.handles.length ≤ after.handles.length ∧
    ∀ outer, Idle outer before → Advance [] before after ∧ Idle outer after
  size := fun decoder => decoder.handles.length
  refl := fun decoder => ⟨le_rfl, fun _ idle => ⟨Advance.refl decoder, idle⟩⟩
  trans := by
    rintro first second third ⟨grown, one⟩ ⟨grown', two⟩
    refine ⟨grown.trans grown', fun outer idle => ?_⟩
    obtain ⟨advanced, between⟩ := one outer idle
    obtain ⟨onward, last⟩ := two outer between
    exact ⟨advanced.before onward, last⟩
  grows := And.left

theorem whole_content (moved : whole.moves first second) : content.moves first second := by
  refine ⟨moved.1, ?_⟩
  rw [moved.2]
  exact Frames.refl _

theorem whole_level (moved : whole.moves first second) : level.moves first second := by
  refine ⟨moved.1.grows, fun outer idle => ⟨moved.1, ?_⟩⟩
  obtain ⟨data, shape, empty⟩ := idle
  exact ⟨data, moved.2.trans shape, empty⟩

theorem Issues.level {reader : Decoder11M α} {names : α → List Nat}
    (issues : Issues whole known reader names) : Issues level known reader names :=
  issues.weaken (fun _ _ => whole_level) rfl

theorem Advance.restack (decoder : EncapsDecoder11) (stack : List InstanceData) (typeIds : List Str)
    (same : stack.flatMap indirect = decoder.own.current.flatMap indirect) :
    Advance [] decoder
      { decoder with own := { decoder.own with current := stack }, typeIdMap := typeIds } :=
  .of_steps (.restate decoder { decoder.own with current := stack } typeIds same id) rfl rfl

theorem current_run {before after : ReadStream EncapsDecoder11}
    (ran : current before = .ok data after) :
    after = before ∧ ∃ outer, before.decoder.own.current = data :: outer := by
  unfold current at ran
  split at ran
  · cases ran
  case h_2 data' outer shape =>
    cases ran
    exact ⟨rfl, outer, shape⟩

theorem moves_current {growth : Growth EncapsDecoder11} : Moves growth current := by
  intro known
  refine .still fun before data after ran => ?_
  rw [(current_run ran).1]

variable {change : InstanceData → InstanceData}

theorem modify_current_run {before after : ReadStream EncapsDecoder11} {value : Unit}
    (ran : modifyCurrent change before = .ok value after) {outer : List InstanceData}
    (shape : before.decoder.own.current = data :: outer) :
    after.decoder = { before.decoder with
      own := { before.decoder.own with current := change data :: outer } } := by
  unfold modifyCurrent modifyNesting at ran
  rw [modify_decoder_run ran]
  simp only [shape]

theorem moves_modify_current
    (kept : ∀ data, (change data).indirectPatchList = data.indirectPatchList) :
    Moves level (modifyCurrent change) := by
  intro known before value after ran
  have grown : before.decoder.handles.length ≤ after.decoder.handles.length := by
    unfold modifyCurrent modifyNesting at ran
    rw [modify_decoder_run ran]
  refine ⟨⟨grown, ?_⟩, by simp⟩
  rintro outer ⟨data, shape, empty⟩
  rw [modify_current_run ran shape]
  refine ⟨.restack _ _ _ ?_, change data, rfl, (kept data).trans empty⟩
  rw [shape, List.flatMap_cons, List.flatMap_cons, indirect, kept]
  rfl

theorem moves_type_id_level (isIndex : Bool) : Moves level (readTypeId isIndex) := by
  have fine : ∀ (decoder : EncapsDecoder11) (typeIds : List Str),
      level.moves decoder { decoder with typeIdMap := typeIds } := fun decoder typeIds =>
    ⟨le_rfl, fun outer idle => ⟨.restack decoder decoder.own.current typeIds rfl, idle⟩⟩
  exact moves_type_id fine isIndex

theorem moves_slice_type_id (data : InstanceData) (flags : Byte) :
    Moves level (readSliceTypeId data flags) :=
  fun _ => .ite (.ite (.bind (moves_size _) fun _ => .nothing)
    (.ite (.bind (moves_type_id_level _ _) fun _ => .nothing) .nothing))
    (.bind (moves_string _) fun _ => .nothing)

theorem moves_slice_size (flags : Byte) : Moves level (readSliceSize flags) :=
  fun _ => .ite (.bind (moves_int _) fun _ => .ite .throw .nothing) .nothing

theorem moves_start_slice : Moves level startSlice :=
  fun _ => .bind (moves_current _) fun _ => .ite (moves_modify_current (fun _ => by rfl) _)
    (.bind (moves_byte _) fun _ => .bind (moves_slice_type_id _ _ _) fun _ =>
      .bind (moves_slice_size _ _) fun _ => moves_modify_current (fun _ => by rfl) _)

theorem moves_start_instance (sliceType : SliceType) : Moves level (startInstance sliceType) :=
  fun _ => .bind (moves_current _) fun _ =>
    .ite (moves_modify_current (fun _ => by rfl) _) .throw

theorem Advance.indirect {decoder after : EncapsDecoder11} {outer : List InstanceData}
    (more : List (Nat × Handle)) (shape : decoder.own.current = data :: outer)
    (same : after = { decoder with own := { decoder.own with current :=
      { data with indirectPatchList := data.indirectPatchList ++ more } :: outer } }) :
    Advance (more.map Prod.snd) decoder after := by
  subst same
  refine .of_steps ⟨le_rfl, fun _ _ => id, id, fun _ building owed tracked => ?_⟩ rfl rfl
  have kept := tracked.restate (⟨decoder.own.objectIdIndex, { data with
    indirectPatchList := data.indirectPatchList ++ more } :: outer⟩ : Nesting) decoder.typeIdMap
  refine kept.reorder ?_
  rw [owes_cons rfl, owes_cons shape, Nested11.indirect, Nested11.indirect, List.map_append,
    List.append_assoc, List.append_assoc, List.append_assoc]
  exact List.perm_append_comm_assoc _ _ _

section Instances

variable {readInstance : InstanceReader} {receiver : Receiver} {fuel : Nat}

/-- A reader of instances pays the cell that it is given and leaves the stack as it was. -/
def Reading (readInstance : InstanceReader) : Prop :=
  ∀ index cell before number after, readInstance index cell before = .ok number after →
    Advance cell.toList before.decoder after.decoder ∧
      after.decoder.own.current = before.decoder.own.current

variable {cell : Option Handle} {before after : ReadStream EncapsDecoder11} {value : Unit}
  {outer : List InstanceData}

theorem patch_cell_nil_run (ran : patchCellNil cell before = .ok value after) :
    Advance cell.toList before.decoder after.decoder ∧
      after.decoder.own.current = before.decoder.own.current := by
  cases cell with
  | none =>
      cases ran
      exact ⟨.refl _, rfl⟩
  | some handle =>
      cases ran
      exact ⟨.of_steps (.patchNil _ _) rfl rfl, rfl⟩

section

variable (reading : Reading readInstance)

include reading

theorem read_ref_run (ran : readRef readInstance cell before = .ok value after) :
    Advance cell.toList before.decoder after.decoder ∧
      Frames before.decoder.own.current after.decoder.own.current := by
  obtain ⟨index, middle, sized, ran⟩ := of_bind_ok ran
  rw [← still_run moves_size sized]
  have unmoved : ∀ {stack : List InstanceData}, after.decoder.own.current = stack →
      Frames stack after.decoder.own.current := by
    rintro stack rfl
    exact Frames.refl _
  split at ran
  · obtain ⟨advanced, same⟩ := patch_cell_nil_run ran
    exact ⟨advanced, unmoved same⟩
  · rw [bind_get] at ran
    split at ran
    case isTrue table =>
      cases shape : middle.decoder.own.current with
      | nil => simp [shape] at table
      | cons data outer =>
          have flagged : hasFlag data.sliceFlags FLAG_HAS_INDIRECTION_TABLE = true := by
            simpa [shape] using table
          have done := modify_current_run ran shape
          refine ⟨?_, ?_⟩
          · have advanced := Advance.indirect _ shape done
            cases cell <;> exact advanced
          · rw [done]
            refine ⟨_, rfl, rfl, fun plain => ?_⟩
            rw [flagged] at plain
            cases plain
    case isFalse =>
      obtain ⟨number, last, read, ran⟩ := of_bind_ok ran
      cases ran
      obtain ⟨advanced, same⟩ := reading _ _ _ _ _ read
      exact ⟨advanced, unmoved same⟩

theorem issues_ref (known : List Nat) :
    Issues content known (refs readInstance).read fun handle => [handle] := by
  intro before value after ran
  obtain ⟨handle, first, allocated, ran⟩ := of_bind_ok ran
  obtain ⟨rfl, fresh⟩ := new_cell_run allocated
  obtain ⟨_, second, read, ran⟩ := of_bind_ok ran
  cases ran
  obtain ⟨advanced, frames⟩ := read_ref_run reading read
  rw [fresh] at advanced frames
  refine ⟨⟨⟨advanced.toSteps.cell, advanced.counted, advanced.unused⟩, frames⟩, fun name member => ?_⟩
  rw [List.mem_singleton.mp member]
  have grown := advanced.grows
  simp only [List.length_append, List.length_singleton] at grown
  exact Or.inr ⟨le_rfl, grown⟩

theorem moves_skip_ref : Moves content (readRef readInstance none) := by
  intro known before value after ran
  exact ⟨read_ref_run reading ran, by simp⟩

theorem issues_opt (tag : Nat) (type : WireType) (known : List Nat) :
    Issues content known (readOpt readInstance fuel tag type) (optionRefs type) := by
  refine .get fun stream => ?_
  have tagged := issues_tagged (issues_ref reading) (moves_skip_ref reading) fuel tag type known
  split
  · exact tagged
  · exact .ite tagged (.pure (List.nil_subset _))

end

theorem moves_table_entry (reading : Reading readInstance) :
    Moves whole (readTableEntry readInstance) := by
  intro known
  refine .bind (moves_size _) fun index => .bind (moves_record _ _) fun _ => ?_
  intro before number after ran
  exact ⟨reading _ _ _ _ _ ran, by simp⟩

theorem moves_table (reading : Reading readInstance) :
    Moves whole (readIndirectionTable readInstance) :=
  fun _ => .bind (moves_seq_size _ _) fun count => moves_times (moves_table_entry reading) count _

theorem resolve_run (table : List Nat) (entries : List (Nat × Handle))
    (ran : resolveIndirect table entries before = .ok value after) :
    after.decoder.handles.length = before.decoder.handles.length ∧
    after.decoder.unmarshaledMap = before.decoder.unmarshaledMap ∧
    after.decoder.own = before.decoder.own ∧
    ∀ building owed, Tracked building (entries.map Prod.snd ++ owed) before.decoder →
      Tracked building owed after.decoder := by
  induction entries generalizing before with
  | nil =>
      cases ran
      exact ⟨rfl, rfl, rfl, fun _ _ => id⟩
  | cons entry rest ih =>
      obtain ⟨index, handle⟩ := entry
      cases target : table[index]? with
      | none =>
          simp only [resolveIndirect, target] at ran
          cases ran
      | some number =>
        simp only [resolveIndirect, target] at ran
        obtain ⟨_, middle, added, remaining⟩ := of_bind_ok ran
        obtain ⟨numbered, done⟩ := add_entry_run added
        obtain ⟨length, unmarshaledMap, own, tracked⟩ := ih remaining
        rw [done] at length unmarshaledMap own
        obtain ⟨length', unmarshaledMap', own'⟩ := add_entry_fields before.decoder number handle
        refine ⟨length.trans length', unmarshaledMap.trans unmarshaledMap', own.trans own', ?_⟩
        intro building owed owing
        refine tracked building owed ?_
        rw [done]
        exact owing.addEntry numbered

theorem end_indirection_run (reading : Reading readInstance)
    (ran : endIndirection readInstance before = .ok value after) {data : InstanceData}
    (shape : before.decoder.own.current = data :: outer) :
    Advance [] before.decoder after.decoder ∧ Idle outer after.decoder := by
  obtain ⟨table, second, tabled, checked⟩ := of_bind_ok ran
  obtain ⟨⟨advanced, same⟩, -⟩ := moves_table reading [] _ _ _ tabled
  rw [shape] at same
  obtain ⟨found, _, here, sane⟩ := of_bind_ok checked
  obtain ⟨rfl, outer', shape'⟩ := current_run here
  obtain ⟨rfl, rfl⟩ := List.cons.inj (shape'.symm.trans same)
  split at sane
  · cases sane
  · split at sane
    · cases sane
    · obtain ⟨_, third, resolved, ended⟩ := of_bind_ok sane
      obtain ⟨length, unmarshaledMap, own, tracked⟩ := resolve_run _ _ resolved
      have cleared := modify_current_run ended (by rw [own, same])
      refine ⟨advanced.before (.of_steps ⟨?_, ?_, ?_, ?_⟩ ?_ ?_), { found with indirectPatchList := [] },
        by rw [cleared], rfl⟩
      · rw [cleared]
        exact length.ge
      · intro index id known
        rw [cleared]
        exact unmarshaledMap ▸ known
      · intro fine
        rw [cleared]
        simp only [Ledger.Fine, unmarshaledMap, own]
        exact fine
      · intro _ building owed owing
        rw [cleared]
        refine Tracked.restate (tracked building _ ?_) _ _
        rw [owes_cons same, List.nil_append, List.append_assoc] at owing
        exact owing
      · rw [cleared]
        exact unmarshaledMap
      · rw [cleared, ← own]

theorem moves_end_optionals (reading : Reading readInstance) :
    Moves content (endOptionals readInstance fuel) :=
  fun _ => .bind (moves_current _) fun _ =>
    .ite (moves_skip_opts (moves_skip_ref reading) fuel _) .nothing

def Waits (outer : List InstanceData) (decoder : EncapsDecoder11) : Prop :=
  ∃ data, decoder.own.current = data :: outer ∧
    (hasFlag data.sliceFlags FLAG_HAS_INDIRECTION_TABLE = false → data.indirectPatchList = [])

theorem Idle.waits {decoder : EncapsDecoder11} (idle : Idle outer decoder) :
    Waits outer decoder := by
  obtain ⟨data, shape, empty⟩ := idle
  exact ⟨data, shape, fun _ => empty⟩

theorem Waits.frames (waits : Waits outer first)
    (frames : Frames first.own.current second.own.current) : Waits outer second := by
  obtain ⟨data, shape, empty⟩ := waits
  rw [shape] at frames
  obtain ⟨data', shape', flags, kept⟩ := frames
  refine ⟨data', shape', fun plain => ?_⟩
  rw [flags] at plain
  rw [kept plain, empty plain]

theorem end_slice_run (reading : Reading readInstance)
    (ran : endSlice readInstance fuel before = .ok value after) :
    before.decoder.handles.length ≤ after.decoder.handles.length ∧
      ∀ outer, Waits outer before.decoder →
        Advance [] before.decoder after.decoder ∧ Idle outer after.decoder := by
  obtain ⟨_, second, skipped, rest⟩ := of_bind_ok ran
  obtain ⟨⟨advanced, frames⟩, -⟩ := moves_end_optionals reading [] _ _ _ skipped
  obtain ⟨found, _, here, ended⟩ := of_bind_ok rest
  obtain ⟨rfl, outer', shape⟩ := current_run here
  split at ended
  · obtain ⟨onward, idle⟩ := end_indirection_run reading ended shape
    refine ⟨advanced.grows.trans onward.grows, fun outer waits => ?_⟩
    obtain ⟨data, shape', -⟩ := waits.frames frames
    obtain ⟨rfl, rfl⟩ := List.cons.inj (shape.symm.trans shape')
    exact ⟨advanced.before onward, idle⟩
  case isFalse plain =>
    cases ended
    refine ⟨advanced.grows, fun outer waits => ⟨advanced, ?_⟩⟩
    obtain ⟨data, shape', empty⟩ := waits.frames frames
    obtain ⟨rfl, rfl⟩ := List.cons.inj (shape.symm.trans shape')
    exact ⟨found, shape, empty (by simpa using plain)⟩

theorem issues_slice (reading : Reading readInstance) (slice : SliceDef) :
    Issues level known (readSlice receiver readInstance fuel slice) sliceRefs := by
  refine .bind (moves_start_slice _) fun _ => ?_
  intro before value after ran
  obtain ⟨members, second, read, rest⟩ := of_bind_ok ran
  obtain ⟨_, third, ended, last⟩ := of_bind_ok rest
  cases last
  have members_ : Issues content [] (readBody (refs readInstance) (readOpt readInstance fuel)
      (receiver.knows (some slice.typeId)) slice.members slice.optionals)
      fun body => memberRefs slice.members body.1 ++ optionalRefs slice.optionals body.2 := by
    refine .bind (issues_members (issues_ref reading) _ _) fun members =>
      .bind (issues_optionals (issues_opt reading) _ _ _) fun optionals => .pure ?_
    rw [List.append_assoc]
    exact List.subset_append_right _ _
  obtain ⟨⟨advanced, frames⟩, new⟩ := members_ _ _ _ read
  obtain ⟨grown, closes⟩ := end_slice_run reading ended
  refine ⟨⟨advanced.grows.trans grown, fun outer idle => ?_⟩, fun name member => Or.inr ?_⟩
  · obtain ⟨onward, last⟩ := closes outer (idle.waits.frames frames)
    exact ⟨advanced.before onward, last⟩
  · obtain ⟨least, bound⟩ := (new name member).resolve_left List.not_mem_nil
    exact ⟨least, bound.trans_le grown⟩

theorem issues_slices (reading : Reading readInstance) (slices : List SliceDef) :
    ∀ known, Issues level known (readSlices receiver readInstance fuel slices) fun insts =>
      insts.flatMap sliceRefs := by
  induction slices with
  | nil => exact fun _ => .pure (List.nil_subset _)
  | cons slice rest ih =>
      intro known
      refine .bind (issues_slice reading slice) fun inst => .bind (ih _) fun insts => .pure ?_
      rw [List.flatMap_cons, List.append_assoc]
      exact List.subset_append_right _ _

theorem moves_skip_content (data : InstanceData) : Moves level (skipContent data) :=
  fun _ => .ite (.ite .throw (.bind (moves_record _ _) fun _ => moves_skip _ _)) (.ite .throw .throw)

theorem moves_preserved_bytes (start : Nat) (hasOptionalMembers : Bool) :
    Moves level (preservedBytes start hasOptionalMembers) :=
  fun _ => .get fun _ => .ite .throw .nothing

theorem moves_skip_slice (reading : Reading readInstance) : Moves level (skipSlice readInstance) :=
  fun _ => .bind (moves_current _) fun _ => .get fun _ => .bind (moves_skip_content _ _) fun _ =>
    .bind (moves_preserved_bytes _ _ _) fun _ =>
      .bind (.ite (Issues.level (moves_table reading _)) .nothing) fun _ =>
        moves_modify_current (fun _ => by rfl) _

variable {index : Nat} {sliceType : SliceType} {start : EncapsDecoder11}

theorem entry_moves {handle : Handle} {first : ReadStream EncapsDecoder11}
    (allocated : newCell before = .ok handle first)
    (added : addPatchEntry index handle first = .ok value after) :
    whole.moves before.decoder after.decoder ∧ handle = before.decoder.handles.length ∧
      handle < after.decoder.handles.length := by
  obtain ⟨rfl, fresh⟩ := new_cell_run allocated
  obtain ⟨numbered, done⟩ := add_entry_run added
  rw [fresh] at done
  obtain ⟨length, unmarshaledMap, own⟩ := add_entry_fields
    { before.decoder with handles := before.decoder.handles ++ [none] } index
    before.decoder.handles.length
  rw [← done] at length unmarshaledMap own
  have steps : Steps ledger [] before.decoder after.decoder := by
    rw [done]
    exact (Steps.addEntry _ numbered).cell
  refine ⟨⟨.of_steps steps unmarshaledMap (congrArg Nesting.objectIdIndex own),
    congrArg Nesting.current own⟩, rfl, ?_⟩
  rw [length]
  simp

theorem issues_slice_objects (table : List Nat) :
    ∀ known, Issues whole known (readSliceObjects table) id := by
  induction table with
  | nil => exact fun _ => .pure (List.nil_subset _)
  | cons index rest ih =>
      intro known before handles after ran
      obtain ⟨handle, first, allocated, pending⟩ := of_bind_ok ran
      obtain ⟨_, second, added, remaining⟩ := of_bind_ok pending
      obtain ⟨more, third, read, last⟩ := of_bind_ok remaining
      cases last
      obtain ⟨moved, rfl, bound⟩ := entry_moves allocated added
      obtain ⟨onward, new⟩ := ih [] _ _ _ read
      refine ⟨whole.trans moved onward, fun name member => Or.inr ?_⟩
      rcases List.mem_cons.mp member with rfl | member
      · exact ⟨le_rfl, bound.trans_le (whole.grows onward)⟩
      · obtain ⟨least, below⟩ := (new name member).resolve_left List.not_mem_nil
        exact ⟨(whole.grows moved).trans least, below⟩

theorem issues_slice_infos (slices : List (SliceInfo Handle × List Nat)) :
    ∀ known, Issues whole known (readSliceInfos slices) fun infos =>
      infos.flatMap SliceInfo.objects := by
  induction slices with
  | nil => exact fun _ => .pure (List.nil_subset _)
  | cons slice rest ih =>
      obtain ⟨info, table⟩ := slice
      intro known
      refine .bind (issues_slice_objects table _) fun objects => .bind (ih _) fun infos => .pure ?_
      rw [List.flatMap_cons, List.append_assoc]
      exact List.subset_append_right _ _

theorem issues_preserved (preserve : Bool) :
    Issues whole known (preservedSlices preserve) fun infos => infos.flatMap SliceInfo.objects :=
  .ite (.bind (moves_current _) fun _ => .ite .throw (issues_slice_infos _ _))
    (.pure (List.nil_subset _))

theorem pop_run (idle : Idle outer before.decoder)
    (ran : modifyNesting (fun own => { own with current := own.current.tail }) before = .ok value after) :
    Advance [] before.decoder after.decoder ∧ after.decoder.own.current = outer := by
  obtain ⟨data, shape, empty⟩ := idle
  unfold modifyNesting at ran
  rw [modify_decoder_run ran]
  refine ⟨.restack _ _ before.decoder.typeIdMap ?_, ?_⟩
  · rw [shape, List.flatMap_cons, indirect, empty]
    rfl
  · change before.decoder.own.current.tail = outer
    rw [shape]
    rfl

theorem read_object_run (reading : Reading readInstance) {classDef : ClassDef}
    {obj : Obj Handle Handle}
    (ran : readObject receiver readInstance fuel sliceType classDef before = .ok obj after)
    (idle : Idle outer before.decoder) :
    Advance [] before.decoder after.decoder ∧ after.decoder.own.current = outer ∧
      ∀ handle ∈ cells obj, before.decoder.handles.length ≤ handle ∧
        handle < after.decoder.handles.length := by
  obtain ⟨_, first, started, remaining⟩ := of_bind_ok ran
  obtain ⟨slices, second, read, rest⟩ := of_bind_ok remaining
  obtain ⟨preserved, third, ended, last⟩ := of_bind_ok rest
  cases last
  obtain ⟨infos, fourth, kept, popping⟩ := of_bind_ok ended
  obtain ⟨_, fifth, popped, last⟩ := of_bind_ok popping
  cases last
  obtain ⟨begun, -⟩ := moves_start_instance sliceType [] _ _ _ started
  obtain ⟨moved, members⟩ := issues_slices reading classDef.slices [] _ _ _ read
  have keeps : Issues level [] (preservedSlices classDef.preserve) _ :=
    Issues.level (issues_preserved classDef.preserve)
  obtain ⟨onward, objects⟩ := keeps _ _ _ kept
  obtain ⟨advanced, still⟩ := (level.trans (level.trans begun moved) onward).2 outer idle
  obtain ⟨left, stack⟩ := pop_run still popped
  refine ⟨advanced.before left, stack, fun handle member => ?_⟩
  rcases List.mem_append.mp member with member | member
  · obtain ⟨least, bound⟩ := (members handle member).resolve_left List.not_mem_nil
    exact ⟨begun.1.trans least, bound.trans_le (onward.1.trans left.grows)⟩
  · obtain ⟨least, bound⟩ := (objects handle member).resolve_left List.not_mem_nil
    exact ⟨(begun.1.trans moved.1).trans least, bound.trans_le left.grows⟩

theorem moves_resolve_type_id : Moves level (resolveTypeId receiver) := by
  intro known
  refine .bind (moves_current _) fun data => ?_
  split
  · exact .nothing
  · split
    · exact .throw
    · exact moves_modify_current (fun _ => by rfl) _

theorem moves_find_instance (reading : Reading readInstance) (fuel : Nat) :
    Moves level (findInstance receiver readInstance fuel) := by
  induction fuel with
  | zero => exact fun _ => .throw
  | succ fuel ih =>
      intro known
      refine .bind (moves_resolve_type_id _) fun _ => .bind (moves_current _) fun data => ?_
      split
      · exact .nothing
      · exact .ite .throw (.bind (moves_skip_slice reading _) fun _ => .ite .nothing
          (.bind (moves_start_slice _) fun _ => ih _))

theorem moves_find_exception (reading : Reading readInstance) (mostDerivedId : Str) (fuel : Nat) :
    Moves level (findException receiver readInstance mostDerivedId fuel) := by
  induction fuel with
  | zero => exact fun _ => .throw
  | succ fuel ih =>
      intro known
      refine .bind (moves_current _) fun data => ?_
      split
      · exact .nothing
      · exact .bind (moves_skip_slice reading _) fun _ => .ite .throw
          (.bind (moves_start_slice _) fun _ => ih _)

theorem push_run (ran : push sliceType before = .ok value after) :
    Advance [] before.decoder after.decoder ∧ Idle before.decoder.own.current after.decoder ∧
      after.decoder.own.objectIdIndex = before.decoder.own.objectIdIndex := by
  unfold push modifyNesting at ran
  rw [modify_decoder_run ran]
  exact ⟨.restack _ _ before.decoder.typeIdMap rfl, ⟨_, rfl, rfl⟩, rfl⟩

theorem next_object_id_run {number : Nat} (ran : nextObjectId before = .ok number after) :
    Advance [] before.decoder after.decoder ∧
      after.decoder.own.current = before.decoder.own.current ∧
      after.decoder.unmarshaledMap = before.decoder.unmarshaledMap ∧
      number = before.decoder.own.objectIdIndex + 1 ∧ after.decoder.own.objectIdIndex = number := by
  cases ran
  let own : Nesting := ⟨before.decoder.own.objectIdIndex + 1, before.decoder.own.current⟩
  have fine : ledger.Fine before.decoder → ledger.fine before.decoder.unmarshaledMap own :=
    fun fine index later => fine index (Nat.lt_of_succ_lt later)
  have steps : Steps ledger [] before.decoder { before.decoder with own := own } :=
    .restate _ own before.decoder.typeIdMap rfl fine
  exact ⟨⟨steps, Nat.le_succ _, fun _ _ => id⟩, rfl, rfl, rfl, rfl⟩

theorem unmarshal_advances (reading : Reading readInstance) {classDef : ClassDef} {number : Nat}
    {id : ObjectId} (opened : Advance [] start before.decoder)
    (idle : Idle start.own.current before.decoder) (later : start.own.objectIdIndex < number)
    (bound : number ≤ before.decoder.own.objectIdIndex)
    (absent : ledger.Fine start → before.decoder.unmarshaledMap.lookup number = none)
    (ran : unmarshal number (readObject receiver readInstance fuel .objectSlice classDef) before =
      .ok id after) :
    Advance [] start after.decoder ∧ after.decoder.own.current = start.own.current ∧
      (ledger.Fine start → after.decoder.unmarshaledMap.lookup number = some id) := by
  have tracks : ledger.Fine start → ledger.Fine (before.decoder.allocate number) → ∀ building owed,
      Tracked building (ledger.owes before.decoder.own ++ owed) before.decoder →
      Tracked building (ledger.owes after.decoder.own ++ owed) after.decoder := by
    intro fine fine' building owed tracked
    refine Tracked.unmarshal tracked fine' (Or.inl (absent fine)) (fun obj middle read => ?_) ran
    obtain ⟨advanced, stack, new⟩ := read_object_run reading read idle
    refine ⟨advanced.toSteps, ?_, new⟩
    obtain ⟨data, shape, empty⟩ := idle
    rw [owes_cons shape, indirect, empty]
    exact congrArg (List.flatMap indirect) stack
  obtain ⟨rfl, obj, middle, read, rfl⟩ := unmarshal_run ran
  obtain ⟨advanced, stack, -⟩ := read_object_run reading read idle
  have lookups : ∀ {index : Nat}, index ≠ number →
      (before.decoder.allocate number).unmarshaledMap.lookup index =
        before.decoder.unmarshaledMap.lookup index := by
    intro index different
    have apart : (index == number) = false := beq_eq_false_iff_ne.mpr different
    simp [EncapsDecoder.allocate, List.lookup_append, apart]
  have allocates : ledger.Fine start → ledger.Fine (before.decoder.allocate number) := by
    intro fine index beyond
    have different : index ≠ number := (bound.trans_lt beyond).ne'
    exact (lookups different).trans (opened.fine fine index beyond)
  refine ⟨⟨⟨?_, ?_, ?_, ?_⟩, ?_, ?_⟩, ?_, ?_⟩
  · simpa using opened.grows.trans advanced.grows
  · intro index id known
    have before_ := opened.found index id known
    have there : (before.decoder.allocate number).unmarshaledMap.lookup index = some id := by
      rw [EncapsDecoder.allocate, List.lookup_append, before_]
      rfl
    simpa using advanced.found index id there
  · intro fine
    have last := advanced.fine (allocates fine)
    simpa [Ledger.Fine] using last
  · intro fine building owed tracked
    exact tracks fine (allocates fine) building owed (opened.tracked fine building owed tracked)
  · simpa using opened.counted.trans advanced.counted
  · intro index below free
    have different : index ≠ number := (below.trans_lt later).ne
    have middle_ := (lookups different).trans (opened.unused index below free)
    simpa using advanced.unused index (below.trans opened.counted) middle_
  · simpa using stack
  · intro fine
    have there : (before.decoder.allocate number).unmarshaledMap.lookup number =
        some before.decoder.objects.length := by
      simp [EncapsDecoder.allocate, List.lookup_append, absent fine]
    simpa using advanced.found number _ there

theorem patch_cell_run {id : ObjectId} (numbered : index ≠ 0)
    (advanced : Advance [] start before.decoder)
    (known : ledger.Fine start → before.decoder.unmarshaledMap.lookup index = some id)
    (ran : patchCell cell index id before = .ok value after) :
    Advance cell.toList start after.decoder ∧
      after.decoder.own.current = before.decoder.own.current := by
  cases cell with
  | none =>
      cases ran
      exact ⟨advanced, rfl⟩
  | some handle =>
      unfold patchCell at ran
      rw [modify_decoder_run ran]
      refine ⟨⟨⟨?_, advanced.found, advanced.fine, fun fine => ?_⟩, advanced.counted,
        advanced.unused⟩, rfl⟩
      · simpa [EncapsDecoder.patch, EncapsDecoder.ask] using advanced.grows
      · exact (advanced.toSteps.before (.patch _ numbered (known fine))).tracked fine

theorem add_cell_entry_run (ran : addCellEntry index cell before = .ok value after) :
    Advance cell.toList before.decoder after.decoder ∧
      after.decoder.own.current = before.decoder.own.current := by
  cases cell with
  | none =>
      cases ran
      exact ⟨.refl _, rfl⟩
  | some handle =>
      obtain ⟨numbered, done⟩ := add_entry_run ran
      obtain ⟨-, unmarshaledMap, own⟩ := add_entry_fields before.decoder index handle
      rw [done]
      exact ⟨.of_steps (.addEntry _ numbered) unmarshaledMap (congrArg Nesting.objectIdIndex own),
        congrArg Nesting.current own⟩

theorem check_outermost_run (ran : checkOutermost before = .ok value after) : after = before := by
  unfold checkOutermost at ran
  rw [bind_get] at ran
  split at ran
  · exact (check_patch_map_run ran).1
  · cases ran
    rfl

end Instances

theorem reading_instance (receiver : Receiver) (fuel : Nat) : Reading (readInstance receiver fuel) := by
  induction fuel with
  | zero =>
      intro index cell before number after ran
      cases ran
  | succ fuel ih =>
      intro index cell before number after ran
      unfold readInstance at ran
      split at ran
      · cases ran
      · split at ran
        · obtain ⟨_, first, noted, added⟩ := of_bind_ok ran
          cases noted
          obtain ⟨_, second, entry, last⟩ := of_bind_ok added
          cases last
          have done := add_cell_entry_run entry
          exact done
        · obtain ⟨_, first, pushed, remaining⟩ := of_bind_ok ran
          obtain ⟨opened, idle, counter⟩ := push_run pushed
          obtain ⟨_, second, counted, remaining⟩ := of_bind_ok remaining
          obtain ⟨onward, stack, unmarshaledMap, succ, reached⟩ := next_object_id_run counted
          obtain ⟨_, third, started, remaining⟩ := of_bind_ok remaining
          obtain ⟨classDef, fourth, found, remaining⟩ := of_bind_ok remaining
          obtain ⟨id, fifth, read, remaining⟩ := of_bind_ok remaining
          obtain ⟨_, sixth, checked, remaining⟩ := of_bind_ok remaining
          obtain ⟨_, seventh, patched, ended⟩ := of_bind_ok remaining
          cases ended
          obtain rfl := check_outermost_run checked
          have still : Idle before.decoder.own.current second.decoder := by
            obtain ⟨data, shape, empty⟩ := idle
            exact ⟨data, stack.trans shape, empty⟩
          have sliced := level.trans (moves_start_slice [] _ _ _ started).1
            (moves_find_instance ih fuel [] _ _ _ found).1
          obtain ⟨advanced, inside⟩ := sliced.2 _ still
          have later : before.decoder.own.objectIdIndex < number := by omega
          have free : ledger.Fine before.decoder →
              fourth.decoder.unmarshaledMap.lookup number = none := by
            intro fine
            refine advanced.unused number reached.ge ?_
            rw [unmarshaledMap]
            exact opened.fine fine number (by omega)
          obtain ⟨finished, outer, known⟩ := unmarshal_advances ih
            ((opened.before onward).before advanced) inside later
            (reached.ge.trans advanced.counted) free read
          obtain ⟨paid, same⟩ := patch_cell_run (by omega) finished known patched
          exact ⟨paid, same.trans outer⟩

theorem moves_exception (receiver : Receiver) (fuel : Nat) :
    Moves content (throwException receiver fuel) := by
  intro known before obj after ran
  refine ⟨whole_content ?_, by simp⟩
  unfold throwException at ran
  rw [bind_get] at ran
  split at ran
  · cases ran
  · obtain ⟨_, first, pushed, remaining⟩ := of_bind_ok ran
    obtain ⟨opened, idle, -⟩ := push_run pushed
    obtain ⟨_, second, started, looking⟩ := of_bind_ok remaining
    obtain ⟨data, _, here, searching⟩ := of_bind_ok looking
    obtain ⟨rfl, -⟩ := current_run here
    obtain ⟨classDef, third, found, read⟩ := of_bind_ok searching
    have reading := reading_instance receiver fuel
    have sliced := level.trans (moves_start_slice [] _ _ _ started).1
      (moves_find_exception reading data.typeId fuel [] _ _ _ found).1
    obtain ⟨advanced, inside⟩ := sliced.2 _ idle
    obtain ⟨ended, stack, -⟩ := read_object_run reading read inside
    exact ⟨(opened.before advanced).before ended, stack⟩

end IceTouch.Posting.Nested11
