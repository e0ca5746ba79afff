import IceTouch.Decoder10
import IceTouch.Posting.Steps

/-!
# Posting in encoding 1.0

References are numbers, and the instances follow one after the other in `readPendingObjects`. No
instance is read inside another, so a number that is used twice does no harm.
-/

namespace IceTouch.Posting.Pending10

open WireTypes StreamHelpers InStream Classes Decoder
open Decoder10 Run
open Encoder11 (SliceType)

variable {α : Type} {known : List Nat} {receiver : Receiver} {fuel : Nat}

def ledger : Ledger SliceData where
  owes := fun _ => []
  fine := fun _ _ => True

abbrev growth : Growth EncapsDecoder10 := stepping ledger

theorem moves_slice_data (change : SliceData → SliceData) : Moves growth (modifySliceData change) :=
  moves_decoder fun decoder => .restate decoder _ decoder.typeIdMap rfl id

theorem moves_data : Issues growth known sliceData fun _ => [] := .get fun _ => .nothing

theorem issues_read (known : List Nat) : Issues growth known Decoder10.read fun handle => [handle] := by
  intro before value after ran
  obtain ⟨handle, first, allocated, ran⟩ := of_bind_ok ran
  obtain ⟨rfl, fresh⟩ := new_cell_run allocated
  obtain ⟨index, second, read, ran⟩ := of_bind_ok ran
  have same := still_run moves_int read
  obtain ⟨_, third, noted, ran⟩ := of_bind_ok ran
  cases noted
  have paid : value = before.decoder.handles.length ∧
      Steps ledger [before.decoder.handles.length] first.decoder after.decoder := by
    rw [← same]
    split at ran
    · cases ran
    · split at ran
      · cases ran
      · split at ran
        · obtain ⟨_, fourth, set, ran⟩ := of_bind_ok ran
          cases set
          cases ran
          exact ⟨rfl, .patchNil _ _⟩
        · obtain ⟨_, fourth, added, ran⟩ := of_bind_ok ran
          obtain ⟨numbered, done⟩ := add_entry_run added
          cases ran
          rw [done]
          exact ⟨rfl, .addEntry _ numbered⟩
  obtain ⟨rfl, steps⟩ := paid
  rw [fresh] at steps
  refine ⟨steps.cell, fun name member => ?_⟩
  rw [List.mem_singleton.mp member]
  have grown := steps.grows
  simp only [List.length_append, List.length_singleton] at grown
  exact Or.inr ⟨le_rfl, grown⟩

theorem moves_slice_type_id (data : SliceData) : Moves growth (readSliceTypeId data) := by
  have fine : ∀ (decoder : EncapsDecoder10) (typeIds : List Str),
      growth.moves decoder { decoder with typeIdMap := typeIds } := fun decoder typeIds =>
    Steps.restate decoder decoder.own typeIds rfl id
  exact fun _ => .ite (.bind (moves_bool _) fun isIndex => moves_type_id fine isIndex _)
    (moves_string _)

theorem moves_start_slice : Moves growth startSlice :=
  fun _ => .bind moves_data fun _ => .ite (moves_slice_data _ _)
    (.bind (moves_slice_type_id _ _) fun _ => .bind (moves_int _) fun _ =>
      .ite .throw (moves_slice_data _ _))

theorem moves_skip_slice : Moves growth skipSlice :=
  fun _ => .bind moves_data fun _ => .ite .throw (moves_skip _ _)

theorem moves_start_instance (sliceType : SliceType) : Moves growth (startInstance sliceType) :=
  fun _ => .bind moves_data fun _ => .ite (moves_slice_data _ _) .throw

theorem moves_object_slice : Moves growth readObjectSlice :=
  fun _ => .bind (moves_start_slice _) fun _ => .bind (moves_size _) fun _ => .ite .throw .nothing

theorem moves_end_instance : Moves growth endInstance :=
  fun _ => .bind moves_data fun _ =>
    .ite (.bind (moves_object_slice _) fun _ => moves_slice_data _ _) (moves_slice_data _ _)

theorem issues_slice (slice : SliceDef) :
    Issues growth known (readSlice receiver fuel slice) sliceRefs := by
  refine .bind (moves_start_slice _) fun _ => .bind (issues_members issues_read _ _) fun members =>
    .bind (issues_optionals (fun _ _ _ => .pure (List.nil_subset _)) _ _ _) fun optionals => .pure ?_
  rw [List.append_assoc]
  exact List.subset_append_right _ _

theorem issues_slices (slices : List SliceDef) :
    ∀ known, Issues growth known (readSlices receiver fuel slices) fun insts =>
      insts.flatMap sliceRefs := by
  induction slices with
  | nil => exact fun _ => .pure (List.nil_subset _)
  | cons slice rest ih =>
      intro known
      refine .bind (issues_slice slice) fun inst => .bind (ih _) fun insts => .pure ?_
      rw [List.flatMap_cons, List.append_assoc]
      exact List.subset_append_right _ _

theorem issues_object (sliceType : SliceType) (classDef : ClassDef) :
    Issues growth known (readObject receiver fuel sliceType classDef) cells := by
  refine .bind (moves_start_instance _ _) fun _ => .bind (issues_slices _ _) fun slices =>
    .bind (moves_end_instance _) fun _ => .pure ?_
  rw [cells, List.flatMap_nil, List.append_nil, List.append_nil]
  exact List.subset_append_right _ _

theorem moves_find_instance (mostDerivedId : Str) (fuel : Nat) :
    Moves growth (findInstance receiver mostDerivedId fuel) := by
  induction fuel with
  | zero => exact fun _ => .throw
  | succ fuel ih =>
      intro known
      refine .bind moves_data fun data => .ite .throw ?_
      split
      · exact .nothing
      · exact .ite .throw (.bind (moves_skip_slice _) fun _ => .bind (moves_start_slice _)
          fun _ => ih _)

theorem moves_find_exception (fuel : Nat) : Moves growth (findException receiver fuel) := by
  induction fuel with
  | zero => exact fun _ => .throw
  | succ fuel ih =>
      intro known
      refine .bind moves_data fun data => ?_
      split
      · exact .nothing
      · exact .bind (moves_skip_slice _) fun _ => .bind (moves_start_slice _) fun _ => ih _

/-- No instance is being read. -/
def between : Growth EncapsDecoder10 where
  moves := fun before after => ∀ owed, Tracked [] owed before → Tracked [] owed after
  size := fun _ => 0
  refl := fun _ _ => id
  trans := fun one two owed tracked => two owed (one owed tracked)
  grows := fun _ => le_rfl

theorem Issues.between {reader : Decoder10M α} {names : α → List Nat}
    (issues : Issues growth [] reader names) : Moves between reader := by
  intro known before value after ran
  refine ⟨fun owed tracked => ?_, by simp⟩
  exact (issues before value after ran).1.tracked trivial [] owed tracked

theorem moves_unmarshal (index : Nat) (classDef : ClassDef) :
    Moves between (unmarshal index (readObject receiver fuel .objectSlice classDef)) := by
  intro known before id after ran
  refine ⟨fun owed tracked => ?_, by simp⟩
  refine @Tracked.unmarshal _ ledger _ _ _ _ _ _ _ tracked trivial (Or.inr rfl) ?_ ran
  intro obj middle read
  obtain ⟨steps, new⟩ := issues_object .objectSlice classDef _ obj middle read
  exact ⟨steps, rfl, fun handle member => (new handle member).resolve_left List.not_mem_nil⟩

theorem moves_instance : Moves between (readInstance receiver fuel) := by
  intro known
  refine .bind (moves_int _) fun index => .ite .throw ?_
  exact .bind (Issues.between (moves_slice_data _ _) _) fun _ =>
    .bind (Issues.between (moves_start_slice _) _) fun _ =>
      .bind (.get fun _ => .nothing) fun data =>
        .bind (Issues.between (moves_find_instance _ _ _) _) fun classDef =>
          .bind (moves_unmarshal _ _ _) fun _ => .nothing

theorem moves_sequences (fuel : Nat) : Moves between (readSequences receiver fuel) := by
  induction fuel with
  | zero => exact fun _ => .throw
  | succ fuel ih =>
      exact fun _ => .bind (moves_size _) fun num => .bind (moves_times moves_instance num _)
        fun _ => .ite .nothing (ih _)

theorem moves_pending_objects : Moves between (readPendingObjects receiver fuel) :=
  fun _ => .bind (moves_sequences fuel _) fun _ => .bind (.get fun _ => .ite .nothing .throw)
    fun _ => moves_record _ _

theorem moves_exception : Moves between (throwException receiver fuel) := by
  intro known
  refine .bind (.get fun _ => .nothing) fun data => .ite .throw ?_
  exact .bind (moves_bool _) fun usesClasses =>
    .bind (Issues.between (moves_slice_data _ _) _) fun _ =>
      .bind (Issues.between (moves_start_slice _) _) fun _ =>
        .bind (Issues.between (moves_find_exception _ _) _) fun classDef =>
          .bind (Issues.between (issues_object _ _) _) fun obj =>
            .ite (.bind (moves_pending_objects _) fun _ => .nothing) .nothing

end IceTouch.Posting.Pending10
