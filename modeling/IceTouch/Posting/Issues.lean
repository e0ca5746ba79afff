import IceTouch.Posting.Tracked

/-!
# Readers that hand out new cells

What the generic readers of a stream do to its decoder. They change it only through the reader
of class references, and the references in the values they return are cells that were allocated
meanwhile.
-/

namespace IceTouch.Posting

open Bytes WireTypes StreamHelpers InStream Run

variable {δ α β : Type}

structure Growth (δ : Type) where
  moves : δ → δ → Prop
  size : δ → Nat
  refl : ∀ decoder, moves decoder decoder
  trans : ∀ {first second third}, moves first second → moves second third → moves first third
  grows : ∀ {before after}, moves before after → size before ≤ size after

variable {growth : Growth δ} {known : List Nat}

def Issues (growth : Growth δ) (known : List Nat) (reader : Reader δ α) (names : α → List Nat) :
    Prop :=
  ∀ before value after, reader before = .ok value after →
    growth.moves before.decoder after.decoder ∧ ∀ name ∈ names value, name ∈ known ∨
      growth.size before.decoder ≤ name ∧ name < growth.size after.decoder

abbrev Moves (growth : Growth δ) (reader : Reader δ α) : Prop :=
  ∀ known, Issues growth known reader fun _ => []

namespace Issues

theorem bind {first : Reader δ α} {next : α → Reader δ β} {early : α → List Nat} {all : β → List Nat}
    (one : Issues growth known first early)
    (two : ∀ value, Issues growth (known ++ early value) (next value) all) :
    Issues growth known (first >>= next) all := by
  intro before value after ran
  obtain ⟨found, middle, begun, ended⟩ := of_bind_ok ran
  obtain ⟨moved, fresh⟩ := one before found middle begun
  obtain ⟨onward, later⟩ := two found middle value after ended
  refine ⟨growth.trans moved onward, fun name member => ?_⟩
  rcases later name member with old | ⟨least, bound⟩
  · rcases List.mem_append.mp old with old | new
    · exact Or.inl old
    · rcases fresh name new with old | ⟨least, bound⟩
      · exact Or.inl old
      · exact Or.inr ⟨least, bound.trans_le (growth.grows onward)⟩
  · exact Or.inr ⟨(growth.grows moved).trans least, bound⟩

variable {names : α → List Nat}

theorem pure {value : α} (old : names value ⊆ known) : Issues growth known (pure value) names := by
  intro before found after ran
  cases ran
  exact ⟨growth.refl _, fun name member => Or.inl (old member)⟩

theorem nothing {value : α} : Issues growth known (Pure.pure value) fun _ => [] :=
  pure (List.nil_subset _)

theorem throw {failure : Failure} : Issues growth known (throw failure : Reader δ α) names := by
  intro before found after ran
  cases ran

theorem ite {condition : Prop} [Decidable condition] {first second : Reader δ α}
    (one : Issues growth known first names) (two : Issues growth known second names) :
    Issues growth known (if condition then first else second) names := by
  split
  · exact one
  · exact two

theorem get {next : ReadStream δ → Reader δ α}
    (continued : ∀ stream, Issues growth known (next stream) names) :
    Issues growth known (get >>= next) names := by
  intro before value after ran
  exact continued before before value after ran

variable {reader : Reader δ α}

theorem still
    (same : ∀ before value after, reader before = .ok value after → after.decoder = before.decoder) :
    Issues growth known reader fun _ => [] := by
  intro before value after ran
  rw [same before value after ran]
  exact ⟨growth.refl _, by simp⟩

theorem modify {change : ReadStream δ → ReadStream δ}
    (same : ∀ stream, (change stream).decoder = stream.decoder) :
    Issues growth known (modify change : Reader δ PUnit) fun _ => [] := by
  refine still fun before value after ran => ?_
  cases ran
  exact same before

theorem times {each : Reader δ α} (one : ∀ known, Issues growth known each names) (count : Nat) :
    ∀ known, Issues growth known (repeatRun count each) fun values => values.flatMap names := by
  induction count with
  | zero => exact fun _ => pure (List.nil_subset _)
  | succ count ih =>
      intro known
      refine bind (one known) fun value => bind (ih _) fun values => pure ?_
      rw [List.flatMap_cons, List.append_assoc]
      exact List.subset_append_right _ _

theorem weaken {other : Growth δ} (issues : Issues growth known reader names)
    (weaker : ∀ first second, growth.moves first second → other.moves first second)
    (same : other.size = growth.size) : Issues other known reader names := by
  intro before value after ran
  obtain ⟨moved, fresh⟩ := issues before value after ran
  rw [same]
  exact ⟨weaker _ _ moved, fresh⟩

end Issues

/-- The decoder does not change. -/
def fixed (δ : Type) : Growth δ where
  moves := Eq
  size := fun _ => 0
  refl := fun _ => rfl
  trans := Eq.trans
  grows := fun _ => le_rfl

theorem still_run {reader : Reader δ α} (moves : Moves (fixed δ) reader) {before after : ReadStream δ}
    {value : α} (ran : reader before = .ok value after) : after.decoder = before.decoder :=
  ((moves [] before value after ran).1).symm

theorem moves_byte : Moves growth readByte := by
  intro known
  refine .still fun before value after ran => ?_
  unfold readByte at ran
  split at ran
  · cases ran
    rfl
  · cases ran

theorem moves_blob (count : Nat) : Moves growth (readBlob count) := by
  intro known
  refine .still fun before value after ran => ?_
  unfold readBlob at ran
  split at ran
  · cases ran
    rfl
  · cases ran

theorem moves_unchecked (count : Nat) : Moves growth (readUnchecked count) := by
  intro known
  refine .still fun before value after ran => ?_
  unfold readUnchecked at ran
  split at ran
  · cases ran
    rfl
  · cases ran

theorem moves_skip (size : Int) : Moves growth (skip size) := by
  intro known
  refine .still fun before value after ran => ?_
  unfold skip at ran
  split at ran
  · cases ran
  · split at ran
    · cases ran
    · cases ran
      rfl

theorem moves_record (event : WireEvent) : Moves growth (record event) :=
  fun _ => .modify fun _ => rfl

theorem moves_word (width : Nat) : Moves growth (readWord width) :=
  fun _ => .bind (moves_blob _ _) fun _ => .nothing

theorem moves_int : Moves growth readInt :=
  fun _ => .bind (moves_word _ _) fun _ => .nothing

theorem moves_bool : Moves growth readBool :=
  fun _ => .bind (moves_byte _) fun _ => .nothing

theorem moves_size : Moves growth readSize :=
  fun _ => .bind (moves_byte _) fun _ =>
    .ite (.bind (moves_int _) fun _ => .ite .throw .nothing) .nothing

theorem moves_string : Moves growth readString :=
  fun _ => .bind (moves_size _) fun _ => .ite (moves_blob _ _) .nothing

theorem moves_skip_size : Moves growth skipSize :=
  fun _ => .bind (moves_byte _) fun _ => .ite (moves_skip _ _) .nothing

theorem moves_seq_size (minSize : Nat) : Moves growth (readAndCheckSeqSize minSize) :=
  fun _ => .bind (moves_size _) fun _ => .ite .nothing (.get fun _ =>
    .bind (moves_record _ _) fun _ => .bind (.modify fun _ => rfl) fun _ => .ite .throw .nothing)

theorem moves_enum (encoding : Encoding) (maxValue : Nat) :
    Moves growth (readEnum encoding maxValue) := by
  intro known
  cases encoding with
  | v10 =>
      exact .ite (.bind (moves_byte _) fun _ => .nothing)
        (.ite (.bind (moves_word _ _) fun _ => .nothing) (moves_int _))
  | v11 => exact .bind (moves_size _) fun _ => .nothing

theorem moves_check_enum (range : EnumRange) (value : Int) : Moves growth (checkEnum range value) := by
  intro known
  unfold checkEnum
  split
  · exact .nothing
  · exact .throw

theorem moves_version : Moves growth readVersion :=
  fun _ => .bind (moves_byte _) fun _ => .bind (moves_byte _) fun _ => .nothing

theorem moves_optional_tag (byte : Byte) : Moves growth (optionalTag byte) :=
  fun _ => .ite (moves_size _) .nothing

theorem moves_skip_tag (byte : Byte) : Moves growth (skipTag byte) :=
  fun _ => .ite (moves_skip_size _) .nothing

theorem moves_rewind (count : Nat) : Moves growth (rewind count) :=
  fun _ => .modify fun _ => rfl

section Skip

variable {skipRef : Reader δ Unit}

theorem moves_skip_opt (skips : Moves growth skipRef) (format : OptionalFormat) :
    Moves growth (skipOpt skipRef format) := by
  intro known
  cases format with
  | f1 | f2 | f4 | f8 => exact moves_skip _ _
  | size => exact moves_skip_size _
  | vSize => exact .bind (moves_size _) fun _ => moves_skip _ _
  | fSize => exact .bind (moves_int _) fun _ => .bind (moves_record _ _) fun _ => moves_skip _ _
  | cls => exact skips known

theorem moves_skip_opts (skips : Moves growth skipRef) (fuel : Nat) :
    Moves growth (skipOpts skipRef fuel) := by
  induction fuel with
  | zero => exact fun _ => .throw
  | succ fuel ih =>
      intro known
      exact .get fun _ => .ite .nothing (.bind (moves_byte _) fun _ => .ite .nothing
        (.bind (moves_skip_tag _ _) fun _ => .bind (moves_skip_opt skips _ _) fun _ => ih _))

theorem moves_read_opt (skips : Moves growth skipRef) (tag : Nat) (format : OptionalFormat)
    (fuel : Nat) : Moves growth (readOptImpl skipRef tag format fuel) := by
  induction fuel with
  | zero => exact fun _ => .throw
  | succ fuel ih =>
      intro known
      exact .get fun _ => .ite .nothing (.bind (moves_byte _) fun _ =>
        .ite (.bind (moves_rewind _ _) fun _ => .nothing)
          (.bind (moves_optional_tag _ _) fun _ =>
            .ite (.bind (moves_rewind _ _) fun _ => .nothing)
              (.ite (.bind (moves_skip_opt skips _ _) fun _ => ih _) (.ite .throw .nothing))))

end Skip

theorem moves_encaps (fresh : δ) (skipRef : Reader δ Unit) (body : Encoding → Nat → Reader δ α) :
    Moves growth (withEncaps fresh skipRef body) := by
  intro known
  refine .still fun before value after ran => ?_
  unfold withEncaps at ran
  rw [bind_get] at ran
  obtain ⟨size, first, -, ran⟩ := of_bind_ok ran
  split at ran
  · cases ran
  · split at ran
    · cases ran
    · rw [bind_modify] at ran
      obtain ⟨version, second, -, ran⟩ := of_bind_ok ran
      obtain ⟨encoding, third, -, ran⟩ := of_bind_ok ran
      obtain ⟨found, fourth, -, ran⟩ := of_bind_ok ran
      obtain ⟨_, fifth, -, ran⟩ := of_bind_ok ran
      cases ran
      rfl

theorem moves_endpoint (fresh : δ) (skipRef : Reader δ Unit) :
    Moves growth (readEndpoint fresh skipRef) := by
  intro known
  refine .bind (moves_word _ _) fun type => ?_
  split
  · exact moves_encaps _ _ _ _
  · split
    · exact moves_encaps _ _ _ _
    · exact moves_encaps _ _ _ _

theorem moves_mode (value : Byte) : Moves growth (modeOfByte value) :=
  fun _ => .ite .nothing (.ite .nothing (.ite .nothing (.ite .nothing (.ite .nothing .throw))))

theorem moves_times {each : Reader δ α} (one : Moves growth each) (count : Nat) :
    Moves growth (repeatRun count each) := by
  induction count with
  | zero => exact fun _ => .nothing
  | succ count ih => exact fun _ => .bind (one _) fun _ => .bind (ih _) fun _ => .nothing

theorem moves_facet : Moves growth readFacet := by
  intro known
  refine .bind (moves_seq_size _ _) fun size => .bind (moves_times moves_string size _) fun path => ?_
  split
  · exact .nothing
  · exact .nothing
  · exact .throw

theorem moves_target (fresh : δ) (skipRef : Reader δ Unit) :
    Moves growth (readTarget fresh skipRef) :=
  fun _ => .bind (moves_size _) fun size =>
    .ite (.bind (moves_times (moves_endpoint _ _) size _) fun _ => .nothing)
      (.bind (moves_string _) fun _ => .nothing)

theorem moves_versions (encoding : Encoding) : Moves growth (readVersions encoding) := by
  intro known
  cases encoding with
  | v10 => exact .nothing
  | v11 => exact .bind (moves_version _) fun _ => .bind (moves_version _) fun _ => .nothing

theorem moves_proxy (encoding : Encoding) (fresh : δ) (skipRef : Reader δ Unit) :
    Moves growth (readProxy encoding fresh skipRef) := by
  intro known
  refine .bind (moves_string _) fun name => .bind (moves_string _) fun category => ?_
  split
  · exact .nothing
  · exact .bind (moves_facet _) fun _ => .bind (moves_byte _) fun _ => .bind (moves_mode _ _)
      fun _ => .bind (moves_bool _) fun _ => .bind (moves_versions _ _) fun _ =>
        .bind (moves_target _ _ _) fun _ => .nothing

section Values

variable {encoding : Encoding} {refs : RefReader δ Nat}

theorem moves_bulk (type : WireType) (reader : Reader δ (Value Nat type))
    (bulk : bulkElement Nat type = some reader) : Issues growth known reader (classRefs type) := by
  cases type with
  | bool | byte | short | int | long | float | double =>
      cases bulk
      exact .bind (moves_unchecked _ _) fun _ => .nothing
  | _ => cases bulk

section

variable (reads : ∀ known, Issues growth known refs.read fun handle => [handle])

include reads

theorem issues_read (type : WireType) :
    ∀ known, Issues growth known (read encoding refs type) (classRefs type) := by
  induction type with
  | bool => exact moves_bool
  | byte => exact moves_byte
  | short => exact moves_word 16
  | int => exact moves_word 32
  | long => exact moves_word 64
  | float => exact moves_word 32
  | double => exact moves_word 64
  | string => exact moves_string
  | enum range => exact fun _ => .bind (moves_enum _ _ _) fun _ => moves_check_enum _ _ _
  | sequence element ih =>
      intro known
      refine .bind (moves_seq_size _ _) fun size => .times (fun known => ?_) size _
      cases bulk : bulkElement Nat element with
      | none => exact ih known
      | some reader => exact moves_bulk element reader bulk
  | dictionary key value keys values =>
      intro known
      refine .bind (moves_size _) fun size => .times (fun known => ?_) size _
      refine .bind (keys known) fun entryKey => .bind (values _) fun entryValue => .pure ?_
      rw [List.append_assoc]
      exact List.subset_append_right _ _
  | struct last ih => exact ih
  | structCons first rest firsts rests =>
      intro known
      refine .bind (firsts known) fun member => .bind (rests _) fun members => .pure ?_
      rw [List.append_assoc]
      exact List.subset_append_right _ _
  | proxy => exact moves_proxy _ _ _
  | cls => exact reads

theorem issues_members (types : List WireType) :
    ∀ known, Issues growth known (readMembers encoding refs types) (memberRefs types) := by
  induction types with
  | nil => exact fun _ => .nothing
  | cons type types ih =>
      intro known
      refine .bind (issues_read reads type known) fun member => .bind (ih _) fun members => .pure ?_
      rw [List.append_assoc]
      exact List.subset_append_right _ _

def optionRefs (type : WireType) (value : Option (Value Nat type)) : List Nat :=
  value.toList.flatMap (classRefs type)

theorem issues_optional (type : WireType) :
    ∀ known, Issues growth known (readOptional refs type) (classRefs type) := by
  intro known
  unfold readOptional
  split
  · exact issues_read reads type known
  · exact .bind (moves_skip_size _) fun _ => issues_read reads type _
  · exact .bind (moves_skip_size _) fun _ => issues_read reads type _
  · exact .bind (moves_skip _ _) fun _ => issues_read reads type _

theorem issues_tagged (skips : Moves growth refs.skip) (fuel tag : Nat) (type : WireType) :
    ∀ known, Issues growth known (readTagged refs fuel tag type) (optionRefs type) := by
  intro known
  refine .bind (moves_read_opt skips _ _ _ _) fun present => .ite ?_ (.pure (List.nil_subset _))
  refine .bind (issues_optional reads type _) fun value => .pure ?_
  rw [optionRefs, Option.toList_some, List.flatMap_singleton]
  exact List.subset_append_right _ _

end

theorem issues_optionals {readOne : (tag : Nat) → (type : WireType) →
      Reader δ (Option (Value Nat type))}
    (one : ∀ tag type known, Issues growth known (readOne tag type) (optionRefs type))
    (knows : Nat → Bool) (defs : List (Nat × WireType)) :
    ∀ known, Issues growth known (readOptionals knows readOne defs) (optionalRefs defs) := by
  induction defs with
  | nil => exact fun _ => .nothing
  | cons d rest ih =>
      obtain ⟨tag, type⟩ := d
      intro known
      have member : ∀ known, Issues growth known (readKnown knows readOne tag type) (optionRefs type) :=
        fun known => .ite (one tag type known) (.pure (List.nil_subset _))
      refine .bind (member known) fun value => .bind (ih _) fun values => .pure ?_
      rw [List.append_assoc]
      exact List.subset_append_right _ _

end Values

end IceTouch.Posting
