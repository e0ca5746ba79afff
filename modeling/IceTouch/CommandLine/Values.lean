import IceTouch.CommandLine.Reading
import IceTouch.Library.Lists

/-!
# Values of options

The abstract model: every declaration has one cell, which all names of the option share. The
maps and objects of the class refine a list of cells, and a value that is stored goes into the
cell of its option.
-/

namespace IceTouch.CommandLine

open Bytes WireTypes Escape IceTouch.Lists

structure Declaration where
  shortOpt : Str
  longOpt : Str
  arg : ArgType
  dflt : Str
  repeat_ : RepeatType
deriving DecidableEq

namespace Declaration

variable (d : Declaration)

def names : List Str := [d.shortOpt, d.longOpt].filter (· ≠ [])

def twoNames : Bool := d.shortOpt ≠ [] ∧ d.longOpt ≠ []

def length : LengthType := if d.longOpt ≠ [] then .longOpt else .shortOpt

def synonym (name : Str) : Str :=
  if d.twoNames then if name = d.longOpt then d.shortOpt else d.longOpt else []

theorem mem_names {name : Str} :
    name ∈ d.names ↔ name ≠ [] ∧ (name = d.shortOpt ∨ name = d.longOpt) := by
  simp [names, and_comm]

theorem synonym_mem {name : Str} (some : d.synonym name ≠ []) : d.synonym name ∈ d.names := by
  rw [mem_names]
  refine ⟨some, ?_⟩
  unfold synonym at some ⊢
  split at some
  · rw [if_pos ‹_›]
    split
    · exact .inl rfl
    · exact .inr rfl
  · exact absurd rfl some

theorem names_synonym {name other : Str} (inside : name ∈ d.names) (alsoInside : other ∈ d.names) :
    other = name ∨ other = d.synonym name := by
  rw [mem_names] at inside alsoInside
  obtain ⟨some, isName⟩ := inside
  obtain ⟨otherSome, isOther⟩ := alsoInside
  by_cases same : other = name
  · exact .inl same
  · refine .inr ?_
    have two : d.twoNames = true := by
      unfold twoNames
      obtain rfl | rfl := isName <;> obtain rfl | rfl := isOther <;> simp_all
    rw [synonym, if_pos two]
    obtain rfl | rfl := isName
    · obtain rfl | rfl := isOther
      · exact absurd rfl same
      · rw [if_neg (fun eq => same eq.symm)]
    · obtain rfl | rfl := isOther
      · rw [if_pos rfl]
      · exact absurd rfl same

end Declaration

structure Cell where
  kept : Option Str
  vals : List Str
  hasDefault : Bool
deriving DecidableEq

def Cell.put (rt : RepeatType) (cell : Cell) (val : Str) : Cell :=
  match rt with
  | .noRepeat => { cell with kept := some val }
  | .repeats =>
      if cell.hasDefault ∧ cell.vals.length = 1 then
        { cell with vals := [val], hasDefault := false }
      else { cell with vals := cell.vals ++ [val] }

structure Slot (options : Options) (number : Nat) (d : Declaration) (cell : Cell) : Prop where
  valid : ∀ name ∈ d.names, options.validOpts name = some number
  details : options.details[number]? = some ⟨d.length, d.arg, d.repeat_, cell.hasDefault⟩
  synonym : ∀ name ∈ d.names, options.getSynonym name = d.synonym name
  kept : ∀ name ∈ d.names, options.opts name = cell.kept
  shared : ∀ name ∈ d.names, ∀ other ∈ d.names, options.ropts name = options.ropts other
  unset : ∀ name ∈ d.names, options.ropts name = none → cell.vals = []
  vals : ∀ name ∈ d.names, ∀ vector, options.ropts name = some vector →
    cell.vals ≠ [] ∧ options.vectors[vector]? = some cell.vals

structure Holds (options : Options) (slots : List (Declaration × Cell)) : Prop where
  slot : ∀ number d cell, slots[number]? = some (d, cell) → Slot options number d cell
  count : options.details.length = slots.length
  valid : ∀ name number, options.validOpts name = some number →
    ∃ d cell, slots[number]? = some (d, cell) ∧ name ∈ d.names
  synonymOwned : ∀ name, (options.synonyms name).isSome → (options.validOpts name).isSome
  optsOwned : ∀ name, (options.opts name).isSome → (options.validOpts name).isSome
  roptsOwned : ∀ name, (options.ropts name).isSome → (options.validOpts name).isSome
  inside : ∀ name vector, options.ropts name = some vector → vector < options.vectors.length
  apart : ∀ name other vector, options.ropts name = some vector → options.ropts other = some vector →
    options.validOpts name = options.validOpts other

theorem holds_empty : Holds Options.empty [] where
  slot number d cell found := by cases found
  count := rfl
  valid name number found := by cases found
  synonymOwned name some := by cases some
  optsOwned name some := by cases some
  roptsOwned name some := by cases some
  inside name vector some := by cases some
  apart name other vector some := by cases some

section Holds

variable {options : Options} {slots : List (Declaration × Cell)}

theorem valid_empty (holds : Holds options slots) : options.validOpts [] = none := by
  cases found : options.validOpts [] with
  | none => rfl
  | some number =>
      obtain ⟨d, cell, _, inside⟩ := holds.valid [] number found
      exact absurd rfl (d.mem_names.mp inside).1

theorem slot_unique (holds : Holds options slots) {number other : Nat} {d e : Declaration}
    {cell otherCell : Cell} {name : Str} (found : slots[number]? = some (d, cell))
    (inside : name ∈ d.names) (otherFound : slots[other]? = some (e, otherCell))
    (otherInside : name ∈ e.names) : other = number := by
  have first := (holds.slot number d cell found).valid name inside
  have second := (holds.slot other e otherCell otherFound).valid name otherInside
  rw [first] at second
  exact (Option.some.inj second).symm

section Step

variable {number : Nat} {d : Declaration} {cell : Cell} {name : Str}

theorem set_non_repeating_opts (slot : Slot options number d cell) (inside : name ∈ d.names)
    (val other : Str) :
    (options.setNonRepeatingOpt name val).opts other =
      if other ∈ d.names then some val else options.opts other := by
  have some := (d.mem_names.mp inside).1
  have synonym := slot.synonym name inside
  unfold Options.setNonRepeatingOpt
  rw [if_neg some]
  dsimp only
  rw [synonym]
  by_cases alsoInside : other ∈ d.names
  · rw [if_pos alsoInside]
    obtain rfl | rfl := d.names_synonym inside alsoInside
    · split
      · rw [Function.update_apply]
        split
        · rfl
        · rw [Function.update_self]
      · rw [Function.update_self]
    · rw [if_pos (d.mem_names.mp alsoInside).1, Function.update_self]
  · have notName : other ≠ name := by
      rintro rfl
      exact alsoInside inside
    rw [if_neg alsoInside]
    split
    · have notSynonym : other ≠ d.synonym name := by
        rintro rfl
        exact alsoInside (d.synonym_mem ‹_›)
      rw [Function.update_of_ne notSynonym, Function.update_of_ne notName]
    · rw [Function.update_of_ne notName]

theorem set_non_repeating_rest (options : Options) (name val : Str) :
    let after := options.setNonRepeatingOpt name val
    after.details = options.details ∧ after.validOpts = options.validOpts ∧
      after.synonyms = options.synonyms ∧ after.ropts = options.ropts ∧
      after.vectors = options.vectors := by
  unfold Options.setNonRepeatingOpt
  split <;> exact ⟨rfl, rfl, rfl, rfl, rfl⟩

structure Frame (options after : Options) (number : Nat) (d : Declaration) : Prop where
  validOpts : after.validOpts = options.validOpts
  synonyms : after.synonyms = options.synonyms
  count : after.details.length = options.details.length
  details : ∀ other, other ≠ number → after.details[other]? = options.details[other]?
  opts : ∀ name, name ∉ d.names → after.opts name = options.opts name
  ropts : ∀ name, name ∉ d.names → after.ropts name = options.ropts name
  vectors : ∀ name, name ∉ d.names → ∀ vector, options.ropts name = some vector →
    after.vectors[vector]? = options.vectors[vector]?
  grown : options.vectors.length ≤ after.vectors.length
  inside : ∀ name ∈ d.names, ∀ vector, after.ropts name = some vector →
    vector < after.vectors.length
  fresh : ∀ name ∈ d.names, ∀ vector, after.ropts name = some vector →
    ∀ other, other ∉ d.names → options.ropts other ≠ some vector

section

variable (holds : Holds options slots)

include holds

section

variable (found : slots[number]? = some (d, cell))

include found

theorem slot_frame {after : Options} (frame : Frame options after number d) {other : Nat}
    {e : Declaration} {otherCell : Cell} (isOther : other ≠ number)
    (otherFound : slots[other]? = some (e, otherCell)) : Slot after other e otherCell := by
  have slot := holds.slot other e otherCell otherFound
  have outside : ∀ name ∈ e.names, name ∉ d.names := fun name inside isOwn =>
    isOther (slot_unique holds found isOwn otherFound inside)
  refine ⟨?_, ?_, ?_, ?_, ?_, ?_, ?_⟩
  · rw [frame.validOpts]
    exact slot.valid
  · rw [frame.details other isOther]
    exact slot.details
  · unfold Options.getSynonym
    rw [frame.synonyms]
    exact slot.synonym
  · intro name inside
    rw [frame.opts name (outside name inside)]
    exact slot.kept name inside
  · intro name inside again alsoInside
    rw [frame.ropts name (outside name inside), frame.ropts again (outside again alsoInside)]
    exact slot.shared name inside again alsoInside
  · intro name inside none
    rw [frame.ropts name (outside name inside)] at none
    exact slot.unset name inside none
  · intro name inside vector refers
    rw [frame.ropts name (outside name inside)] at refers
    rw [frame.vectors name (outside name inside) vector refers]
    exact slot.vals name inside vector refers

theorem holds_update {after : Options} {cellAfter : Cell} (frame : Frame options after number d)
    (slot : Slot after number d cellAfter) :
    Holds after (slots.set number (d, cellAfter)) where
  slot other e otherCell looked := by
    obtain ⟨rfl, same⟩ | ⟨isOther, otherFound⟩ := get_set looked
    · cases same
      exact slot
    · exact slot_frame holds found frame isOther otherFound
  count := by rw [frame.count, List.length_set, holds.count]
  valid name other isValid := by
    rw [frame.validOpts] at isValid
    obtain ⟨e, otherCell, otherFound, inside⟩ := holds.valid name other isValid
    by_cases same : other = number
    · subst same
      rw [found] at otherFound
      cases otherFound
      have bound := (List.getElem?_eq_some_iff.mp found).1
      exact ⟨d, cellAfter, List.getElem?_set_self bound, inside⟩
    · exact ⟨e, otherCell, by rw [List.getElem?_set_ne (Ne.symm same), otherFound], inside⟩
  synonymOwned name some := by
    rw [frame.synonyms] at some
    rw [frame.validOpts]
    exact holds.synonymOwned name some
  optsOwned name some := by
    rw [frame.validOpts]
    by_cases own : name ∈ d.names
    · rw [(holds.slot number d cell found).valid name own]
      rfl
    · rw [frame.opts name own] at some
      exact holds.optsOwned name some
  roptsOwned name some := by
    rw [frame.validOpts]
    by_cases own : name ∈ d.names
    · rw [(holds.slot number d cell found).valid name own]
      rfl
    · rw [frame.ropts name own] at some
      exact holds.roptsOwned name some
  inside name vector refers := by
    by_cases own : name ∈ d.names
    · exact frame.inside name own vector refers
    · rw [frame.ropts name own] at refers
      exact (holds.inside name vector refers).trans_le frame.grown
  apart name other vector refers otherRefers := by
    have valid := (holds.slot number d cell found).valid
    rw [frame.validOpts]
    by_cases own : name ∈ d.names
    · by_cases otherOwn : other ∈ d.names
      · rw [valid name own, valid other otherOwn]
      · rw [frame.ropts other otherOwn] at otherRefers
        exact absurd otherRefers (frame.fresh name own vector refers other otherOwn)
    · rw [frame.ropts name own] at refers
      by_cases otherOwn : other ∈ d.names
      · exact absurd refers (frame.fresh other otherOwn vector otherRefers name own)
      · rw [frame.ropts other otherOwn] at otherRefers
        exact holds.apart name other vector refers otherRefers

theorem vector_apart (inside : name ∈ d.names) {vector : Nat}
    (refers : options.ropts name = some vector) {other : Str} (outside : other ∉ d.names) :
    options.ropts other ≠ some vector := by
  intro otherRefers
  have same := holds.apart name other vector refers otherRefers
  rw [(holds.slot number d cell found).valid name inside] at same
  obtain ⟨e, otherCell, otherFound, otherInside⟩ := holds.valid other number same.symm
  rw [found] at otherFound
  cases otherFound
  exact outside otherInside

theorem holds_set_non_repeating (inside : name ∈ d.names) (val : Str) :
    Holds (options.setNonRepeatingOpt name val)
      (slots.set number (d, { cell with kept := some val })) := by
  have slot := holds.slot number d cell found
  have opts := set_non_repeating_opts slot inside val
  obtain ⟨details, validOpts, synonyms, ropts, vectors⟩ := set_non_repeating_rest options name val
  refine holds_update holds found ?_ ?_
  · refine ⟨validOpts, synonyms, by rw [details], fun _ _ => by rw [details], ?_, ?_, ?_, ?_, ?_, ?_⟩
    · intro other outside
      rw [opts other, if_neg outside]
    · intro other _
      rw [ropts]
    · intro other _ vector _
      rw [vectors]
    · rw [vectors]
    · intro other _ vector refers
      rw [ropts] at refers
      rw [vectors]
      exact holds.inside other vector refers
    · intro other isOwn vector refers again outside
      rw [ropts] at refers
      exact vector_apart holds found isOwn refers outside
  · refine ⟨by rw [validOpts]; exact slot.valid, by rw [details]; exact slot.details, ?_, ?_, ?_,
      ?_, ?_⟩
    · unfold Options.getSynonym
      rw [synonyms]
      exact slot.synonym
    · intro other isOwn
      rw [opts other, if_pos isOwn]
    · rw [ropts]
      exact slot.shared
    · rw [ropts]
      exact slot.unset
    · rw [ropts, vectors]
      exact slot.vals

theorem ropts_synonym (inside : name ∈ d.names) (unset : options.ropts name = none) :
    options.ropts (d.synonym name) = none := by
  by_cases some : d.synonym name = []
  · rw [some]
    cases refers : options.ropts [] with
    | none => rfl
    | some vector =>
        have owned := holds.roptsOwned [] (by rw [refers]; rfl)
        rw [valid_empty holds] at owned
        cases owned
  · have slot := holds.slot number d cell found
    rw [slot.shared _ (d.synonym_mem some) name inside, unset]

theorem holds_new_vector (inside : name ∈ d.names) (unset : options.ropts name = none) (val : Str) :
    Holds (options.setRepeatingOpt name val)
      (slots.set number (d, { cell with vals := [val] })) := by
  have slot := holds.slot number d cell found
  have nonempty := (d.mem_names.mp inside).1
  have synonym := slot.synonym name inside
  have synonymUnset := ropts_synonym holds found inside unset
  have stepped : options.setRepeatingOpt name val =
      { options with
        vectors := options.vectors ++ [[val]]
        ropts :=
          if d.synonym name ≠ [] then
            Function.update (Function.update options.ropts name (some options.vectors.length))
              (d.synonym name) (some options.vectors.length)
          else Function.update options.ropts name (some options.vectors.length) } := by
    unfold Options.setRepeatingOpt
    rw [if_neg nonempty]
    dsimp only
    rw [synonym, unset, synonymUnset]
  have ropts (other : Str) : (options.setRepeatingOpt name val).ropts other =
      if other ∈ d.names then some options.vectors.length else options.ropts other := by
    rw [stepped]
    dsimp only
    by_cases isOwn : other ∈ d.names
    · rw [if_pos isOwn]
      obtain rfl | rfl := d.names_synonym inside isOwn
      · split
        · rw [Function.update_apply]
          split
          · rfl
          · rw [Function.update_self]
        · rw [Function.update_self]
      · rw [if_pos (d.mem_names.mp isOwn).1, Function.update_self]
    · have notName : other ≠ name := by
        rintro rfl
        exact isOwn inside
      rw [if_neg isOwn]
      split
      · have notSynonym : other ≠ d.synonym name := by
          rintro rfl
          exact isOwn (d.synonym_mem ‹_›)
        rw [Function.update_of_ne notSynonym, Function.update_of_ne notName]
      · rw [Function.update_of_ne notName]
  have vectors : (options.setRepeatingOpt name val).vectors = options.vectors ++ [[val]] := by
    rw [stepped]
  refine holds_update holds found ?_ ?_
  · refine ⟨by rw [stepped], by rw [stepped], by rw [stepped], fun _ _ => by rw [stepped],
      fun _ _ => by rw [stepped], ?_, ?_, ?_, ?_, ?_⟩
    · intro other outside
      rw [ropts other, if_neg outside]
    · intro other _ vector refers
      rw [vectors, List.getElem?_append_left (holds.inside other vector refers)]
    · rw [vectors, List.length_append]
      exact Nat.le_add_right _ _
    · intro other isOwn vector refers
      rw [ropts other, if_pos isOwn] at refers
      cases refers
      rw [vectors, List.length_append]
      exact Nat.lt_succ_self _
    · intro other isOwn vector refers again _ againRefers
      rw [ropts other, if_pos isOwn] at refers
      cases refers
      exact absurd (holds.inside again _ againRefers) (Nat.lt_irrefl _)
  · refine ⟨by rw [stepped]; exact slot.valid, by rw [stepped]; exact slot.details,
      by rw [stepped]; exact slot.synonym, by rw [stepped]; exact slot.kept, ?_, ?_, ?_⟩
    · intro other isOwn again alsoOwn
      rw [ropts other, ropts again, if_pos isOwn, if_pos alsoOwn]
    · intro other isOwn none
      rw [ropts other, if_pos isOwn] at none
      cases none
    · intro other isOwn vector refers
      rw [ropts other, if_pos isOwn] at refers
      cases refers
      rw [vectors, List.getElem?_append_right (Nat.le_refl _), Nat.sub_self]
      exact ⟨List.cons_ne_nil _ _, rfl⟩

theorem holds_old_vector (inside : name ∈ d.names) {vector : Nat}
    (refers : options.ropts name = some vector) (vals : List Str) (nonempty : vals ≠ [])
    (hasDefault : Bool) {details : List OptionDetails}
    (count : details.length = options.details.length)
    (others : ∀ other, other ≠ number → details[other]? = options.details[other]?)
    (own : details[number]? = some ⟨d.length, d.arg, d.repeat_, hasDefault⟩) :
    Holds { options with vectors := options.vectors.set vector vals, details := details }
      (slots.set number (d, { cell with vals := vals, hasDefault := hasDefault })) := by
  have slot := holds.slot number d cell found
  have bound := holds.inside name vector refers
  refine holds_update holds found ?_ ?_
  · refine ⟨rfl, rfl, count, others, fun _ _ => rfl, fun _ _ => rfl, ?_, ?_, ?_, ?_⟩
    · intro other outside otherVector otherRefers
      have apart : vector ≠ otherVector := by
        rintro rfl
        exact vector_apart holds found inside refers outside otherRefers
      exact List.getElem?_set_ne apart
    · rw [List.length_set]
    · intro other _ otherVector otherRefers
      rw [List.length_set]
      exact holds.inside other otherVector otherRefers
    · intro other isOwn otherVector otherRefers again outside
      exact vector_apart holds found isOwn otherRefers outside
  · refine ⟨slot.valid, own, slot.synonym, slot.kept, slot.shared, ?_, ?_⟩
    · intro other isOwn none
      rw [slot.shared other isOwn name inside, refers] at none
      cases none
    · intro other isOwn otherVector otherRefers
      rw [slot.shared other isOwn name inside, refers] at otherRefers
      cases otherRefers
      exact ⟨nonempty, List.getElem?_set_self bound⟩

theorem holds_set_repeating (inside : name ∈ d.names) (val : Str) :
    Holds (options.setRepeatingOpt name val) (slots.set number (d, cell.put .repeats val)) := by
  have slot := holds.slot number d cell found
  cases refers : options.ropts name with
  | none =>
      have none := slot.unset name inside refers
      have put : cell.put .repeats val = { cell with vals := [val] } := by
        rw [Cell.put, none, if_neg (by simp), List.nil_append]
      rw [put]
      exact holds_new_vector holds found inside refers val
  | some vector =>
      obtain ⟨nonempty, isVector⟩ := slot.vals name inside vector refers
      have details := slot.details
      have detailsBound := (List.getElem?_eq_some_iff.mp details).1
      have stepped : options.setRepeatingOpt name val = options.addTo name vector val := by
        unfold Options.setRepeatingOpt
        rw [if_neg (d.mem_names.mp inside).1, refers]
      have current : options.vectors.getD vector [] = cell.vals := by
        rw [List.getD_eq_getElem?_getD, isVector]
        rfl
      rw [stepped, Options.addTo, slot.valid name inside]
      dsimp only
      rw [details, current]
      dsimp only [Cell.put]
      by_cases replaced : cell.hasDefault = true ∧ cell.vals.length = 1
      · rw [if_pos replaced, if_pos replaced]
        refine holds_old_vector holds found inside refers [val] (List.cons_ne_nil _ _) false
          List.length_set ?_ (List.getElem?_set_self detailsBound)
        intro other isOther
        exact List.getElem?_set_ne (Ne.symm isOther)
      · rw [if_neg replaced, if_neg replaced]
        exact holds_old_vector holds found inside refers (cell.vals ++ [val]) (by simp)
          cell.hasDefault rfl (fun _ _ => rfl) details

end

end

end Step

end Holds

end IceTouch.CommandLine
