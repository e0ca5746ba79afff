import IceTouch.CommandLine.Values
import IceTouch.Library.Results

/-!
# Declared options

Options that were declared one after the other hold the cells of their declarations, and what
`parse` stores goes into these cells.
-/

namespace IceTouch.CommandLine

open Bytes WireTypes Escape IceTouch.Lists Results

def Cell.puts (rt : RepeatType) (cell : Cell) (vals : List Str) : Cell := vals.foldl (Cell.put rt) cell

namespace Declaration

variable (d : Declaration)

def start : Cell := ⟨none, [], d.dflt ≠ []⟩

def cell : Cell :=
  if d.arg = .needArg ∧ d.dflt ≠ [] then d.start.puts d.repeat_ (d.names.map fun _ => d.dflt)
  else d.start

end Declaration

section Declare

variable {options : Options} {slots : List (Declaration × Cell)}

/-- One of the two setters that `setOpt` calls. -/
def Options.setOne (options : Options) (rt : RepeatType) (opt val : Str) : Options :=
  match rt with
  | .noRepeat => options.setNonRepeatingOpt opt val
  | .repeats => options.setRepeatingOpt opt val

theorem set_opt_ones (options : Options) (opt1 opt2 val : Str) (rt : RepeatType) :
    options.setOpt opt1 opt2 val rt = (options.setOne rt opt1 val).setOne rt opt2 val := by
  cases rt <;> rfl

theorem set_one_empty (options : Options) (rt : RepeatType) (val : Str) :
    options.setOne rt [] val = options := by
  cases rt <;> rfl

variable {opt : Str}

variable {number : Nat} {after : Options}

theorem holds_set_one (holds : Holds options slots) {d : Declaration} {cell : Cell}
    (found : slots[number]? = some (d, cell)) (own : opt ≠ [] → opt ∈ d.names) (val : Str)
    (rt : RepeatType) :
    Holds (options.setOne rt opt val)
      (slots.set number (d, cell.puts rt (([opt].filter (· ≠ [])).map fun _ => val))) := by
  by_cases empty : opt = []
  · subst empty
    rw [set_one_empty]
    have same : slots.set number (d, cell) = slots := by
      obtain ⟨bound, isSlot⟩ := List.getElem?_eq_some_iff.mp found
      rw [← isSlot, List.set_getElem_self]
    exact same.symm ▸ holds
  · have filtered : [opt].filter (· ≠ []) = [opt] := by simp [empty]
    rw [filtered]
    cases rt with
    | noRepeat => exact holds_set_non_repeating holds found (own empty) val
    | repeats => exact holds_set_repeating holds found (own empty) val

theorem holds_set_opt (holds : Holds options slots) {d : Declaration} {cell : Cell}
    (found : slots[number]? = some (d, cell)) (opt1 opt2 : Str) (first : opt1 ≠ [] → opt1 ∈ d.names)
    (second : opt2 ≠ [] → opt2 ∈ d.names) (val : Str) (rt : RepeatType) :
    Holds (options.setOpt opt1 opt2 val rt)
      (slots.set number (d, cell.puts rt (([opt1, opt2].filter (· ≠ [])).map fun _ => val))) := by
  have bound := (List.getElem?_eq_some_iff.mp found).1
  have afterFirst := holds_set_one holds found first val rt
  have afterSecond := holds_set_one afterFirst (List.getElem?_set_self bound) second val rt
  have split : [opt1, opt2].filter (· ≠ []) = [opt1].filter (· ≠ []) ++ [opt2].filter (· ≠ []) :=
    List.filter_append [opt1] [opt2]
  rw [List.set_set, Cell.puts, Cell.puts, ← List.foldl_append, ← List.map_append, ← split]
    at afterSecond
  rw [set_opt_ones]
  exact afterSecond

theorem added_valid (options : Options) (d : Declaration) (found : OptionDetails) (other : Str) :
    ((options.addDetails d.shortOpt d.longOpt found).updateSynonyms d.shortOpt
      d.longOpt).validOpts other =
      if other ∈ d.names then some options.details.length else options.validOpts other := by
  have same : ((options.addDetails d.shortOpt d.longOpt found).updateSynonyms d.shortOpt
      d.longOpt).validOpts = (options.addDetails d.shortOpt d.longOpt found).validOpts := by
    unfold Options.updateSynonyms
    split <;> rfl
  rw [same]
  unfold Options.addDetails
  dsimp only
  simp only [d.mem_names]
  by_cases isLong : other = d.longOpt
  · subst isLong
    by_cases empty : d.longOpt = []
    · by_cases short : d.shortOpt = []
      · simp [empty, short]
      · rw [if_neg (by simp [empty]), if_pos short, Function.update_of_ne (by simp [empty, Ne.symm short])]
        simp [empty]
    · simp [empty]
  · by_cases isShort : other = d.shortOpt
    · subst isShort
      by_cases empty : d.shortOpt = []
      · by_cases long : d.longOpt = []
        · simp [empty, long]
        · simp [empty, long, Ne.symm long]
      · by_cases long : d.longOpt = []
        · simp [empty, long]
        · simp [empty, long, isLong]
    · by_cases short : d.shortOpt = [] <;> by_cases long : d.longOpt = [] <;>
        simp [short, long, isLong, isShort]

theorem added_synonym (holds : Holds options slots) {d : Declaration}
    (fresh : ∀ name ∈ d.names, options.validOpts name = none) (found : OptionDetails) {name : Str}
    (inside : name ∈ d.names) :
    ((options.addDetails d.shortOpt d.longOpt found).updateSynonyms d.shortOpt
      d.longOpt).getSynonym name = d.synonym name := by
  have old : (options.addDetails d.shortOpt d.longOpt found).synonyms = options.synonyms := rfl
  unfold Options.updateSynonyms Options.getSynonym Declaration.synonym Declaration.twoNames
  by_cases two : d.shortOpt ≠ [] ∧ d.longOpt ≠ []
  · rw [if_pos two, if_pos (by simpa using two)]
    dsimp only
    rw [Function.update_apply]
    by_cases isLong : name = d.longOpt
    · rw [if_pos isLong, if_pos isLong]
      rfl
    · obtain rfl | same := (d.mem_names.mp inside).2
      · rw [if_neg isLong, if_neg isLong, Function.update_self]
        rfl
      · exact absurd same isLong
  · rw [if_neg two, if_neg (by simpa using two), old]
    cases linked : options.synonyms name with
    | none => rfl
    | some synonym =>
        have owned := holds.synonymOwned name (by rw [linked]; rfl)
        rw [fresh name inside] at owned
        cases owned

theorem added_synonyms_other {d : Declaration} (found : OptionDetails) {name : Str}
    (outside : name ∉ d.names) :
    ((options.addDetails d.shortOpt d.longOpt found).updateSynonyms d.shortOpt
      d.longOpt).synonyms name = options.synonyms name := by
  unfold Options.updateSynonyms
  by_cases two : d.shortOpt ≠ [] ∧ d.longOpt ≠ []
  · rw [if_pos two]
    have notLong : name ≠ d.longOpt := by
      rintro rfl
      exact outside (d.mem_names.mpr ⟨two.2, .inr rfl⟩)
    have notShort : name ≠ d.shortOpt := by
      rintro rfl
      exact outside (d.mem_names.mpr ⟨two.1, .inl rfl⟩)
    dsimp only
    rw [Function.update_of_ne notLong, Function.update_of_ne notShort]
    rfl
  · rw [if_neg two]
    rfl

theorem added_rest (options : Options) (d : Declaration) (found : OptionDetails) :
    let added := (options.addDetails d.shortOpt d.longOpt found).updateSynonyms d.shortOpt d.longOpt
    added.details = options.details ++ [{ found with length := d.length }] ∧
      added.opts = options.opts ∧ added.ropts = options.ropts ∧
      added.vectors = options.vectors := by
  unfold Options.updateSynonyms
  split <;> exact ⟨rfl, rfl, rfl, rfl⟩

theorem holds_added (holds : Holds options slots) {d : Declaration}
    (fresh : ∀ name ∈ d.names, options.validOpts name = none) :
    Holds ((options.addDetails d.shortOpt d.longOpt
        ⟨.shortOpt, d.arg, d.repeat_, d.dflt ≠ []⟩).updateSynonyms d.shortOpt d.longOpt)
      (slots ++ [(d, d.start)]) := by
  have valid := added_valid options d ⟨.shortOpt, d.arg, d.repeat_, d.dflt ≠ []⟩
  have synonym {name : Str} (inside : name ∈ d.names) := added_synonym holds fresh
    ⟨.shortOpt, d.arg, d.repeat_, d.dflt ≠ []⟩ inside
  have synonyms {name : Str} (outside : name ∉ d.names) := @added_synonyms_other options d
    ⟨.shortOpt, d.arg, d.repeat_, d.dflt ≠ []⟩ name outside
  obtain ⟨details, opts, ropts, vectors⟩ := added_rest options d
    ⟨.shortOpt, d.arg, d.repeat_, d.dflt ≠ []⟩
  generalize (options.addDetails d.shortOpt d.longOpt
    ⟨.shortOpt, d.arg, d.repeat_, d.dflt ≠ []⟩).updateSynonyms d.shortOpt d.longOpt = added
    at valid synonym synonyms details opts ropts vectors ⊢
  have ownedOutside {name : Str} (owned : (options.validOpts name).isSome) : name ∉ d.names := by
    intro inside
    rw [fresh name inside] at owned
    cases owned
  have ownedAfter {name : Str} (owned : (options.validOpts name).isSome) :
      (added.validOpts name).isSome := by
    rw [valid name, if_neg (ownedOutside owned)]
    exact owned
  refine ⟨?_, ?_, ?_, ?_, ?_, ?_, ?_, ?_⟩
  · intro number e otherCell looked
    obtain ⟨bound, old⟩ | ⟨isNew, same⟩ := get_append looked
    · have slot := holds.slot number e otherCell old
      have outside {name : Str} (inside : name ∈ e.names) : name ∉ d.names :=
        ownedOutside (by rw [slot.valid name inside]; rfl)
      refine ⟨?_, ?_, ?_, ?_, ?_, ?_, ?_⟩
      · intro name inside
        rw [valid name, if_neg (outside inside)]
        exact slot.valid name inside
      · have isOld := slot.details
        rw [details, List.getElem?_append_left (List.getElem?_eq_some_iff.mp isOld).1]
        exact isOld
      · intro name inside
        unfold Options.getSynonym
        rw [synonyms (outside inside)]
        exact slot.synonym name inside
      · rw [opts]
        exact slot.kept
      · rw [ropts]
        exact slot.shared
      · rw [ropts]
        exact slot.unset
      · rw [ropts, vectors]
        exact slot.vals
    · cases same
      have unset {name : Str} (inside : name ∈ d.names) : options.ropts name = none := by
        cases refers : options.ropts name with
        | none => rfl
        | some vector =>
            exact absurd inside (ownedOutside (holds.roptsOwned name (by rw [refers]; rfl)))
      refine ⟨?_, ?_, fun name inside => synonym inside, ?_, ?_, fun _ _ _ => rfl, ?_⟩
      · intro name inside
        rw [valid name, if_pos inside, isNew, holds.count]
      · rw [details, isNew, ← holds.count, List.getElem?_append_right (Nat.le_refl _),
          Nat.sub_self]
        rfl
      · intro name inside
        rw [opts]
        cases stored : options.opts name with
        | none => rfl
        | some val =>
            exact absurd inside (ownedOutside (holds.optsOwned name (by rw [stored]; rfl)))
      · intro name inside other alsoInside
        rw [ropts, unset inside, unset alsoInside]
      · intro name inside vector refers
        rw [ropts, unset inside] at refers
        cases refers
  · rw [details, List.length_append, List.length_append, holds.count]
    rfl
  · intro name number isValid
    rw [valid name] at isValid
    by_cases inside : name ∈ d.names
    · rw [if_pos inside] at isValid
      cases isValid
      refine ⟨d, d.start, ?_, inside⟩
      rw [holds.count, List.getElem?_append_right (Nat.le_refl _), Nat.sub_self]
      rfl
    · rw [if_neg inside] at isValid
      obtain ⟨e, otherCell, found, otherInside⟩ := holds.valid name number isValid
      refine ⟨e, otherCell, ?_, otherInside⟩
      rw [List.getElem?_append_left (List.getElem?_eq_some_iff.mp found).1, found]
  · intro name linked
    by_cases inside : name ∈ d.names
    · rw [valid name, if_pos inside]
      rfl
    · rw [synonyms inside] at linked
      exact ownedAfter (holds.synonymOwned name linked)
  · intro name stored
    rw [opts] at stored
    exact ownedAfter (holds.optsOwned name stored)
  · intro name refers
    rw [ropts] at refers
    exact ownedAfter (holds.roptsOwned name refers)
  · rw [ropts, vectors]
    exact holds.inside
  · intro name other vector refers otherRefers
    rw [ropts] at refers otherRefers
    have owned := holds.roptsOwned name (by rw [refers]; rfl)
    have otherOwned := holds.roptsOwned other (by rw [otherRefers]; rfl)
    rw [valid name, valid other, if_neg (ownedOutside owned), if_neg (ownedOutside otherOwned)]
    exact holds.apart name other vector refers otherRefers

theorem holds_add_valid_opt (holds : Holds options slots) {d : Declaration}
    (added : options.addValidOpt d.shortOpt d.longOpt d.arg d.dflt d.repeat_ = .ok after) :
    Holds after (slots ++ [(d, d.cell)]) := by
  unfold Options.addValidOpt at added
  by_cases shortUsed : d.shortOpt ≠ [] ∧ (options.validOpts d.shortOpt).isSome
  · rw [if_pos shortUsed] at added
    cases added
  · rw [if_neg shortUsed] at added
    by_cases longUsed : d.longOpt ≠ [] ∧ (options.validOpts d.longOpt).isSome
    · rw [if_pos longUsed] at added
      cases added
    · rw [if_neg longUsed] at added
      have fresh : ∀ name ∈ d.names, options.validOpts name = none := by
        intro name inside
        obtain ⟨nonempty, rfl | rfl⟩ := d.mem_names.mp inside
        · simpa [nonempty] using shortUsed
        · simpa [nonempty] using longUsed
      have start := holds_added holds fresh
      dsimp only at added
      unfold Declaration.cell
      by_cases hasDefault : d.arg = .needArg ∧ d.dflt ≠ []
      · rw [if_pos hasDefault] at added ⊢
        cases added
        have last : (slots ++ [(d, d.start)])[slots.length]? = some (d, d.start) := by
          rw [List.getElem?_append_right (Nat.le_refl _), Nat.sub_self]
          rfl
        have put := holds_set_opt start last d.shortOpt d.longOpt
          (fun nonempty => d.mem_names.mpr ⟨nonempty, .inl rfl⟩)
          (fun nonempty => d.mem_names.mpr ⟨nonempty, .inr rfl⟩) d.dflt d.repeat_
        rw [List.set_append_right _ _ (Nat.le_refl _), Nat.sub_self] at put
        exact put
      · rw [if_neg hasDefault] at added ⊢
        cases added
        exact start

def Options.declare (options : Options) : List Declaration → Except OptionsException Options
  | [] => .ok options
  | d :: rest => do
      let added ← options.addOpt d.shortOpt d.longOpt d.arg d.dflt d.repeat_
      added.declare rest

/-- What the checks of a declaration are for. -/
structure Declaration.Valid (d : Declaration) : Prop where
  named : d.names ≠ []
  noDash : ∀ name ∈ d.names, name.head? ≠ some dash
  dflt : d.dflt ≠ [] → d.arg = .needArg

theorem check_short_opt_dash {shortOpt : Str} (checked : checkShortOpt shortOpt = .ok ()) :
    shortOpt.head? ≠ some dash := by
  unfold checkShortOpt at checked
  intro starts
  have nonempty : shortOpt ≠ [] := by
    rintro rfl
    cases starts
  rw [if_neg nonempty] at checked
  split at checked
  · cases checked
  · split at checked
    · cases checked
    · cases checked

theorem check_long_opt_dash {longOpt : Str} (checked : checkLongOpt longOpt = .ok ()) :
    longOpt.head? ≠ some dash := by
  unfold checkLongOpt at checked
  intro starts
  split at checked
  · cases checked
  · cases checked

theorem check_args_valid {d : Declaration} (checked : checkArgs d.shortOpt d.longOpt
    (d.arg = .needArg) d.dflt = .ok ()) : d.Valid := by
  unfold checkArgs at checked
  by_cases both : d.shortOpt = [] ∧ d.longOpt = []
  · rw [if_pos both] at checked
    cases checked
  · rw [if_neg both] at checked
    obtain ⟨_, short, checked⟩ := bind_ok checked
    obtain ⟨_, long, last⟩ := bind_ok checked
    refine ⟨?_, ?_, ?_⟩
    · intro none
      refine both ⟨?_, ?_⟩
      · by_contra some
        exact List.not_mem_nil (none ▸ d.mem_names.mpr ⟨some, .inl rfl⟩)
      · by_contra some
        exact List.not_mem_nil (none ▸ d.mem_names.mpr ⟨some, .inr rfl⟩)
    · intro name inside
      obtain ⟨_, rfl | rfl⟩ := d.mem_names.mp inside
      · exact check_short_opt_dash short
      · exact check_long_opt_dash long
    · intro some
      by_contra noArg
      rw [if_pos (by simp [noArg, some])] at last
      cases last

theorem add_opt_ok {d : Declaration}
    (added : options.addOpt d.shortOpt d.longOpt d.arg d.dflt d.repeat_ = .ok after) :
    d.Valid ∧ options.addValidOpt d.shortOpt d.longOpt d.arg d.dflt d.repeat_ = .ok after := by
  unfold Options.addOpt at added
  by_cases called : options.parseCalled = true
  · rw [if_pos called] at added
    cases added
  · rw [if_neg called] at added
    obtain ⟨_, checked, added⟩ := bind_ok added
    exact ⟨check_args_valid checked, added⟩

theorem holds_declare {decls : List Declaration} (holds : Holds options slots)
    (declared : options.declare decls = .ok after) :
    Holds after (slots ++ decls.map fun d => (d, d.cell)) ∧ ∀ d ∈ decls, d.Valid := by
  induction decls generalizing options slots with
  | nil =>
      cases declared
      rw [List.map_nil, List.append_nil]
      exact ⟨holds, List.forall_mem_nil _⟩
  | cons d rest ih =>
      obtain ⟨added, isAdded, declared⟩ := bind_ok declared
      obtain ⟨valid, isAdded⟩ := add_opt_ok isAdded
      obtain ⟨later, validLater⟩ := ih (holds_add_valid_opt holds isAdded) declared
      refine ⟨?_, List.forall_mem_cons.mpr ⟨valid, validLater⟩⟩
      rw [List.append_assoc] at later
      exact later

def Declaration.values (d : Declaration) (log : List (Str × Str)) : List Str :=
  (log.filter fun entry => d.names.contains entry.1).map Prod.snd

theorem values_own {d : Declaration} (own : opt ∈ d.names) (val : Str) (rest : List (Str × Str)) :
    d.values ((opt, val) :: rest) = val :: d.values rest := by
  simp [Declaration.values, own]

theorem values_other {d : Declaration} (other : opt ∉ d.names) (val : Str)
    (rest : List (Str × Str)) :
    d.values ((opt, val) :: rest) = d.values rest := by
  simp [Declaration.values, other]

theorem values_append (d : Declaration) (first second : List (Str × Str)) :
    d.values (first ++ second) = d.values first ++ d.values second := by
  simp [Declaration.values]

def storeAll (slots : List (Declaration × Cell)) (log : List (Str × Str)) :
    List (Declaration × Cell) :=
  slots.map fun slot => (slot.1, slot.2.puts slot.1.repeat_ (slot.1.values log))

theorem find_found (holds : Holds options slots) {found : OptionDetails}
    (isFound : options.find opt = some found) :
    ∃ (number : Nat) (d : Declaration) (cell : Cell), slots[number]? = some (d, cell) ∧
      opt ∈ d.names ∧
      found = ⟨d.length, d.arg, d.repeat_, cell.hasDefault⟩ := by
  unfold Options.find at isFound
  rw [Option.bind_eq_some_iff] at isFound
  obtain ⟨number, isValid, details⟩ := isFound
  obtain ⟨d, cell, isSlot, inside⟩ := holds.valid opt number isValid
  have slot := holds.slot number d cell isSlot
  rw [slot.details] at details
  exact ⟨number, d, cell, isSlot, inside, (Option.some.inj details).symm⟩

theorem find_slot {d : Declaration} {cell : Cell} (slot : Slot options number d cell) {name : Str}
    (inside : name ∈ d.names) :
    options.find name = some ⟨d.length, d.arg, d.repeat_, cell.hasDefault⟩ := by
  rw [Options.find, slot.valid name inside, Option.bind_some, slot.details]

theorem find_none (holds : Holds options slots) (isNone : options.find opt = none)
    {slot : Declaration × Cell} (inside : slot ∈ slots) : opt ∉ slot.1.names := by
  intro own
  obtain ⟨number, bound, isSlot⟩ := List.mem_iff_getElem.mp inside
  have found := find_slot (holds.slot number slot.1 slot.2
    (List.getElem?_eq_some_iff.mpr ⟨bound, isSlot⟩)) own
  rw [isNone] at found
  cases found

theorem store_all_cons {d : Declaration} {cell : Cell} (holds : Holds options slots)
    (found : slots[number]? = some (d, cell)) (own : opt ∈ d.names) (val : Str)
    (rest : List (Str × Str)) :
    storeAll (slots.set number (d, cell.put d.repeat_ val)) rest =
      storeAll slots ((opt, val) :: rest) := by
  refine List.ext_getElem? fun place => ?_
  rw [storeAll, storeAll, List.getElem?_map, List.getElem?_map]
  by_cases same : place = number
  · subst same
    rw [List.getElem?_set_self (List.getElem?_eq_some_iff.mp found).1, found]
    dsimp only [Option.map_some]
    rw [values_own own]
    rfl
  · rw [List.getElem?_set_ne (Ne.symm same)]
    cases isSlot : slots[place]? with
    | none => rfl
    | some slot =>
        have outside : opt ∉ slot.1.names := fun inside =>
          same (slot_unique holds found own isSlot inside)
        dsimp only [Option.map_some]
        rw [values_other outside]

theorem holds_store (holds : Holds options slots) (log : List (Str × Str)) :
    Holds (options.store log) (storeAll slots log) := by
  induction log generalizing options slots with
  | nil =>
      have same : storeAll slots [] = slots := List.map_id slots
      rw [same]
      exact holds
  | cons entry rest ih =>
      obtain ⟨opt, val⟩ := entry
      rw [Options.store]
      cases isFound : options.find opt with
      | none =>
          have same : storeAll slots ((opt, val) :: rest) = storeAll slots rest := by
            refine List.map_congr_left fun slot inside => ?_
            rw [values_other (find_none holds isFound inside)]
          rw [same]
          exact ih holds
      | some found =>
          obtain ⟨number, d, cell, isSlot, own, rfl⟩ := find_found holds isFound
          have some := (d.mem_names.mp own).1
          have stored := holds_set_opt holds isSlot opt [] (fun _ => own)
            (fun none => absurd rfl none) val d.repeat_
          have single : [opt, ([] : Str)].filter (· ≠ []) = [opt] := by simp [some]
          rw [single] at stored
          rw [← store_all_cons holds isSlot own]
          exact ih stored

end Declare

namespace Declaration

variable (d : Declaration)

/-- What the vector of a repeating option holds. Under two names the default is put into it
twice, and is no default any more then. -/
def contents (values : List Str) : List Str :=
  if d.dflt = [] then values
  else if d.twoNames then d.dflt :: values
  else if values = [] then [d.dflt]
  else values

def keeps (values : List Str) : Option Str :=
  values.getLast?.or (if d.dflt ≠ [] then some d.dflt else none)

end Declaration

section Cells

variable {d : Declaration}

theorem names_one_or_two (valid : d.Valid) :
    (d.twoNames = true ∧ d.names.length = 2) ∨ (d.twoNames = false ∧ d.names.length = 1) := by
  have named := valid.named
  unfold Declaration.names Declaration.twoNames at *
  by_cases short : d.shortOpt = [] <;> by_cases long : d.longOpt = [] <;>
    simp_all

theorem puts_kept (cell : Cell) (vals : List Str) :
    (cell.puts .noRepeat vals).kept = vals.getLast?.or cell.kept := by
  induction vals generalizing cell with
  | nil => rfl
  | cons val rest ih =>
      have later := ih (cell.put .noRepeat val)
      refine later.trans ?_
      cases rest with
      | nil => rfl
      | cons next others =>
          rw [List.getLast?_cons_cons, List.getLast?_eq_some_getLast (List.cons_ne_nil next others)]
          rfl

theorem puts_vals (cell : Cell) (noDefault : cell.hasDefault = false) (vals : List Str) :
    (cell.puts .repeats vals).vals = cell.vals ++ vals := by
  induction vals generalizing cell with
  | nil => exact (List.append_nil _).symm
  | cons val rest ih =>
      have put : cell.put .repeats val = { cell with vals := cell.vals ++ [val] } := by
        rw [Cell.put, if_neg (by simp [noDefault])]
      have later := ih (cell.put .repeats val) (by rw [put]; exact noDefault)
      refine later.trans ?_
      rw [put, List.append_assoc]
      rfl

theorem puts_default (kept : Option Str) (dflt : Str) (vals : List Str) :
    (Cell.puts .repeats ⟨kept, [dflt], true⟩ vals).vals = if vals = [] then [dflt] else vals := by
  cases vals with
  | nil => rfl
  | cons val rest => exact puts_vals ⟨kept, [val], false⟩ rfl rest

theorem cell_keeps (valid : d.Valid) (noRepeat : d.repeat_ = .noRepeat) (values : List Str) :
    (d.cell.puts d.repeat_ values).kept = d.keeps values := by
  rw [noRepeat, puts_kept, Declaration.keeps]
  congr 1
  unfold Declaration.cell
  by_cases hasDefault : d.dflt ≠ []
  · obtain ⟨first, others, names⟩ := List.exists_cons_of_ne_nil valid.named
    rw [if_pos ⟨valid.dflt hasDefault, hasDefault⟩, if_pos hasDefault, noRepeat, puts_kept, names]
    have last : ((first :: others).map fun _ => d.dflt).getLast? = some d.dflt := by
      rw [List.map_const', List.getLast?_replicate, if_neg (by simp)]
    rw [last]
    rfl
  · rw [if_neg (fun both => hasDefault both.2), if_neg hasDefault]
    rfl

theorem cell_contents (valid : d.Valid) (repeats : d.repeat_ = .repeats) (values : List Str) :
    (d.cell.puts d.repeat_ values).vals = d.contents values := by
  unfold Declaration.cell Declaration.contents
  rw [repeats]
  by_cases noDefault : d.dflt = []
  · rw [if_neg (fun both => both.2 noDefault), if_pos noDefault]
    exact puts_vals d.start (by simp [Declaration.start, noDefault]) values
  · have start : d.start = ⟨none, [], true⟩ := by simp [Declaration.start, noDefault]
    rw [if_pos ⟨valid.dflt noDefault, noDefault⟩, if_neg noDefault, start]
    obtain ⟨two, length⟩ | ⟨one, length⟩ := names_one_or_two valid
    · obtain ⟨first, second, names⟩ := List.length_eq_two.mp length
      rw [if_pos two, names]
      exact puts_vals ⟨none, [d.dflt], false⟩ rfl values
    · obtain ⟨first, names⟩ := List.length_eq_one_iff.mp length
      rw [one, if_neg Bool.false_ne_true, names]
      exact puts_default none d.dflt values

end Cells

end IceTouch.CommandLine
