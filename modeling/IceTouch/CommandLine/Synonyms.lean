import IceTouch.CommandLine.Declarations

/-!
# Names and arguments

What the lookups give after a command line was parsed: both names of an option give the same,
and what they give is what the command line has for the option, or its default. A repeating
option that has a default and two names keeps its default in front of the arguments.
-/

namespace IceTouch.CommandLine

open Bytes WireTypes Escape IceTouch.Lists Results

theorem set_opt_called (options : Options) (opt1 opt2 val : Str) (rt : RepeatType) :
    (options.setOpt opt1 opt2 val rt).parseCalled = options.parseCalled := by
  have one (options : Options) (opt : Str) :
      (options.setOne rt opt val).parseCalled = options.parseCalled := by
    cases rt with
    | noRepeat =>
        change (options.setNonRepeatingOpt opt val).parseCalled = _
        unfold Options.setNonRepeatingOpt
        split <;> rfl
    | repeats =>
        change (options.setRepeatingOpt opt val).parseCalled = _
        have added (vector : Nat) : (options.addTo opt vector val).parseCalled = options.parseCalled := by
          unfold Options.addTo
          dsimp only
          split
          · rfl
          · split
            · rfl
            · split <;> rfl
        unfold Options.setRepeatingOpt
        split
        · rfl
        · dsimp only
          split
          · exact added _
          · exact added _
          · rfl
  rw [set_opt_ones, one, one]

theorem store_called (options : Options) (log : List (Str × Str)) :
    (options.store log).parseCalled = options.parseCalled := by
  induction log generalizing options with
  | nil => rfl
  | cons entry rest ih =>
      rw [Options.store]
      split
      · exact ih options
      · rw [ih, set_opt_called]

def Options.tokens (options : Options) (args : List Str) : List Token :=
  CommandLine.tokens options.table.needs args.tail

/-- The options after a run of `parse` over some tokens. -/
def Options.afterwards (options : Options) (read : List Token) : Options :=
  { { options with parseCalled := true }.store (stored read) with synonyms := fun _ => none }

theorem parse_ok {options after : Options} {args result : List Str} :
    options.parse args = .ok (after, result) ↔
      options.parseCalled = false ∧ options.table.accepted [] (options.tokens args) = true ∧
        after = options.afterwards (options.tokens args) ∧
        result = others (options.tokens args) := by
  have run : (({ options with parseCalled := true } : Options).parseWords [] [] args.tail).toOption =
      if options.table.accepted [] (options.tokens args) then
        some (({ options with parseCalled := true } : Options).store
          (stored (options.tokens args)), others (options.tokens args))
      else none :=
    parse_words { options with parseCalled := true } [] [] args.tail
  unfold Options.parse Options.afterwards
  by_cases called : options.parseCalled = true
  · rw [if_pos called]
    refine iff_of_false (fun failed => ?_) fun accepted => ?_
    · cases failed
    · rw [called] at accepted
      cases accepted.1
  · rw [if_neg called]
    have notCalled : options.parseCalled = false := by simpa using called
    by_cases accepted : options.table.accepted [] (options.tokens args) = true
    · rw [if_pos accepted] at run
      cases parsed : ({ options with parseCalled := true } : Options).parseWords [] [] args.tail with
      | error ex =>
          rw [parsed] at run
          cases run
      | ok both =>
          rw [parsed] at run
          cases Option.some.inj run
          constructor
          · intro same
            cases same
            exact ⟨notCalled, accepted, rfl, rfl⟩
          · rintro ⟨_, _, rfl, rfl⟩
            rfl
    · rw [if_neg accepted] at run
      cases parsed : ({ options with parseCalled := true } : Options).parseWords [] [] args.tail with
      | error ex =>
          refine iff_of_false (fun failed => ?_) fun all => accepted all.2.1
          cases failed
      | ok both =>
          rw [parsed] at run
          cases run

section Lookups

variable {options : Options} {number : Nat} {d : Declaration} {cell : Cell} {name : Str}

theorem check_valid_slot (slot : Slot options number d cell) (inside : name ∈ d.names) :
    options.checkOptIsValid name = .ok ⟨d.length, d.arg, d.repeat_, cell.hasDefault⟩ := by
  rw [Options.checkOptIsValid, find_slot slot inside]

section

variable (called : options.parseCalled = true)

include called

section

variable (slot : Slot options number d cell)

include slot

theorem is_set_slot (inside : name ∈ d.names) :
    options.isSet name =
      .ok (if d.repeat_ = .noRepeat then cell.kept.isSome else decide (cell.vals ≠ [])) := by
  unfold Options.isSet Options.checkParsed
  rw [if_pos called, check_valid_slot slot inside]
  dsimp only [bind, Except.bind]
  congr 1
  split
  · rw [slot.kept name inside]
  · cases refers : options.ropts name with
    | none => simp [slot.unset name inside refers]
    | some vector => simp [(slot.vals name inside vector refers).1]

theorem opt_arg_slot (inside : name ∈ d.names) (needArg : d.arg = .needArg)
    (noRepeat : d.repeat_ = .noRepeat) : options.optArg name = .ok (cell.kept.getD []) := by
  unfold Options.optArg Options.checkParsed Options.checkOptHasArg
  rw [if_pos called, check_valid_slot slot inside, ← slot.kept name inside]
  simp [bind, Except.bind, needArg, noRepeat]

theorem arg_vec_slot (inside : name ∈ d.names) (needArg : d.arg = .needArg)
    (repeats : d.repeat_ = .repeats) : options.argVec name = .ok cell.vals := by
  unfold Options.argVec Options.checkParsed Options.checkOptHasArg
  rw [if_pos called, check_valid_slot slot inside]
  cases refers : options.ropts name with
  | none =>
      simp [bind, Except.bind, needArg, repeats, slot.unset name inside refers]
  | some vector =>
      simp [bind, Except.bind, needArg, repeats,
        (slot.vals name inside vector refers).2]

theorem opt_arg_refused (inside : name ∈ d.names) (other : d.arg = .noArg ∨ d.repeat_ = .repeats) :
    options.optArg name = .error (aboutOption name ⟨d.length, d.arg, d.repeat_, false⟩
      (if d.arg = .noArg then text "option does not take arguments"
        else text "is a repeating option -- use argVec() to get its arguments")) := by
  unfold Options.optArg Options.checkParsed Options.checkOptHasArg
  rw [if_pos called, check_valid_slot slot inside]
  by_cases noArg : d.arg = .noArg
  · simp [bind, Except.bind, noArg, throw, throwThe, MonadExceptOf.throw, aboutOption]
  · have repeats : d.repeat_ = .repeats := other.resolve_left noArg
    simp [bind, Except.bind, noArg, repeats, throw, throwThe, MonadExceptOf.throw, aboutOption]

theorem arg_vec_refused (inside : name ∈ d.names) (other : d.arg = .noArg ∨ d.repeat_ = .noRepeat) :
    options.argVec name = .error (aboutOption name ⟨d.length, d.arg, d.repeat_, false⟩
      (if d.arg = .noArg then text "option does not take arguments"
        else text "is a non-repeating option -- use optArg() to get its argument")) := by
  unfold Options.argVec Options.checkParsed Options.checkOptHasArg
  rw [if_pos called, check_valid_slot slot inside]
  by_cases noArg : d.arg = .noArg
  · simp [bind, Except.bind, noArg, throw, throwThe, MonadExceptOf.throw, aboutOption]
  · have noRepeat : d.repeat_ = .noRepeat := other.resolve_left noArg
    simp [bind, Except.bind, noArg, noRepeat, throw, throwThe, MonadExceptOf.throw, aboutOption]

end

end

end Lookups

section Once

variable {table : Table} {seen : List Str} {needs : Str → Bool}

theorem used_cases {seenAfter : List Str} {opt : Str}
    (used : table.used seen opt = some seenAfter) :
    seen ⊆ seenAfter ∧ ∀ arg, table.kind opt = some (arg, .noRepeat) →
      opt ∉ seen ∧ opt ∈ seenAfter ∧ (table.synonym opt ≠ [] → table.synonym opt ∈ seenAfter) := by
  unfold Table.used at used
  cases kind : table.kind opt with
  | none =>
      rw [kind] at used
      cases used
  | some both =>
      obtain ⟨arg, rt⟩ := both
      rw [kind] at used
      cases rt with
      | repeats =>
          cases used
          refine ⟨fun _ inside => inside, fun other same => ?_⟩
          cases same
      | noRepeat =>
          dsimp only at used
          by_cases again : seen.contains opt = true
          · rw [if_pos again] at used
            cases used
          · rw [if_neg again] at used
            cases used
            have notSeen : opt ∉ seen := fun inside => again (List.contains_iff_mem.mpr inside)
            refine ⟨?_, fun _ _ => ⟨notSeen, List.mem_cons_self, fun some => ?_⟩⟩
            · split
              · exact fun _ inside => List.mem_cons_of_mem _ (List.mem_cons_of_mem _ inside)
              · exact fun _ inside => List.mem_cons_of_mem _ inside
            · rw [if_pos some]
              exact List.mem_cons_of_mem _ List.mem_cons_self

theorem used_all_cases {seenAfter uses : List Str}
    (used : table.usedAll seen uses = some seenAfter) :
    seen ⊆ seenAfter ∧ ∀ opt ∈ uses, ∀ arg, table.kind opt = some (arg, .noRepeat) →
      opt ∈ seenAfter ∧ (table.synonym opt ≠ [] → table.synonym opt ∈ seenAfter) := by
  induction uses generalizing seen with
  | nil =>
      cases used
      exact ⟨fun _ inside => inside, fun opt inside => by cases inside⟩
  | cons opt rest ih =>
      rw [Table.usedAll, List.foldlM_cons] at used
      obtain ⟨middle, usedFirst, usedRest⟩ := Option.bind_eq_some_iff.mp used
      obtain ⟨grown, first⟩ := used_cases usedFirst
      obtain ⟨grownLater, later⟩ := ih usedRest
      refine ⟨fun _ inside => grownLater (grown inside), fun other inside arg kind => ?_⟩
      obtain rfl | inside := List.mem_cons.mp inside
      · obtain ⟨_, isSeen, synonymSeen⟩ := first arg kind
        exact ⟨grownLater isSeen, fun some => grownLater (synonymSeen some)⟩
      · exact later other inside arg kind

theorem not_used_again {read : List Token} {opt : Str} {arg : ArgType}
    (accepted : table.accepted seen read = true) (isSeen : opt ∈ seen)
    (kind : table.kind opt = some (arg, .noRepeat)) : .use opt ∉ read := by
  induction read generalizing seen with
  | nil => exact List.not_mem_nil
  | cons token rest ih =>
      intro inside
      cases token with
      | use other =>
          rw [Table.accepted] at accepted
          cases used : table.used seen other with
          | none =>
              rw [used] at accepted
              cases accepted
          | some seenAfter =>
              rw [used] at accepted
              obtain ⟨grown, first⟩ := used_cases used
              obtain same | later := List.mem_cons.mp inside
              · cases same
                exact (first arg kind).1 isSeen
              · exact ih accepted (grown isSeen) later
      | set other val =>
          obtain same | later := List.mem_cons.mp inside
          · cases same
          · exact ih accepted isSeen later
      | other word =>
          obtain same | later := List.mem_cons.mp inside
          · cases same
          · exact ih accepted isSeen later
      | wrong => cases accepted

theorem short_mention_used (needs : Str → Bool) (c : Byte) (rest : Str) :
    (shortMention needs c rest).opt ∈ (shortMention needs c rest).uses := by
  induction rest generalizing c with
  | nil => exact List.mem_cons_self
  | cons next rest ih =>
      rw [shortMention]
      split
      · exact List.mem_cons_self
      · exact List.mem_cons_of_mem _ (ih next)

theorem mention_used {arg : Str} {word : Mention} (mentioned : mention needs arg = some word) :
    word.opt ∈ word.uses := by
  unfold mention at mentioned
  split at mentioned
  · split at mentioned
    · split at mentioned
      · cases mentioned
        exact List.mem_cons_self
      · cases mentioned
        exact short_mention_used needs _ _
    · cases mentioned
  · cases mentioned

theorem tokens_accepted {arg : Str} {word : Mention} {rest : List Str} (notEnd : isEnd arg = false)
    (mentioned : mention needs arg = some word)
    (accepted : table.accepted seen (tokens needs (arg :: rest)) = true) :
    ∃ seenAfter val more, more.length ≤ rest.length ∧
      tokens needs (arg :: rest) = word.uses.map .use ++ .set word.opt val :: tokens needs more ∧
      table.usedAll seen word.uses = some seenAfter ∧
      table.accepted seenAfter (tokens needs more) = true := by
  rw [tokens_word notEnd mentioned, List.append_assoc] at accepted ⊢
  rw [accepted_uses] at accepted
  cases used : table.usedAll seen word.uses with
  | none =>
      rw [used] at accepted
      cases accepted
  | some seenAfter =>
      rw [used] at accepted
      dsimp only at accepted
      by_cases wrong : word.wrong needs = true
      · rw [if_pos wrong] at accepted
        cases accepted
      · rw [if_neg wrong, List.nil_append] at accepted ⊢
        cases hasVal : word.val with
        | some val =>
            rw [hasVal] at accepted
            exact ⟨seenAfter, val, rest, Nat.le_refl _, rfl, rfl, accepted⟩
        | none =>
            rw [hasVal] at accepted
            dsimp only at accepted ⊢
            by_cases needed : needs word.opt = true
            · rw [if_pos needed] at accepted ⊢
              cases rest with
              | nil => cases accepted
              | cons val more =>
                  exact ⟨seenAfter, val, more, Nat.le_succ _, rfl, rfl, accepted⟩
            · rw [if_neg needed] at accepted ⊢
              exact ⟨seenAfter, text "1", rest, Nat.le_refl _, rfl, rfl, accepted⟩

theorem stored_used {args : List Str} (accepted : table.accepted seen (tokens needs args) = true)
    {entry : Str × Str} (inside : entry ∈ stored (tokens needs args)) :
    .use entry.1 ∈ tokens needs args := by
  induction length : args.length using Nat.strong_induction_on generalizing args seen with
  | _ length_ ih =>
      cases args with
      | nil => cases inside
      | cons arg rest =>
          by_cases ends : isEnd arg = true
          · rw [tokens, if_pos ends, stored_others] at inside
            cases inside
          · have notEnd : isEnd arg = false := by simpa using ends
            cases mentioned : mention needs arg with
            | none =>
                have other : tokens needs (arg :: rest) = .other arg :: tokens needs rest := by
                  rw [tokens, if_neg ends, mentioned]
                rw [other] at accepted inside ⊢
                have later := ih rest.length (by rw [← length]; exact Nat.lt_succ_self _)
                  accepted inside rfl
                exact List.mem_cons_of_mem _ later
            | some word =>
                obtain ⟨seenAfter, val, more, shorter, same, _, acceptedLater⟩ :=
                  tokens_accepted notEnd mentioned accepted
                rw [same, stored_uses] at inside
                rw [same]
                obtain rfl | inside := List.mem_cons.mp inside
                · exact List.mem_append_left _ (List.mem_map.mpr ⟨_, mention_used mentioned, rfl⟩)
                · have later := ih more.length
                    (by rw [← length]; exact Nat.lt_succ_of_le shorter) acceptedLater inside rfl
                  exact List.mem_append_right _ (List.mem_cons_of_mem _ later)

theorem values_once {d : Declaration} {args : List Str}
    (known : ∀ name ∈ d.names, table.kind name = some (d.arg, .noRepeat) ∧
      table.synonym name = d.synonym name)
    (accepted : table.accepted seen (tokens needs args) = true) :
    (d.values (stored (tokens needs args))).length ≤ 1 := by
  induction length : args.length using Nat.strong_induction_on generalizing args seen with
  | _ length_ ih =>
      cases args with
      | nil => exact Nat.zero_le 1
      | cons arg rest =>
          by_cases ends : isEnd arg = true
          · rw [tokens, if_pos ends, stored_others]
            exact Nat.zero_le 1
          · have notEnd : isEnd arg = false := by simpa using ends
            cases mentioned : mention needs arg with
            | none =>
                have other : tokens needs (arg :: rest) = .other arg :: tokens needs rest := by
                  rw [tokens, if_neg ends, mentioned]
                rw [other] at accepted ⊢
                exact ih rest.length (by rw [← length]; exact Nat.lt_succ_self _) accepted rfl
            | some word =>
                obtain ⟨seenAfter, val, more, shorter, same, used, acceptedLater⟩ :=
                  tokens_accepted notEnd mentioned accepted
                have later := ih more.length
                  (by rw [← length]; exact Nat.lt_succ_of_le shorter) acceptedLater rfl
                have stores : stored (.set word.opt val :: tokens needs more) =
                    (word.opt, val) :: stored (tokens needs more) := rfl
                rw [same, stored_uses, stores]
                by_cases own : word.opt ∈ d.names
                · -- The names of the option were seen, so that nothing more is stored for it.
                  have none : d.values (stored (tokens needs more)) = [] := by
                    rw [Declaration.values, List.map_eq_nil_iff, List.filter_eq_nil_iff]
                    intro entry inside alsoOwn
                    have isOwn : entry.1 ∈ d.names := by simpa using alsoOwn
                    have isUsed := stored_used acceptedLater inside
                    obtain ⟨isSeen, synonymSeen⟩ := (used_all_cases used).2 word.opt
                      (mention_used mentioned) d.arg (known _ own).1
                    refine not_used_again acceptedLater ?_ (known _ isOwn).1 isUsed
                    obtain first | second := d.names_synonym own isOwn
                    · rw [first]
                      exact isSeen
                    · rw [second, ← (known _ own).2]
                      refine synonymSeen ?_
                      rw [(known _ own).2, ← second]
                      exact (d.mem_names.mp isOwn).1
                  rw [values_own own, none]
                  exact Nat.le_refl 1
                · rw [values_other own]
                  exact later

end Once

def needed (decls : List Declaration) (opt : Str) : Bool :=
  decls.any fun d => d.names.contains opt && d.arg = .needArg

theorem needed_iff {decls : List Declaration} {opt : Str} :
    needed decls opt = true ↔ ∃ d ∈ decls, opt ∈ d.names ∧ d.arg = .needArg := by
  simp [needed]

/-- The arguments that a command line gives for an option, under any of its names. -/
def Declaration.given (d : Declaration) (decls : List Declaration) (args : List Str) : List Str :=
  d.values (stored (tokens (needed decls) args.tail))

section Given

variable {decls : List Declaration} {options : Options}

theorem declared_number {d : Declaration} (inside : d ∈ decls) :
    ∃ number : Nat, (decls.map fun d => (d, d.cell))[number]? = some (d, d.cell) := by
  obtain ⟨number, isDecl⟩ := List.mem_iff_getElem?.mp inside
  refine ⟨number, ?_⟩
  rw [List.getElem?_map, isDecl]
  rfl

section

variable (declared : Options.empty.declare decls = .ok options)

include declared

theorem declared_slot {d : Declaration} (inside : d ∈ decls) :
    ∃ number, Slot options number d d.cell := by
  obtain ⟨holds, _⟩ := holds_declare holds_empty declared
  obtain ⟨number, isSlot⟩ := declared_number inside
  exact ⟨number, holds.slot number d d.cell isSlot⟩

theorem declared_find {opt : Str} {found : OptionDetails} (isFound : options.find opt = some found) :
    ∃ d ∈ decls, opt ∈ d.names ∧ found = ⟨d.length, d.arg, d.repeat_, d.cell.hasDefault⟩ := by
  obtain ⟨holds, _⟩ := holds_declare holds_empty declared
  obtain ⟨number, d, cell, isSlot, own, rfl⟩ := find_found holds isFound
  rw [List.nil_append, List.getElem?_map, Option.map_eq_some_iff] at isSlot
  obtain ⟨other, isDecl, same⟩ := isSlot
  cases same
  exact ⟨d, List.mem_of_getElem? isDecl, own, rfl⟩

theorem declared_needs : options.table.needs = needed decls := by
  funext opt
  rw [Bool.eq_iff_iff]
  constructor
  · intro needs
    cases isFound : options.find opt with
    | none => simp [Table.needs, Options.table, isFound] at needs
    | some found =>
        obtain ⟨d, inside, own, rfl⟩ := declared_find declared isFound
        rw [needs_found options isFound] at needs
        exact needed_iff.mpr ⟨d, inside, own, by simpa using needs⟩
  · intro needs
    obtain ⟨d, inside, own, needArg⟩ := needed_iff.mp needs
    obtain ⟨number, slot⟩ := declared_slot declared inside
    rw [needs_found options (find_slot slot own)]
    simpa using needArg

theorem declared_known {d : Declaration} (inside : d ∈ decls) :
    ∀ name ∈ d.names, options.table.kind name = some (d.arg, d.repeat_) ∧
      options.table.synonym name = d.synonym name := by
  intro name own
  obtain ⟨number, slot⟩ := declared_slot declared inside
  exact ⟨kind_found options (find_slot slot own), slot.synonym name own⟩

/-- The cell of an option after a run of `parse`. -/
def Declaration.after (d : Declaration) (log : List (Str × Str)) : Cell :=
  d.cell.puts d.repeat_ (d.values log)

theorem parsed_slot (read : List Token) {d : Declaration} (inside : d ∈ decls) :
    ∃ number before, options.afterwards read = { before with synonyms := fun _ => none } ∧
      before.parseCalled = true ∧ Slot before number d (d.after (stored read)) := by
  obtain ⟨holds, _⟩ := holds_declare holds_empty declared
  obtain ⟨number, isSlot⟩ := declared_number inside
  have called : Holds { options with parseCalled := true } (decls.map fun d => (d, d.cell)) :=
    ⟨fun number d cell found =>
      let slot := holds.slot number d cell found
      ⟨slot.valid, slot.details, slot.synonym, slot.kept, slot.shared, slot.unset, slot.vals⟩,
      holds.count, holds.valid, holds.synonymOwned, holds.optsOwned, holds.roptsOwned,
      holds.inside, holds.apart⟩
  have kept := holds_store called (stored read)
  refine ⟨number, _, rfl, store_called _ _, kept.slot number d _ ?_⟩
  rw [storeAll, List.getElem?_map, isSlot]
  rfl

end

end Given

def SameLookups (options : Options) (name other : Str) : Prop :=
  (options.isSet name).toOption = (options.isSet other).toOption ∧
    (options.optArg name).toOption = (options.optArg other).toOption ∧
    (options.argVec name).toOption = (options.argVec other).toOption

/-- An option is looked up as its declaration and the arguments given for it say. -/
structure Declaration.Served (d : Declaration) (given : List Str) (options : Options) : Prop where
  synonyms : ∀ name ∈ d.names, ∀ other ∈ d.names, SameLookups options name other
  optArg : d.arg = .needArg → d.repeat_ = .noRepeat → ∀ name ∈ d.names,
    (given = [] ∧ options.optArg name = .ok d.dflt) ∨
      ∃ val, given = [val] ∧ options.optArg name = .ok val
  argVec : d.arg = .needArg → d.repeat_ = .repeats → ∀ name ∈ d.names,
    options.argVec name = .ok (if given = [] ∧ d.dflt ≠ [] then [d.dflt] else given)

def Declaration.Stuck (d : Declaration) (given : List Str) : Prop :=
  d.repeat_ = .repeats ∧ d.shortOpt ≠ [] ∧ d.longOpt ≠ [] ∧ d.dflt ≠ [] ∧ given ≠ []

section Served

variable {options : Options} {number : Nat} {d : Declaration} {cell : Cell}

theorem same_lookups (called : options.parseCalled = true) (slot : Slot options number d cell)
    {name other : Str} (inside : name ∈ d.names) (alsoInside : other ∈ d.names) :
    SameLookups options name other := by
  refine ⟨?_, ?_, ?_⟩
  · rw [is_set_slot called slot inside, is_set_slot called slot alsoInside]
  · by_cases refused : d.arg = .noArg ∨ d.repeat_ = .repeats
    · rw [opt_arg_refused called slot inside refused, opt_arg_refused called slot alsoInside refused]
      rfl
    · have needArg : d.arg = .needArg := by cases arg : d.arg <;> simp_all
      have noRepeat : d.repeat_ = .noRepeat := by cases rt : d.repeat_ <;> simp_all
      rw [opt_arg_slot called slot inside needArg noRepeat,
        opt_arg_slot called slot alsoInside needArg noRepeat]
  · by_cases refused : d.arg = .noArg ∨ d.repeat_ = .noRepeat
    · rw [arg_vec_refused called slot inside refused, arg_vec_refused called slot alsoInside refused]
      rfl
    · have needArg : d.arg = .needArg := by cases arg : d.arg <;> simp_all
      have repeats : d.repeat_ = .repeats := by cases rt : d.repeat_ <;> simp_all
      rw [arg_vec_slot called slot inside needArg repeats,
        arg_vec_slot called slot alsoInside needArg repeats]

theorem contents_given {given : List Str} (repeats : d.repeat_ = .repeats) :
    d.contents given = (if given = [] ∧ d.dflt ≠ [] then [d.dflt] else given) ↔ ¬d.Stuck given := by
  unfold Declaration.contents Declaration.Stuck
  by_cases noDefault : d.dflt = []
  · simp [noDefault]
  · by_cases none : given = []
    · simp [noDefault, none]
    · by_cases two : d.twoNames = true
      · have both : d.shortOpt ≠ [] ∧ d.longOpt ≠ [] := by
          simpa [Declaration.twoNames] using two
        rw [if_neg noDefault, if_pos two, if_neg (fun all => none all.1)]
        refine iff_of_false ?_ (not_not.mpr ⟨repeats, both.1, both.2, noDefault, none⟩)
        intro same
        have longer := congrArg List.length same
        simp at longer
      · have notBoth : ¬(d.shortOpt ≠ [] ∧ d.longOpt ≠ []) := by
          simpa [Declaration.twoNames] using two
        rw [if_neg noDefault, if_neg two, if_neg none, if_neg (fun all => none all.1)]
        exact iff_of_true rfl fun stuck => notBoth ⟨stuck.2.1, stuck.2.2.1⟩

theorem served_iff (valid : d.Valid) (called : options.parseCalled = true) {log : List (Str × Str)}
    (slot : Slot options number d (d.after log))
    (once : d.repeat_ = .noRepeat → (d.values log).length ≤ 1) :
    d.Served (d.values log) options ↔ ¬d.Stuck (d.values log) := by
  constructor
  · intro served stuck
    have repeats := stuck.1
    have needArg := valid.dflt stuck.2.2.2.1
    obtain ⟨name, others, names⟩ := List.exists_cons_of_ne_nil valid.named
    have inside : name ∈ d.names := by rw [names]; exact List.mem_cons_self
    have same := served.argVec needArg repeats name inside
    rw [arg_vec_slot called slot inside needArg repeats, Declaration.after,
      cell_contents valid repeats] at same
    exact (contents_given repeats).mp (Except.ok.inj same) stuck
  · intro notStuck
    refine ⟨fun name inside other alsoInside => same_lookups called slot inside alsoInside, ?_, ?_⟩
    · intro needArg noRepeat name inside
      rw [opt_arg_slot called slot inside needArg noRepeat, Declaration.after,
        cell_keeps valid noRepeat]
      unfold Declaration.keeps
      have atMost := once noRepeat
      cases values : d.values log with
      | nil =>
          refine .inl ⟨rfl, ?_⟩
          by_cases hasDefault : d.dflt = []
          · simp [hasDefault]
          · simp [hasDefault]
      | cons val rest =>
          rw [values, List.length_cons] at atMost
          have none : rest = [] := List.length_eq_zero_iff.mp (by omega)
          rw [none]
          exact .inr ⟨val, rfl, rfl⟩
    · intro needArg repeats name inside
      rw [arg_vec_slot called slot inside needArg repeats, Declaration.after,
        cell_contents valid repeats, (contents_given repeats).mpr notStuck]

end Served

/-- After a command line was parsed, the lookups give what it says exactly when no repeating
option keeps its default in front of its arguments. -/
theorem options_served {decls : List Declaration} {options after : Options}
    {args result : List Str} (declared : Options.empty.declare decls = .ok options)
    (parsed : options.parse args = .ok (after, result)) :
    (∀ d ∈ decls, d.Served (d.given decls args) after) ↔
      ∀ d ∈ decls, ¬d.Stuck (d.given decls args) := by
  obtain ⟨_, accepted, rfl, _⟩ := parse_ok.mp parsed
  have valid := (holds_declare holds_empty declared).2
  refine forall₂_congr fun d inside => ?_
  have given : d.given decls args = d.values (stored (options.tokens args)) := by
    rw [Declaration.given, ← declared_needs declared]
    rfl
  obtain ⟨number, before, same, called, slot⟩ :=
    parsed_slot declared (options.tokens args) inside
  have once : d.repeat_ = .noRepeat → (d.values (stored (options.tokens args))).length ≤ 1 := by
    intro noRepeat
    refine values_once ?_ accepted
    rw [← noRepeat]
    exact declared_known declared inside
  have served := served_iff (valid d inside) called slot once
  rw [given, same, ← served]
  -- The lookups do not use the synonyms.
  exact ⟨fun kept => ⟨kept.synonyms, kept.optArg, kept.argVec⟩,
    fun kept => ⟨kept.synonyms, kept.optArg, kept.argVec⟩⟩

def includeOption (dflt : Str) : Declaration :=
  ⟨text "I", text "include", .needArg, dflt, .repeats⟩

/-- One name and a default, which the first argument replaces. -/
def outputOption : Declaration := ⟨text "o", [], .needArg, text "d", .repeats⟩

def twoOptions : List Declaration := [includeOption [], outputOption]

def twoOptionsArgs : List Str := [text "slice", text "-Ia", text "-ob", text "--include=c"]

theorem options_served_include : ∃ options after,
    Options.empty.declare twoOptions = .ok options ∧
      options.parse twoOptionsArgs = .ok (after, []) ∧
      (∀ d ∈ twoOptions, d.Served (d.given twoOptions twoOptionsArgs) after) ∧
      after.argVec (text "I") = .ok [text "a", text "c"] ∧ after.argVec (text "o") = .ok [text "b"] := by
  refine ⟨_, _, rfl, rfl, (@options_served twoOptions _ _ twoOptionsArgs _ rfl rfl).mpr ?_, rfl, rfl⟩
  simp [twoOptions, includeOption, outputOption, Declaration.Stuck]

/-- With a default the argument comes behind it. -/
theorem default_stays :
    ¬∀ decls options after args result, Options.empty.declare decls = .ok options →
      options.parse args = .ok (after, result) →
      ∀ d ∈ decls, d.Served (d.given decls args) after := by
  intro served
  have kept := served [includeOption (text "d")] _ _ [text "slice", text "-Ia"] [] rfl rfl
    (includeOption (text "d")) (List.mem_singleton.mpr rfl)
  have lookup := kept.argVec rfl rfl (text "I") (by decide)
  have found : (.ok [text "d", text "a"] : Except OptionsException (List Str)) =
      .ok [text "a"] := lookup
  cases found

end IceTouch.CommandLine
