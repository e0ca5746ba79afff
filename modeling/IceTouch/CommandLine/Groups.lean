import IceTouch.CommandLine.Synonyms

/-!
# Groups of letters

What a word `-xyz` does in comparison to the words `-x`, `-y` and `-z`. The letters in front of
the one that something is stored for are checked, but nothing is stored for them.
-/

namespace IceTouch.CommandLine

open Bytes WireTypes Escape IceTouch.Lists Results

section Words

variable (needs : Str → Bool)

/-- A word for each letter; the first letter that needs an argument keeps what is left. -/
def separate (c : Byte) : Str → List Str
  | [] => [[dash, c]]
  | next :: rest =>
      if needs [c] then [dash :: c :: next :: rest] else [dash, c] :: separate next rest

def dropped (c : Byte) : Str → List Str
  | [] => []
  | next :: rest => if needs [c] then [] else [c] :: dropped next rest

/-- Where the loop is behind some words. -/
inductive Position where
  | option
  | argument (opt : Str)
  | ended
deriving DecidableEq

def position : List Str → Position
  | [] => .option
  | arg :: rest =>
      if isEnd arg then .ended
      else
        match mention needs arg with
        | none => position rest
        | some word =>
            if word.val = none ∧ needs word.opt then
              match rest with
              | [] => .argument word.opt
              | _ :: more => position more
            else position rest

def single (letter : Str) : List Token := [.use letter, .set letter (text "1")]

def behind (opt : Str) (val : Option Str) (rest : List Str) : List Token :=
  match val with
  | some val => .set opt val :: tokens needs rest
  | none =>
      if needs opt then
        match rest with
        | [] => [.wrong]
        | val :: more => .set opt val :: tokens needs more
      else .set opt (text "1") :: tokens needs rest

theorem short_not_wrong (c : Byte) (rest : Str) : (shortMention needs c rest).wrong needs = false := by
  induction rest generalizing c with
  | nil => simp [shortMention, Mention.wrong]
  | cons next rest ih =>
      rw [shortMention]
      by_cases needed : needs [c] = true
      · simp [needed, Mention.wrong]
      · rw [if_neg needed]
        exact ih next

/-- The tokens of a group: its letters are used, and something is stored for one of them. -/
theorem tokens_group {c : Byte} (notDash : c ≠ dash) (letters : Str) (rest : List Str) :
    tokens needs ((dash :: c :: letters) :: rest) =
      (shortMention needs c letters).uses.map .use ++
        behind needs (shortMention needs c letters).opt (shortMention needs c letters).val rest := by
  have notEnd : isEnd (dash :: c :: letters) = false := by simp [isEnd, notDash]
  have mentioned : mention needs (dash :: c :: letters) = some (shortMention needs c letters) := by
    rw [mention, if_pos rfl, if_neg notDash]
  rw [tokens_word notEnd mentioned, short_not_wrong, if_neg Bool.false_ne_true, List.append_nil]
  rfl

theorem uses_dropped (c : Byte) (letters : Str) :
    (shortMention needs c letters).uses =
      dropped needs c letters ++ [(shortMention needs c letters).opt] := by
  induction letters generalizing c with
  | nil => rfl
  | cons next rest ih =>
      rw [shortMention, dropped]
      by_cases needed : needs [c] = true
      · rw [if_pos needed, if_pos needed]
        rfl
      · rw [if_neg needed, if_neg needed]
        exact congrArg ([c] :: ·) (ih next)

theorem tokens_separate {c : Byte} (letters : Str)
    (noDash : ∀ letter ∈ (shortMention needs c letters).uses, letter ≠ [dash]) (rest : List Str) :
    tokens needs (separate needs c letters ++ rest) =
      (dropped needs c letters).flatMap single ++ .use (shortMention needs c letters).opt ::
        behind needs (shortMention needs c letters).opt (shortMention needs c letters).val rest := by
  induction letters generalizing c with
  | nil =>
      have notDash : c ≠ dash := fun same => noDash [c] List.mem_cons_self (by rw [same])
      exact tokens_group needs notDash [] rest
  | cons next others ih =>
      have first : [c] ∈ (shortMention needs c (next :: others)).uses := by
        rw [shortMention]
        split <;> exact List.mem_cons_self
      have notDash : c ≠ dash := fun same => noDash [c] first (by rw [same])
      by_cases needed : needs [c] = true
      · have whole : separate needs c (next :: others) = [dash :: c :: next :: others] := by
          rw [separate, if_pos needed]
        have none : dropped needs c (next :: others) = [] := by rw [dropped, if_pos needed]
        rw [whole, none, List.singleton_append, tokens_group needs notDash, uses_dropped, none]
        rfl
      · have mentioned : shortMention needs c (next :: others) =
            { shortMention needs next others with
              uses := [c] :: (shortMention needs next others).uses } := by
          rw [shortMention, if_neg needed]
        rw [mentioned] at noDash ⊢
        have later := ih fun letter inside => noDash letter (List.mem_cons_of_mem _ inside)
        have alone := tokens_group needs notDash [] (separate needs next others ++ rest)
        rw [separate, if_neg needed, dropped, if_neg needed, List.cons_append, alone,
          List.flatMap_cons, List.append_assoc, ← later]
        simp [shortMention, behind, needed, single]

def goOn : Position → List Str → List Token
  | .option, more => tokens needs more
  | .ended, more => more.map .other
  | .argument _, [] => [.wrong]
  | .argument opt, val :: more => .set opt val :: tokens needs more

/-- The words before a position have their own tokens, and what follows depends on the
position alone. -/
theorem tokens_go_on (before : List Str) :
    ∃ start, ∀ more, tokens needs (before ++ more) = start ++ goOn needs (position needs before) more := by
  fun_induction position needs before with
  | case1 => exact ⟨[], fun more => rfl⟩
  | case2 arg rest ends =>
      refine ⟨rest.map .other, fun more => ?_⟩
      rw [List.cons_append, tokens, if_pos ends, List.map_append]
      rfl
  | case3 arg rest notEnd mentioned ih =>
      obtain ⟨start, tokens_⟩ := ih
      refine ⟨.other arg :: start, fun more => ?_⟩
      rw [List.cons_append, tokens, if_neg notEnd, mentioned, tokens_]
      rfl
  | case4 arg notEnd word mentioned pending =>
      have notEnd_ : isEnd arg = false := by simpa using notEnd
      refine ⟨word.uses.map .use ++ if word.wrong needs then [.wrong] else [], fun more => ?_⟩
      rw [List.singleton_append, tokens_word notEnd_ mentioned, pending.1]
      cases more <;> simp [pending.2, goOn]
  | case5 arg notEnd word mentioned pending val others ih =>
      have notEnd_ : isEnd arg = false := by simpa using notEnd
      obtain ⟨start, tokens_⟩ := ih
      refine ⟨(word.uses.map .use ++ if word.wrong needs then [.wrong] else []) ++
        .set word.opt val :: start, fun more => ?_⟩
      rw [List.cons_append, tokens_word notEnd_ mentioned, pending.1]
      simp [pending.2, tokens_]
  | case6 arg rest notEnd word mentioned notPending ih =>
      have notEnd_ : isEnd arg = false := by simpa using notEnd
      obtain ⟨start, tokens_⟩ := ih
      refine ⟨(word.uses.map .use ++ if word.wrong needs then [.wrong] else []) ++
        .set word.opt (word.val.getD (text "1")) :: start, fun more => ?_⟩
      rw [List.cons_append, tokens_word notEnd_ mentioned, tokens_]
      cases hasVal : word.val with
      | some own => simp
      | none =>
          have notNeeded : needs word.opt = false := by simpa [hasVal] using notPending
          simp [notNeeded]

theorem tokens_before {before : List Str} (complete : goOn needs (position needs before) [] = [])
    (more : List Str) :
    tokens needs (before ++ more) =
      tokens needs before ++ goOn needs (position needs before) more := by
  obtain ⟨start, tokens_⟩ := tokens_go_on needs before
  have own : tokens needs before = start := by
    have alone := tokens_ []
    rwa [complete, List.append_nil, List.append_nil] at alone
  rw [tokens_ more, own]

theorem tokens_option {before : List Str} (isOption : position needs before = .option)
    (more : List Str) : tokens needs (before ++ more) = tokens needs before ++ tokens needs more := by
  have whole := @tokens_before needs before (by rw [isOption]; rfl) more
  rwa [isOption] at whole

theorem tokens_ended {before : List Str} (ended : position needs before = .ended)
    (more : List Str) :
    tokens needs (before ++ more) = tokens needs before ++ more.map .other := by
  have whole := @tokens_before needs before (by rw [ended]; rfl) more
  rwa [ended] at whole

theorem waiting_needed {before : List Str} {opt : Str}
    (waits : position needs before = .argument opt) : needs opt = true := by
  fun_induction position needs before with
  | case1 => cases waits
  | case2 arg rest ends => cases waits
  | case3 arg rest notEnd mentioned ih => exact ih waits
  | case4 arg notEnd word mentioned pending =>
      cases waits
      exact pending.2
  | case5 arg notEnd word mentioned pending val others ih => exact ih waits
  | case6 arg rest notEnd word mentioned notPending ih => exact ih waits

theorem tokens_argument {before : List Str} {opt : Str}
    (waits : position needs before = .argument opt) :
    needs opt = true ∧ ∃ start, ∀ val more,
      tokens needs (before ++ val :: more) = start ++ .set opt val :: tokens needs more := by
  obtain ⟨start, tokens_⟩ := tokens_go_on needs before
  rw [waits] at tokens_
  exact ⟨waiting_needed needs waits, start, fun val more => tokens_ (val :: more)⟩

theorem separate_none {c : Byte} {letters : Str} (none : dropped needs c letters = []) :
    separate needs c letters = [dash :: c :: letters] := by
  cases letters with
  | nil => rfl
  | cons next rest =>
      rw [dropped] at none
      rw [separate]
      by_cases needed : needs [c] = true
      · rw [if_pos needed]
      · rw [if_neg needed] at none
        cases none

theorem separate_length (c : Byte) (letters : Str) :
    (separate needs c letters).length = (dropped needs c letters).length + 1 := by
  induction letters generalizing c with
  | nil => rfl
  | cons next rest ih =>
      rw [separate, dropped]
      split
      · rfl
      · exact congrArg Nat.succ (ih next)

theorem separate_some {c : Byte} {letters : Str} (some : dropped needs c letters ≠ []) :
    letters ≠ [] ∧ ∃ others, separate needs c letters = [dash, c] :: others := by
  cases letters with
  | nil => exact absurd rfl some
  | cons next rest =>
      rw [dropped] at some
      rw [separate]
      by_cases needed : needs [c] = true
      · rw [if_pos needed] at some
        exact absurd rfl some
      · rw [if_neg needed]
        exact ⟨List.cons_ne_nil _ _, _, rfl⟩

theorem dropped_not_needed {c : Byte} {letters : Str} {letter : Str}
    (inside : letter ∈ dropped needs c letters) : needs letter = false := by
  induction letters generalizing c with
  | nil => cases inside
  | cons next rest ih =>
      rw [dropped] at inside
      by_cases needed : needs [c] = true
      · rw [if_pos needed] at inside
        cases inside
      · rw [if_neg needed] at inside
        obtain rfl | inside := List.mem_cons.mp inside
        · simpa using needed
        · exact ih inside

end Words

section Letters

theorem stored_append (first second : List Token) :
    stored (first ++ second) = stored first ++ stored second := List.filterMap_append

theorem others_append (first second : List Token) :
    others (first ++ second) = others first ++ others second := List.filterMap_append

theorem stored_single (letters : List Str) :
    stored (letters.flatMap single) = letters.map fun letter => (letter, text "1") := by
  induction letters with
  | nil => rfl
  | cons letter rest ih =>
      rw [List.flatMap_cons, stored_append, ih]
      rfl

theorem others_single (letters : List Str) : others (letters.flatMap single) = [] := by
  induction letters with
  | nil => rfl
  | cons letter rest ih =>
      rw [List.flatMap_cons, others_append, ih]
      rfl

theorem accepted_single (table : Table) (seen : List Str) (before : List Token)
    (letters : List Str) (more : List Token) :
    table.accepted seen (before ++ (letters.flatMap single ++ more)) =
      table.accepted seen (before ++ (letters.map .use ++ more)) := by
  induction before generalizing seen with
  | nil =>
      induction letters generalizing seen with
      | nil => rfl
      | cons letter rest ih =>
          change table.accepted seen (.use letter :: .set letter (text "1") ::
            (rest.flatMap single ++ more)) = table.accepted seen (.use letter :: (rest.map .use ++ more))
          rw [Table.accepted, Table.accepted]
          cases table.used seen letter with
          | none => rfl
          | some seenAfter => exact ih seenAfter
  | cons token rest ih =>
      cases token with
      | use opt =>
          rw [List.cons_append, List.cons_append, Table.accepted, Table.accepted]
          cases table.used seen opt with
          | none => rfl
          | some seenAfter => exact ih seenAfter
      | set opt val => exact ih seen
      | other arg => exact ih seen
      | wrong => rfl

theorem accepted_known {table : Table} {seen : List Str} {read : List Token} {opt : Str}
    (accepted : table.accepted seen read = true) (inside : .use opt ∈ read) :
    table.kind opt ≠ none := by
  induction read generalizing seen with
  | nil => cases inside
  | cons token rest ih =>
      cases token with
      | use other =>
          rw [Table.accepted] at accepted
          cases used : table.used seen other with
          | none =>
              rw [used] at accepted
              cases accepted
          | some seenAfter =>
              rw [used] at accepted
              obtain same | later := List.mem_cons.mp inside
              · cases same
                intro unknown
                rw [Table.used, unknown] at used
                cases used
              · exact ih accepted later
      | set other val =>
          obtain same | later := List.mem_cons.mp inside
          · cases same
          · exact ih accepted later
      | other word =>
          obtain same | later := List.mem_cons.mp inside
          · cases same
          · exact ih accepted later
      | wrong => cases accepted

end Letters

def SameResults (first second : Options) : Prop :=
  ∀ name, first.isSet name = second.isSet name ∧ first.optArg name = second.optArg name ∧
    first.argVec name = second.argVec name

section Afterwards

variable {decls : List Declaration} {options : Options}

theorem store_table (log : List (Str × Str)) : (options.store log).table = options.table := by
  induction log generalizing options with
  | nil => rfl
  | cons entry rest ih =>
      rw [Options.store]
      split
      · exact ih
      · rw [ih, set_opt_table]

variable {name : Str} {d : Declaration}

theorem afterwards_unknown (read : List Token) (unknown : options.find name = none) :
    (options.afterwards read).find name = none := by
  have same := congrArg (fun table => table.kind name)
    (@store_table { options with parseCalled := true } (stored read))
  have before : ({ options with parseCalled := true } : Options).table.kind name = none := by
    have sameFind : ({ options with parseCalled := true } : Options).find name = options.find name :=
      rfl
    simp [Options.table, sameFind, unknown]
  rw [before] at same
  have found : (({ options with parseCalled := true } : Options).store (stored read)).find name =
      none := by
    simpa [Options.table] using same
  exact found

theorem afterwards_called (read : List Token) : (options.afterwards read).parseCalled = true :=
  store_called _ _

theorem unknown_lookups {first second : Options} (called : first.parseCalled = true)
    (alsoCalled : second.parseCalled = true) (unknown : first.find name = none)
    (alsoUnknown : second.find name = none) :
    first.isSet name = second.isSet name ∧ first.optArg name = second.optArg name ∧
      first.argVec name = second.argVec name := by
  simp [Options.isSet, Options.optArg, Options.argVec, Options.checkParsed, called, alsoCalled,
    Options.checkOptHasArg, Options.checkOptIsValid, unknown, alsoUnknown, bind, Except.bind]

variable (declared : Options.empty.declare decls = .ok options) (read : List Token)

include declared

section

variable (inside : d ∈ decls)

include inside

section

variable (own : name ∈ d.names)

include own

theorem afterwards_is_set :
    (options.afterwards read).isSet name =
      .ok (if d.repeat_ = .noRepeat then (d.keeps (d.values (stored read))).isSome
        else decide (d.contents (d.values (stored read)) ≠ [])) := by
  have valid := (holds_declare holds_empty declared).2 d inside
  obtain ⟨number, before, same, called, slot⟩ := parsed_slot declared read inside
  have looked := is_set_slot called slot own
  rw [same]
  refine Eq.trans looked ?_
  cases rt : d.repeat_ with
  | noRepeat => rw [if_pos rfl, if_pos rfl, Declaration.after, cell_keeps valid rt]
  | repeats =>
      rw [if_neg RepeatType.noConfusion, if_neg RepeatType.noConfusion, Declaration.after,
        cell_contents valid rt]

theorem afterwards_opt_arg (needArg : d.arg = .needArg) (noRepeat : d.repeat_ = .noRepeat) :
    (options.afterwards read).optArg name =
      .ok ((d.keeps (d.values (stored read))).getD []) := by
  have valid := (holds_declare holds_empty declared).2 d inside
  obtain ⟨number, before, same, called, slot⟩ := parsed_slot declared read inside
  have looked := opt_arg_slot called slot own needArg noRepeat
  rw [Declaration.after, cell_keeps valid noRepeat] at looked
  rw [same]
  exact looked

theorem afterwards_arg_vec (needArg : d.arg = .needArg) (repeats : d.repeat_ = .repeats) :
    (options.afterwards read).argVec name = .ok (d.contents (d.values (stored read))) := by
  have valid := (holds_declare holds_empty declared).2 d inside
  obtain ⟨number, before, same, called, slot⟩ := parsed_slot declared read inside
  have looked := arg_vec_slot called slot own needArg repeats
  rw [Declaration.after, cell_contents valid repeats] at looked
  rw [same]
  exact looked

theorem afterwards_same {other : List Token}
    (isSet : (options.afterwards read).isSet name = (options.afterwards other).isSet name)
    (values : d.arg = .needArg → d.values (stored read) = d.values (stored other)) :
    (options.afterwards read).isSet name = (options.afterwards other).isSet name ∧
      (options.afterwards read).optArg name = (options.afterwards other).optArg name ∧
      (options.afterwards read).argVec name = (options.afterwards other).argVec name := by
  obtain ⟨number, before, same, called, slot⟩ := parsed_slot declared read inside
  obtain ⟨otherNumber, otherBefore, sameOther, otherCalled, otherSlot⟩ :=
    parsed_slot declared other inside
  refine ⟨isSet, ?_, ?_⟩
  · by_cases refused : d.arg = .noArg ∨ d.repeat_ = .repeats
    · have first := opt_arg_refused called slot own refused
      have second := opt_arg_refused otherCalled otherSlot own refused
      rw [same, sameOther]
      exact first.trans second.symm
    · have needArg : d.arg = .needArg := by cases arg : d.arg <;> simp_all
      have noRepeat : d.repeat_ = .noRepeat := by cases rt : d.repeat_ <;> simp_all
      rw [afterwards_opt_arg declared read inside own needArg noRepeat,
        afterwards_opt_arg declared other inside own needArg noRepeat, values needArg]
  · by_cases refused : d.arg = .noArg ∨ d.repeat_ = .noRepeat
    · have first := arg_vec_refused called slot own refused
      have second := arg_vec_refused otherCalled otherSlot own refused
      rw [same, sameOther]
      exact first.trans second.symm
    · have needArg : d.arg = .needArg := by cases arg : d.arg <;> simp_all
      have repeats : d.repeat_ = .repeats := by cases rt : d.repeat_ <;> simp_all
      rw [afterwards_arg_vec declared read inside own needArg repeats,
        afterwards_arg_vec declared other inside own needArg repeats, values needArg]

end

theorem afterwards_is_set_no_arg (noArg : d.arg = .noArg) (own : name ∈ d.names) :
    (options.afterwards read).isSet name = .ok (decide (d.values (stored read) ≠ [])) := by
  have valid := (holds_declare holds_empty declared).2 d inside
  have noDefault : d.dflt = [] := by
    by_contra some
    rw [valid.dflt some] at noArg
    cases noArg
  rw [afterwards_is_set declared read inside own, Declaration.keeps, Declaration.contents,
    if_pos noDefault, if_neg (not_not.mpr noDefault), Option.or_none]
  cases d.values (stored read) with
  | nil => simp
  | cons val rest => simp [List.getLast?_cons]

end

end Afterwards

def grouped (before : List Str) (c : Byte) (letters : Str) (rest : List Str) : List Str :=
  before ++ (dash :: c :: letters) :: rest

def separated (needs : Str → Bool) (before : List Str) (c : Byte) (letters : Str)
    (rest : List Str) : List Str :=
  before ++ (separate needs c letters ++ rest)

/-- The letters of a group that nothing is stored for have no influence: there are none, or the
group stands for options and every one of them is a repeating option that something is stored
for elsewhere. -/
def Harmless (decls : List Declaration) (before : List Str) (c : Byte) (letters : Str)
    (rest : List Str) : Prop :=
  dropped (needed decls) c letters = [] ∨
    (position (needed decls) before = .option ∧
      ∀ letter ∈ dropped (needed decls) c letters, ∃ d ∈ decls, letter ∈ d.names ∧
        d.repeat_ = .repeats ∧
        d.values (stored (tokens (needed decls) (grouped before c letters rest))) ≠ [])

section Groups

variable {decls : List Declaration} {before : List Str} {c : Byte} {letters : Str}
  {rest : List Str}

theorem group_tokens (needs : Str → Bool) (notDash : c ≠ dash)
    (isOption : position needs before = .option) {table : Table}
    (known : ∀ opt, table.kind opt ≠ none → opt ≠ [dash])
    (accepted : table.accepted [] (tokens needs (grouped before c letters rest)) = true) :
    ∃ start last, tokens needs (grouped before c letters rest) =
        start ++ ((dropped needs c letters).map .use ++ last) ∧
      tokens needs (separated needs before c letters rest) =
        start ++ ((dropped needs c letters).flatMap single ++ last) := by
  have group := tokens_group needs notDash letters rest
  have whole : tokens needs (grouped before c letters rest) =
      tokens needs before ++ ((dropped needs c letters).map .use ++
        (.use (shortMention needs c letters).opt ::
          behind needs (shortMention needs c letters).opt (shortMention needs c letters).val rest)) := by
    rw [grouped, tokens_option needs isOption, group, uses_dropped]
    simp
  have noDash : ∀ letter ∈ (shortMention needs c letters).uses, letter ≠ [dash] := by
    intro letter inside
    refine known letter (accepted_known accepted ?_)
    rw [grouped, tokens_option needs isOption, group]
    exact List.mem_append_right _ (List.mem_append_left _ (List.mem_map.mpr ⟨letter, inside, rfl⟩))
  refine ⟨_, _, whole, ?_⟩
  rw [separated, tokens_option needs isOption, tokens_separate needs letters noDash]

theorem values_letters (d : Declaration) (names : List Str) :
    d.values (names.map fun letter => (letter, text "1")) =
      (names.filter fun letter => letter ∈ d.names).map fun _ => text "1" := by
  induction names with
  | nil => rfl
  | cons letter others ih =>
      by_cases own : letter ∈ d.names
      · rw [List.map_cons, values_own own, ih, List.filter_cons_of_pos (by simpa using own)]
        rfl
      · rw [List.map_cons, values_other own, ih, List.filter_cons_of_neg (by simpa using own)]

variable {options : Options}

section

variable (declared : Options.empty.declare decls = .ok options)

include declared

theorem known_not_dash {opt : Str} (known : options.table.kind opt ≠ none) : opt ≠ [dash] := by
  cases isFound : options.find opt with
  | none => simp [Options.table, isFound] at known
  | some found =>
      obtain ⟨d, inside, own, _⟩ := declared_find declared isFound
      have noDash := ((holds_declare holds_empty declared).2 d inside).noDash opt own
      rintro rfl
      exact noDash rfl

/-- A letter of an accepted group is an option without an argument if nothing is stored for it. -/
theorem letter_declared {letter : Str} (inside : letter ∈ dropped (needed decls) c letters)
    (known : options.table.kind letter ≠ none) :
    ∃ d ∈ decls, letter ∈ d.names ∧ d.arg = .noArg := by
  cases isFound : options.find letter with
  | none => simp [Options.table, isFound] at known
  | some found =>
      obtain ⟨d, isDecl, own, _⟩ := declared_find declared isFound
      refine ⟨d, isDecl, own, ?_⟩
      have notNeeded := dropped_not_needed (needed decls) inside
      cases arg : d.arg with
      | noArg => rfl
      | needArg =>
          have needs : needed decls letter = true := needed_iff.mpr ⟨d, isDecl, own, arg⟩
          rw [needs] at notNeeded
          cases notNeeded

theorem declared_unique {d e : Declaration} (inside : d ∈ decls) (alsoInside : e ∈ decls)
    {name : Str} (own : name ∈ d.names) (alsoOwn : name ∈ e.names) : d = e := by
  obtain ⟨holds, _⟩ := holds_declare holds_empty declared
  rw [List.nil_append] at holds
  obtain ⟨number, isSlot⟩ := declared_number inside
  obtain ⟨other, isOtherSlot⟩ := declared_number alsoInside
  obtain rfl := slot_unique holds isSlot own isOtherSlot alsoOwn
  rw [isSlot] at isOtherSlot
  exact (Prod.mk.inj (Option.some.inj isOtherSlot)).1

end

section Options_

variable {start last : List Token} {read other : List Token}

theorem values_group (d : Declaration) (names : List Str)
    (whole : read = start ++ (names.map .use ++ last))
    (parts : other = start ++ (names.flatMap single ++ last)) :
    d.values (stored read) = d.values (stored start) ++ d.values (stored last) ∧
      d.values (stored other) = d.values (stored start) ++
        ((names.filter fun letter => letter ∈ d.names).map (fun _ => text "1") ++
          d.values (stored last)) := by
  subst whole parts
  rw [stored_append, stored_uses, stored_append, stored_append, stored_single, values_append,
    values_append, values_append, values_letters]
  exact ⟨rfl, rfl⟩

/-- In a place for options, the letters of an accepted group are harmless if and only if all
lookups stay the same. -/
theorem group_results (declared : Options.empty.declare decls = .ok options)
    (whole : read = start ++ ((dropped (needed decls) c letters).map .use ++ last))
    (parts : other = start ++ ((dropped (needed decls) c letters).flatMap single ++ last))
    (known : ∀ letter ∈ dropped (needed decls) c letters, options.table.kind letter ≠ none)
    (once : ∀ d ∈ decls, d.repeat_ = .noRepeat → (d.values (stored other)).length ≤ 1) :
    SameResults (options.afterwards read) (options.afterwards other) ↔
      ∀ letter ∈ dropped (needed decls) c letters, ∃ d ∈ decls, letter ∈ d.names ∧
        d.repeat_ = .repeats ∧ d.values (stored read) ≠ [] := by
  have values (d : Declaration) := values_group d _ whole parts
  constructor
  · intro same letter inside
    obtain ⟨d, isDecl, own, noArg⟩ := letter_declared declared inside (known letter inside)
    have isSet := (same letter).1
    rw [afterwards_is_set_no_arg declared read isDecl noArg own,
      afterwards_is_set_no_arg declared other isDecl noArg own] at isSet
    have inLetters : letter ∈ (dropped (needed decls) c letters).filter
        fun letter => letter ∈ d.names := List.mem_filter.mpr ⟨inside, by simpa using own⟩
    have some := List.length_pos_of_mem inLetters
    have more : (d.values (stored read)).length < (d.values (stored other)).length := by
      rw [(values d).1, (values d).2]
      simp only [List.length_append, List.length_map]
      omega
    have nonempty : d.values (stored read) ≠ [] := by
      have storedOther : d.values (stored other) ≠ [] := List.length_pos_iff.mp (by omega)
      simpa [storedOther] using Except.ok.inj isSet
    refine ⟨d, isDecl, own, ?_, nonempty⟩
    cases rt : d.repeat_ with
    | repeats => rfl
    | noRepeat =>
        have atMost := once d isDecl rt
        have atLeast := List.length_pos_iff.mpr nonempty
        omega
  · intro harmless name
    cases isFound : options.find name with
    | none =>
        exact unknown_lookups (afterwards_called read) (afterwards_called other)
          (afterwards_unknown read isFound) (afterwards_unknown other isFound)
    | some found =>
        obtain ⟨d, isDecl, own, _⟩ := declared_find declared isFound
        by_cases none : (dropped (needed decls) c letters).filter
            (fun letter => letter ∈ d.names) = []
        · have same : d.values (stored read) = d.values (stored other) := by
            rw [(values d).1, (values d).2, none]
            rfl
          refine afterwards_same declared read isDecl own ?_ fun _ => same
          rw [afterwards_is_set declared read isDecl own,
            afterwards_is_set declared other isDecl own, same]
        · obtain ⟨letter, inLetters⟩ := List.exists_mem_of_ne_nil _ none
          obtain ⟨inside, isOwn⟩ := List.mem_filter.mp inLetters
          have letterOwn : letter ∈ d.names := by simpa using isOwn
          obtain ⟨e, isE, ownE, noArg⟩ := letter_declared declared inside (known letter inside)
          obtain rfl := declared_unique declared isDecl isE letterOwn ownE
          obtain ⟨f, isF, ownF, repeats, nonempty⟩ := harmless letter inside
          obtain rfl := declared_unique declared isDecl isF letterOwn ownF
          have storedOther : d.values (stored other) ≠ [] := by
            rw [(values d).2]
            simp [none]
          refine afterwards_same declared read isDecl own ?_ fun needArg => ?_
          · rw [afterwards_is_set_no_arg declared read isDecl noArg own,
              afterwards_is_set_no_arg declared other isDecl noArg own]
            simp [nonempty, storedOther]
          · rw [noArg] at needArg
            cases needArg

end Options_

theorem tokens_declared (declared : Options.empty.declare decls = .ok options) (program : Str)
    (args : List Str) : options.tokens (program :: args) = tokens (needed decls) args := by
  rw [Options.tokens, declared_needs declared]
  rfl

theorem parsed_once (declared : Options.empty.declare decls = .ok options) {args : List Str}
    (accepted : options.table.accepted [] (tokens (needed decls) args) = true) {d : Declaration}
    (inside : d ∈ decls) (noRepeat : d.repeat_ = .noRepeat) :
    (d.values (stored (tokens (needed decls) args))).length ≤ 1 := by
  refine values_once ?_ accepted
  rw [← noRepeat]
  exact declared_known declared inside

theorem ended_differs {needs : Str → Bool} (ended : position needs before = .ended)
    (some : dropped needs c letters ≠ []) :
    others (tokens needs (separated needs before c letters rest)) ≠
      others (tokens needs (grouped before c letters rest)) := by
  intro same
  rw [separated, grouped, tokens_ended needs ended, tokens_ended needs ended, others_append,
    others_append, others_others, others_others] at same
  have length := congrArg List.length (List.append_cancel_left same)
  have longer := List.length_pos_iff.mpr some
  rw [List.length_append, separate_length, List.length_cons] at length
  omega

/-- A group that is the argument of an option is a longer argument than its first letter. -/
theorem argument_differs (declared : Options.empty.declare decls = .ok options) {opt : Str}
    (waits : position (needed decls) before = .argument opt)
    (some : dropped (needed decls) c letters ≠ [])
    (accepted : options.table.accepted []
      (tokens (needed decls) (grouped before c letters rest)) = true)
    (alsoAccepted : options.table.accepted []
      (tokens (needed decls) (separated (needed decls) before c letters rest)) = true) :
    ¬SameResults (options.afterwards (tokens (needed decls) (grouped before c letters rest)))
      (options.afterwards
        (tokens (needed decls) (separated (needed decls) before c letters rest))) := by
  intro same
  obtain ⟨isNeeded, start, tokens_⟩ := tokens_argument (needed decls) waits
  obtain ⟨longer, more, parts⟩ := separate_some (needed decls) some
  obtain ⟨d, inside, own, needArg⟩ := needed_iff.mp isNeeded
  have group : d.values (stored (tokens (needed decls) (grouped before c letters rest))) =
      d.values (stored start) ++ (dash :: c :: letters) ::
        d.values (stored (tokens (needed decls) rest)) := by
    have stores : stored (.set opt (dash :: c :: letters) :: tokens (needed decls) rest) =
        (opt, dash :: c :: letters) :: stored (tokens (needed decls) rest) := rfl
    rw [grouped, tokens_, stored_append, values_append, stores, values_own own]
  have split : d.values (stored (tokens (needed decls)
      (separated (needed decls) before c letters rest))) =
      d.values (stored start) ++ [dash, c] ::
        d.values (stored (tokens (needed decls) (more ++ rest))) := by
    have stores : stored (.set opt [dash, c] :: tokens (needed decls) (more ++ rest)) =
        (opt, [dash, c]) :: stored (tokens (needed decls) (more ++ rest)) := rfl
    rw [separated, parts, List.cons_append, tokens_, stored_append, values_append, stores,
      values_own own]
  have differ : dash :: c :: letters ≠ [dash, c] := by simpa using longer
  cases rt : d.repeat_ with
  | noRepeat =>
      have once := parsed_once declared accepted inside rt
      have alsoOnce := parsed_once declared alsoAccepted inside rt
      have looked := (same opt).2.1
      rw [afterwards_opt_arg declared _ inside own needArg rt,
        afterwards_opt_arg declared _ inside own needArg rt] at looked
      rw [group] at once looked
      rw [split] at alsoOnce looked
      simp only [List.length_append, List.length_cons] at once alsoOnce
      have none : d.values (stored start) = [] := List.length_eq_zero_iff.mp (by omega)
      have noneBehind : d.values (stored (tokens (needed decls) rest)) = [] :=
        List.length_eq_zero_iff.mp (by omega)
      have noneAfter : d.values (stored (tokens (needed decls) (more ++ rest))) = [] :=
        List.length_eq_zero_iff.mp (by omega)
      rw [none, noneBehind, noneAfter] at looked
      exact differ (Except.ok.inj looked)
  | repeats =>
      have looked := (same opt).2.2
      rw [afterwards_arg_vec declared _ inside own needArg rt,
        afterwards_arg_vec declared _ inside own needArg rt] at looked
      have contents := Except.ok.inj looked
      rw [group, split] at contents
      have cancel : d.values (stored start) ++ (dash :: c :: letters) ::
          d.values (stored (tokens (needed decls) rest)) = d.values (stored start) ++ [dash, c] ::
            d.values (stored (tokens (needed decls) (more ++ rest))) := by
        unfold Declaration.contents at contents
        split at contents
        · exact contents
        · split at contents
          · exact (List.cons.inj contents).2
          · rwa [if_neg (by simp), if_neg (by simp)] at contents
      exact differ (List.cons.inj (List.append_cancel_left cancel)).1

/-- Separate words do the same as a group exactly when its letters are harmless. -/
theorem group_separate {first : Options} {program : Str} {result : List Str}
    (declared : Options.empty.declare decls = .ok options) (notDash : c ≠ dash)
    (parsed : options.parse (program :: grouped before c letters rest) = .ok (first, result)) :
    (∃ second, options.parse (program :: separated (needed decls) before c letters rest) =
        .ok (second, result) ∧ SameResults first second) ↔
      Harmless decls before c letters rest := by
  by_cases none : dropped (needed decls) c letters = []
  · refine iff_of_true ⟨first, ?_, fun name => ⟨rfl, rfl, rfl⟩⟩ (.inl none)
    rw [separated, separate_none (needed decls) none]
    exact parsed
  · obtain ⟨notCalled, accepted, isFirst, isResult⟩ := parse_ok.mp parsed
    rw [tokens_declared declared] at accepted isFirst isResult
    have both : (∃ second, options.parse (program :: separated (needed decls) before c letters rest) =
        .ok (second, result) ∧ SameResults first second) ↔
        options.table.accepted []
            (tokens (needed decls) (separated (needed decls) before c letters rest)) = true ∧
          result = others
            (tokens (needed decls) (separated (needed decls) before c letters rest)) ∧
          SameResults first (options.afterwards
            (tokens (needed decls) (separated (needed decls) before c letters rest))) := by
      constructor
      · rintro ⟨second, parsedSecond, same⟩
        obtain ⟨_, alsoAccepted, rfl, sameResult⟩ := parse_ok.mp parsedSecond
        rw [tokens_declared declared] at alsoAccepted sameResult same
        exact ⟨alsoAccepted, sameResult, same⟩
      · rintro ⟨alsoAccepted, sameResult, same⟩
        refine ⟨_, parse_ok.mpr ⟨notCalled, ?_, rfl, ?_⟩, ?_⟩ <;> rw [tokens_declared declared]
        · exact alsoAccepted
        · exact sameResult
        · exact same
    rw [both, isFirst]
    cases place : position (needed decls) before with
    | option =>
        obtain ⟨start, last, whole, parts⟩ := group_tokens (needed decls) notDash place
          (fun opt => known_not_dash declared) accepted
        have sameAccepted := accepted_single options.table [] start
          (dropped (needed decls) c letters) last
        rw [← whole, ← parts] at sameAccepted
        have alsoAccepted := sameAccepted.trans accepted
        have sameOthers : others (tokens (needed decls) (separated (needed decls) before c letters
            rest)) = others (tokens (needed decls) (grouped before c letters rest)) := by
          rw [whole, parts, others_append, others_append, others_append, others_single, others_uses]
          rfl
        have known : ∀ letter ∈ dropped (needed decls) c letters,
            options.table.kind letter ≠ Option.none := by
          intro letter inside
          refine accepted_known accepted ?_
          rw [whole]
          exact List.mem_append_right _
            (List.mem_append_left _ (List.mem_map.mpr ⟨letter, inside, rfl⟩))
        have results := group_results declared whole parts known
          fun d inside => parsed_once declared alsoAccepted inside
        rw [results]
        constructor
        · rintro ⟨_, _, harmless⟩
          exact .inr ⟨place, harmless⟩
        · rintro (empty | ⟨_, harmless⟩)
          · exact absurd empty none
          · exact ⟨alsoAccepted, isResult.trans sameOthers.symm, harmless⟩
    | argument opt =>
        refine iff_of_false ?_ ?_
        · rintro ⟨alsoAccepted, _, same⟩
          exact argument_differs declared place none accepted alsoAccepted same
        · rintro (empty | ⟨isOption, _⟩)
          · exact none empty
          · rw [place] at isOption
            cases isOption
    | ended =>
        refine iff_of_false ?_ ?_
        · rintro ⟨_, sameResult, _⟩
          exact ended_differs place none (sameResult.symm.trans isResult)
        · rintro (empty | ⟨isOption, _⟩)
          · exact none empty
          · rw [place] at isOption
            cases isOption

end Groups

def letterOption (letter : String) (rt : RepeatType) : Declaration :=
  ⟨text letter, [], .noArg, [], rt⟩

/-- A repeating letter twice in a group. -/
theorem group_separate_twice : ∃ options first,
    Options.empty.declare [letterOption "v" .repeats] = .ok options ∧
      options.parse (text "slice" :: grouped [] 118 (text "v") []) = .ok (first, []) ∧
      ((∃ second, options.parse (text "slice" ::
          separated (needed [letterOption "v" .repeats]) [] 118 (text "v") []) = .ok (second, []) ∧
          SameResults first second) ↔
        Harmless [letterOption "v" .repeats] [] 118 (text "v") []) :=
  ⟨_, _, rfl, rfl, group_separate rfl (by decide) rfl⟩

/-- Of the group `-ab` only the second option is set. -/
theorem group_loses_letter :
    ¬∀ decls options before c letters rest first program result,
      Options.empty.declare decls = .ok options → c ≠ dash →
      options.parse (program :: grouped before c letters rest) = .ok (first, result) →
      ∃ second, options.parse (program :: separated (needed decls) before c letters rest) =
        .ok (second, result) ∧ SameResults first second := by
  intro claim
  obtain ⟨second, parsed, same⟩ := claim
    [letterOption "a" .noRepeat, letterOption "b" .noRepeat] _ [] 97 (text "b") [] _
    (text "slice") [] rfl (by decide) rfl
  cases parsed
  have isSet : (.ok false : Except OptionsException Bool) = .ok true := (same (text "a")).1
  cases isSet

end IceTouch.CommandLine
