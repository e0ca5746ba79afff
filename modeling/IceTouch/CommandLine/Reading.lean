import IceTouch.CommandLine.Options

/-!
# Reading words

What the words of a command line say, apart from whether it is accepted: which options they
use, what they store, and which words are no options. A run of `parse` checks the uses in their
order and makes the calls of `setOpt` for what is stored.
-/

namespace IceTouch.CommandLine

open Bytes WireTypes Escape

inductive Token where
  /-- An option stands in a word. -/
  | use (opt : Str)
  /-- A value is stored for an option. -/
  | set (opt val : Str)
  /-- A word is no option. -/
  | other (arg : Str)
  /-- An argument is missing or not allowed. -/
  | wrong
deriving DecidableEq

/-- The options that stand in a word, the one that something is stored for, and the argument
that the word has for it. -/
structure Mention where
  uses : List Str
  opt : Str
  val : Option Str
deriving DecidableEq

section Words

variable (needs : Str → Bool)

def Mention.wrong (word : Mention) : Bool := !needs word.opt && word.val.any (· ≠ [])

def longMention (body : Str) : Mention :=
  let opt := body.takeWhile (· ≠ equals)
  ⟨[opt], opt, (body.dropWhile (· ≠ equals)).tail?⟩

/-- In a group of letters the last one counts, or the first one that needs an argument. -/
def shortMention (c : Byte) : Str → Mention
  | [] => ⟨[[c]], [c], none⟩
  | next :: rest =>
      if needs [c] then ⟨[[c]], [c], some (next :: rest)⟩
      else
        let later := shortMention next rest
        { later with uses := [c] :: later.uses }

def mention (arg : Str) : Option Mention :=
  match arg with
  | first :: next :: rest =>
      if first = dash then
        if next = dash then some (longMention rest) else some (shortMention needs next rest)
      else none
  | _ => none

def isEnd (arg : Str) : Bool := arg = [dash] || arg = [dash, dash]

def tokens : List Str → List Token
  | [] => []
  | arg :: rest =>
      if isEnd arg then rest.map .other
      else
        match mention needs arg with
        | none => .other arg :: tokens rest
        | some word =>
            word.uses.map .use ++ (if word.wrong needs then [.wrong] else []) ++
              match word.val with
              | some val => .set word.opt val :: tokens rest
              | none =>
                  if needs word.opt then
                    match rest with
                    | [] => [.wrong]
                    | val :: more => .set word.opt val :: tokens more
                  else .set word.opt (text "1") :: tokens rest

end Words

def stored : List Token → List (Str × Str) :=
  List.filterMap fun token => match token with
    | .set opt val => some (opt, val)
    | _ => none

def others : List Token → List Str :=
  List.filterMap fun token => match token with
    | .other arg => some arg
    | _ => none

/-- What `parse` looks up about an option. -/
structure Table where
  kind : Str → Option (ArgType × RepeatType)
  synonym : Str → Str

namespace Table

variable (table : Table)

def needs (opt : Str) : Bool := (table.kind opt).any fun kind => kind.1 = .needArg

def used (seen : List Str) (opt : Str) : Option (List Str) :=
  match table.kind opt with
  | none => none
  | some (_, .repeats) => some seen
  | some (_, .noRepeat) =>
      if seen.contains opt then none
      else some (opt :: if table.synonym opt ≠ [] then table.synonym opt :: seen else seen)

def accepted : List Str → List Token → Bool
  | _, [] => true
  | seen, .use opt :: rest =>
      match table.used seen opt with
      | none => false
      | some seen => accepted seen rest
  | seen, .set _ _ :: rest => accepted seen rest
  | seen, .other _ :: rest => accepted seen rest
  | _, .wrong :: _ => false

end Table

def Options.table (options : Options) : Table where
  kind opt := (options.find opt).map fun found => (found.arg, found.repeat_)
  synonym := options.getSynonym

/-- The calls of `setOpt` that `parse` makes. -/
def Options.store (options : Options) : List (Str × Str) → Options
  | [] => options
  | (opt, val) :: rest =>
      match options.find opt with
      | none => options.store rest
      | some found => (options.setOpt opt [] val found.repeat_).store rest

section Lookup

variable (options : Options)

theorem add_to_table (opt : Str) (vector : Nat) (val : Str) :
    (options.addTo opt vector val).table = options.table := by
  unfold Options.addTo
  dsimp only
  cases valid : options.validOpts opt with
  | none => rfl
  | some number =>
      dsimp only
      cases inside : options.details[number]? with
      | none => rfl
      | some found =>
          dsimp only
          split
          · unfold Options.table
            congr 1
            funext other
            simp only [Options.find]
            cases options.validOpts other with
            | none => rfl
            | some place =>
                dsimp only [Option.bind_some]
                by_cases same : number = place
                · subst same
                  rw [List.getElem?_set_self', inside]
                  rfl
                · rw [List.getElem?_set_ne same]
          · rfl

theorem set_non_repeating_table (opt val : Str) :
    (options.setNonRepeatingOpt opt val).table = options.table := by
  unfold Options.setNonRepeatingOpt
  split <;> rfl

theorem set_repeating_table (opt val : Str) :
    (options.setRepeatingOpt opt val).table = options.table := by
  unfold Options.setRepeatingOpt
  split
  · rfl
  · dsimp only
    split
    · exact add_to_table options opt _ val
    · exact add_to_table options opt _ val
    · rfl

theorem set_opt_table (opt1 opt2 val : Str) (rt : RepeatType) :
    (options.setOpt opt1 opt2 val rt).table = options.table := by
  cases rt with
  | noRepeat => exact (set_non_repeating_table _ opt2 val).trans (set_non_repeating_table _ opt1 val)
  | repeats => exact (set_repeating_table _ opt2 val).trans (set_repeating_table _ opt1 val)

variable {found : OptionDetails}

variable {opt arg : Str}

section

variable (isFound : options.find opt = some found)

include isFound

theorem kind_found : options.table.kind opt = some (found.arg, found.repeat_) := by
  simp [Options.table, isFound]

theorem needs_found : options.table.needs opt = decide (found.arg = .needArg) := by
  simp [Table.needs, kind_found options isFound]

theorem store_cons (val : Str) (rest : List (Str × Str)) :
    options.store ((opt, val) :: rest) =
      (options.setOpt opt [] val found.repeat_).store rest := by
  rw [Options.store, isFound]

theorem check_repeated (seen : List Str) (dashes : Str) :
    (options.checkRepeated seen dashes opt found).toOption = options.table.used seen opt := by
  unfold Options.checkRepeated Table.used
  rw [kind_found options isFound]
  cases found.repeat_ with
  | repeats => rfl
  | noRepeat =>
      dsimp only
      by_cases again : seen.contains opt = true
      · rw [if_pos again, if_pos again]
        rfl
      · rw [if_neg again, if_neg again]
        rfl

end

def Table.usedAll (table : Table) (seen : List Str) (uses : List Str) : Option (List Str) :=
  uses.foldlM table.used seen

theorem accepted_uses (table : Table) (seen uses : List Str) (more : List Token) :
    table.accepted seen (uses.map .use ++ more) =
      match table.usedAll seen uses with
      | none => false
      | some seen => table.accepted seen more := by
  induction uses generalizing seen with
  | nil => rfl
  | cons opt rest ih =>
      rw [List.map_cons, List.cons_append, Table.accepted, Table.usedAll, List.foldlM_cons]
      cases table.used seen opt with
      | none => rfl
      | some seen => exact ih seen

def Reads (seen : List Str) (word : Mention) : Except OptionsException Read → Prop
  | .ok read =>
      options.table.usedAll seen word.uses = some read.seen ∧
        options.find word.opt = some read.found ∧ read.opt = word.opt ∧ read.val = word.val ∧
          word.wrong options.table.needs = false
  | .error _ =>
      options.table.usedAll seen word.uses = none ∨ word.wrong options.table.needs = true

theorem check_use (seen : List Str) (opt dashes : Str) (lt : LengthType) {α : Type}
    (next : OptionDetails → List Str → Except OptionsException α)
    (Result : Except OptionsException α → Prop)
    (refused : ∀ ex, options.table.used seen opt = none → Result (.error ex))
    (passed : ∀ found seenAfter, options.find opt = some found →
      options.table.used seen opt = some seenAfter → Result (next found seenAfter)) :
    Result (do
      let found ← options.checkOpt opt lt
      let seen ← options.checkRepeated seen dashes opt found
      next found seen) := by
  unfold Options.checkOpt
  cases isFound : options.find opt with
  | none =>
      refine refused _ ?_
      simp [Table.used, Options.table, isFound]
  | some found =>
      have checked := check_repeated options isFound seen dashes
      cases repeated : options.checkRepeated seen dashes opt found with
      | error ex =>
          rw [repeated] at checked
          have result := refused ex checked.symm
          simpa [repeated, bind, Except.bind] using result
      | ok seenAfter =>
          rw [repeated] at checked
          have result := passed found seenAfter isFound checked.symm
          simpa [repeated, bind, Except.bind] using result

theorem read_short (seen : List Str) (c : Byte) (letters : Str) :
    Reads options seen (shortMention options.table.needs c letters)
      (options.readShort seen c letters) := by
  induction letters generalizing seen c with
  | nil =>
      unfold Options.readShort shortMention
      refine check_use options seen [c] [dash] .shortOpt _ (Reads options seen _) ?_ ?_
      · intro ex refused
        simp [Reads, Table.usedAll, refused]
      · intro found seenAfter isFound passed
        simp [Reads, Table.usedAll, passed, isFound, Mention.wrong]
  | cons next rest ih =>
      unfold Options.readShort shortMention
      refine check_use options seen [c] [dash] .shortOpt _ (Reads options seen _) ?_ ?_
      · intro ex refused
        by_cases needed : options.table.needs [c] = true
        · simp [Reads, Table.usedAll, refused, needed]
        · simp [Reads, Table.usedAll, refused, needed]
      · intro found seenAfter isFound passed
        have needed := needs_found options isFound
        by_cases arg : found.arg = .needArg
        · simp [Reads, Table.usedAll, passed, isFound, needed, arg, Mention.wrong]
        · have later := ih seenAfter next
          rw [if_neg arg, needed, if_neg (by simpa using arg)]
          cases read : options.readShort seenAfter next rest with
          | error ex =>
              rw [read] at later
              simpa [Reads, Table.usedAll, passed, Mention.wrong] using later
          | ok found =>
              rw [read] at later
              simpa [Reads, Table.usedAll, passed, Mention.wrong] using later

theorem read_long (seen : List Str) (body : Str) :
    Reads options seen (longMention body) (options.readLong seen (dash :: dash :: body)) := by
  unfold Options.readLong longMention
  have behindDashes : (dash :: dash :: body).drop 2 = body := rfl
  dsimp only
  rw [behindDashes]
  generalize body.takeWhile (· ≠ equals) = opt
  generalize body.dropWhile (· ≠ equals) = behind
  refine check_use options seen opt [dash, dash] .longOpt _ (Reads options seen _) ?_ ?_
  · intro ex refused
    simp [Reads, Table.usedAll, refused]
  · intro found seenAfter isFound passed
    have needed := needs_found options isFound
    cases behind with
    | nil => simp [Reads, Table.usedAll, passed, isFound, Mention.wrong]
    | cons mark val =>
        dsimp only
        by_cases wrong : found.arg = .noArg ∧ val ≠ []
        · rw [if_pos wrong]
          refine .inr ?_
          simp [Mention.wrong, needed, wrong.1, wrong.2]
        · rw [if_neg wrong]
          refine ⟨by simp [Table.usedAll, passed], isFound, rfl, rfl, ?_⟩
          rw [Mention.wrong, needed]
          cases arg : found.arg with
          | needArg => simp
          | noArg => simpa [arg] using wrong

theorem read_option (seen : List Str) (arg : Str) :
    match mention options.table.needs arg with
    | none => options.readOption seen arg = .ok none
    | some word => ∃ read, options.readOption seen arg = some <$> read ∧
        Reads options seen word read := by
  match arg with
  | [] => rfl
  | [first] => rfl
  | first :: next :: rest =>
      unfold mention Options.readOption
      by_cases isShort : first = dash
      · dsimp only
        rw [if_pos isShort, if_pos isShort]
        by_cases isLong : next = dash
        · rw [if_pos isLong, if_pos isLong]
          refine ⟨_, rfl, ?_⟩
          rw [isShort, isLong]
          exact read_long options seen rest
        · rw [if_neg isLong, if_neg isLong]
          exact ⟨_, rfl, read_short options seen next rest⟩
      · dsimp only
        rw [if_neg isShort, if_neg isShort]

theorem read_error {seen : List Str} {ex : OptionsException}
    (read : options.readOption seen arg = .error ex) :
    ∃ word, mention options.table.needs arg = some word ∧
      (options.table.usedAll seen word.uses = none ∨ word.wrong options.table.needs = true) := by
  have cases_ := read_option options seen arg
  cases mentioned : mention options.table.needs arg with
  | none =>
      rw [mentioned, read] at cases_
      cases cases_
  | some word =>
      rw [mentioned] at cases_
      obtain ⟨found, same, reads⟩ := cases_
      rw [read] at same
      cases found with
      | error other => exact ⟨word, rfl, reads⟩
      | ok found => cases same

theorem read_none {seen : List Str} (read : options.readOption seen arg = .ok none) :
    mention options.table.needs arg = none := by
  have cases_ := read_option options seen arg
  cases mentioned : mention options.table.needs arg with
  | none => rfl
  | some word =>
      rw [mentioned] at cases_
      obtain ⟨found, same, _⟩ := cases_
      rw [read] at same
      cases found <;> cases same

theorem read_some {seen : List Str} {found : Read}
    (read : options.readOption seen arg = .ok (some found)) :
    ∃ word, mention options.table.needs arg = some word ∧ Reads options seen word (.ok found) := by
  have cases_ := read_option options seen arg
  cases mentioned : mention options.table.needs arg with
  | none =>
      rw [mentioned, read] at cases_
      cases cases_
  | some word =>
      rw [mentioned] at cases_
      obtain ⟨other, same, reads⟩ := cases_
      rw [read] at same
      cases other with
      | error ex => cases same
      | ok other =>
          cases same
          exact ⟨word, rfl, reads⟩

end Lookup

/-- What the loop does with words, in terms of their tokens. -/
def Options.outcome (options : Options) (seen result : List Str) (read : List Token) :
    Option (Options × List Str) :=
  if options.table.accepted seen read then
    some (options.store (stored read), result ++ others read)
  else none

theorem stored_uses (uses : List Str) (more : List Token) :
    stored (uses.map .use ++ more) = stored more := by
  induction uses with
  | nil => rfl
  | cons opt rest ih => exact ih

theorem others_uses (uses : List Str) (more : List Token) :
    others (uses.map .use ++ more) = others more := by
  induction uses with
  | nil => rfl
  | cons opt rest ih => exact ih

theorem accepted_others (table : Table) (seen : List Str) (args : List Str) :
    table.accepted seen (args.map .other) = true := by
  induction args with
  | nil => rfl
  | cons arg rest ih => exact ih

theorem stored_others (args : List Str) : stored (args.map .other) = [] := by
  induction args with
  | nil => rfl
  | cons arg rest ih => exact ih

theorem others_others (args : List Str) : others (args.map .other) = args := by
  induction args with
  | nil => rfl
  | cons arg rest ih => exact congrArg (arg :: ·) ih

section Outcome

variable (options : Options) (seen result : List Str)

theorem outcome_end (args : List Str) :
    options.outcome seen result (args.map .other) = some (options, result ++ args) := by
  rw [Options.outcome, accepted_others, stored_others, others_others]
  rfl

theorem outcome_other (arg : Str) (more : List Token) :
    options.outcome seen result (.other arg :: more) =
      options.outcome seen (result ++ [arg]) more := by
  unfold Options.outcome
  rw [List.append_assoc]
  rfl

theorem outcome_refused {uses : List Str} (more : List Token)
    (refused : options.table.usedAll seen uses = none) :
    options.outcome seen result (uses.map .use ++ more) = none := by
  rw [Options.outcome, accepted_uses, refused]
  rfl

theorem outcome_wrong (uses : List Str) (more : List Token) :
    options.outcome seen result (uses.map .use ++ .wrong :: more) = none := by
  rw [Options.outcome, accepted_uses]
  cases options.table.usedAll seen uses <;> rfl

theorem outcome_set {uses : List Str} {seenAfter : List Str} {opt : Str} {found : OptionDetails}
    (used : options.table.usedAll seen uses = some seenAfter)
    (isFound : options.find opt = some found) (val : Str) (more : List Token) :
    options.outcome seen result (uses.map .use ++ .set opt val :: more) =
      (options.setOpt opt [] val found.repeat_).outcome seenAfter result more := by
  have stores : stored (.set opt val :: more) = (opt, val) :: stored more := rfl
  unfold Options.outcome
  rw [accepted_uses, used, stored_uses, others_uses, stores, store_cons options isFound,
    set_opt_table]
  rfl

end Outcome

theorem tokens_word {needs : Str → Bool} {arg : Str} {word : Mention} (notEnd : isEnd arg = false)
    (mentioned : mention needs arg = some word) (rest : List Str) :
    tokens needs (arg :: rest) =
      word.uses.map .use ++ (if word.wrong needs then [.wrong] else []) ++
        match word.val with
        | some val => .set word.opt val :: tokens needs rest
        | none =>
            if needs word.opt then
              match rest with
              | [] => [.wrong]
              | val :: more => .set word.opt val :: tokens needs more
            else .set word.opt (text "1") :: tokens needs rest := by
  rw [tokens.eq_def]
  dsimp only
  rw [notEnd, if_neg Bool.false_ne_true, mentioned]

theorem parse_words (options : Options) (seen result args : List Str) :
    (options.parseWords seen result args).toOption =
      options.outcome seen result (tokens options.table.needs args) := by
  fun_induction options.parseWords seen result args with
  | case1 options seen result => simp [tokens, Options.outcome, Table.accepted, Options.store,
      stored, others, Except.toOption]
  | case2 options seen result arg rest ends =>
      have isEnd_ : isEnd arg = true := by simpa [isEnd] using ends
      rw [tokens, if_pos isEnd_, outcome_end]
      rfl
  | case3 options seen result arg rest notEnd ex read =>
      have notEnd_ : isEnd arg = false := by simpa [isEnd] using notEnd
      obtain ⟨word, mentioned, refused | wrong⟩ := read_error options read
      · rw [tokens_word notEnd_ mentioned, List.append_assoc, outcome_refused _ _ _ _ refused]
        rfl
      · rw [tokens_word notEnd_ mentioned, if_pos wrong, List.append_assoc, List.singleton_append,
          outcome_wrong]
        rfl
  | case4 options seen result arg rest notEnd read ih =>
      have notEnd_ : isEnd arg = false := by simpa [isEnd] using notEnd
      rw [tokens, notEnd_, if_neg Bool.false_ne_true, read_none options read, ih]
      exact (outcome_other options seen result arg _).symm
  | case5 options seen result arg rest notEnd opt found seenAfter val read ih =>
      have notEnd_ : isEnd arg = false := by simpa [isEnd] using notEnd
      obtain ⟨word, mentioned, used, isFound, rfl, hasVal, notWrong⟩ := read_some options read
      rw [tokens_word notEnd_ mentioned, notWrong, if_neg Bool.false_ne_true, List.append_nil,
        ← hasVal, outcome_set _ _ _ used isFound, ih, set_opt_table]
  | case6 options seen result arg notEnd opt found seenAfter read needed =>
      have notEnd_ : isEnd arg = false := by simpa [isEnd] using notEnd
      obtain ⟨word, mentioned, used, isFound, rfl, hasVal, notWrong⟩ := read_some options read
      have needs : options.table.needs word.opt = true := by
        rw [needs_found options isFound]
        simpa using needed
      rw [tokens_word notEnd_ mentioned, notWrong, if_neg Bool.false_ne_true, List.append_nil,
        ← hasVal, needs]
      exact (outcome_wrong options seen result word.uses []).symm
  | case7 options seen result arg notEnd opt found seenAfter read needed val more ih =>
      have notEnd_ : isEnd arg = false := by simpa [isEnd] using notEnd
      obtain ⟨word, mentioned, used, isFound, rfl, hasVal, notWrong⟩ := read_some options read
      have needs := needs_found options isFound
      rw [tokens_word notEnd_ mentioned, notWrong, if_neg Bool.false_ne_true, List.append_nil,
        ← hasVal, needs, if_pos (by simpa using needed), outcome_set _ _ _ used isFound, ih,
        set_opt_table]
  | case8 options seen result arg rest notEnd opt found seenAfter read notNeeded ih =>
      have notEnd_ : isEnd arg = false := by simpa [isEnd] using notEnd
      obtain ⟨word, mentioned, used, isFound, rfl, hasVal, notWrong⟩ := read_some options read
      have needs := needs_found options isFound
      rw [tokens_word notEnd_ mentioned, notWrong, if_neg Bool.false_ne_true, List.append_nil,
        ← hasVal, needs, if_neg (by simpa using notNeeded), outcome_set _ _ _ used isFound, ih,
        set_opt_table]

end IceTouch.CommandLine
