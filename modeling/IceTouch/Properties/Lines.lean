import IceTouch.Properties.PropertiesI

/-!
# What a line carries

Which keys and values a line carries as they are, and that a line that carries something else
loses weight: backslashes count twice, because an escaped space is copied twice in front of a
backslash at the end of a line.
-/

namespace IceTouch.Properties

open Bytes WireTypes Escape Proxies

def Unescaped (s : Str) : Prop :=
  ∀ next, [backslash, next] <:+: s → isEscaped next = false ∧ next ≠ space

def Ended (s : Str) : Prop :=
  ∀ char, s.getLast? = some char → isBlank char = true → [backslash, char] <:+ s

structure PlainKey (key : Str) : Prop where
  noHash : hash ∉ key
  noEquals : equals ∉ key
  unescaped : Unescaped (key ++ [equals])

structure PlainValue (value : Str) : Prop where
  starts : ∀ char, value.head? = some char → isBlank char = false
  ended : Ended value
  noHash : hash ∉ value
  unescaped : Unescaped value

variable {next : Byte} {rest : Str}

theorem unescaped_pair (more : Str) :
    Unescaped (backslash :: next :: more) ↔
      (isEscaped next = false ∧ next ≠ space) ∧ Unescaped more := by
  unfold Unescaped
  constructor
  · intro plain
    have here := plain next ⟨[], more, rfl⟩
    exact ⟨here, fun other inside => plain other (inside.trans ⟨[backslash, next], [], by simp⟩)⟩
  · rintro ⟨here, later⟩ other inside
    rw [List.infix_cons_iff, List.infix_cons_iff] at inside
    obtain first | second | inside := inside
    · obtain ⟨_, same⟩ := first
      cases same
      exact here
    · obtain ⟨_, same⟩ := second
      cases same
      exact absurd here.1 (by decide)
    · exact later other inside

variable {char : Byte} {value whitespace : Str}

theorem unescaped_char (other : char ≠ backslash) (rest : Str) :
    Unescaped (char :: rest) ↔ Unescaped rest := by
  unfold Unescaped
  constructor
  · intro plain next inside
    exact plain next (inside.trans ⟨[char], [], by simp⟩)
  · intro plain next inside
    rw [List.infix_cons_iff] at inside
    obtain first | inside := inside
    · obtain ⟨_, same⟩ := first
      cases same
      exact absurd rfl other
    · exact plain next inside

theorem ended_nil : Ended [] := by
  intro char none
  cases none

theorem ended_pair (other : next ≠ backslash) (more : Str) :
    Ended (backslash :: next :: more) ↔ Ended more := by
  cases more with
  | nil =>
      refine ⟨fun _ => ended_nil, fun _ char last _ => ?_⟩
      cases last
      exact List.suffix_refl _
  | cons first rest =>
      unfold Ended
      have same : (backslash :: next :: first :: rest).getLast? = (first :: rest).getLast? := rfl
      rw [same]
      constructor
      · intro ended char last blank
        have behind := ended char last blank
        rw [List.suffix_cons_iff, List.suffix_cons_iff] at behind
        obtain whole | whole | behind := behind
        · cases whole
        · cases whole
          exact absurd rfl other
        · exact behind
      · intro ended char last blank
        exact (ended char last blank).trans ⟨[backslash, next], rfl⟩

theorem ended_char (other : char ≠ backslash) (rest : Str) :
    Ended (char :: rest) ↔ (rest = [] → isBlank char = false) ∧ Ended rest := by
  cases rest with
  | nil =>
      constructor
      · intro ended
        refine ⟨fun _ => ?_, ended_nil⟩
        by_contra blank
        have behind := ended char rfl (by simpa using blank)
        exact absurd behind.length_le (by simp)
      · rintro ⟨plain, _⟩ last isLast blank
        have same : char = last := Option.some.inj isLast
        rw [← same, plain rfl] at blank
        cases blank
  | cons first rest =>
      unfold Ended
      have same : (char :: first :: rest).getLast? = (first :: rest).getLast? := rfl
      rw [same]
      constructor
      · intro ended
        refine ⟨fun none => absurd none (List.cons_ne_nil _ _), fun last isLast blank => ?_⟩
        have behind := ended last isLast blank
        rw [List.suffix_cons_iff] at behind
        obtain whole | behind := behind
        · cases whole
          exact absurd rfl other
        · exact behind
      · rintro ⟨_, ended⟩ last isLast blank
        exact (ended last isLast blank).trans ⟨[char], rfl⟩

def weight (s : Str) : Nat := s.length + s.count backslash

@[simp] theorem weight_nil : weight [] = 0 := rfl

@[simp] theorem weight_append (first second : Str) :
    weight (first ++ second) = weight first + weight second := by
  simp only [weight, List.length_append, List.count_append]
  omega

@[simp] theorem weight_backslash (rest : Str) :
    weight (backslash :: rest) = weight rest + 2 := by
  simp only [weight, List.length_cons, List.count_cons_self]
  omega

theorem weight_cons (char : Byte) (rest : Str) : weight rest < weight (char :: rest) := by
  simp only [weight, List.length_cons, List.count_cons]
  omega

theorem weight_char (other : char ≠ backslash) (rest : Str) :
    weight (char :: rest) = weight rest + 1 := by
  simp only [weight, List.length_cons, List.count_cons_of_ne other]
  omega

theorem weight_first (char : Byte) (rest : Str) :
    weight (char :: rest) = weight [char] + weight rest :=
  weight_append [char] rest

theorem weight_blanks {s : Str} (blanks : ∀ char ∈ s, isBlank char = true) :
    weight s = s.length := by
  have none : s.count backslash = 0 := by
    rw [List.count_eq_zero]
    intro inside
    have blank := blanks backslash inside
    cases blank
  rw [weight, none]
  omega

structure Pending (value whitespace escapedspace : Str) : Prop where
  whitespaceBlank : ∀ char ∈ whitespace, isBlank char = true
  escapedBlank : ∀ char ∈ escapedspace, isBlank char = true
  fewer : escapedspace.length ≤ whitespace.length
  leading : value = [] → whitespace = escapedspace

theorem pending_nil (value : Str) : Pending value [] [] :=
  ⟨List.forall_mem_nil _, List.forall_mem_nil _, Nat.le_refl 0, fun _ => rfl⟩

variable {escapedspace : Str}

section

variable (pending : Pending value whitespace escapedspace)

include pending

theorem pending_escaped :
    Pending value (whitespace ++ [space]) (escapedspace ++ [space]) where
  whitespaceBlank char inside := by
    obtain old | new := List.mem_append.mp inside
    · exact pending.whitespaceBlank char old
    · rw [List.mem_singleton.mp new]
      rfl
  escapedBlank char inside := by
    obtain old | new := List.mem_append.mp inside
    · exact pending.escapedBlank char old
    · rw [List.mem_singleton.mp new]
      rfl
  fewer := by
    rw [List.length_append, List.length_append]
    exact Nat.add_le_add_right pending.fewer 1
  leading none := by rw [pending.leading none]

theorem pending_blank (blank : isBlank char = true) (some : value ≠ []) :
    Pending value (whitespace ++ [char]) escapedspace where
  whitespaceBlank other inside := by
    obtain old | new := List.mem_append.mp inside
    · exact pending.whitespaceBlank other old
    · rw [List.mem_singleton.mp new]
      exact blank
  escapedBlank := pending.escapedBlank
  fewer := by
    rw [List.length_append]
    exact Nat.le_add_right_of_le pending.fewer
  leading none := absurd none some

theorem blanks_before :
    (escapedspace = [] ∧ blanksBefore value whitespace escapedspace = whitespace) ∨
      weight (blanksBefore value whitespace escapedspace) + 1 ≤
        weight whitespace + weight escapedspace := by
  rw [weight_blanks pending.whitespaceBlank, weight_blanks pending.escapedBlank]
  unfold blanksBefore
  by_cases none : escapedspace = []
  · refine .inl ⟨none, ?_⟩
    by_cases empty : value = []
    · rw [if_pos empty, pending.leading empty]
    · rw [if_neg empty]
  · have long := List.length_pos_iff.mpr none
    have fewer := pending.fewer
    refine .inr ?_
    by_cases empty : value = []
    · rw [if_pos empty, weight_blanks pending.escapedBlank]
      omega
    · rw [if_neg empty, weight_blanks pending.whitespaceBlank]
      omega

theorem weight_before :
    weight (blanksBefore value whitespace escapedspace) ≤
      weight whitespace + weight escapedspace := by
  obtain ⟨_, same⟩ | less := blanks_before pending
  · rw [same]
    exact Nat.le_add_right _ _
  · exact Nat.le_of_succ_le less

end

theorem parse_value_weight (value whitespace escapedspace rest : Str)
    (pending : Pending value whitespace escapedspace) :
    (escapedspace = [] ∧
        parseValue value whitespace escapedspace rest = value ++ whitespace ++ rest) ∨
      weight (parseValue value whitespace escapedspace rest) <
        weight value + weight whitespace + 2 * weight escapedspace + weight rest := by
  fun_induction parseValue value whitespace escapedspace rest with
  | case1 value whitespace escapedspace =>
      have fewer := pending.fewer
      by_cases none : whitespace = []
      · rw [none, List.length_nil, Nat.le_zero, List.length_eq_zero_iff] at fewer
        exact .inl ⟨fewer, by rw [none, fewer, List.append_nil, List.append_nil]⟩
      · have some := List.length_pos_iff.mpr none
        have white := weight_blanks pending.whitespaceBlank
        refine .inr ?_
        rw [weight_append]
        omega
  | case2 value whitespace escapedspace =>
      obtain ⟨none, same⟩ | less := blanks_before pending
      · exact .inl ⟨none, by rw [same, none, List.append_nil]⟩
      · refine .inr ?_
        simp only [weight_append]
        omega
  | case3 value whitespace escapedspace next more isEscaped ih =>
      -- The backslash is lost.
      have most := weight_before pending
      refine .inr ?_
      obtain ⟨_, same⟩ | less := ih (pending_nil _)
      · rw [same]
        simp only [weight_append, weight_backslash, weight_nil, weight_first next more]
        omega
      · simp only [weight_append, weight_backslash, weight_nil, weight_first next more] at less ⊢
        omega
  | case4 value whitespace escapedspace more notEscaped ih =>
      refine .inr ?_
      obtain ⟨none, _⟩ | less := ih (pending_escaped pending)
      · exact absurd none (by simp)
      · simp only [weight_append, weight_backslash, weight_first space more] at less ⊢
        have one : weight [space] = 1 := rfl
        omega
  | case5 value whitespace escapedspace next more notEscaped notSpace ih =>
      obtain ⟨_, same⟩ | less := ih (pending_nil _)
      · obtain ⟨none, before⟩ | lost := blanks_before pending
        · refine .inl ⟨none, ?_⟩
          rw [same, before]
          simp
        · refine .inr ?_
          rw [same]
          simp only [weight_append, weight_backslash, weight_nil, weight_first next more]
          omega
      · have most := weight_before pending
        refine .inr ?_
        simp only [weight_append, weight_backslash, weight_nil, weight_first next more] at less ⊢
        omega
  | case6 value whitespace escapedspace char rest notBackslash blank ih =>
      by_cases empty : value = []
      · rw [if_pos empty] at ih ⊢
        refine .inr ?_
        obtain ⟨none, same⟩ | less := ih pending
        · rw [same]
          simp only [weight_append, weight_char notBackslash]
          omega
        · rw [weight_char notBackslash]
          omega
      · rw [if_neg empty] at ih ⊢
        obtain ⟨none, same⟩ | less := ih (pending_blank pending blank empty)
        · exact .inl ⟨none, by simpa using same⟩
        · refine .inr ?_
          simp only [weight_append, weight_char notBackslash, weight_nil] at less ⊢
          omega
  | case7 value whitespace escapedspace rest notBackslash notBlank =>
      have fewer := pending.fewer
      have white := weight_blanks pending.whitespaceBlank
      have escaped := weight_blanks pending.escapedBlank
      refine .inr ?_
      simp only [weight_append, weight_char notBackslash]
      omega
  | case8 value whitespace escapedspace char rest notBackslash notBlank notHash ih =>
      obtain ⟨_, same⟩ | less := ih (pending_nil _)
      · obtain ⟨none, before⟩ | lost := blanks_before pending
        · refine .inl ⟨none, ?_⟩
          rw [same, before]
          simp
        · refine .inr ?_
          rw [same]
          simp only [weight_append, weight_nil, weight_first char rest]
          omega
      · have most := weight_before pending
        refine .inr ?_
        simp only [weight_append, weight_nil, weight_first char rest] at less ⊢
        omega

theorem parse_value_most (pending : Pending value [] []) (rest : Str) :
    weight (parseValue value [] [] rest) ≤ weight value + weight rest := by
  obtain ⟨_, same⟩ | less := parse_value_weight value [] [] rest pending
  · rw [same, weight_append, weight_append, weight_nil, Nat.add_zero]
  · simp only [weight_nil] at less
    omega

theorem hash_not_backslash : hash ≠ backslash := by decide

theorem equals_not_backslash : equals ≠ backslash := by decide

theorem blank_not_hash (blank : isBlank char = true) : hash ≠ char := by
  intro same
  rw [← same] at blank
  cases blank

theorem blank_not_equals (blank : isBlank char = true) : equals ≠ char := by
  intro same
  rw [← same] at blank
  cases blank

theorem blank_not_backslash (blank : isBlank char = true) : char ≠ backslash := by
  intro same
  rw [same] at blank
  cases blank

theorem ended_blanks (blanks : ∀ char ∈ whitespace, isBlank char = true) (rest : Str) :
    Ended (whitespace ++ rest) ↔ (whitespace = [] ∨ rest ≠ []) ∧ Ended rest := by
  induction whitespace with
  | nil => simp
  | cons char more ih =>
      have blank := blanks char List.mem_cons_self
      have later := ih fun other inside => blanks other (List.mem_cons_of_mem char inside)
      rw [List.cons_append, ended_char (blank_not_backslash blank), later, blank]
      cases rest with
      | nil =>
          simp only [List.append_nil]
          exact ⟨fun both => absurd both.2.1 (by simpa using both.1), fun both => by simp at both⟩
      | cons first rest => simp

theorem plain_next (notEscaped : ¬isEscaped next = true) :
    next ≠ backslash ∧ next ≠ hash ∧ next ≠ equals := by
  simpa [isEscaped, not_or, and_assoc] using notEscaped

theorem blanks_before_started (started : value = [] → whitespace = []) :
    blanksBefore value whitespace [] = whitespace := by
  unfold blanksBefore
  by_cases empty : value = []
  · rw [if_pos empty, started empty]
  · rw [if_neg empty]

theorem parse_value_plain (value whitespace escapedspace rest : Str)
    (started : value = [] → whitespace = []) (none : escapedspace = [])
    (blanks : ∀ char ∈ whitespace, isBlank char = true) :
    parseValue value whitespace escapedspace rest = value ++ whitespace ++ rest ↔
      (value = [] → ∀ char, rest.head? = some char → isBlank char = false) ∧
        hash ∉ rest ∧ Unescaped rest ∧ Ended (whitespace ++ rest) := by
  have before := blanks_before_started started
  rw [← none] at before
  have pending : Pending value whitespace escapedspace :=
    ⟨blanks, by simp [none], by simp [none], fun empty => by rw [started empty, none]⟩
  fun_induction parseValue value whitespace escapedspace rest with
  | case1 value whitespace escapedspace =>
      rw [ended_blanks blanks, none]
      simp [Unescaped, ended_nil]
  | case2 value whitespace escapedspace =>
      have plain : Unescaped [backslash] := by
        intro next inside
        exact absurd inside.length_le (by simp)
      have ended : Ended [backslash] := by
        intro char last blank
        cases last
        cases blank
      have starts : ∀ char, [backslash].head? = some char → isBlank char = false := by
        intro char first
        cases first
        rfl
      rw [ended_blanks blanks, before, none, List.append_nil]
      exact iff_of_true rfl
        ⟨fun _ => starts, by decide, plain, .inr (List.cons_ne_nil _ _), ended⟩
  | case3 value whitespace escapedspace next more isEscaped ih =>
      have most := parse_value_most (pending_nil (value ++ whitespace ++ [next])) more
      rw [before, unescaped_pair]
      refine iff_of_false ?_ fun plain => ?_
      · intro same
        rw [same] at most
        simp only [weight_append, weight_backslash, weight_first next more] at most
        omega
      · rw [isEscaped] at plain
        cases plain.2.2.1.1.1
  | case4 value whitespace escapedspace more notEscaped ih =>
      rw [unescaped_pair]
      refine iff_of_false ?_ fun plain => plain.2.2.1.1.2 rfl
      intro same
      obtain ⟨empty, _⟩ | less := parse_value_weight value _ _ more (pending_escaped pending)
      · exact absurd empty (by simp)
      · have one : weight [space] = 1 := rfl
        rw [same, none] at less
        simp only [weight_append, weight_backslash, weight_nil, weight_first space more] at less
        omega
  | case5 value whitespace escapedspace next more notEscaped notSpace ih =>
      obtain ⟨notBackslash, notHash, _⟩ := plain_next notEscaped
      have begun : value ++ whitespace ++ [backslash, next] ≠ [] := by simp
      rw [before] at ih ⊢
      have later := ih (fun empty => absurd empty begun) rfl (List.forall_mem_nil _)
        (by simp [blanksBefore]) (pending_nil _)
      rw [ended_blanks blanks, ended_pair notBackslash, unescaped_pair]
      have same : value ++ whitespace ++ backslash :: next :: more =
          value ++ whitespace ++ [backslash, next] ++ [] ++ more := by simp
      have starts : isBlank backslash = false := rfl
      rw [same]
      refine later.trans ?_
      simp [notEscaped, notSpace, Ne.symm notHash, hash_not_backslash, starts]
  | case6 value whitespace escapedspace char rest notBackslash blank ih =>
      by_cases empty : value = []
      · -- A blank in front is lost.
        refine iff_of_false ?_ fun plain => ?_
        · rw [if_pos empty]
          have lost := weight_cons char rest
          obtain ⟨_, kept⟩ | less := parse_value_weight value whitespace escapedspace rest pending
          · intro same
            rw [kept] at same
            have long := congrArg List.length same
            simp at long
          · intro same
            rw [same, none] at less
            simp only [weight_append, weight_nil] at less
            omega
        · rw [plain.1 empty char rfl] at blank
          cases blank
      · rw [if_neg empty] at ih ⊢
        have later := ih (fun none => absurd none empty) none
          (pending_blank pending blank empty).whitespaceBlank
          (by simp [blanksBefore, empty]) (pending_blank pending blank empty)
        have notHash := blank_not_hash blank
        have same : value ++ whitespace ++ char :: rest =
            value ++ (whitespace ++ [char]) ++ rest := by simp
        rw [same, unescaped_char notBackslash]
        refine later.trans ?_
        simp [notHash, empty]
  | case7 value whitespace escapedspace rest notBackslash notBlank =>
      refine iff_of_false ?_ fun plain => plain.2.1 List.mem_cons_self
      intro same
      have long := congrArg List.length same
      simp only [none, List.length_append, List.length_cons, List.length_nil] at long
      omega
  | case8 value whitespace escapedspace char rest notBackslash notBlank notHash ih =>
      have begun : value ++ whitespace ++ [char] ≠ [] := by simp
      rw [before] at ih ⊢
      have later := ih (fun empty => absurd empty begun) rfl (List.forall_mem_nil _)
        (by simp [blanksBefore]) (pending_nil _)
      rw [ended_blanks blanks, ended_char notBackslash, unescaped_char notBackslash]
      have same : value ++ whitespace ++ char :: rest =
          value ++ whitespace ++ [char] ++ [] ++ rest := by simp
      rw [same]
      refine later.trans ?_
      simp [Ne.symm notHash, notBlank]

theorem parse_value_iff (value : Str) : parseValue [] [] [] value = value ↔ PlainValue value := by
  have carried := parse_value_plain [] [] [] value (fun _ => rfl) rfl (List.forall_mem_nil _)
  rw [List.nil_append, List.nil_append] at carried
  rw [carried]
  exact ⟨fun plain => ⟨plain.1 rfl, plain.2.2.2, plain.2.1, plain.2.2.1⟩,
    fun plain => ⟨fun _ => plain.starts, plain.noHash, plain.unescaped, plain.ended⟩⟩

theorem unescaped_equals : Unescaped [equals] := by
  intro next inside
  exact absurd inside.length_le (by simp)

/-- What becomes of a key, in terms of what is read for it. -/
def Carried (key whitespace line found rest : Str) : Prop :=
  ∃ read, line = read ++ equals :: rest ∧ found = key ++ whitespace ++ read ∧
    hash ∉ read ∧ equals ∉ read ∧ Unescaped (read ++ [equals])

theorem carried_weight {key line found : Str} (carried : Carried key whitespace line found rest) :
    weight found + weight rest + 1 = weight key + weight whitespace + weight line := by
  obtain ⟨read, rfl, rfl, _⟩ := carried
  simp only [weight_append, weight_char equals_not_backslash]
  omega

/-- The key with its equals sign is what was read of the line, or the line has lost weight. -/
theorem parse_key_weight {key line found : Str} (blanks : ∀ char ∈ whitespace, isBlank char = true)
    (parsed : parseKey key whitespace line = (found, some rest)) :
    Carried key whitespace line found rest ∨
      weight found + weight rest + 1 < weight key + weight whitespace + weight line := by
  fun_induction parseKey key whitespace line with
  | case1 key whitespace => cases parsed
  | case2 key whitespace => cases parsed
  | case3 key whitespace next more isEscaped ih =>
      refine .inr ?_
      obtain carried | less := ih (List.forall_mem_nil _) parsed
      · have same := carried_weight carried
        simp only [weight_append, weight_backslash, weight_nil, weight_first next more] at same ⊢
        omega
      · simp only [weight_append, weight_backslash, weight_nil, weight_first next more] at less ⊢
        omega
  | case4 key whitespace more notEscaped ih =>
      have one : weight [space] = 1 := rfl
      have most : weight (if key = [] then whitespace else whitespace ++ [space]) ≤
          weight whitespace + 1 := by
        by_cases empty : key = []
        · rw [if_pos empty]
          exact Nat.le_succ _
        · rw [if_neg empty, weight_append, one]
      refine .inr ?_
      obtain carried | less := ih (by
        intro char inside
        by_cases empty : key = []
        · rw [if_pos empty] at inside
          exact blanks char inside
        · rw [if_neg empty] at inside
          obtain old | new := List.mem_append.mp inside
          · exact blanks char old
          · rw [List.mem_singleton.mp new]
            rfl) parsed
      · have same := carried_weight carried
        simp only [weight_backslash, weight_first space more]
        omega
      · simp only [weight_backslash, weight_first space more]
        omega
  | case5 key whitespace next more notEscaped notSpace ih =>
      obtain ⟨notBackslash, notHash, notEquals⟩ := plain_next notEscaped
      obtain ⟨read, rfl, rfl, noHash, noEquals, plain⟩ | less := ih (List.forall_mem_nil _) parsed
      · refine .inl ⟨backslash :: next :: read, rfl, by simp, ?_, ?_, ?_⟩
        · simp [noHash, Ne.symm notHash, hash_not_backslash]
        · simp [noEquals, Ne.symm notEquals, equals_not_backslash]
        · exact (unescaped_pair _).mpr ⟨⟨by simpa using notEscaped, notSpace⟩, plain⟩
      · refine .inr ?_
        simp only [weight_append, weight_backslash, weight_nil, weight_first next more] at less ⊢
        omega
  | case6 key whitespace char rest notBackslash blank ih =>
      by_cases empty : key = []
      · rw [if_pos empty] at ih parsed
        refine .inr ?_
        obtain carried | less := ih blanks parsed
        · have same := carried_weight carried
          rw [weight_char notBackslash]
          omega
        · rw [weight_char notBackslash]
          omega
      · rw [if_neg empty] at ih parsed
        obtain ⟨read, rfl, rfl, noHash, noEquals, plain⟩ | less := ih (by
          intro other inside
          obtain old | new := List.mem_append.mp inside
          · exact blanks other old
          · rw [List.mem_singleton.mp new]
            exact blank) parsed
        · refine .inl ⟨char :: read, rfl, by simp, ?_, ?_, ?_⟩
          · simp [noHash, blank_not_hash blank]
          · simp [noEquals, blank_not_equals blank]
          · exact (unescaped_char notBackslash _).mpr plain
        · refine .inr ?_
          simp only [weight_append, weight_char notBackslash, weight_nil] at less ⊢
          omega
  | case7 key whitespace rest notBackslash notBlank =>
      cases parsed
      by_cases none : whitespace = []
      · exact .inl ⟨[], rfl, by simp [none], List.not_mem_nil, List.not_mem_nil,
          unescaped_equals⟩
      · have some := List.length_pos_iff.mpr none
        have white := weight_blanks blanks
        refine .inr ?_
        rw [weight_char notBackslash]
        omega
  | case8 key whitespace rest notBackslash notBlank notEquals => cases parsed
  | case9 key whitespace char rest notBackslash notBlank notEquals notHash ih =>
      obtain ⟨read, rfl, rfl, noHash, noEquals, plain⟩ | less := ih (List.forall_mem_nil _) parsed
      · refine .inl ⟨char :: read, rfl, by simp, ?_, ?_, ?_⟩
        · simp [noHash, Ne.symm notHash]
        · simp [noEquals, Ne.symm notEquals]
        · exact (unescaped_char notBackslash _).mpr plain
      · refine .inr ?_
        simp only [weight_append, weight_nil, weight_first char rest] at less ⊢
        omega

theorem parse_key_char (notBackslash : char ≠ backslash) (key whitespace rest : Str) :
    parseKey key whitespace (char :: rest) =
      if isBlank char then
        parseKey key (if key = [] then whitespace else whitespace ++ [char]) rest
      else if char = equals then (key, some rest)
      else if char = hash then (key, none)
      else parseKey (key ++ whitespace ++ [char]) [] rest := by
  rw [parseKey.eq_def]
  dsimp only
  rw [if_neg notBackslash]

theorem parse_key_pair (notEscaped : ¬isEscaped next = true) (notSpace : next ≠ space)
    (key whitespace more : Str) :
    parseKey key whitespace (backslash :: next :: more) =
      parseKey (key ++ whitespace ++ [backslash, next]) [] more := by
  rw [parseKey.eq_def]
  dsimp only
  rw [if_pos rfl, if_neg notEscaped, if_neg notSpace]

theorem parse_key_plain (key whitespace : Str) (value : Str) (noHash : hash ∉ rest)
    (noEquals : equals ∉ rest) (plain : Unescaped (rest ++ [equals]))
    (blanks : ∀ char ∈ whitespace, isBlank char = true)
    (starts : key = [] → whitespace = [] ∧ ∀ char, rest.head? = some char → isBlank char = false)
    (ends : ∀ char, (whitespace ++ rest).getLast? = some char → isBlank char = false) :
    parseKey key whitespace (rest ++ equals :: value) =
      (key ++ whitespace ++ rest, some value) := by
  induction key, whitespace, rest using parseKey.induct with
  | case1 key whitespace =>
      have none : whitespace = [] := by
        by_contra some
        have last := List.getLast_mem some
        have blank := blanks _ last
        rw [ends _ (by rw [List.append_nil, List.getLast?_eq_some_getLast some])] at blank
        cases blank
      rw [List.nil_append, parse_key_char equals_not_backslash, if_neg (by decide), if_pos rfl,
        none, List.append_nil, List.append_nil]
  | case2 key whitespace =>
      have escaped := (plain equals ⟨[], [], rfl⟩).1
      cases escaped
  | case3 key whitespace next more isEscaped ih =>
      rw [List.cons_append, List.cons_append, unescaped_pair] at plain
      rw [plain.1.1] at isEscaped
      cases isEscaped
  | case4 key whitespace more notEscaped ih =>
      rw [List.cons_append, List.cons_append, unescaped_pair] at plain
      exact absurd rfl plain.1.2
  | case5 key whitespace next more notEscaped notSpace ih =>
      rw [List.cons_append, List.cons_append, unescaped_pair] at plain
      have later := ih (fun inside => noHash (by simp [inside]))
        (fun inside => noEquals (by simp [inside])) plain.2 (List.forall_mem_nil _) (by simp) (by
          intro char last
          refine ends char ?_
          cases more with
          | nil => cases last
          | cons first others => simpa using last)
      rw [List.cons_append, List.cons_append, parse_key_pair notEscaped notSpace, later]
      simp
  | case6 key whitespace char rest notBackslash blank ih =>
      rw [List.cons_append, unescaped_char notBackslash] at plain
      have begun : key ≠ [] := by
        intro empty
        have other := (starts empty).2 char rfl
        rw [blank] at other
        cases other
      rw [if_neg begun] at ih
      have later := ih (fun inside => noHash (List.mem_cons_of_mem char inside))
        (fun inside => noEquals (List.mem_cons_of_mem char inside)) plain (by
          intro other inside
          obtain old | new := List.mem_append.mp inside
          · exact blanks other old
          · rw [List.mem_singleton.mp new]
            exact blank)
        (fun empty => absurd empty begun) (by simpa using ends)
      rw [List.cons_append, parse_key_char notBackslash, if_pos blank, if_neg begun, later]
      simp
  | case7 key whitespace rest notBackslash notBlank =>
      exact absurd List.mem_cons_self noEquals
  | case8 key whitespace rest notBackslash notBlank notEquals =>
      exact absurd List.mem_cons_self noHash
  | case9 key whitespace char rest notBackslash notBlank notEquals notHash ih =>
      rw [List.cons_append, unescaped_char notBackslash] at plain
      have later := ih (fun inside => noHash (List.mem_cons_of_mem char inside))
        (fun inside => noEquals (List.mem_cons_of_mem char inside)) plain (List.forall_mem_nil _)
        (by simp) (by
          intro last isLast
          refine ends last ?_
          cases rest with
          | nil => cases isLast
          | cons first others => simpa using isLast)
      rw [List.cons_append, parse_key_char notBackslash, if_neg notBlank, if_neg notEquals,
        if_neg notHash, later]
      simp

end IceTouch.Properties
