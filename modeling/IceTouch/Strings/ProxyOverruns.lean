import IceTouch.Strings.ProxyOptions

/-!
# Options after a missed quote

When the closing quote of a facet is missed, the parser goes on somewhere in the adapter id or
in an endpoint. Nothing that it finds there gives it the facet back.
-/

namespace IceTouch.Proxies

open Bytes WireTypes Escape Identities Scanning
  Results

variable {s argument : Str} {options : Options}

variable {option : Str} {result : Options}

theorem flag_ok (applied : flag s option argument options = .ok result) : result = options := by
  unfold flag at applied
  split at applied
  · cases applied
  · cases applied
    rfl

theorem version_kept {missing : ParseError} {wrong : Str → ParseError} (set : Version → Options)
    {facet : Str} (kept : ∀ version, (set version).facet = facet)
    (applied : (if argument = [] then .error missing
      else match stringToVersion argument with
        | .error str => .error (wrong str)
        | .ok version => .ok (set version)) = (.ok result : Except ParseError Options)) :
    result.facet = facet := by
  split at applied
  · cases applied
  · split at applied
    · cases applied
    · next version _ =>
        cases applied
        exact kept version

theorem apply_keeps_facet {letter : Byte}
    (applied : options.apply s option letter argument = .ok result) :
    result.facet = options.facet ∨
      (argument ≠ [] ∧ unescapeString argument 0 argument.length = .ok result.facet) := by
  unfold Options.apply at applied
  by_cases isFacet : letter = byte 'f'
  · rw [if_pos isFacet] at applied
    split at applied
    · cases applied
    · next some' =>
        split at applied
        · cases applied
        · next facet decoded =>
            cases applied
            exact .inr ⟨some', decoded⟩
  · left
    rw [if_neg isFacet] at applied
    by_cases twoway : letter = byte 't'
    · rw [if_pos twoway] at applied
      rw [flag_ok applied]
    rw [if_neg twoway] at applied
    by_cases oneway : letter = byte 'o'
    · rw [if_pos oneway] at applied
      rw [flag_ok applied]
    rw [if_neg oneway] at applied
    by_cases batchOneway : letter = byte 'O'
    · rw [if_pos batchOneway] at applied
      rw [flag_ok applied]
    rw [if_neg batchOneway] at applied
    by_cases datagram : letter = byte 'd'
    · rw [if_pos datagram] at applied
      rw [flag_ok applied]
    rw [if_neg datagram] at applied
    by_cases batchDatagram : letter = byte 'D'
    · rw [if_pos batchDatagram] at applied
      rw [flag_ok applied]
    rw [if_neg batchDatagram] at applied
    by_cases secure : letter = byte 's'
    · rw [if_pos secure] at applied
      rw [flag_ok applied]
    rw [if_neg secure] at applied
    by_cases encoding : letter = byte 'e'
    · rw [if_pos encoding] at applied
      exact version_kept (fun version => { options with encoding := version }) (fun _ => rfl)
        applied
    rw [if_neg encoding] at applied
    by_cases protocol : letter = byte 'p'
    · rw [if_pos protocol] at applied
      exact version_kept (fun version => { options with protocol := version }) (fun _ => rfl)
        applied
    rw [if_neg protocol] at applied
    cases applied

structure Round (s : Str) (options : Options) (rest : Str) (result : Options) (after : Str) :
    Prop where
  intro ::
  read : ∃ first more letter argument, rest.dropWhile isBlank = first :: more ∧
    first ≠ colon ∧ first ≠ atSign ∧
    optionLetter ((first :: more).takeWhile fun char => !isSeparator char) = some letter ∧
    readArgument s ((first :: more).takeWhile fun char => !isSeparator char)
      ((first :: more).dropWhile fun char => !isSeparator char) = .ok (argument, after) ∧
    options.apply s ((first :: more).takeWhile fun char => !isSeparator char) letter argument =
      .ok result

theorem read_options_round {rounds : Nat} {rest : Str} {result : Options × Str}
    (read : readOptions s (rounds + 1) options rest = .ok result) :
    result.1 = options ∨ ∃ next after, Round s options rest next after ∧
      readOptions s rounds next after = .ok result := by
  unfold readOptions at read
  split at read
  · cases read
    exact .inl rfl
  · next first more found =>
      split at read
      · cases read
        exact .inl rfl
      · next inner =>
          simp only at read
          split at read
          · cases read
          · next letter isOption =>
              obtain ⟨⟨argument, after⟩, taken, read⟩ := bind_ok read
              obtain ⟨next, applied, read⟩ := bind_ok read
              exact .inr ⟨next, after, ⟨first, more, letter, argument, found,
                fun same => inner (.inl same), fun same => inner (.inr same), isOption, taken,
                applied⟩, read⟩

theorem loop_facet {P : Str → Prop}
    (round : ∀ options rest next after, P rest → Round s options rest next after →
      P after ∧ (next.facet = options.facet ∨ ¬hasSeparator next.facet)) {rounds : Nat} {rest : Str}
    (holds : P rest) {result : Options × Str}
    (read : readOptions s rounds options rest = .ok result) :
    result.1.facet = options.facet ∨ ¬hasSeparator result.1.facet := by
  induction rounds generalizing options rest with
  | zero =>
      cases read
      exact .inl rfl
  | succ rounds ih =>
      obtain same | ⟨next, after, step, later⟩ := read_options_round read
      · rw [same]
        exact .inl rfl
      · obtain ⟨kept, facet⟩ := round options rest next after holds step
        obtain same | none := ih kept later
        · rw [same]
          exact facet
        · exact .inr none

/-- The characters that make `toString` use quotes. -/
def isMark (char : Byte) : Bool := char = space || char = colon || char = atSign

theorem no_separator (none : ∀ char ∈ s, isMark char = false) : ¬hasSeparator s := by
  rintro (here | here | here)
  · cases none space here
  · cases none colon here
  · cases none atSign here

theorem mark_encode {char : Byte} (mark : isMark char = true) :
    encodeChar [] char = [char] ∧ isSeparator char = true := by
  have isOne : char = space ∨ char = colon ∨ char = atSign := by
    simpa [isMark, or_assoc] using mark
  refine ⟨encode_separator (.inr rfl) isOne, ?_⟩
  obtain rfl | rfl | rfl := isOne <;> rfl

theorem unmarked_encode {char : Byte} (unmarked : isMark char = false) :
    ∀ inner ∈ encodeChar [] char, isSeparator inner = false := by
  intro inner inside
  by_contra separator
  have isSep : isSeparator inner = true := by simpa using separator
  obtain ⟨same, blank⟩ := (encode_char_shape (.inr rfl) char).2.2 inner inside isSep
  subst same
  have isMarked : isMark inner = true := by
    rw [isSeparator, blank] at isSep
    exact isSep
  rw [isMarked] at unmarked
  cases unmarked

theorem unmarked_encode_all (unmarked : ∀ char ∈ s, isMark char = false) :
    ∀ inner ∈ encodeAll [] s, (fun char => !isSeparator char) inner = true := by
  intro inner inside
  obtain ⟨char, member, here⟩ := List.mem_flatMap.mp inside
  simpa using unmarked_encode (unmarked char member) inner here

/-- A word of an escaped text is the escaped word, with the quote at its end if it is the
last. -/
theorem span_encode (s : Str) :
    (∃ front left, s = front ++ left ∧ left ≠ [] ∧ (∀ char ∈ front, isMark char = false) ∧
      (encodeAll [] s ++ [doubleQuote]).takeWhile (fun char => !isSeparator char) =
        encodeAll [] front ∧
      (encodeAll [] s ++ [doubleQuote]).dropWhile (fun char => !isSeparator char) =
        encodeAll [] left ++ [doubleQuote]) ∨
    ((∀ char ∈ s, isMark char = false) ∧
      (encodeAll [] s ++ [doubleQuote]).takeWhile (fun char => !isSeparator char) =
        encodeAll [] s ++ [doubleQuote] ∧
      (encodeAll [] s ++ [doubleQuote]).dropWhile (fun char => !isSeparator char) = []) := by
  have whole := List.takeWhile_append_dropWhile (p := fun char => !isMark char) (l := s)
  have plain : ∀ char ∈ s.takeWhile (fun char => !isMark char), isMark char = false := by
    intro char inside
    simpa using List.mem_takeWhile_imp inside
  cases left : s.dropWhile (fun char => !isMark char) with
  | nil =>
      rw [left, List.append_nil] at whole
      rw [whole] at plain
      have every := unmarked_encode_all plain
      have last : Stops (fun char => !isSeparator char) ([] : Str) := stops_nil _
      have all : ∀ char ∈ encodeAll [] s ++ [doubleQuote],
          (fun char => !isSeparator char) char = true := by
        intro char inside
        obtain front | back := List.mem_append.mp inside
        · exact every char front
        · rw [List.mem_singleton.mp back]
          rfl
      have taken := take_while_stops all last
      have dropped := drop_while_stops all last
      rw [List.append_nil] at taken dropped
      exact .inr ⟨plain, taken, dropped⟩
  | cons char rest =>
      have marked : isMark char = true := by
        have stopped := List.head?_dropWhile_not (fun char => !isMark char) s
        rw [left] at stopped
        simpa using stopped
      obtain ⟨single, separator⟩ := mark_encode marked
      rw [left] at whole
      generalize s.takeWhile (fun char => !isMark char) = front at whole plain
      subst whole
      have every := unmarked_encode_all plain
      have split : encodeAll [] (front ++ char :: rest) ++ [doubleQuote] =
          encodeAll [] front ++ (char :: (encodeAll [] rest ++ [doubleQuote])) := by
        simp [encodeAll, single]
      have stops : Stops (fun char => !isSeparator char)
          (char :: (encodeAll [] rest ++ [doubleQuote])) := stops_cons (by simp [separator]) _
      left
      refine ⟨front, char :: rest, rfl, List.cons_ne_nil _ _, plain, ?_, ?_⟩
      · rw [split, take_while_stops every stops]
      · rw [split, drop_while_stops every stops]
        simp [encodeAll, single]

theorem drop_blanks_encode (s : Str) : ∃ left,
    (encodeAll [] s ++ [doubleQuote]).dropWhile isBlank = encodeAll [] left ++ [doubleQuote] := by
  induction s with
  | nil => exact ⟨[], rfl⟩
  | cons char rest ih =>
      by_cases isSpace : char = space
      · obtain ⟨left, dropped⟩ := ih
        refine ⟨left, ?_⟩
        subst isSpace
        exact dropped
      · refine ⟨char :: rest, ?_⟩
        have grown := encode_char_pos nothing_plain char
        cases shape : encodeChar [] char with
        | nil => simp [shape] at grown
        | cons first more =>
            have notBlank : isBlank first = false := by
              by_contra blank
              have isBlankFirst : isBlank first = true := by simpa using blank
              have inside : first ∈ encodeChar [] char := by
                rw [shape]
                exact List.mem_cons_self
              obtain ⟨same, decided⟩ := (encode_char_shape (.inr rfl) char).2.2 first inside
                (by simp [isSeparator, isBlankFirst])
              rw [← same, isBlankFirst] at decided
              exact isSpace (same ▸ of_decide_eq_true decided.symm)
            rw [encodeAll, List.flatMap_cons, shape, List.cons_append, List.cons_append,
              List.dropWhile_cons_of_neg (by simp [notBlank])]

theorem unescape_quote (s : Str) :
    unescapeString (encodeAll [] s ++ [doubleQuote]) 0
      (encodeAll [] s ++ [doubleQuote]).length = .ok (s ++ [doubleQuote]) := by
  have long := encode_all_length nothing_plain s
  have rounds : (encodeAll [] s ++ [doubleQuote]).length =
      s.length + ((encodeAll [] s).length - s.length + 1) := by
    simp only [List.length_append, List.length_singleton]
    omega
  have decoded := decode_string_append nothing_plain s [doubleQuote] []
    ((encodeAll [] s).length - s.length + 1)
  have last (before : Str) : decodeString ((encodeAll [] s).length - s.length + 1) before
      [doubleQuote] = .ok [doubleQuote] := by
    cases (encodeAll [] s).length - s.length <;> rfl
  rw [last, ← rounds] at decoded
  rw [unescapeString, List.take_length, List.drop_zero, Nat.sub_zero]
  exact decoded

def AdapterRest (rest : Str) : Prop :=
  rest = [] ∨ ∃ left, rest = encodeAll [] left ++ [doubleQuote]

theorem adapter_argument {left after : Str}
    (read : readArgument s option (encodeAll [] left ++ [doubleQuote]) =
      .ok (argument, after)) :
    AdapterRest after ∧ ∀ facet, argument ≠ [] →
      unescapeString argument 0 argument.length = .ok facet → ¬hasSeparator facet := by
  obtain ⟨found, dropped⟩ := drop_blanks_encode left
  unfold readArgument at read
  rw [dropped] at read
  split at read
  · cases read
    exact ⟨.inr ⟨left, rfl⟩, fun _ some' => absurd rfl some'⟩
  · next first more shape =>
      split at read
      · cases read
        exact ⟨.inr ⟨left, rfl⟩, fun _ some' => absurd rfl some'⟩
      · rw [← shape] at read
        by_cases none : found = []
        · subst none
          cases read
        · have bare := check_quote_bare (encode_spelled (.inr rfl) found)
            (encode_ne_nil nothing_plain none) [doubleQuote]
          simp only [takeToken, bare] at read
          cases read
          obtain ⟨front, back, _, _, plain, taken, dropped⟩ | ⟨plain, taken, dropped⟩ :=
            span_encode found
          · rw [taken, dropped]
            refine ⟨.inr ⟨back, rfl⟩, ?_⟩
            intro facet _ decoded
            rw [unescape_escape nothing_plain] at decoded
            cases decoded
            exact no_separator plain
          · rw [taken, dropped]
            refine ⟨.inl rfl, ?_⟩
            intro facet _ decoded
            rw [unescape_quote] at decoded
            cases decoded
            apply no_separator
            intro char inside
            obtain here | last := List.mem_append.mp inside
            · exact plain char here
            · rw [List.mem_singleton.mp last]
              rfl

theorem adapter_round (s : Str) (options : Options) (rest : Str) (next : Options) (after : Str)
    (isRest : AdapterRest rest) (round : Round s options rest next after) :
    AdapterRest after ∧ (next.facet = options.facet ∨ ¬hasSeparator next.facet) := by
  obtain ⟨first, more, letter, argument, found, _, _, _, taken, applied⟩ := round.read
  obtain rfl | ⟨left, rfl⟩ := isRest
  · cases found
  · obtain ⟨word, dropped⟩ := drop_blanks_encode left
    rw [dropped] at found
    rw [← found] at taken
    have argued : AdapterRest after ∧ ∀ facet, argument ≠ [] →
        unescapeString argument 0 argument.length = .ok facet → ¬hasSeparator facet := by
      obtain ⟨_, back, _, _, _, _, behind⟩ | ⟨_, _, behind⟩ := span_encode word
      · rw [behind] at taken
        exact adapter_argument taken
      · rw [behind] at taken
        cases taken
        exact ⟨.inl rfl, fun _ some' => absurd rfl some'⟩
    refine ⟨argued.1, ?_⟩
    obtain same | ⟨some', decoded⟩ := apply_keeps_facet applied
    · exact .inl same
    · exact .inr (argued.2 next.facet some' decoded)

def HostRest (rest : Str) : Prop :=
  ∃ host port more, (∀ char ∈ host, isBlank char = false) ∧
    Stops (fun char => !isSeparator char) more ∧
    rest = host ++ (space :: minus :: byte 'p' :: space :: (printInt port ++ more))

theorem decimal_spelled (n : Nat) : Spelled (decimal n) ∧ separated (decimal n) = false :=
  plain_spelled fun char inside => by
    have plain := digit_plain (decimal_digits n char inside)
    exact ⟨plain.1, plain.2.1, plain.2.2.1⟩

theorem decimal_head (n : Nat) : (decimal n).head? ≠ some minus := by
  intro dash
  have plain := digit_plain (decimal_digits n minus (List.mem_of_head? dash))
  exact plain.2.2.2.2.2 rfl

theorem port_not_version (port : Int) {more : Str}
    (stops : Stops (fun char => !isSeparator char) more) {after : Str}
    (taken : readArgument s option (space :: (printInt port ++ more)) = .ok (argument, after))
    (options result : Options) : options.apply s option (byte 'p') argument ≠ .ok result := by
  intro applied
  have notOk : ∀ argument : Str, argument = [] ∨ dot ∉ argument →
      options.apply s option (byte 'p') argument ≠ .ok result := by
    intro argument wrong applied
    unfold Options.apply at applied
    rw [if_neg (by decide), if_neg (by decide), if_neg (by decide), if_neg (by decide),
      if_neg (by decide), if_neg (by decide), if_neg (by decide), if_neg (by decide),
      if_pos rfl] at applied
    obtain none | noDot := wrong
    · rw [if_pos none] at applied
      cases applied
    · split at applied
      · cases applied
      · rw [stringToVersion, if_pos noDot] at applied
        cases applied
  by_cases negative : port < 0
  · have shape : printInt port ++ more = minus :: (decimal port.natAbs ++ more) := by
      rw [printInt, if_pos negative]
      rfl
    have follows : Follows (space :: minus :: (decimal port.natAbs ++ more)) := .option _
    rw [shape, follows.no_argument] at taken
    cases taken
    exact notOk [] (.inl rfl) applied
  · obtain ⟨spelled, bare⟩ := decimal_spelled port.natAbs
    have whole : enclose (decimal port.natAbs) = decimal port.natAbs := by
      rw [spelled.enclose_eq, bare, if_neg Bool.false_ne_true]
    have read := read_argument_enclose spelled (decimal_ne_nil _)
      (fun found => absurd (bare.symm.trans found) Bool.false_ne_true)
      (fun _ => decimal_head port.natAbs) stops s option
    rw [whole] at read
    rw [printInt, if_neg negative, read] at taken
    cases taken
    refine notOk _ (.inr fun inside => ?_) applied
    exact (digit_plain (decimal_digits _ dot inside)).2.2.2.2.1 rfl

theorem host_word {host : Str} (plain : ∀ char ∈ host, isBlank char = false) (tail : Str) :
    ∃ left, (∀ char ∈ left, char ∈ host) ∧
      (host ++ space :: tail).dropWhile (fun char => !isSeparator char) = left ++ space :: tail ∧
      (left = [] ∨ ∃ stop more, left = stop :: more ∧ (stop = colon ∨ stop = atSign)) := by
  have whole := List.takeWhile_append_dropWhile
    (p := fun char => !isSeparator char) (l := host)
  have front : ∀ char ∈ host.takeWhile (fun char => !isSeparator char),
      (fun char => !isSeparator char) char = true := by
    intro char inside
    simpa using List.mem_takeWhile_imp inside
  refine ⟨host.dropWhile fun char => !isSeparator char, ?_, ?_, ?_⟩
  · intro char inside
    rw [← whole]
    exact List.mem_append_right _ inside
  · cases left : host.dropWhile (fun char => !isSeparator char) with
    | nil =>
        rw [left, List.append_nil] at whole
        rw [whole] at front
        exact drop_while_stops front (stops_cons rfl tail)
    | cons stop more =>
        have stopped := List.head?_dropWhile_not (fun char => !isSeparator char) host
        rw [left] at stopped
        have stops : Stops (fun char => !isSeparator char) ((stop :: more) ++ space :: tail) :=
          stops_cons (by simpa using stopped) _
        have dropped := drop_while_stops front stops
        rwa [← List.append_assoc, ← left, whole, left] at dropped
  · cases left : host.dropWhile (fun char => !isSeparator char) with
    | nil => exact .inl rfl
    | cons stop more =>
        have stopped := List.head?_dropWhile_not (fun char => !isSeparator char) host
        rw [left] at stopped
        have separator : isSeparator stop = true := by simpa using stopped
        have inside : stop ∈ host := by
          rw [← whole, left]
          exact List.mem_append_right _ List.mem_cons_self
        refine .inr ⟨stop, more, rfl, ?_⟩
        simpa [isSeparator, plain stop inside] using separator

theorem host_no_argument {left tail : Str}
    (stops : left = [] ∨ ∃ stop more, left = stop :: more ∧ (stop = colon ∨ stop = atSign))
    (s option : Str) :
    readArgument s option (left ++ space :: minus :: tail) =
      .ok ([], left ++ space :: minus :: tail) := by
  obtain rfl | ⟨stop, more, rfl, rfl | rfl⟩ := stops
  · exact (Follows.option tail).no_argument s option
  · exact (Follows.endpoints _).no_argument s option
  · rfl

theorem host_round (s : Str) (options : Options) (rest : Str) (next : Options) (after : Str)
    (isRest : HostRest rest) (round : Round s options rest next after) :
    HostRest after ∧ (next.facet = options.facet ∨ ¬hasSeparator next.facet) := by
  obtain ⟨first, tail, letter, argument, found, _, _, isOption, taken, applied⟩ := round.read
  obtain ⟨host, port, more, plain, stops, rfl⟩ := isRest
  cases host with
  | nil =>
      -- The option is that of the port.
      have shape : (([] : Str) ++ (space :: minus :: byte 'p' :: space ::
          (printInt port ++ more))).dropWhile isBlank =
          minus :: byte 'p' :: space :: (printInt port ++ more) := by
        rw [List.nil_append, List.dropWhile_cons_of_pos rfl, List.dropWhile_cons_of_neg (by decide)]
      rw [shape] at found
      rw [← found] at isOption taken applied
      have option : (minus :: byte 'p' :: space :: (printInt port ++ more)).takeWhile
          (fun char => !isSeparator char) = [minus, byte 'p'] := rfl
      have behind : (minus :: byte 'p' :: space :: (printInt port ++ more)).dropWhile
          (fun char => !isSeparator char) = space :: (printInt port ++ more) := rfl
      rw [option] at isOption taken applied
      rw [behind] at taken
      cases isOption
      exact absurd applied (port_not_version port stops taken options next)
  | cons char rest =>
      have here : isBlank char = false := plain char List.mem_cons_self
      rw [List.cons_append, List.dropWhile_cons_of_neg (by simp [here]), ← List.cons_append] at found
      rw [← found] at taken applied
      obtain ⟨left, inside, behind, ends⟩ :=
        host_word plain (minus :: byte 'p' :: space :: (printInt port ++ more))
      rw [behind, host_no_argument ends] at taken
      cases taken
      refine ⟨⟨left, port, more, fun other member => plain other (inside other member), stops,
        rfl⟩, ?_⟩
      obtain same | ⟨some', _⟩ := apply_keeps_facet applied
      · exact .inl same
      · exact absurd rfl some'

end IceTouch.Proxies
