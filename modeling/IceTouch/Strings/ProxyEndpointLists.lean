import IceTouch.Strings.ProxyEndpoints

/-!
# Lists of TCP endpoints in stringified proxies

The parser takes every colon for the start of an endpoint that does not come after an odd
number of double quotes. So it splits the string of a list where `toString` joined it, when the
quotes in the hosts allow it.
-/

namespace IceTouch.Proxies

open Bytes WireTypes Escape Scanning Results

variable {ω : Type}

def endpointsString (endpoints : List TcpEndpoint) : Str :=
  endpoints.flatMap fun endpoint => colon :: endpoint.toString

def quotesOpen : Bool → Str → Bool
  | opened, [] => opened
  | opened, char :: rest => quotesOpen (if char = doubleQuote then !opened else opened) rest

def colonsQuoted : Bool → Str → Bool
  | _, [] => true
  | opened, char :: rest =>
      (char ≠ colon || opened) &&
        colonsQuoted (if char = doubleQuote then !opened else opened) rest

variable {s : Str} {unknownEndpoints : List Str}

theorem split_pass {opened : Bool} (tail : Str) (quoted : colonsQuoted opened s = true)
    (closing : colon ∈ s → doubleQuote ∈ tail) :
    splitEndpoint opened (s ++ tail) =
      (s ++ (splitEndpoint (quotesOpen opened s) tail).1,
        (splitEndpoint (quotesOpen opened s) tail).2) := by
  induction s generalizing opened with
  | nil => rfl
  | cons char rest ih =>
      simp only [colonsQuoted, Bool.and_eq_true, Bool.or_eq_true, decide_eq_true_eq] at quoted
      have stays : ¬(char = colon ∧ ¬(opened = true ∧ doubleQuote ∈ rest ++ tail)) := by
        rintro ⟨isColon, notQuoted⟩
        apply notQuoted
        obtain other | isOpen := quoted.1
        · exact absurd isColon other
        · refine ⟨isOpen, List.mem_append_right rest (closing ?_)⟩
          rw [isColon]
          exact List.mem_cons_self
      have later := ih quoted.2 fun inside => closing (List.mem_cons_of_mem char inside)
      rw [List.cons_append, splitEndpoint, if_neg stays, later]
      rfl

def Quiet (s : Str) : Prop := ∀ char ∈ s, char ≠ colon ∧ char ≠ doubleQuote

instance (s : Str) : Decidable (Quiet s) :=
  inferInstanceAs (Decidable (∀ char ∈ s, char ≠ colon ∧ char ≠ doubleQuote))

theorem quiet_open (quiet : Quiet s) (opened : Bool) :
    quotesOpen opened s = opened ∧ colonsQuoted opened s = true := by
  induction s with
  | nil => exact ⟨rfl, rfl⟩
  | cons char rest ih =>
      obtain ⟨notColon, notQuote⟩ := quiet char List.mem_cons_self
      obtain ⟨same, quoted⟩ := ih fun other inside => quiet other (List.mem_cons_of_mem char inside)
      rw [quotesOpen, colonsQuoted, if_neg notQuote, same, quoted]
      exact ⟨rfl, by simp [notColon]⟩

theorem split_quiet (quiet : Quiet s) (opened : Bool) (tail : Str) :
    splitEndpoint opened (s ++ tail) =
      (s ++ (splitEndpoint opened tail).1, (splitEndpoint opened tail).2) := by
  obtain ⟨same, quoted⟩ := quiet_open quiet opened
  have passed := split_pass tail quoted
    fun inside => absurd rfl (quiet colon inside).1
  rwa [same] at passed

theorem colons_free (free : colon ∉ s) (opened : Bool) : colonsQuoted opened s = true := by
  induction s generalizing opened with
  | nil => rfl
  | cons char rest ih =>
      have other : char ≠ colon := fun same => free (same ▸ List.mem_cons_self)
      rw [colonsQuoted, ih fun inside => free (List.mem_cons_of_mem char inside)]
      simp [other]

theorem quotes_open_not (opened : Bool) (s : Str) :
    quotesOpen (!opened) s = !quotesOpen opened s := by
  induction s generalizing opened with
  | nil => rfl
  | cons char rest ih =>
      rw [quotesOpen, quotesOpen]
      by_cases isQuote : char = doubleQuote
      · rw [if_pos isQuote, if_pos isQuote, ih]
      · rw [if_neg isQuote, if_neg isQuote, ih]

theorem unquoted_colon {opened : Bool} (bad : colonsQuoted opened s = false) :
    ∃ front back, s = front ++ colon :: back ∧ colonsQuoted opened front = true ∧
      quotesOpen opened front = false := by
  induction s generalizing opened with
  | nil => cases bad
  | cons char rest ih =>
      by_cases here : char = colon ∧ opened = false
      · obtain ⟨rfl, rfl⟩ := here
        exact ⟨[], rest, rfl, rfl, rfl⟩
      · have passed : (decide (char ≠ colon) || opened) = true := by
          by_contra failed
          apply here
          simpa using failed
        rw [colonsQuoted, passed, Bool.true_and] at bad
        obtain ⟨front, back, rfl, quoted, closed⟩ := ih bad
        refine ⟨char :: front, back, rfl, ?_, closed⟩
        rw [colonsQuoted, passed, Bool.true_and]
        exact quoted

theorem digit_quiet {char : Byte} (digit : isDigit char = true) :
    char ≠ colon ∧ char ≠ doubleQuote := by
  have plain := digit_plain digit
  exact ⟨(not_separator plain.1).2.1, plain.2.1⟩

theorem print_int_quiet (z : Int) : Quiet (printInt z) := by
  intro char inside
  unfold printInt at inside
  split at inside
  · obtain rfl | digit := List.mem_cons.mp inside
    · decide
    · exact digit_quiet (decimal_digits _ char digit)
  · exact digit_quiet (decimal_digits _ char inside)

theorem quiet_words {list : List Str} (quiet : ∀ word ∈ list, Quiet word) :
    Quiet (list.flatMap (space :: ·)) := by
  intro char inside
  obtain ⟨word, member, here⟩ := List.mem_flatMap.mp inside
  obtain rfl | here := List.mem_cons.mp here
  · decide
  · exact quiet word member char here

theorem tail_quiet (endpoint : TcpEndpoint) :
    Quiet (endpoint.tailWords.flatMap (space :: ·)) := by
  have option (letter : Char) (other : byte letter ≠ colon ∧ byte letter ≠ doubleQuote) :
      Quiet [minus, byte letter] := by
    intro char inside
    obtain rfl | inside := List.mem_cons.mp inside
    · decide
    · rw [List.mem_singleton.mp inside]
      exact other
  apply quiet_words
  intro word inside
  obtain front | compress := List.mem_append.mp inside
  · obtain port | timeout := List.mem_append.mp front
    · obtain rfl | port := List.mem_cons.mp port
      · exact option 'p' (by decide)
      · rw [List.mem_singleton.mp port]
        exact print_int_quiet _
    · split at timeout
      · cases timeout
      · obtain rfl | timeout := List.mem_cons.mp timeout
        · exact option 't' (by decide)
        · rw [List.mem_singleton.mp timeout]
          exact print_int_quiet _
  · split at compress
    · rw [List.mem_singleton.mp compress]
      exact option 'z' (by decide)
    · cases compress

theorem to_string_shown (endpoint : TcpEndpoint) :
    endpoint.toString = (if endpoint.host = [] then text "tcp" else text "tcp -h ") ++
      (shownHost endpoint.host ++ endpoint.tailWords.flatMap (space :: ·)) := by
  rw [to_string_words, TcpEndpoint.words, TcpEndpoint.hostWords]
  by_cases none : endpoint.host = []
  · rw [if_pos none, if_pos none, none]
    rfl
  · rw [if_neg none, if_neg none, List.flatMap_append]
    simp [show text "tcp -h " = text "tcp" ++ (space :: text "-h" ++ [space]) from rfl]

theorem front_quiet (endpoint : TcpEndpoint) :
    Quiet (if endpoint.host = [] then text "tcp" else text "tcp -h ") := by
  split
  · decide
  · decide

def hostOpening : Str := text "tcp -h " ++ [doubleQuote]

theorem opening_quoted : colonsQuoted false hostOpening = true ∧
    quotesOpen false hostOpening = true ∧ colon ∉ hostOpening := by
  decide

variable {endpoint : TcpEndpoint} {instance' : Instance ω}

theorem to_string_quoted (has : colon ∈ endpoint.host) :
    endpoint.toString = hostOpening ++ (endpoint.host ++
      ([doubleQuote] ++ endpoint.tailWords.flatMap (space :: ·))) := by
  have some : endpoint.host ≠ [] := List.ne_nil_of_mem has
  rw [to_string_shown, if_neg some, shownHost, if_pos has]
  simp [hostOpening]

theorem split_opening (tail : Str) : splitEndpoint false (hostOpening ++ tail) =
    (hostOpening ++ (splitEndpoint true tail).1, (splitEndpoint true tail).2) := by
  obtain ⟨quoted, opened, free⟩ := opening_quoted
  have passed := split_pass tail quoted fun inside => absurd inside free
  rwa [opened] at passed

theorem split_closing (opened : Bool) (tail : Str) :
    splitEndpoint opened ([doubleQuote] ++ tail) =
      ([doubleQuote] ++ (splitEndpoint (!opened) tail).1, (splitEndpoint (!opened) tail).2) := by
  have free : colon ∉ [doubleQuote] := by decide
  have quoted : colonsQuoted opened [doubleQuote] = true := colons_free free opened
  have passed := split_pass tail quoted fun inside => absurd inside free
  have after : quotesOpen opened [doubleQuote] = !opened := by
    cases opened <;> rfl
  rwa [after] at passed

theorem split_endpoint (quoted : colonsQuoted true endpoint.host = true) (more : Str) :
    splitEndpoint false (endpoint.toString ++ more) =
      (endpoint.toString ++ (splitEndpoint (quotesOpen false endpoint.host) more).1,
        (splitEndpoint (quotesOpen false endpoint.host) more).2) := by
  by_cases has : colon ∈ endpoint.host
  · have inside := split_pass ([doubleQuote] ++
      (endpoint.tailWords.flatMap (space :: ·) ++ more)) quoted fun _ => List.mem_cons_self
    have balance : (!quotesOpen true endpoint.host) = quotesOpen false endpoint.host := by
      rw [← quotes_open_not]
      rfl
    rw [to_string_quoted has, List.append_assoc, List.append_assoc, List.append_assoc,
      split_opening, inside, split_closing, balance, split_quiet (tail_quiet endpoint)]
    simp
  · have inside := split_pass (endpoint.tailWords.flatMap (space :: ·) ++ more)
      (colons_free has false) fun here => absurd here has
    rw [to_string_shown, shownHost, if_neg has, List.append_assoc, List.append_assoc,
      split_quiet (front_quiet endpoint), inside, split_quiet (tail_quiet endpoint)]
    simp

theorem split_here (rest : Str) : splitEndpoint false (colon :: rest) = ([], colon :: rest) := by
  have notQuoted : ¬(false = true ∧ doubleQuote ∈ rest) := fun quoted =>
    absurd quoted.1 Bool.false_ne_true
  rw [splitEndpoint, if_pos ⟨rfl, notQuoted⟩]

theorem split_inside (bad : colonsQuoted true endpoint.host = false) (more : Str) :
    ∃ front back rest, endpoint.host = front ++ colon :: back ∧
      splitEndpoint false (endpoint.toString ++ more) =
        (text "tcp -h " ++ doubleQuote :: front, rest) := by
  obtain ⟨front, back, host, quoted, closed⟩ := unquoted_colon bad
  have has : colon ∈ endpoint.host := by
    rw [host]
    simp
  have inside := split_pass (colon :: (back ++ ([doubleQuote] ++
    (endpoint.tailWords.flatMap (space :: ·) ++ more)))) quoted fun _ => by simp
  refine ⟨front, back, colon :: (back ++ ([doubleQuote] ++
    (endpoint.tailWords.flatMap (space :: ·) ++ more))), host, ?_⟩
  rw [to_string_quoted has, host, List.append_assoc, List.append_assoc, List.append_assoc,
    List.append_assoc, List.cons_append, split_opening, inside, closed, split_here]
  simp only [List.append_nil, hostOpening, List.append_assoc, List.singleton_append]

theorem endpoint_plain {str : Str}
    (read : createEndpoint instance' str false = .ok (some (.tcp endpoint))) :
    Plain endpoint.host ∨ endpoint.host = instance'.defaultHost := by
  unfold createEndpoint at read
  simp only at read
  generalize (if List.takeWhile _ _ = text "default" then instance'.defaultProtocol else _) =
    protocol at read
  split at read
  · cases read
  · split at read
    · obtain ⟨result, created, same⟩ := map_ok read
      cases same
      exact create_plain created
    · obtain ⟨result, _, same⟩ := map_ok read
      cases result <;> cases same

theorem to_string_free (endpoint : TcpEndpoint) :
    doubleQuote ∉ endpoint.toString ↔ doubleQuote ∉ endpoint.host ∧ colon ∉ endpoint.host := by
  have front : doubleQuote ∉ if endpoint.host = [] then text "tcp" else text "tcp -h " :=
    fun inside => (front_quiet endpoint doubleQuote inside).2 rfl
  have tail : doubleQuote ∉ endpoint.tailWords.flatMap (space :: ·) :=
    fun inside => (tail_quiet endpoint doubleQuote inside).2 rfl
  rw [to_string_shown, List.mem_append, List.mem_append, shownHost]
  by_cases has : colon ∈ endpoint.host
  · rw [if_pos has]
    exact ⟨fun free => absurd (.inr (.inl List.mem_cons_self)) free, fun free => absurd has free.2⟩
  · rw [if_neg has]
    simp only [front, tail, false_or, or_false, has, not_false_eq_true, and_true]

/-- Double quotes stand in the string where a host has one, or has a colon and is quoted. -/
theorem endpoints_free (endpoints : List TcpEndpoint) :
    doubleQuote ∉ endpointsString endpoints ↔
      ∀ endpoint ∈ endpoints, doubleQuote ∉ endpoint.host ∧ colon ∉ endpoint.host := by
  have other : doubleQuote ≠ colon := by decide
  simp only [endpointsString, List.mem_flatMap, List.mem_cons, other, false_or, not_exists, not_and,
    to_string_free]

/-- The lists of endpoints that are read back. A double quote that a host leaves open must be
the last one. -/
def EndpointsReadable (instance' : Instance ω) : List TcpEndpoint → Prop
  | [] => True
  | endpoint :: rest =>
      endpoint.Readable instance' ∧ colonsQuoted true endpoint.host = true ∧
        (quotesOpen false endpoint.host = true →
          ∀ later ∈ rest, doubleQuote ∉ later.host ∧ colon ∉ later.host) ∧
        EndpointsReadable instance' rest

theorem endpoints_string_cons (endpoint : TcpEndpoint) (rest : List TcpEndpoint) :
    endpointsString (endpoint :: rest) =
      colon :: (endpoint.toString ++ endpointsString rest) := by
  rw [endpointsString, List.flatMap_cons]
  rfl

theorem split_next (opened : Bool) (rest : List TcpEndpoint) :
    (splitEndpoint opened (endpointsString rest) = ([], endpointsString rest) ∧
      (opened = true → doubleQuote ∉ endpointsString rest)) ∨
    ∃ more after, splitEndpoint opened (endpointsString rest) = (colon :: more, after) ∧
      opened = true ∧ doubleQuote ∈ endpointsString rest := by
  cases rest with
  | nil => exact .inl ⟨rfl, fun _ inside => nomatch inside⟩
  | cons endpoint rest =>
      rw [endpoints_string_cons]
      generalize endpoint.toString ++ endpointsString rest = more
      by_cases quoted : opened = true ∧ doubleQuote ∈ more
      · right
        rw [splitEndpoint, if_neg fun stop => stop.2 quoted]
        exact ⟨_, _, rfl, quoted.1, List.mem_cons_of_mem colon quoted.2⟩
      · refine .inl ⟨?_, ?_⟩
        · rw [splitEndpoint, if_pos ⟨rfl, quoted⟩]
        · intro isOpen inside
          obtain same | inside := List.mem_cons.mp inside
          · exact absurd same (by decide)
          · exact quoted ⟨isOpen, inside⟩

theorem read_endpoints_cons (instance' : Instance ω) (rounds : Nat) (rest : Str) :
    readEndpoints instance' (rounds + 1) (colon :: rest) = (do
      let endp ← createEndpoint instance' (splitEndpoint false rest).1 false
      let (endpoints, unknownEndpoints) ←
        readEndpoints instance' rounds (splitEndpoint false rest).2
      match endp with
      | some endpoint => .ok (endpoint :: endpoints, unknownEndpoints)
      | none => .ok (endpoints, (splitEndpoint false rest).1 :: unknownEndpoints)) := by
  exact if_pos rfl

variable {rounds : Nat} {endpoints : List (Endpoint ω)}

theorem read_endpoints {endpoints : List TcpEndpoint}
    (readable : EndpointsReadable instance' endpoints) (enough : endpoints.length ≤ rounds) :
    readEndpoints instance' rounds (endpointsString endpoints) =
      .ok (endpoints.map Endpoint.tcp, []) := by
  induction endpoints generalizing rounds with
  | nil => cases rounds <;> rfl
  | cons endpoint rest ih =>
      obtain ⟨here, quoted, last, later⟩ := readable
      obtain ⟨rounds, rfl⟩ : ∃ less, rounds = less + 1 := ⟨rounds - 1, by
        simp only [List.length_cons] at enough
        omega⟩
      have split : splitEndpoint false (endpoint.toString ++ endpointsString rest) =
          (endpoint.toString, endpointsString rest) := by
        rw [split_endpoint quoted]
        obtain ⟨stops, _⟩ | ⟨_, _, _, isOpen, inside⟩ :=
          split_next (quotesOpen false endpoint.host) rest
        · rw [stops, List.append_nil]
        · exact absurd inside ((endpoints_free rest).mpr (last isOpen))
      have found := (create_endpoint_iff instance' endpoint).mpr here
      have others := ih later (Nat.le_of_succ_le_succ enough)
      rw [endpoints_string_cons, read_endpoints_cons, split]
      simp only [found, others, bind, Except.bind, List.map_cons]

theorem read_tcp {es : Str} (tcp : ∃ rest, es = text "tcp" ++ space :: rest) {rest after : Str}
    (split : splitEndpoint false rest = (es, after))
    (read : readEndpoints instance' (rounds + 1) (colon :: rest) =
      .ok (endpoints, unknownEndpoints)) :
    ∃ endpoint others, endpoints = .tcp endpoint :: others ∧
      createEndpoint instance' es false = .ok (some (.tcp endpoint)) ∧
      readEndpoints instance' rounds after = .ok (others, unknownEndpoints) := by
  rw [read_endpoints_cons, split] at read
  obtain ⟨endp, found, read⟩ := bind_ok read
  obtain ⟨⟨others, unknown⟩, later, read⟩ := bind_ok read
  obtain ⟨rest, rfl⟩ := tcp
  have isTcp := found
  rw [create_endpoint_tcp] at isTcp
  obtain ⟨endpoint, _, rfl⟩ := map_ok isTcp
  cases read
  exact ⟨endpoint, others, rfl, found, later⟩

theorem to_string_tcp (endpoint : TcpEndpoint) (more : Str) :
    ∃ rest, endpoint.toString ++ more = text "tcp" ++ space :: rest := by
  obtain ⟨rest, shape⟩ := words_cons endpoint
  refine ⟨rest ++ more, ?_⟩
  rw [to_string_words, shape, List.append_assoc, List.cons_append]

theorem endpoints_read {endpoints : List TcpEndpoint} (enough : endpoints.length ≤ rounds)
    (read : readEndpoints instance' rounds (endpointsString endpoints) =
      .ok (endpoints.map Endpoint.tcp, unknownEndpoints)) :
    EndpointsReadable instance' endpoints := by
  induction endpoints generalizing rounds unknownEndpoints with
  | nil => trivial
  | cons endpoint rest ih =>
      obtain ⟨rounds, rfl⟩ : ∃ less, rounds = less + 1 := ⟨rounds - 1, by
        simp only [List.length_cons] at enough
        omega⟩
      rw [endpoints_string_cons] at read
      by_cases quoted : colonsQuoted true endpoint.host = true
      · have split := split_endpoint quoted (endpointsString rest)
        obtain ⟨found, others, same, here, later⟩ := read_tcp (to_string_tcp endpoint _) split read
        cases same
        obtain ⟨stops, last⟩ | ⟨more, after, goes, _⟩ :=
          split_next (quotesOpen false endpoint.host) rest
        · rw [stops, List.append_nil] at here
          rw [stops] at later
          exact ⟨(create_endpoint_iff instance' endpoint).mp here, quoted,
            fun isOpen => (endpoints_free rest).mp (last isOpen), ih (Nat.le_of_succ_le_succ enough) later⟩
        · rw [goes] at here
          exact absurd here glued_unread
      · have bad : colonsQuoted true endpoint.host = false := by simpa using quoted
        obtain ⟨front, back, after, host, split⟩ := split_inside bad (endpointsString rest)
        obtain ⟨found, others, same, here, _⟩ := read_tcp ⟨_, rfl⟩ split read
        cases same
        exact absurd here (cut_unread host)

theorem endpoints_plain
    (read : readEndpoints instance' rounds s = .ok (endpoints, unknownEndpoints))
    (inside : .tcp endpoint ∈ endpoints) :
    Plain endpoint.host ∨ endpoint.host = instance'.defaultHost := by
  induction rounds generalizing s endpoints unknownEndpoints with
  | zero =>
      cases read
      cases inside
  | succ rounds ih =>
      cases s with
      | nil =>
          cases read
          cases inside
      | cons char rest =>
          by_cases isColon : char = colon
          · subst isColon
            rw [read_endpoints_cons] at read
            obtain ⟨endp, found, read⟩ := bind_ok read
            obtain ⟨⟨others, unknown⟩, later, read⟩ := bind_ok read
            cases endp with
            | none =>
                cases read
                exact ih later inside
            | some first =>
                cases read
                obtain rfl | inside := List.mem_cons.mp inside
                · exact endpoint_plain found
                · exact ih later inside
          · rw [readEndpoints, if_neg isColon] at read
            cases read
            cases inside

end IceTouch.Proxies
