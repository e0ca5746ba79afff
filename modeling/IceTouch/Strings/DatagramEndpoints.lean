import IceTouch.References.Endpoints
import IceTouch.Strings.OpaqueEndpoints
import Mathlib.Data.List.Chain

/-!
# The strings of UDP endpoints

`toString` of `UdpEndpointI` and the constructor that reads a string. Other than for TCP, an
argument that begins with a double quote ends at the next one, blanks or not.
-/

namespace IceTouch.Proxies

open Bytes WireTypes Escape Scanning Results
open References (UdpEndpoint)

/-- The flags that `toString` writes last. -/
def udpFlags (endpoint : UdpEndpoint) : Str :=
  (if endpoint.connect then text " -c" else []) ++ if endpoint.compress then text " -z" else []

/-- What `toString` writes after the interface. -/
def udpNumbers (endpoint : UdpEndpoint) : Str :=
  (if endpoint.mcastTtl.toInt = -1 then []
    else text " --ttl " ++ printInt endpoint.mcastTtl.toInt) ++ udpFlags endpoint

/-- What `toString` writes after the port. -/
def udpTail (endpoint : UdpEndpoint) : Str :=
  (if endpoint.mcastInterface = [] then []
    else text " --interface " ++ endpoint.mcastInterface) ++ udpNumbers endpoint

/-- What `toString` writes after the host. -/
def udpRest (endpoint : UdpEndpoint) : Str :=
  text " -p " ++ (printInt endpoint.port.toInt ++ udpTail endpoint)

/-- The options that `toString` writes after `udp`. -/
def udpOptions (endpoint : UdpEndpoint) : Str :=
  (if endpoint.host = [] then [] else text " -h " ++ shownHost endpoint.host) ++ udpRest endpoint

def udpToString (endpoint : UdpEndpoint) : Str := text "udp" ++ udpOptions endpoint

def udpFail {α : Type} (str reason : Str) : Except ParseError α :=
  .error (.endpointParse (reason ++ text "in endpoint \x60udp " ++ str ++ text "'"))

def udpApply (str option argument : Str) (endpoint : UdpEndpoint) :
    Except ParseError UdpEndpoint :=
  let missing : Except ParseError UdpEndpoint :=
    udpFail str (text "no argument provided for " ++ option ++ text " option ")
  let unexpected : Except ParseError UdpEndpoint :=
    .error (.endpointParse (text "unexpected argument \x60" ++ argument ++
      text "' provided for " ++ option ++ text " option in \x60udp " ++ str ++ text "'"))
  if option = text "-h" then
    if argument = [] then missing else .ok { endpoint with host := argument }
  else if option = text "-p" then
    if argument = [] then missing
    else
      match readInt argument with
      | none => udpFail str (text "invalid port value \x60" ++ argument ++ text "' ")
      | some port =>
          if port < 0 ∨ 65535 < port then
            udpFail str (text "port value \x60" ++ argument ++ text "' out of range ")
          else .ok { endpoint with port := BitVec.ofInt 32 port }
  else if option = text "-c" then
    if argument ≠ [] then unexpected else .ok { endpoint with connect := true }
  else if option = text "-z" then
    if argument ≠ [] then unexpected else .ok { endpoint with compress := true }
  else if option = text "-v" ∨ option = text "-e" then
    if argument = [] then missing
    else
      match stringToVersion argument with
      | .error reason =>
          .error (.endpointParse (text "invalid version \x60" ++ argument ++
            text "' in endpoint \x60udp " ++ str ++ text "':\n" ++ reason))
      | .ok _ => .ok endpoint
  else if option = text "--interface" then
    if argument = [] then missing else .ok { endpoint with mcastInterface := argument }
  else if option = text "--ttl" then
    if argument = [] then missing
    else
      match readInt argument with
      | none => udpFail str (text "invalid TTL value \x60" ++ argument ++ text "' ")
      | some ttl => .ok { endpoint with mcastTtl := BitVec.ofInt 32 ttl }
  else udpFail str (text "unknown option \x60" ++ option ++ text "' ")

def wordOf (text : Str) : Str := text.takeWhile fun char => !isBlank char

def afterWord (text : Str) : Str := text.dropWhile fun char => !isBlank char

/-- The argument of an option, without the quotes that enclose it, and the text after it. -/
def udpArgument (str rest : Str) : Except ParseError (Str × Str) :=
  match rest.dropWhile isBlank with
  | [] => .ok ([], rest)
  | char :: more =>
      if char = minus then .ok ([], rest)
      else if char = doubleQuote then
        match more.dropWhile fun char => char ≠ doubleQuote with
        | [] => udpFail str (text "mismatched quotes around \x60' ")
        | _ :: after => .ok (more.takeWhile fun char => char ≠ doubleQuote, after)
      else .ok (wordOf (char :: more), afterWord (char :: more))

/-- The loop over the options, with a round for each: the length of the text is always enough. -/
def udpRead (str : Str) : Nat → UdpEndpoint → Str → Except ParseError UdpEndpoint
  | 0, endpoint, _ => .ok endpoint
  | rounds + 1, endpoint, rest =>
      match rest.dropWhile isBlank with
      | [] => .ok endpoint
      | char :: more =>
          if char ≠ minus then
            udpFail str (text "expected an endpoint option but found \x60" ++
              wordOf (char :: more) ++ text "' ")
          else do
            let (argument, after) ← udpArgument str (afterWord (char :: more))
            let endpoint ← udpApply str (wordOf (char :: more)) argument endpoint
            udpRead str rounds endpoint after

/-- The `UdpEndpointI` that reads a string. -/
def udpCreate (defaultHost str : Str) (oaEndpoint : Bool) : Except ParseError UdpEndpoint := do
  let endpoint ← udpRead str (str.length + 1) ⟨[], 0, [], -1, false, [], false⟩ str
  if endpoint.host = [] then .ok { endpoint with host := defaultHost }
  else if endpoint.host = [star] then
    if oaEndpoint then .ok { endpoint with host := [] }
    else
      .error (.endpointParse (text "\x60-h *' not valid for proxy endpoint \x60udp " ++ str ++
        text "'"))
  else .ok endpoint

def Bare (value : Str) : Prop :=
  Plain value ∧ value.head? ≠ some minus ∧ value.head? ≠ some doubleQuote

/-- No word begins with a double quote. -/
def Unquoted (rest : Str) : Prop :=
  rest.IsChain fun before char => isBlank before = true → char ≠ doubleQuote

abbrev Ended (rest : Str) : Prop := Stops (fun char => !isBlank char) rest

def Argument (rest value : Str) : Prop :=
  value ≠ [] ∧ (Bare value ∨ doubleQuote ∉ value ∧ ¬Unquoted rest)

theorem bare_nil : Bare [] := ⟨nofun, nofun, nofun⟩

theorem unquoted_of {rest : Str} (either : doubleQuote ∉ rest ∨ Plain rest) : Unquoted rest := by
  apply List.isChain_iff_forall_rel_of_append_cons_cons.mpr
  rintro before char front back rfl blank rfl
  obtain none | plain := either
  · exact none (by simp)
  · rw [plain before (by simp)] at blank
    cases blank

structure Calm (part : Str) : Prop where
  unquoted : Unquoted part
  starts : part.head? ≠ some doubleQuote

theorem calm_of_not_mem {part : Str} (none : doubleQuote ∉ part) : Calm part :=
  ⟨unquoted_of (.inl none), fun first => none (List.mem_of_head? first)⟩

theorem Bare.calm {value : Str} (bare : Bare value) : Calm value :=
  ⟨unquoted_of (.inr bare.1), bare.2.2⟩

theorem Calm.append {front back : Str} (one : Calm front) (two : Calm back) :
    Calm (front ++ back) := by
  refine ⟨List.isChain_append.mpr ⟨one.unquoted, two.unquoted, ?_⟩, ?_⟩
  · rintro last - first found - rfl
    exact two.starts found
  · cases front with
    | nil => exact two.starts
    | cons char front => exact one.starts

variable {str rest value argument after option : Str} {before next result : UdpEndpoint}
  {rounds : Nat}

theorem Argument.widen (later : Argument after value) (suffix : after <:+ rest) :
    Argument rest value := by
  obtain ⟨filled, bare | ⟨none, quoted⟩⟩ := later
  · exact ⟨filled, .inl bare⟩
  · exact ⟨filled, .inr ⟨none, fun unquoted => quoted (unquoted.suffix suffix)⟩⟩

theorem quoted_word (ended : Ended rest) {more : Str}
    (found : rest.dropWhile isBlank = doubleQuote :: more) : ¬Unquoted rest := by
  intro unquoted
  induction rest with
  | nil => cases found
  | cons char rest ih =>
      have blank : isBlank char = true := by simpa using ended char rest rfl
      rw [List.dropWhile_cons_of_pos blank] at found
      cases rest with
      | nil => cases found
      | cons second rest =>
          by_cases again : isBlank second = true
          · exact ih (stops_cons (by simp [again]) rest) found unquoted.tail
          · rw [List.dropWhile_cons_of_neg again] at found
            exact (List.isChain_cons_cons.mp unquoted).1 blank (List.cons.inj found).1

theorem udp_argument_read (ended : Ended rest)
    (read : udpArgument str rest = .ok (argument, after)) :
    (argument ≠ [] → Argument rest argument) ∧ after <:+ rest := by
  unfold udpArgument at read
  split at read
  · cases read
    exact ⟨fun filled => absurd rfl filled, List.suffix_refl _⟩
  · next char more found =>
      have suffix : char :: more <:+ rest := found ▸ List.dropWhile_suffix _
      split at read
      · cases read
        exact ⟨fun filled => absurd rfl filled, List.suffix_refl _⟩
      · next notMinus =>
          split at read
          · next isQuote =>
              subst isQuote
              split at read
              · cases read
              · next close others behind =>
                  cases read
                  have later : close :: after <:+ more := behind ▸ List.dropWhile_suffix _
                  refine ⟨fun filled => ⟨filled, .inr ⟨fun inside => ?_, ?_⟩⟩, ?_⟩
                  · simpa using List.mem_takeWhile_imp inside
                  · exact quoted_word ended found
                  · exact ((List.suffix_cons _ _).trans later).trans
                      ((List.suffix_cons _ _).trans suffix)
          · next notQuote =>
              cases read
              have notBlank : isBlank char = false := by
                have first := List.head?_dropWhile_not isBlank rest
                rw [found] at first
                exact first
              refine ⟨fun filled => ⟨filled, .inl ⟨fun other inside => ?_, ?_⟩⟩,
                (List.dropWhile_suffix _).trans suffix⟩
              · simpa using List.mem_takeWhile_imp inside
              · simp [wordOf, notBlank, notMinus, notQuote]

theorem udp_apply_frame (applied : udpApply str option argument before = .ok next) :
    next.connectionId = before.connectionId ∧
      (next.host = before.host ∨ argument ≠ [] ∧ next.host = argument) ∧
      (next.mcastInterface = before.mcastInterface ∨
        argument ≠ [] ∧ next.mcastInterface = argument) := by
  unfold udpApply at applied
  repeat' split at applied
  all_goals first
    | cases applied; exact ⟨rfl, .inl rfl, .inl rfl⟩
    | cases applied; exact ⟨rfl, .inr ⟨‹_›, rfl⟩, .inl rfl⟩
    | cases applied; exact ⟨rfl, .inl rfl, .inr ⟨‹_›, rfl⟩⟩
    | cases applied

theorem udp_read_found (read : udpRead str rounds before rest = .ok result) :
    result.connectionId = before.connectionId ∧
      (result.host = before.host ∨ Argument rest result.host) ∧
      (result.mcastInterface = before.mcastInterface ∨ Argument rest result.mcastInterface) := by
  induction rounds generalizing before rest with
  | zero =>
      cases read
      exact ⟨rfl, .inl rfl, .inl rfl⟩
  | succ rounds ih =>
      rw [udpRead] at read
      split at read
      · cases read
        exact ⟨rfl, .inl rfl, .inl rfl⟩
      · next char more found =>
          split at read
          · cases read
          · obtain ⟨⟨argument, after⟩, taken, read⟩ := bind_ok read
            obtain ⟨next, applied, read⟩ := bind_ok read
            have ended : Ended (afterWord (char :: more)) := by
              intro first others shape
              have here := List.head?_dropWhile_not (fun char => !isBlank char) (char :: more)
              rw [← afterWord, shape] at here
              exact here
            obtain ⟨from', suffix⟩ := udp_argument_read ended taken
            have inside : afterWord (char :: more) <:+ rest :=
              (List.dropWhile_suffix _).trans (found ▸ List.dropWhile_suffix _)
            obtain ⟨sameId, host, interface⟩ := udp_apply_frame applied
            obtain ⟨laterId, laterHost, laterInterface⟩ := ih read
            have set (old new last : Str) (one : new = old ∨ argument ≠ [] ∧ new = argument)
                (two : last = new ∨ Argument after last) : last = old ∨ Argument rest last := by
              obtain same | later := two
              · obtain kept | ⟨filled, here⟩ := one
                · exact .inl (same.trans kept)
                · rw [same, here]
                  exact .inr ((from' filled).widen inside)
              · exact .inr (later.widen (suffix.trans inside))
            exact ⟨laterId.trans sameId, set _ _ _ host laterHost,
              set _ _ _ interface laterInterface⟩

variable {letters : Str}

theorem udp_step (plain : Plain letters) (ended : Ended rest) :
    udpRead str (rounds + 1) before (minus :: (letters ++ rest)) =
      udpArgument str rest >>= fun found =>
        udpApply str (minus :: letters) found.1 before >>= fun next =>
          udpRead str rounds next found.2 := by
  have every : ∀ char ∈ minus :: letters, (!isBlank char) = true := by
    intro char inside
    obtain rfl | inside := List.mem_cons.mp inside
    · rfl
    · simp [plain char inside]
  have word : wordOf (minus :: (letters ++ rest)) = minus :: letters := take_while_stops every ended
  have left : afterWord (minus :: letters ++ rest) = rest := drop_while_stops every ended
  have first : (minus :: (letters ++ rest)).dropWhile isBlank = minus :: (letters ++ rest) := rfl
  rw [List.cons_append] at left
  rw [udpRead, first]
  simp only [ne_eq, not_true_eq_false, if_false, word, left]

theorem udp_read_skip :
    udpRead str rounds before (space :: rest) = udpRead str rounds before rest := by
  cases rounds with
  | zero => rfl
  | succ rounds => rfl

theorem udp_argument_bare (bare : Bare value) (filled : value ≠ []) (ended : Ended rest) :
    udpArgument str (space :: (value ++ rest)) = .ok (value, rest) := by
  have every : ∀ char ∈ value, (!isBlank char) = true := by
    intro char inside
    simp [bare.1 char inside]
  obtain ⟨char, more, rfl⟩ := List.exists_cons_of_ne_nil filled
  have word : wordOf (char :: (more ++ rest)) = char :: more := take_while_stops every ended
  have left : afterWord (char :: more ++ rest) = rest := drop_while_stops every ended
  have first : (space :: (char :: more ++ rest)).dropWhile isBlank = char :: (more ++ rest) := by
    have notBlank := bare.1 char List.mem_cons_self
    rw [List.dropWhile_cons_of_pos rfl, List.cons_append,
      List.dropWhile_cons_of_neg (by rw [notBlank]; exact Bool.false_ne_true)]
  have notMinus : char ≠ minus := fun same => bare.2.1 (congrArg some same)
  have notQuote : char ≠ doubleQuote := fun same => bare.2.2 (congrArg some same)
  rw [List.cons_append] at left
  rw [udpArgument, first]
  simp only [if_neg notMinus, if_neg notQuote, word, left]

theorem udp_argument_quoted (none : doubleQuote ∉ value) :
    udpArgument str (space :: doubleQuote :: (value ++ doubleQuote :: rest)) =
      .ok (value, rest) := by
  have every : ∀ char ∈ value, (fun char => decide (char ≠ doubleQuote)) char = true :=
    fun char inside => decide_eq_true fun same => none (same ▸ inside)
  have stops : Stops (fun char => decide (char ≠ doubleQuote)) (doubleQuote :: rest) :=
    stops_cons (by rfl) rest
  have first : (space :: doubleQuote :: (value ++ doubleQuote :: rest)).dropWhile isBlank =
      doubleQuote :: (value ++ doubleQuote :: rest) := rfl
  rw [udpArgument, first]
  simp only [if_neg (by decide : doubleQuote ≠ minus), if_true, take_while_stops every stops,
    drop_while_stops every stops]

theorem udp_bare_read (plain : Plain letters) (bare : Bare value) (filled : value ≠ [])
    (ended : Ended rest) :
    udpRead str (rounds + 1) before (space :: minus :: (letters ++ space :: (value ++ rest))) =
      udpApply str (minus :: letters) value before >>= fun next =>
        udpRead str rounds next rest := by
  rw [udp_read_skip, udp_step plain (stops_cons (by rfl) _), udp_argument_bare bare filled ended]
  rfl

theorem udp_number_read (plain : Plain letters) {z : Int}
    (required : ∀ next, udpApply str (minus :: letters) [] before ≠ .ok next) (ended : Ended rest) :
    udpRead str (rounds + 1) before
        (space :: minus :: (letters ++ space :: (printInt z ++ rest))) = .ok result ↔
      0 ≤ z ∧ (udpApply str (minus :: letters) (decimal z.toNat) before >>= fun next =>
        udpRead str rounds next rest) = .ok result := by
  by_cases positive : 0 ≤ z
  · have shown := print_int_nonneg positive
    have first := decimal_bare z.toNat []
    rw [List.append_nil] at first
    have bare : Bare (decimal z.toNat) := ⟨shown ▸ (print_int_plain z).2, first⟩
    rw [shown, udp_bare_read plain bare (decimal_ne_nil _) ended]
    exact ⟨fun read => ⟨positive, read⟩, fun both => both.2⟩
  · refine ⟨fun read => ?_, fun both => absurd both.1 positive⟩
    rw [printInt, if_pos (by omega), udp_read_skip, udp_step plain (stops_cons (by rfl) _)] at read
    obtain ⟨found, taken, read⟩ := bind_ok read
    cases taken
    obtain ⟨next, applied, -⟩ := bind_ok read
    exact absurd applied (required next)

theorem udp_port_read {port : BitVec 32} (ended : Ended rest) :
    udpRead str (rounds + 1) before (text " -p " ++ (printInt port.toInt ++ rest)) = .ok result ↔
      (0 ≤ port.toInt ∧ port.toInt ≤ 65535) ∧
        udpRead str rounds { before with port := port } rest = .ok result := by
  have bound := BitVec.toInt_lt (x := port)
  have plain : Plain [byte 'p'] := by decide
  rw [show text " -p " ++ (printInt port.toInt ++ rest) =
    space :: minus :: ([byte 'p'] ++ space :: (printInt port.toInt ++ rest)) from rfl,
    udp_number_read plain (fun next applied => by cases applied) ended, and_assoc]
  refine and_congr_right fun positive => ?_
  have read := read_int_decimal (n := port.toInt.toNat) (by omega)
  rw [Int.toNat_of_nonneg positive] at read
  by_cases fits : port.toInt ≤ 65535
  · have inside : ¬(port.toInt < 0 ∨ 65535 < port.toInt) := by omega
    have applied : udpApply str (minus :: [byte 'p']) (decimal port.toInt.toNat) before =
        .ok { before with port := port } := by
      simp only [udpApply, decimal_ne_nil, read, if_neg inside, BitVec.ofInt_toInt]
      rfl
    rw [applied]
    exact ⟨fun read => ⟨fits, read⟩, fun both => both.2⟩
  · have outside : port.toInt < 0 ∨ 65535 < port.toInt := by omega
    refine ⟨fun later => ?_, fun both => absurd both.1 fits⟩
    simp only [udpApply, decimal_ne_nil, read, if_pos outside] at later
    cases later

theorem udp_ttl_read {ttl : BitVec 32} (ended : Ended rest) :
    udpRead str (rounds + 1) before (text " --ttl " ++ (printInt ttl.toInt ++ rest)) = .ok result ↔
      0 ≤ ttl.toInt ∧ udpRead str rounds { before with mcastTtl := ttl } rest = .ok result := by
  have bound := BitVec.toInt_lt (x := ttl)
  have plain : Plain (text "-ttl") := by decide
  rw [show text " --ttl " ++ (printInt ttl.toInt ++ rest) =
    space :: minus :: (text "-ttl" ++ space :: (printInt ttl.toInt ++ rest)) from rfl,
    udp_number_read plain (fun next applied => by cases applied) ended]
  refine and_congr_right fun positive => ?_
  have read := read_int_decimal (n := ttl.toInt.toNat) (by omega)
  rw [Int.toNat_of_nonneg positive] at read
  have applied : udpApply str (minus :: text "-ttl") (decimal ttl.toInt.toNat) before =
      .ok { before with mcastTtl := ttl } := by
    simp only [udpApply, decimal_ne_nil, read, BitVec.ofInt_toInt]
    rfl
  rw [applied]
  rfl

theorem udp_interface_read (bare : Bare value) (filled : value ≠ []) (ended : Ended rest) :
    udpRead str (rounds + 1) before (text " --interface " ++ (value ++ rest)) =
      udpRead str rounds { before with mcastInterface := value } rest := by
  have plain : Plain (text "-interface") := by decide
  have applied : udpApply str (minus :: text "-interface") value before =
      .ok { before with mcastInterface := value } := by
    simp only [udpApply, if_neg filled]
    rfl
  rw [show text " --interface " ++ (value ++ rest) =
    space :: minus :: (text "-interface" ++ space :: (value ++ rest)) from rfl,
    udp_bare_read plain bare filled ended, applied]
  rfl

theorem ended_flags (endpoint : UdpEndpoint) : Ended (udpFlags endpoint) := by
  unfold udpFlags
  cases endpoint.connect <;> cases endpoint.compress <;>
    first | exact stops_nil _ | exact stops_cons (by rfl) _

theorem ended_numbers (endpoint : UdpEndpoint) : Ended (udpNumbers endpoint) := by
  unfold udpNumbers
  split
  · exact ended_flags endpoint
  · exact stops_cons (by rfl) _

theorem ended_tail (endpoint : UdpEndpoint) : Ended (udpTail endpoint) := by
  unfold udpTail
  split
  · exact ended_numbers endpoint
  · exact stops_cons (by rfl) _

variable {endpoint : UdpEndpoint}

theorem udp_numbers_read (host : Str) (port : BitVec 32) (interface : Str) :
    udpRead str (rounds + 4) ⟨host, port, interface, -1, false, [], false⟩ (udpNumbers endpoint) =
        .ok result ↔
      -1 ≤ endpoint.mcastTtl.toInt ∧ result =
        ⟨host, port, interface, endpoint.mcastTtl, endpoint.connect, [], endpoint.compress⟩ := by
  have flags (rounds : Nat) (ttl : BitVec 32) :
      udpRead str (rounds + 3) ⟨host, port, interface, ttl, false, [], false⟩ (udpFlags endpoint) =
        .ok ⟨host, port, interface, ttl, endpoint.connect, [], endpoint.compress⟩ := by
    unfold udpFlags
    cases endpoint.connect <;> cases endpoint.compress <;> rfl
  unfold udpNumbers
  by_cases unset : endpoint.mcastTtl.toInt = -1
  · have same : endpoint.mcastTtl = -1 := BitVec.toInt_inj.mp unset
    rw [if_pos unset, List.nil_append, flags (rounds + 1), same]
    exact ⟨fun read => ⟨by decide, (Except.ok.inj read).symm⟩, fun both => by rw [both.2]⟩
  · rw [if_neg unset, List.append_assoc, udp_ttl_read (ended_flags endpoint), flags]
    exact and_congr (by omega) ⟨fun read => (Except.ok.inj read).symm, fun same => by rw [same]⟩

theorem udp_tail_read (bare : Bare endpoint.mcastInterface) (host : Str) (port : BitVec 32) :
    udpRead str (rounds + 5) ⟨host, port, [], -1, false, [], false⟩ (udpTail endpoint) =
        .ok result ↔
      -1 ≤ endpoint.mcastTtl.toInt ∧
        result = { endpoint with host := host, port := port, connectionId := [] } := by
  unfold udpTail
  by_cases none : endpoint.mcastInterface = []
  · rw [if_pos none, List.nil_append, udp_numbers_read, none]
  · rw [if_neg none, List.append_assoc, udp_interface_read bare none (ended_numbers endpoint),
      udp_numbers_read]

theorem rest_calm (interface : Calm endpoint.mcastInterface) :
    Calm (udpRest endpoint) := by
  have number (z : Int) : Calm (printInt z) := by
    apply calm_of_not_mem
    intro inside
    unfold printInt at inside
    split at inside
    · obtain first | digit := List.mem_cons.mp inside
      · cases first
      · exact (digit_plain (decimal_digits _ _ digit)).2.1 rfl
    · exact (digit_plain (decimal_digits _ _ inside)).2.1 rfl
  have literal {part : Str} (none : doubleQuote ∉ part) := calm_of_not_mem none
  have flags : Calm (udpFlags endpoint) := by
    unfold udpFlags
    cases endpoint.connect <;> cases endpoint.compress <;> exact literal (by decide)
  refine (literal (by decide)).append ((number _).append (Calm.append ?_ (Calm.append ?_ flags)))
  · split
    · exact literal (by decide)
    · exact (literal (by decide)).append interface
  · split
    · exact literal (by decide)
    · exact (literal (by decide)).append (number _)

theorem rest_bare (none : before.mcastInterface = [])
    (read : udpRead str rounds before (udpRest endpoint) = .ok result)
    (same : result.mcastInterface = endpoint.mcastInterface) : Bare endpoint.mcastInterface := by
  obtain kept | ⟨-, bare | ⟨free, quoted⟩⟩ := (udp_read_found read).2.2
  · rw [← same, kept, none]
    exact bare_nil
  · rwa [← same]
  · rw [same] at free
    exact absurd (rest_calm (calm_of_not_mem free)).unquoted quoted

theorem rest_read (bare : Bare endpoint.mcastInterface) (host : Str) :
    udpRead str (rounds + 6) ⟨host, 0, [], -1, false, [], false⟩ (udpRest endpoint) = .ok result ↔
      (0 ≤ endpoint.port.toInt ∧ endpoint.port.toInt ≤ 65535) ∧ -1 ≤ endpoint.mcastTtl.toInt ∧
        result = { endpoint with host := host, connectionId := [] } := by
  rw [udpRest, udp_port_read (ended_tail endpoint), udp_tail_read bare]

def Shown (host : Str) : Prop :=
  (colon ∈ host → doubleQuote ∉ host) ∧ (colon ∉ host → Bare host)

theorem udp_host_read {host : Str} (filled : host ≠ []) (shown : Shown host) (ended : Ended rest) :
    udpRead str (rounds + 1) before (text " -h " ++ shownHost host ++ rest) =
      udpRead str rounds { before with host := host } rest := by
  have plain : Plain [byte 'h'] := by decide
  have applied : udpApply str (minus :: [byte 'h']) host before =
      .ok { before with host := host } := by
    simp only [udpApply, if_neg filled]
    rfl
  by_cases quoted : colon ∈ host
  · have string : text " -h " ++ shownHost host ++ rest =
        space :: minus ::
          ([byte 'h'] ++ space :: doubleQuote :: (host ++ doubleQuote :: rest)) := by
      rw [shownHost, if_pos quoted, List.append_assoc, List.cons_append, List.append_assoc]
      rfl
    rw [string, udp_read_skip, udp_step plain (stops_cons (by rfl) _),
      udp_argument_quoted (shown.1 quoted)]
    simp only [bind, Except.bind, applied]
  · rw [shownHost, if_neg quoted, List.append_assoc, show text " -h " ++ (host ++ rest) =
      space :: minus :: ([byte 'h'] ++ space :: (host ++ rest)) from rfl,
      udp_bare_read plain (shown.2 quoted) filled ended, applied]
    rfl

theorem udp_apply_known (applied : udpApply str option argument before = .ok next) :
    option.getLast? ≠ some doubleQuote := by
  intro last
  have other {name : Str} (known : name.getLast? ≠ some doubleQuote) : option ≠ name :=
    fun same => known (same ▸ last)
  rw [udpApply, if_neg (other (by decide)), if_neg (other (by decide)), if_neg (other (by decide)),
    if_neg (other (by decide)), if_neg (not_or.mpr ⟨other (by decide), other (by decide)⟩),
    if_neg (other (by decide)), if_neg (other (by decide))] at applied
  cases applied

theorem udp_stuck {back : Str} (plain : Plain back) (ended : Ended rest) :
    udpRead str (rounds + 1) before (back ++ doubleQuote :: rest) ≠ .ok result := by
  intro read
  have shape : back ++ doubleQuote :: rest = (back ++ [doubleQuote]) ++ rest := by simp
  have last : (back ++ [doubleQuote]).getLast? = some doubleQuote := List.getLast?_concat
  have plain : Plain (back ++ [doubleQuote]) := by
    intro char inside
    obtain here | end' := List.mem_append.mp inside
    · exact plain char here
    · rw [List.mem_singleton.mp end']
      rfl
  rw [shape] at read
  cases word : back ++ [doubleQuote] with
  | nil => exact absurd word (by simp)
  | cons char letters =>
      rw [word] at read last plain
      by_cases option : char = minus
      · subst option
        have later : Plain letters := fun other inside =>
          plain other (List.mem_cons_of_mem minus inside)
        rw [List.cons_append, udp_step later ended] at read
        obtain ⟨_, _, read⟩ := bind_ok read
        obtain ⟨_, applied, _⟩ := bind_ok read
        exact udp_apply_known applied last
      · have notBlank := plain char List.mem_cons_self
        rw [List.cons_append, udpRead,
          List.dropWhile_cons_of_neg (by rw [notBlank]; exact Bool.false_ne_true)] at read
        simp only [ne_eq, option, not_false_eq_true, if_true] at read
        cases read

theorem udp_host_inv (filled : endpoint.host ≠ [])
    (fresh : before.host = [] ∧ before.mcastInterface = [])
    (read : udpRead str (rounds + 2) before
      (text " -h " ++ shownHost endpoint.host ++ udpRest endpoint) = .ok result)
    (interface : result.mcastInterface = endpoint.mcastInterface) :
    result.host ≠ [] ∧ (result.host = endpoint.host → Shown endpoint.host) := by
  obtain ⟨-, host, wire⟩ := udp_read_found read
  have step := read
  rw [show text " -h " ++ shownHost endpoint.host ++ udpRest endpoint =
    space :: minus ::
      ([byte 'h'] ++ space :: (shownHost endpoint.host ++ udpRest endpoint)) from rfl,
    udp_read_skip, udp_step (by decide) (stops_cons (by rfl) _)] at step
  obtain ⟨⟨argument, after⟩, taken, step⟩ := bind_ok step
  obtain ⟨next, applied, later⟩ := bind_ok step
  have set : next.host ≠ [] := by
    by_cases none : argument = []
    · rw [none] at applied
      cases applied
    · simp only [udpApply, if_neg none] at applied
      cases applied
      exact none
  refine ⟨?_, fun same => ⟨fun quoted inside => ?_, fun unquoted => ?_⟩⟩
  · obtain kept | ⟨some, _⟩ := (udp_read_found later).2.1
    · rwa [kept]
    · exact some
  · obtain ⟨front, back, split, free⟩ := List.eq_append_cons_of_mem inside
    have plain : Plain endpoint.host := by
      obtain none | ⟨_, bare | ⟨free, _⟩⟩ := host
      · exact absurd (same.symm.trans (none.trans fresh.1)) filled
      · exact same ▸ bare.1
      · exact absurd inside (same ▸ free)
    have string : shownHost endpoint.host ++ udpRest endpoint =
        doubleQuote :: (front ++ doubleQuote :: (back ++ doubleQuote :: udpRest endpoint)) := by
      rw [shownHost, if_pos quoted, split]
      simp
    rw [string, udp_argument_quoted free] at taken
    cases taken
    refine udp_stuck (fun char member => plain char ?_) (stops_cons (by rfl) _) later
    rw [split]
    simp [member]
  · obtain none | ⟨_, bare | ⟨free, start⟩⟩ := host
    · exact absurd (same.symm.trans (none.trans fresh.1)) filled
    · exact same ▸ bare
    · have calm : Calm endpoint.mcastInterface := by
        rw [← interface]
        obtain none | ⟨_, bare | ⟨free, _⟩⟩ := wire
        · rw [none, fresh.2]
          exact bare_nil.calm
        · exact bare.calm
        · exact calm_of_not_mem free
      rw [same] at free
      rw [shownHost, if_neg unquoted] at start
      exact absurd (((calm_of_not_mem (by decide)).append (calm_of_not_mem free)).append
        (rest_calm calm)).unquoted start

structure UdpReadable (defaultHost : Str) (endpoint : UdpEndpoint) : Prop where
  shown : Shown endpoint.host
  default : endpoint.host = [] → defaultHost = []
  wildcard : endpoint.host ≠ [star]
  port : 0 ≤ endpoint.port.toInt ∧ endpoint.port.toInt ≤ 65535
  interface : Bare endpoint.mcastInterface
  ttl : -1 ≤ endpoint.mcastTtl.toInt
  connectionId : endpoint.connectionId = []

theorem udp_options_read :
    udpRead str ((udpOptions endpoint).length + 1) ⟨[], 0, [], -1, false, [], false⟩
        (udpOptions endpoint) = .ok result ∧
      result.mcastInterface = endpoint.mcastInterface ∧
        (endpoint.host ≠ [] → result.host ≠ [] → result.host = endpoint.host) ↔
    (Shown endpoint.host ∧ Bare endpoint.mcastInterface) ∧
      (0 ≤ endpoint.port.toInt ∧ endpoint.port.toInt ≤ 65535) ∧ -1 ≤ endpoint.mcastTtl.toInt ∧
        result = { endpoint with connectionId := [] } := by
  have long : 5 ≤ (udpRest endpoint).length := by
    have number := List.length_pos_iff.mpr (print_int_plain endpoint.port.toInt).1
    have mark : (text " -p ").length = 4 := rfl
    rw [udpRest, List.length_append, List.length_append]
    omega
  unfold udpOptions
  by_cases none : endpoint.host = []
  · obtain ⟨rounds, fuel⟩ : ∃ rounds, (udpRest endpoint).length + 1 = rounds + 6 :=
      ⟨_, (Nat.sub_add_cancel (by omega)).symm⟩
    have shown : Shown endpoint.host := by
      rw [none]
      exact ⟨nofun, fun _ => bare_nil⟩
    rw [if_pos none, List.nil_append, fuel]
    constructor
    · rintro ⟨read, interface, -⟩
      have bare := rest_bare rfl read interface
      obtain ⟨port, ttl, same⟩ := (rest_read bare []).mp read
      refine ⟨⟨shown, bare⟩, port, ttl, same.trans ?_⟩
      rw [← none]
    · rintro ⟨⟨-, bare⟩, port, ttl, rfl⟩
      refine ⟨(rest_read bare []).mpr ⟨port, ttl, ?_⟩, rfl, fun some => absurd none some⟩
      rw [← none]
  · obtain ⟨rounds, fuel⟩ : ∃ rounds, (text " -h " ++ shownHost endpoint.host ++
        udpRest endpoint).length + 1 = rounds + 7 := by
      refine ⟨_, (Nat.sub_add_cancel ?_).symm⟩
      have mark : (text " -h ").length = 4 := rfl
      rw [List.length_append, List.length_append]
      omega
    have ended : Ended (udpRest endpoint) := stops_cons (by rfl) _
    rw [if_neg none, fuel]
    constructor
    · rintro ⟨read, interface, host⟩
      obtain ⟨some, shown⟩ := udp_host_inv none ⟨rfl, rfl⟩ read interface
      have shown := shown (host none some)
      rw [udp_host_read none shown ended] at read
      have bare := rest_bare rfl read interface
      exact ⟨⟨shown, bare⟩, (rest_read bare _).mp read⟩
    · rintro ⟨⟨shown, bare⟩, port, ttl, rfl⟩
      refine ⟨?_, rfl, fun _ _ => rfl⟩
      rw [udp_host_read none shown ended]
      exact (rest_read bare _).mpr ⟨port, ttl, rfl⟩

theorem udp_string_iff (defaultHost : Str) (endpoint : UdpEndpoint) (oaEndpoint : Bool) :
    udpCreate defaultHost (udpOptions endpoint) oaEndpoint = .ok endpoint ↔
      UdpReadable defaultHost endpoint := by
  constructor
  · intro created
    obtain ⟨found, read, created⟩ := bind_ok created
    have known : found.mcastInterface = endpoint.mcastInterface ∧
        (endpoint.host ≠ [] → found.host ≠ [] → found.host = endpoint.host) ∧
        found.connectionId = endpoint.connectionId := by
      split at created
      · next none =>
          cases created
          exact ⟨rfl, fun _ some => absurd none some, rfl⟩
      · split at created
        · split at created
          · cases created
            exact ⟨rfl, fun some => absurd rfl some, rfl⟩
          · cases created
        · cases created
          exact ⟨rfl, fun _ _ => rfl, rfl⟩
    obtain ⟨⟨shown, bare⟩, port, ttl, rfl⟩ := udp_options_read.mp ⟨read, known.1, known.2.1⟩
    refine ⟨shown, fun none => ?_, fun wild => ?_, port, bare, ttl, known.2.2.symm⟩
    · simp only [none, if_true] at created
      exact (congrArg UdpEndpoint.host (Except.ok.inj created)).trans none
    · simp only [wild, List.cons_ne_nil, if_false, if_true] at created
      split at created
      · have empty := congrArg UdpEndpoint.host (Except.ok.inj created)
        rw [wild] at empty
        cases empty
      · cases created
  · intro readable
    have read : udpRead (udpOptions endpoint) ((udpOptions endpoint).length + 1)
        ⟨[], 0, [], -1, false, [], false⟩ (udpOptions endpoint) =
          .ok { endpoint with connectionId := [] } :=
      (udp_options_read.mpr ⟨⟨readable.shown, readable.interface⟩, readable.port, readable.ttl,
        rfl⟩).1
    have same : { endpoint with connectionId := [] } = endpoint := by rw [← readable.connectionId]
    rw [udpCreate, read, same]
    simp only [bind, Except.bind, if_neg readable.wildcard]
    split
    · next none => rw [readable.default none, ← none]
    · rfl

/-- An endpoint of each class is read back from its string exactly when it is readable. -/
theorem endpoint_strings_iff (defaultHost : Str) (oaEndpoint : Bool) :
    (∀ endpoint : TcpEndpoint,
      tcpCreate defaultHost (endpoint.toString.drop 3) oaEndpoint = .ok endpoint ↔
        TcpReadable defaultHost endpoint) ∧
      (∀ endpoint : UdpEndpoint,
        udpCreate defaultHost ((udpToString endpoint).drop 3) oaEndpoint = .ok endpoint ↔
          UdpReadable defaultHost endpoint) ∧
      ∀ endpoint : OpaqueEndpoint,
        OpaqueEndpoint.create (endpoint.toString.drop 6) = .ok endpoint ↔ endpoint.Readable := by
  refine ⟨fun endpoint => ?_, fun endpoint => udp_string_iff defaultHost endpoint oaEndpoint,
    opaque_string_iff⟩
  rw [to_string_words]
  exact tcp_string_iff defaultHost endpoint oaEndpoint

/-- The base 64 of 58 bytes has a second line. -/
theorem opaque_long_lost :
    OpaqueEndpoint.create (OpaqueEndpoint.options ⟨99, ⟨1, 0⟩, List.replicate 58 0⟩) ≠
      .ok ⟨99, ⟨1, 0⟩, List.replicate 58 0⟩ := by
  intro created
  have short := ((opaque_string_iff _).mp created).short
  rw [List.length_replicate] at short
  omega

end IceTouch.Proxies
