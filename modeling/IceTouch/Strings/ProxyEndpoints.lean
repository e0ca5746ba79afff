import IceTouch.Strings.ProxyOptions

/-!
# TCP endpoints in stringified proxies

The string of a TCP endpoint is a list of words. The host is written as it is, or in double
quotes when it has a colon, so it is read back only when it looks like one word and neither
like an option nor like a quoted argument.
-/

namespace IceTouch.Proxies

open Bytes WireTypes Escape Scanning Results

variable {ω : Type}

def Plain (s : Str) : Prop := ∀ char ∈ s, isBlank char = false

instance (s : Str) : Decidable (Plain s) :=
  inferInstanceAs (Decidable (∀ char ∈ s, isBlank char = false))

/-- The host as `toString` writes it. -/
def shownHost (host : Str) : Str :=
  if colon ∈ host then doubleQuote :: (host ++ [doubleQuote]) else host

def TcpEndpoint.hostWords (endpoint : TcpEndpoint) : List Str :=
  if endpoint.host = [] then [] else [text "-h", shownHost endpoint.host]

def TcpEndpoint.tailWords (endpoint : TcpEndpoint) : List Str :=
  [text "-p", printInt endpoint.port.toInt] ++
    (if endpoint.timeout.toInt = -1 then [] else [text "-t", printInt endpoint.timeout.toInt]) ++
    if endpoint.compress then [text "-z"] else []

def TcpEndpoint.words (endpoint : TcpEndpoint) : List Str :=
  endpoint.hostWords ++ endpoint.tailWords

theorem to_string_words (endpoint : TcpEndpoint) :
    endpoint.toString = text "tcp" ++ endpoint.words.flatMap (space :: ·) := by
  have port : text " -p " = space :: (text "-p" ++ [space]) := rfl
  have timeout : text " -t " = space :: (text "-t" ++ [space]) := rfl
  have compress : text " -z" = space :: text "-z" := rfl
  have host : text " -h " = space :: (text "-h" ++ [space]) := rfl
  unfold TcpEndpoint.toString TcpEndpoint.words TcpEndpoint.hostWords TcpEndpoint.tailWords
    shownHost
  rw [port, timeout, compress, host]
  by_cases noHost : endpoint.host = [] <;> by_cases forever : endpoint.timeout.toInt = -1 <;>
    cases endpoint.compress <;> simp [noHost, forever]

theorem digit_not_blank {char : Byte} (digit : isDigit char = true) : isBlank char = false :=
  (not_separator (digit_plain digit).1).1

theorem print_int_plain (z : Int) : printInt z ≠ [] ∧ Plain (printInt z) := by
  unfold printInt
  split
  · refine ⟨List.cons_ne_nil _ _, ?_⟩
    intro char inside
    obtain rfl | digit := List.mem_cons.mp inside
    · rfl
    · exact digit_not_blank (decimal_digits _ char digit)
  · exact ⟨decimal_ne_nil _, fun char inside => digit_not_blank (decimal_digits _ char inside)⟩

theorem shown_plain {host : Str} (some : host ≠ []) (plain : Plain host) :
    shownHost host ≠ [] ∧ Plain (shownHost host) := by
  unfold shownHost
  split
  · refine ⟨List.cons_ne_nil _ _, ?_⟩
    intro char inside
    obtain rfl | inside := List.mem_cons.mp inside
    · rfl
    · obtain here | last := List.mem_append.mp inside
      · exact plain char here
      · rw [List.mem_singleton.mp last]
        rfl
  · exact ⟨some, plain⟩

variable {endpoint result : TcpEndpoint} {str : Str} {instance' : Instance ω}

theorem words_readable (plain : Plain endpoint.host) :
    ∀ word ∈ endpoint.words, word ≠ [] ∧ ∀ char ∈ word, isBlank char = false := by
  intro word inside
  have option (letter : Char) (notBlank : isBlank (byte letter) = false) :
      [minus, byte letter] ≠ [] ∧ ∀ char ∈ [minus, byte letter], isBlank char = false := by
    refine ⟨List.cons_ne_nil _ _, ?_⟩
    intro char member
    obtain rfl | member := List.mem_cons.mp member
    · rfl
    · rw [List.mem_singleton.mp member]
      exact notBlank
  obtain host | tail := List.mem_append.mp inside
  · unfold TcpEndpoint.hostWords at host
    split at host
    · cases host
    · next some =>
        obtain rfl | host := List.mem_cons.mp host
        · exact option 'h' rfl
        · rw [List.mem_singleton.mp host]
          exact shown_plain some plain
  · obtain front | compress := List.mem_append.mp tail
    · obtain port | timeout := List.mem_append.mp front
      · obtain rfl | port := List.mem_cons.mp port
        · exact option 'p' rfl
        · rw [List.mem_singleton.mp port]
          exact print_int_plain _
      · split at timeout
        · cases timeout
        · obtain rfl | timeout := List.mem_cons.mp timeout
          · exact option 't' rfl
          · rw [List.mem_singleton.mp timeout]
            exact print_int_plain _
    · split at compress
      · rw [List.mem_singleton.mp compress]
        exact option 'z' rfl
      · cases compress

variable {word option : Str} {letter : Byte} {before : TcpEndpoint}

theorem strip_head (bare : word.head? ≠ some doubleQuote) : stripQuotes word = word := by
  rw [stripQuotes, if_neg fun quoted => bare quoted.1]

theorem strip_mem (word : Str) : ∀ char ∈ stripQuotes word, char ∈ word := by
  intro char inside
  unfold stripQuotes at inside
  split at inside
  · exact List.mem_of_mem_tail ((List.dropLast_sublist _).subset inside)
  · exact inside

/-- The host is read back from the word it was written as, unless it looks like a quoted
argument. -/
theorem strip_shown (host : Str) : stripQuotes (shownHost host) = host ↔
    (colon ∈ host ∨ ¬(host.head? = some doubleQuote ∧ host.getLast? = some doubleQuote)) := by
  by_cases hasColon : colon ∈ host
  · have quoted : stripQuotes (doubleQuote :: (host ++ [doubleQuote])) = host := by
      rw [stripQuotes, if_pos ⟨rfl, by rw [← List.cons_append, List.getLast?_concat]⟩,
        List.tail_cons, List.dropLast_concat]
    rw [shownHost, if_pos hasColon]
    exact ⟨fun _ => .inl hasColon, fun _ => quoted⟩
  · rw [shownHost, if_neg hasColon]
    by_cases looks : host.head? = some doubleQuote ∧ host.getLast? = some doubleQuote
    · refine ⟨fun same => ?_, fun either => ?_⟩
      · rw [stripQuotes, if_pos looks] at same
        have long := congrArg List.length same
        cases host with
        | nil => cases looks.1
        | cons first rest =>
            simp only [List.tail_cons, List.length_dropLast, List.length_cons] at long
            omega
      · obtain has | other := either
        · exact absurd has hasColon
        · exact absurd looks other
    · rw [stripQuotes, if_neg looks]
      exact ⟨fun _ => .inr looks, fun _ => rfl⟩

theorem read_required (needs : letter ∈ [byte 'h', byte 'p', byte 't']) {more : List Str}
    (read : endpoint.readOptions str ([minus, letter] :: word :: more) = .ok result) :
    word.head? ≠ some minus ∧ ∃ next,
      endpoint.apply str [minus, letter] letter (stripQuotes word) = .ok next ∧
      next.readOptions str more = .ok result := by
  rw [TcpEndpoint.readOptions, optionLetter, if_pos rfl] at read
  simp only at read
  split at read
  · obtain ⟨next, applied, _⟩ := bind_ok read
    simp only [List.mem_cons, List.not_mem_nil, or_false] at needs
    obtain rfl | rfl | rfl := needs <;> cases applied
  · next notOption => exact ⟨notOption, bind_ok read⟩

theorem read_argument {next : TcpEndpoint} (notOption : word.head? ≠ some minus) (more : List Str)
    (applied : endpoint.apply str [minus, letter] letter (stripQuotes word) = .ok next) :
    endpoint.readOptions str ([minus, letter] :: word :: more) = next.readOptions str more := by
  rw [TcpEndpoint.readOptions, optionLetter, if_pos rfl]
  simp only
  rw [if_neg notOption, applied]
  rfl

variable {argument : Str}

theorem apply_host (str option : Str) (endpoint : TcpEndpoint) :
    argument ≠ [] → endpoint.apply str option (byte 'h') argument =
      .ok { endpoint with host := argument } := by
  intro some
  rw [TcpEndpoint.apply, if_pos rfl, if_neg some]

theorem apply_port :
    endpoint.apply str option (byte 'p') argument = .ok result ↔
      argument ≠ [] ∧ ∃ port, readInt argument = some port ∧ 0 ≤ port ∧ port ≤ 65535 ∧
        result = { endpoint with port := BitVec.ofInt 32 port } := by
  unfold TcpEndpoint.apply
  rw [if_neg (by decide), if_pos rfl]
  constructor
  · intro applied
    split at applied
    · cases applied
    · next some' =>
        split at applied
        · cases applied
        · next port read =>
            split at applied
            · cases applied
            · next inside =>
                cases applied
                exact ⟨some', port, read, by omega, by omega, rfl⟩
  · rintro ⟨some', port, read, low, high, rfl⟩
    have inside : ¬(port < 0 ∨ 65535 < port) := by omega
    simp only [if_neg some', read, if_neg inside]

theorem apply_timeout :
    endpoint.apply str option (byte 't') argument = .ok result ↔
      argument ≠ [] ∧ ∃ timeout, readInt argument = some timeout ∧
        result = { endpoint with timeout := BitVec.ofInt 32 timeout } := by
  unfold TcpEndpoint.apply
  rw [if_neg (by decide), if_neg (by decide), if_pos rfl]
  constructor
  · intro applied
    split at applied
    · cases applied
    · next some' =>
        split at applied
        · cases applied
        · next timeout read =>
            cases applied
            exact ⟨some', timeout, read, rfl⟩
  · rintro ⟨some', timeout, read, rfl⟩
    simp only [if_neg some', read]

theorem print_int_nonneg {z : Int} (positive : 0 ≤ z) : printInt z = decimal z.toNat := by
  have same : z.natAbs = z.toNat := by omega
  rw [printInt, if_neg (by omega), same]

theorem decimal_bare (n : Nat) (more : Str) : (decimal n ++ more).head? ≠ some minus ∧
    (decimal n ++ more).head? ≠ some doubleQuote := by
  cases shape : decimal n with
  | nil => exact absurd shape (decimal_ne_nil n)
  | cons first rest =>
      have inside : first ∈ decimal n := by
        rw [shape]
        exact List.mem_cons_self
      have plain := digit_plain (decimal_digits n first inside)
      refine ⟨fun same => ?_, fun same => ?_⟩
      · exact plain.2.2.2.2.2 (Option.some.inj same)
      · exact plain.2.1 (Option.some.inj same)

theorem read_number (value : BitVec 32) (positive : 0 ≤ value.toInt) :
    (printInt value.toInt).head? ≠ some minus ∧ stripQuotes (printInt value.toInt) ≠ [] ∧
      readInt (stripQuotes (printInt value.toInt)) = some value.toInt := by
  have bound := BitVec.toInt_lt (x := value)
  have bare := decimal_bare value.toInt.toNat []
  rw [List.append_nil] at bare
  have fits : value.toInt.toNat < 2 ^ 31 := by omega
  have read := read_int_decimal fits
  have same : ((value.toInt.toNat : Nat) : Int) = value.toInt := by omega
  rw [print_int_nonneg positive, strip_head bare.2]
  rw [same] at read
  exact ⟨bare.1, decimal_ne_nil _, read⟩

theorem read_tail (str : Str) (port : 0 ≤ endpoint.port.toInt ∧ endpoint.port.toInt ≤ 65535)
    (timeout : -1 ≤ endpoint.timeout.toInt) (forever : before.timeout = -1)
    (plain : before.compress = false) :
    before.readOptions str endpoint.tailWords = .ok { before with
      port := endpoint.port, timeout := endpoint.timeout, compress := endpoint.compress } := by
  obtain ⟨portWord, portSome, portRead⟩ := read_number endpoint.port port.1
  have portApplied : before.apply str [minus, byte 'p'] (byte 'p')
      (stripQuotes (printInt endpoint.port.toInt)) = .ok { before with port := endpoint.port } := by
    apply apply_port.mpr
    refine ⟨portSome, _, portRead, port.1, port.2, ?_⟩
    rw [BitVec.ofInt_toInt]
  have portStep (more : List Str) := read_argument portWord more portApplied
  have lastStep (next : TcpEndpoint) (bare : next.compress = false) :
      next.readOptions str (if endpoint.compress then [text "-z"] else []) =
        .ok { next with compress := endpoint.compress } := by
    cases endpoint.compress with
    | true => rfl
    | false =>
        obtain ⟨host, port, timeout, connectionId, compress⟩ := next
        cases bare
        rfl
  have option : text "-p" = [minus, byte 'p'] := rfl
  have timeoutOption : text "-t" = [minus, byte 't'] := rfl
  unfold TcpEndpoint.tailWords
  by_cases infinite : endpoint.timeout.toInt = -1
  · have same : endpoint.timeout = before.timeout := by
      rw [forever]
      exact BitVec.toInt_inj.mp infinite
    rw [if_pos infinite, List.append_nil, option, List.cons_append, List.singleton_append,
      portStep, lastStep { before with port := endpoint.port } plain, same]
  · obtain ⟨timeoutWord, timeoutSome, timeoutRead⟩ :=
      read_number endpoint.timeout (by omega)
    have timeoutApplied : ({ before with port := endpoint.port } : TcpEndpoint).apply str
        [minus, byte 't'] (byte 't') (stripQuotes (printInt endpoint.timeout.toInt)) =
        .ok { before with port := endpoint.port, timeout := endpoint.timeout } := by
      apply apply_timeout.mpr
      refine ⟨timeoutSome, _, timeoutRead, ?_⟩
      rw [BitVec.ofInt_toInt]
    rw [if_neg infinite, option, timeoutOption, List.append_assoc, List.cons_append,
      List.cons_append, List.nil_append, portStep, List.cons_append, List.cons_append,
      List.nil_append, read_argument timeoutWord _ timeoutApplied,
      lastStep { before with port := endpoint.port, timeout := endpoint.timeout } plain]

theorem print_int_strip {z : Int} (more : Str)
    (notOption : (printInt z ++ more).head? ≠ some minus) :
    0 ≤ z ∧ stripQuotes (printInt z ++ more) = decimal z.toNat ++ more := by
  have positive : 0 ≤ z := by
    by_contra negative
    apply notOption
    rw [printInt, if_pos (by omega)]
    rfl
  refine ⟨positive, ?_⟩
  rw [print_int_nonneg positive]
  exact strip_head (decimal_bare z.toNat more).2

theorem tail_read (read : before.readOptions str endpoint.tailWords = .ok result) :
    (0 ≤ endpoint.port.toInt ∧ endpoint.port.toInt ≤ 65535) ∧ -1 ≤ endpoint.timeout.toInt := by
  have option : text "-p" = [minus, byte 'p'] := rfl
  have timeoutOption : text "-t" = [minus, byte 't'] := rfl
  unfold TcpEndpoint.tailWords at read
  rw [option, List.append_assoc, List.cons_append, List.cons_append, List.nil_append] at read
  obtain ⟨portWord, next, applied, later⟩ := read_required (by decide) read
  have shown := print_int_strip (z := endpoint.port.toInt) []
    (by rwa [List.append_nil])
  rw [List.append_nil, List.append_nil] at shown
  obtain ⟨_, port, portRead, low, high, _⟩ := apply_port.mp applied
  have portBound := BitVec.toInt_lt (x := endpoint.port)
  have portFits : endpoint.port.toInt.toNat < 2 ^ 31 := by omega
  rw [shown.2, read_int_decimal portFits] at portRead
  have same : port = endpoint.port.toInt := by
    have value := Option.some.inj portRead
    omega
  refine ⟨by omega, ?_⟩
  by_cases infinite : endpoint.timeout.toInt = -1
  · omega
  · rw [if_neg infinite, timeoutOption, List.cons_append, List.cons_append,
      List.nil_append] at later
    obtain ⟨timeoutWord, _⟩ := read_required (by decide) later
    have timeoutShown := print_int_strip (z := endpoint.timeout.toInt) []
      (by rwa [List.append_nil])
    omega

theorem apply_kept (applied : endpoint.apply str option letter argument = .ok result) :
    (result.host = endpoint.host ∨ argument ≠ [] ∧ result.host = argument) ∧
      result.connectionId = endpoint.connectionId := by
  by_cases host : letter = byte 'h'
  · subst host
    by_cases none : argument = []
    · rw [none] at applied
      cases applied
    · rw [apply_host str option endpoint none] at applied
      cases applied
      exact ⟨.inr ⟨none, rfl⟩, rfl⟩
  by_cases port : letter = byte 'p'
  · subst port
    obtain ⟨_, _, _, _, _, rfl⟩ := apply_port.mp applied
    exact ⟨.inl rfl, rfl⟩
  by_cases timeout : letter = byte 't'
  · subst timeout
    obtain ⟨_, _, _, rfl⟩ := apply_timeout.mp applied
    exact ⟨.inl rfl, rfl⟩
  rw [TcpEndpoint.apply, if_neg host, if_neg port, if_neg timeout] at applied
  split at applied
  · split at applied
    · cases applied
    · cases applied
      exact ⟨.inl rfl, rfl⟩
  · cases applied

theorem read_kept {p : Str → Prop} {list : List Str}
    (each : ∀ word ∈ list, stripQuotes word ≠ [] → p (stripQuotes word))
    (host : p endpoint.host) (read : endpoint.readOptions str list = .ok result) :
    p result.host ∧ result.connectionId = endpoint.connectionId := by
  have set {before after : TcpEndpoint} {option argument : Str} {letter : Byte}
      (fine : argument ≠ [] → p argument) (host : p before.host)
      (applied : before.apply str option letter argument = .ok after) :
      p after.host ∧ after.connectionId = before.connectionId := by
    obtain ⟨same | ⟨some, here⟩, id⟩ := apply_kept applied
    · exact ⟨same ▸ host, id⟩
    · exact ⟨here ▸ fine some, id⟩
  induction endpoint, list using TcpEndpoint.readOptions.induct with
  | case1 endpoint =>
      cases read
      exact ⟨host, rfl⟩
  | case2 endpoint option none =>
      rw [TcpEndpoint.readOptions, none] at read
      cases read
  | case3 endpoint option letter some =>
      rw [TcpEndpoint.readOptions, some] at read
      exact set (fun filled => absurd rfl filled) host read
  | case4 endpoint option word more none =>
      rw [TcpEndpoint.readOptions, none] at read
      cases read
  | case5 endpoint option word more letter some isOption ih =>
      rw [TcpEndpoint.readOptions, some] at read
      simp only [if_pos isOption] at read
      obtain ⟨next, applied, later⟩ := bind_ok read
      obtain ⟨kept, id⟩ := set (fun filled => absurd rfl filled) host applied
      obtain ⟨found, same⟩ := ih next
        (fun other inside => each other (List.mem_cons_of_mem option inside)) kept later
      exact ⟨found, same.trans id⟩
  | case6 endpoint option word more letter some notOption ih =>
      rw [TcpEndpoint.readOptions, some] at read
      simp only [if_neg notOption] at read
      obtain ⟨next, applied, later⟩ := bind_ok read
      obtain ⟨kept, id⟩ := set (each word (by simp)) host applied
      obtain ⟨found, same⟩ := ih next (fun other inside => each other
        (List.mem_cons_of_mem option (List.mem_cons_of_mem word inside))) kept later
      exact ⟨found, same.trans id⟩

theorem read_plain (none : before.host = []) {s : Str}
    (read : before.readOptions str (words isBlank s) = .ok result) :
    Plain result.host ∧ result.connectionId = before.connectionId := by
  apply read_kept (p := Plain) (fun word inside _ char member => ?_) (by rw [none]; nofun) read
  exact (words_plain s word inside).2 char (strip_mem word char member)

theorem create_plain (read : TcpEndpoint.create instance' str false = .ok result) :
    Plain result.host ∨ result.host = instance'.defaultHost := by
  unfold TcpEndpoint.create at read
  obtain ⟨endpoint, options, read⟩ := bind_ok read
  split at read
  · cases read
    exact .inr rfl
  · split at read
    · cases read
    · cases read
      exact .inl (read_plain rfl options).1

theorem create_endpoint_tcp (instance' : Instance ω) (rest : Str) :
    createEndpoint instance' (text "tcp" ++ space :: rest) false =
      (TcpEndpoint.create instance' (space :: rest) false).map fun endpoint =>
        some (.tcp endpoint) := by
  rfl

/-- The TCP endpoints whose string can be read back by itself. -/
structure TcpEndpoint.Readable (instance' : Instance ω) (endpoint : TcpEndpoint) : Prop where
  plain : Plain endpoint.host
  default : endpoint.host = [] → instance'.defaultHost = []
  wildcard : endpoint.host ≠ [star]
  bare : colon ∉ endpoint.host → endpoint.host.head? ≠ some minus ∧
    ¬(endpoint.host.head? = some doubleQuote ∧ endpoint.host.getLast? = some doubleQuote)
  port : 0 ≤ endpoint.port.toInt ∧ endpoint.port.toInt ≤ 65535
  timeout : -1 ≤ endpoint.timeout.toInt
  connectionId : endpoint.connectionId = []

theorem words_to_string (plain : Plain endpoint.host) :
    Scanning.words isBlank (endpoint.words.flatMap (space :: ·)) = endpoint.words :=
  words_join rfl (words_readable plain)

theorem words_cons (endpoint : TcpEndpoint) :
    ∃ rest, endpoint.words.flatMap (space :: ·) = space :: rest := by
  unfold TcpEndpoint.words TcpEndpoint.hostWords TcpEndpoint.tailWords
  split
  · exact ⟨_, rfl⟩
  · exact ⟨_, rfl⟩

theorem host_read {host : Str} {more : List Str}
    (read : before.readOptions str (text "-h" :: shownHost host :: more) = .ok result) :
    (shownHost host).head? ≠ some minus ∧ stripQuotes (shownHost host) ≠ [] ∧
      ({ before with host := stripQuotes (shownHost host) } : TcpEndpoint).readOptions str more =
        .ok result := by
  have option : text "-h" = [minus, byte 'h'] := rfl
  rw [option] at read
  obtain ⟨notOption, next, applied, later⟩ := read_required (by decide) read
  by_cases none : stripQuotes (shownHost host) = []
  · rw [none] at applied
    cases applied
  · rw [apply_host str _ before none] at applied
    cases applied
    exact ⟨notOption, none, later⟩

theorem front_words (some : endpoint.host ≠ []) :
    endpoint.words = text "-h" :: shownHost endpoint.host :: endpoint.tailWords := by
  rw [TcpEndpoint.words, TcpEndpoint.hostWords, if_neg some]
  rfl

def hostOption (more : Str) : Str := space :: (text "-h" ++ space :: more)

theorem host_option (some : endpoint.host ≠ []) (more : Str) :
    endpoint.words.flatMap (space :: ·) ++ more = hostOption (shownHost endpoint.host ++
      (endpoint.tailWords.flatMap (space :: ·) ++ more)) := by
  rw [front_words some, ← List.append_assoc]
  rfl

theorem host_filled {more : Str}
    (read : before.readOptions str (words isBlank (hostOption more)) = .ok result) :
    result.host ≠ [] := by
  have option : words isBlank (text "-h") = [[minus, byte 'h']] := rfl
  rw [hostOption, words_skip (by rfl), words_append _ (by rfl), option] at read
  cases shape : words isBlank more with
  | nil =>
      rw [shape] at read
      cases read
  | cons word more =>
      rw [shape] at read
      obtain ⟨_, next, applied, later⟩ := read_required (by decide) read
      have filled : stripQuotes word ≠ [] := by
        intro none
        rw [none] at applied
        cases applied
      rw [apply_host str _ before filled] at applied
      cases applied
      exact (read_kept (p := (· ≠ [])) (fun _ _ kept => kept) filled later).1

theorem host_given {more : Str}
    (read : TcpEndpoint.create instance' (hostOption more) false = .ok result) :
    Plain result.host := by
  unfold TcpEndpoint.create at read
  obtain ⟨endpoint, options, read⟩ := bind_ok read
  rw [if_neg (host_filled options)] at read
  split at read
  · cases read
  · cases read
    exact (read_plain rfl options).1

/-- The `TcpEndpointI` that reads a string, with any default host. -/
def tcpCreate (defaultHost str : Str) (oaEndpoint : Bool) : Except ParseError TcpEndpoint := do
  let endpoint ← TcpEndpoint.readOptions str ⟨[], 0, -1, [], false⟩ (words isBlank str)
  if endpoint.host = [] then .ok { endpoint with host := defaultHost }
  else if endpoint.host = [star] then
    if oaEndpoint then .ok { endpoint with host := [] }
    else
      .error (.endpointParse (text "\x60-h *' not valid for proxy endpoint \x60tcp " ++ str ++
        text "'"))
  else .ok endpoint

/-- The TCP endpoints whose string can be read, whatever the default host is. -/
structure TcpReadable (defaultHost : Str) (endpoint : TcpEndpoint) : Prop where
  plain : Plain endpoint.host
  default : endpoint.host = [] → defaultHost = []
  wildcard : endpoint.host ≠ [star]
  bare : colon ∉ endpoint.host → endpoint.host.head? ≠ some minus ∧
    ¬(endpoint.host.head? = some doubleQuote ∧ endpoint.host.getLast? = some doubleQuote)
  port : 0 ≤ endpoint.port.toInt ∧ endpoint.port.toInt ≤ 65535
  timeout : -1 ≤ endpoint.timeout.toInt
  connectionId : endpoint.connectionId = []

theorem tcp_options_read :
    TcpEndpoint.readOptions str ⟨[], 0, -1, [], false⟩
        (words isBlank (endpoint.words.flatMap (space :: ·))) = .ok result ∧
      (endpoint.host ≠ [] → result.host ≠ [] → result.host = endpoint.host) ↔
    (Plain endpoint.host ∧ (colon ∉ endpoint.host → endpoint.host.head? ≠ some minus ∧
        ¬(endpoint.host.head? = some doubleQuote ∧ endpoint.host.getLast? = some doubleQuote))) ∧
      (0 ≤ endpoint.port.toInt ∧ endpoint.port.toInt ≤ 65535) ∧ -1 ≤ endpoint.timeout.toInt ∧
        result = { endpoint with connectionId := [] } := by
  by_cases none : endpoint.host = []
  · have plain : Plain endpoint.host := by
      rw [none]
      nofun
    rw [words_to_string plain, TcpEndpoint.words, TcpEndpoint.hostWords, if_pos none,
      List.nil_append]
    constructor
    · rintro ⟨read, -⟩
      obtain ⟨port, timeout⟩ := tail_read read
      rw [read_tail str port timeout rfl rfl] at read
      refine ⟨⟨plain, fun _ => ?_⟩, port, timeout, ?_⟩
      · rw [none]
        exact ⟨nofun, fun looks => nomatch looks.1⟩
      · rw [← Except.ok.inj read, none]
    · rintro ⟨-, port, timeout, rfl⟩
      refine ⟨?_, fun some => absurd none some⟩
      rw [read_tail str port timeout rfl rfl, none]
  · constructor
    · rintro ⟨read, same⟩
      have given := host_option none []
      rw [List.append_nil] at given
      have filled := read
      rw [given] at filled
      have same := same none (host_filled filled)
      have plain : Plain endpoint.host := same ▸ (read_plain rfl read).1
      rw [words_to_string plain, front_words none] at read
      obtain ⟨notOption, -, read⟩ := host_read read
      obtain ⟨port, timeout⟩ := tail_read read
      rw [read_tail str port timeout rfl rfl] at read
      cases read
      refine ⟨⟨plain, fun bare => ⟨?_, ?_⟩⟩, port, timeout, ?_⟩
      · rwa [shownHost, if_neg bare] at notOption
      · exact ((strip_shown endpoint.host).mp same).resolve_left bare
      · exact congrArg (fun host => { endpoint with host := host, connectionId := [] }) same
    · rintro ⟨⟨plain, bare⟩, port, timeout, rfl⟩
      have stripped : stripQuotes (shownHost endpoint.host) = endpoint.host := by
        apply (strip_shown endpoint.host).mpr
        by_cases hasColon : colon ∈ endpoint.host
        · exact .inl hasColon
        · exact .inr (bare hasColon).2
      have notOption : (shownHost endpoint.host).head? ≠ some minus := by
        unfold shownHost
        split
        · intro same
          exact absurd (Option.some.inj same) (by decide)
        · next noColon => exact (bare noColon).1
      have option : text "-h" = [minus, byte 'h'] := rfl
      have applied : (⟨[], 0, -1, [], false⟩ : TcpEndpoint).apply str [minus, byte 'h'] (byte 'h')
          (stripQuotes (shownHost endpoint.host)) = .ok ⟨endpoint.host, 0, -1, [], false⟩ := by
        rw [stripped]
        exact apply_host str _ _ none
      refine ⟨?_, fun _ _ => rfl⟩
      rw [words_to_string plain, front_words none, option, read_argument notOption _ applied,
        read_tail str port timeout rfl rfl]

theorem tcp_string_iff (defaultHost : Str) (endpoint : TcpEndpoint) (oaEndpoint : Bool) :
    tcpCreate defaultHost (endpoint.words.flatMap (space :: ·)) oaEndpoint = .ok endpoint ↔
      TcpReadable defaultHost endpoint := by
  constructor
  · intro created
    obtain ⟨found, read, created⟩ := bind_ok created
    have known : (endpoint.host ≠ [] → found.host ≠ [] → found.host = endpoint.host) ∧
        found.connectionId = endpoint.connectionId := by
      split at created
      · next none =>
          cases created
          exact ⟨fun _ some => absurd none some, rfl⟩
      · split at created
        · split at created
          · cases created
            exact ⟨fun some => absurd rfl some, rfl⟩
          · cases created
        · cases created
          exact ⟨fun _ _ => rfl, rfl⟩
    obtain ⟨⟨plain, bare⟩, port, timeout, rfl⟩ := tcp_options_read.mp ⟨read, known.1⟩
    refine ⟨plain, fun none => ?_, fun wild => ?_, bare, port, timeout, known.2.symm⟩
    · simp only [none, if_true] at created
      exact (congrArg TcpEndpoint.host (Except.ok.inj created)).trans none
    · simp only [wild, List.cons_ne_nil, if_false, if_true] at created
      split at created
      · have empty := congrArg TcpEndpoint.host (Except.ok.inj created)
        rw [wild] at empty
        cases empty
      · cases created
  · intro readable
    have read : TcpEndpoint.readOptions (endpoint.words.flatMap (space :: ·)) ⟨[], 0, -1, [], false⟩
        (words isBlank (endpoint.words.flatMap (space :: ·))) =
          .ok { endpoint with connectionId := [] } :=
      (tcp_options_read.mpr ⟨⟨readable.plain, readable.bare⟩, readable.port, readable.timeout,
        rfl⟩).1
    have same : { endpoint with connectionId := [] } = endpoint := by rw [← readable.connectionId]
    rw [tcpCreate, read, same]
    simp only [bind, Except.bind, if_neg readable.wildcard]
    split
    · next none => rw [readable.default none, ← none]
    · rfl

theorem create_endpoint_iff (instance' : Instance ω) (endpoint : TcpEndpoint) :
    createEndpoint instance' endpoint.toString false = .ok (some (.tcp endpoint)) ↔
      endpoint.Readable instance' := by
  have readable : TcpReadable instance'.defaultHost endpoint ↔ endpoint.Readable instance' :=
    ⟨fun readable => { readable with }, fun readable => { readable with }⟩
  obtain ⟨rest, shape⟩ := words_cons endpoint
  rw [to_string_words, shape, create_endpoint_tcp, ← shape, ← readable,
    ← tcp_string_iff _ _ false]
  constructor
  · intro read
    obtain ⟨result, created, same⟩ := map_ok read
    cases same
    exact created
  · intro created
    have same : TcpEndpoint.create instance' (endpoint.words.flatMap (space :: ·)) false =
      .ok endpoint := created
    rw [same]
    rfl

theorem read_bad_option (bad : optionLetter option = none) (endpoint : TcpEndpoint)
    (rest : List Str) (result : TcpEndpoint) :
    endpoint.readOptions str (option :: rest) ≠ .ok result := by
  intro read
  cases rest with
  | nil =>
      rw [TcpEndpoint.readOptions, bad] at read
      cases read
  | cons word more =>
      rw [TcpEndpoint.readOptions, bad] at read
      cases read

theorem glued_number {z : Int} {more : Str}
    (notOption : (printInt z ++ colon :: more).head? ≠ some minus) :
    readInt (stripQuotes (printInt z ++ colon :: more)) = none := by
  rw [(print_int_strip _ notOption).2]
  exact read_int_stuck z.toNat rfl more

theorem glued_tail (endpoint : TcpEndpoint) : ∃ init last,
    endpoint.tailWords = init ++ [last] ∧
      ∀ (str : Str) (before result : TcpEndpoint) (more : Str) (rest : List Str),
        before.readOptions str (init ++ (last ++ colon :: more) :: rest) ≠ .ok result := by
  have port : text "-p" = [minus, byte 'p'] := rfl
  have timeout : text "-t" = [minus, byte 't'] := rfl
  have compress (more : Str) : optionLetter (text "-z" ++ colon :: more) = none := rfl
  unfold TcpEndpoint.tailWords
  rw [port, timeout]
  by_cases infinite : endpoint.timeout.toInt = -1
  · rw [if_pos infinite, List.append_nil]
    cases endpoint.compress with
    | true =>
        refine ⟨_, _, rfl, ?_⟩
        intro str before result more rest read
        obtain ⟨_, next, _, later⟩ := read_required (by decide) read
        exact read_bad_option (compress more) next rest result later
    | false =>
        refine ⟨[[minus, byte 'p']], _, rfl, ?_⟩
        intro str before result more rest read
        obtain ⟨notOption, next, applied, _⟩ := read_required (by decide) read
        obtain ⟨_, value, number, _⟩ := apply_port.mp applied
        rw [glued_number notOption] at number
        cases number
  · rw [if_neg infinite]
    cases endpoint.compress with
    | true =>
        refine ⟨_, _, rfl, ?_⟩
        intro str before result more rest read
        obtain ⟨_, next, _, later⟩ := read_required (by decide) read
        obtain ⟨_, next', _, later⟩ := read_required (by decide) later
        exact read_bad_option (compress more) next' rest result later
    | false =>
        refine ⟨[[minus, byte 'p'], printInt endpoint.port.toInt, [minus, byte 't']], _, rfl, ?_⟩
        intro str before result more rest read
        obtain ⟨_, next, _, later⟩ := read_required (by decide) read
        obtain ⟨notOption, next', applied, _⟩ := read_required (by decide) later
        obtain ⟨_, value, number, _⟩ := apply_timeout.mp applied
        rw [glued_number notOption] at number
        cases number

theorem glued_unread {more : Str} :
    createEndpoint instance' (endpoint.toString ++ colon :: more) false ≠
      .ok (some (.tcp endpoint)) := by
  intro read
  obtain ⟨rest, shape⟩ := words_cons endpoint
  rw [to_string_words, shape, List.append_assoc, List.cons_append, create_endpoint_tcp,
    ← List.cons_append, ← shape] at read
  obtain ⟨result, created, same⟩ := map_ok read
  cases same
  have plain : Plain endpoint.host := by
    by_cases none : endpoint.host = []
    · rw [none]
      nofun
    · rw [host_option none] at created
      exact host_given created
  obtain ⟨init, last, split, unread⟩ := glued_tail endpoint
  have list : endpoint.words = (endpoint.hostWords ++ init) ++ [last] := by
    rw [TcpEndpoint.words, split, List.append_assoc]
  have readable := words_readable plain
  rw [list] at readable
  obtain ⟨grown, others, found⟩ := @words_glue _ isBlank space rfl _ _ readable
    colon rfl more
  unfold TcpEndpoint.create at created
  obtain ⟨options, read, _⟩ := bind_ok created
  rw [list, found, List.append_assoc, TcpEndpoint.hostWords] at read
  split at read
  · exact unread _ _ _ _ _ read
  · obtain ⟨_, _, later⟩ := host_read read
    exact unread _ _ _ _ _ later

theorem strip_cut (front back : Str) :
    stripQuotes (doubleQuote :: front) ≠ front ++ colon :: back := by
  intro same
  unfold stripQuotes at same
  split at same
  · have long := congrArg List.length same
    simp only [List.tail_cons, List.length_dropLast, List.length_append, List.length_cons] at long
    omega
  · have long := congrArg List.length same
    have quotes := congrArg (List.count doubleQuote) same
    simp only [List.length_append, List.length_cons] at long
    have none : back = [] := List.eq_nil_of_length_eq_zero (by omega)
    rw [none, List.count_cons_self, List.count_append] at quotes
    have other : List.count doubleQuote [colon] = 0 := by decide
    omega

theorem cut_unread {front back : Str} (host : endpoint.host = front ++ colon :: back) :
    createEndpoint instance' (text "tcp -h " ++ doubleQuote :: front) false ≠
      .ok (some (.tcp endpoint)) := by
  intro read
  have list : text "tcp -h " ++ doubleQuote :: front =
      text "tcp" ++ space :: (text "-h" ++ space :: doubleQuote :: front) := rfl
  rw [list, create_endpoint_tcp] at read
  obtain ⟨result, created, same⟩ := map_ok read
  cases same
  have plain : Plain endpoint.host := host_given created
  have two : ∀ word ∈ [text "-h", doubleQuote :: front],
      word ≠ [] ∧ ∀ char ∈ word, isBlank char = false := by
    intro word inside
    obtain rfl | inside := List.mem_cons.mp inside
    · decide
    · rw [List.mem_singleton.mp inside]
      refine ⟨List.cons_ne_nil _ _, ?_⟩
      intro char member
      obtain rfl | member := List.mem_cons.mp member
      · rfl
      · apply plain
        rw [host]
        exact List.mem_append_left _ member
  have found := @words_join _ isBlank space rfl _ two
  have string : space :: (text "-h" ++ space :: doubleQuote :: front) =
      [text "-h", doubleQuote :: front].flatMap (space :: ·) := by simp
  have option : text "-h" = [minus, byte 'h'] := rfl
  unfold TcpEndpoint.create at created
  rw [string, found, option] at created
  obtain ⟨options, read, created⟩ := bind_ok created
  obtain ⟨_, next, applied, later⟩ := read_required (by decide) read
  have some : stripQuotes (doubleQuote :: front) ≠ [] := by
    intro none
    rw [none] at applied
    cases applied
  rw [apply_host _ _ _ some] at applied
  cases applied
  cases later
  split at created
  · next none => exact absurd none some
  · split at created
    · cases created
    · cases created
      exact strip_cut front back host

end IceTouch.Proxies
