import IceTouch.Strings.ProxyEndpointLists
import IceTouch.Strings.ProxyOverruns

/-!
# Targets of stringified proxies

The endpoints or the adapter id at the end of the string: when they are read back, and where
the parser goes on in them after it missed the closing quote of the facet.
-/

namespace IceTouch.Proxies

open Bytes WireTypes Escape Identities Scanning
  Results

variable {ω : Type}

/-- What `RoutableReference::toString` writes after the options. -/
def target (endpoints : List TcpEndpoint) (adapterId : Str) : Str :=
  if endpoints ≠ [] then endpointsString endpoints
  else if adapterId ≠ [] then text " @ " ++ enclose (encodeAll [] adapterId)
  else []

theorem target_endpoints (endpoint : TcpEndpoint) (rest : List TcpEndpoint) (adapterId : Str) :
    target (endpoint :: rest) adapterId = endpointsString (endpoint :: rest) := by
  rw [target, if_pos (List.cons_ne_nil _ _)]

variable {adapterId : Str} {endpoints : List TcpEndpoint} {previous : Byte}

theorem target_adapter (some : adapterId ≠ []) :
    target [] adapterId = space :: atSign :: space :: enclose (encodeAll [] adapterId) := by
  rw [target, if_neg (fun other => other rfl), if_pos some]
  rfl

theorem follows_target (endpoints : List TcpEndpoint) (adapterId : Str) :
    Follows (target endpoints adapterId) := by
  cases endpoints with
  | nil =>
      by_cases none : adapterId = []
      · rw [none]
        exact .done
      · rw [target_adapter none]
        exact .adapter _
  | cons endpoint rest =>
      rw [target_endpoints, endpoints_string_cons]
      exact .endpoints _

theorem read_options_target (s : Str) (rounds : Nat) (options : Options)
    (endpoints : List TcpEndpoint) (adapterId : Str) :
    readOptions s (rounds + 1) options (target endpoints adapterId) =
      .ok (options, (target endpoints adapterId).dropWhile isBlank) := by
  cases endpoints with
  | nil =>
      by_cases none : adapterId = []
      · rw [none]
        rfl
      · rw [target_adapter none]
        rfl
  | cons endpoint rest =>
      rw [target_endpoints, endpoints_string_cons]
      rfl

/-- The adapter ids that are read back. -/
def adapterReadable (adapterId : Str) : Prop :=
  hasSeparator adapterId → adapterId.getLast? ≠ some backslash

instance (adapterId : Str) : Decidable (adapterReadable adapterId) :=
  inferInstanceAs (Decidable (_ → _))

theorem enclose_front {t : Str} (spelled : Spelled t) (some' : t ≠ []) (rest : Str) :
    ∃ first more, enclose t ++ rest = first :: more ∧ isBlank first = false := by
  rw [spelled.enclose_eq]
  by_cases isSeparated : separated t = true
  · rw [if_pos isSeparated]
    exact ⟨doubleQuote, _, rfl, rfl⟩
  · rw [if_neg isSeparated]
    cases t with
    | nil => exact absurd rfl some'
    | cons first more =>
        refine ⟨first, more ++ rest, rfl, ?_⟩
        have plain : isSeparator first = false := by
          by_contra separator
          apply isSeparated
          rw [separated, List.any_cons, show isSeparator first = true by simpa using separator]
          rfl
        exact (not_separator plain).1

theorem drop_blank_enclose {t : Str} (spelled : Spelled t) (some' : t ≠ []) (rest : Str) :
    (enclose t ++ rest).dropWhile isBlank = enclose t ++ rest := by
  obtain ⟨first, more, shape, plain⟩ := enclose_front spelled some' rest
  rw [shape, List.dropWhile_cons_of_neg (by simp [plain])]

theorem read_adapter (some' : adapterId ≠ []) (s : Str) :
    readAdapter s (space :: enclose (encodeAll [] adapterId)) = .ok adapterId ↔
      adapterReadable adapterId := by
  have chosen : Chosen [] := .inr rfl
  have spelled := encode_spelled chosen adapterId
  have nonempty := encode_ne_nil nothing_plain some'
  have found : (space :: enclose (encodeAll [] adapterId)).dropWhile isBlank =
      enclose (encodeAll [] adapterId) := by
    have dropped := drop_blank_enclose spelled nonempty []
    rw [List.append_nil] at dropped
    rw [List.dropWhile_cons_of_pos rfl, dropped]
  have present : enclose (encodeAll [] adapterId) ≠ [] := by
    obtain ⟨first, more, shape, _⟩ := enclose_front spelled nonempty []
    rw [List.append_nil] at shape
    rw [shape]
    exact List.cons_ne_nil _ _
  rw [readAdapter, found]
  simp only [if_neg present]
  constructor
  · intro read isSeparated hidden
    have quoted : enclose (encodeAll [] adapterId) =
        doubleQuote :: (encodeAll [] adapterId ++ [doubleQuote]) := by
      rw [spelled.enclose_eq, if_pos ((encode_separated chosen adapterId).mpr isSeparated)]
    have last := (encode_all_last nothing_plain adapterId).mpr hidden
    have unmatched := check_quote_open spelled last []
    rw [quoted, takeToken, unmatched] at read
    cases read
  · intro readable
    have token := token_enclose isBlank
      (fun char blank => by rw [isSeparator, blank]; rfl) spelled nonempty
      ((encode_open adapterId).mpr readable) (stops_nil _)
    have decoded := unescape_escape nothing_plain adapterId
    rw [List.append_nil] at token
    rw [token]
    simp only [List.dropWhile_nil, ne_eq, not_true_eq_false, if_false, decoded, if_neg some']

variable {s content after : Str}

theorem read_target_kept {instance' : Instance ω} {ident : Identity} {options : Options}
    {rest : Str} {reference : Reference ω}
    (read : readTarget instance' s ident options rest = .ok (some reference)) :
    reference.identity = ident ∧ reference.facet = options.facet ∧
      ∀ endpoint, .tcp endpoint ∈ reference.endpoints →
        Plain endpoint.host ∨ endpoint.host = instance'.defaultHost := by
  cases rest with
  | nil =>
      cases read
      exact ⟨rfl, rfl, fun _ inside => nomatch inside⟩
  | cons char rest =>
      by_cases isColon : char = colon
      · rw [readTarget, if_pos isColon] at read
        obtain ⟨⟨endpoints, unknown⟩, found, read⟩ := bind_ok read
        simp only at read
        split at read
        · cases read
        · cases read
          exact ⟨rfl, rfl, fun _ inside => endpoints_plain found inside⟩
      · by_cases isAt : char = atSign
        · rw [readTarget, if_neg isColon, if_pos isAt] at read
          obtain ⟨adapter, _, read⟩ := bind_ok read
          cases read
          exact ⟨rfl, rfl, fun _ inside => nomatch inside⟩
        · rw [readTarget, if_neg isColon, if_neg isAt] at read
          cases read

def TargetReadable (instance' : Instance ω) (endpoints : List TcpEndpoint) (adapterId : Str) :
    Prop :=
  EndpointsReadable instance' endpoints ∧ adapterReadable adapterId

theorem endpoints_string_long (endpoints : List TcpEndpoint) :
    endpoints.length ≤ (endpointsString endpoints).length := by
  induction endpoints with
  | nil => exact Nat.le_refl 0
  | cons endpoint rest ih =>
      rw [endpoints_string_cons]
      simp only [List.length_cons, List.length_append]
      omega

theorem nil_readable : adapterReadable [] := by
  decide

theorem read_target (instance' : Instance ω) (direct : endpoints ≠ [] → adapterId = []) (s : Str)
    (ident : Identity) (options : Options)
    (direct' : endpoints.map (Endpoint.tcp (ω := ω)) ≠ [] → adapterId = []) :
    readTarget instance' s ident options ((target endpoints adapterId).dropWhile isBlank) =
        .ok (some (options.reference ident (endpoints.map .tcp) adapterId direct')) ↔
      TargetReadable instance' endpoints adapterId := by
  cases endpoints with
  | nil =>
      by_cases none : adapterId = []
      · subst none
        exact ⟨fun _ => ⟨trivial, nil_readable⟩, fun _ => rfl⟩
      · have adapter := read_adapter none s
        have found : (target [] adapterId).dropWhile isBlank =
            atSign :: space :: enclose (encodeAll [] adapterId) := by
          rw [target_adapter none]
          rfl
        rw [found, readTarget, if_neg (by decide), if_pos rfl]
        constructor
        · intro read
          obtain ⟨other, here, same⟩ := bind_ok read
          cases same
          exact ⟨trivial, adapter.mp here⟩
        · intro readable
          rw [adapter.mpr readable.2]
          rfl
  | cons endpoint rest =>
      have bare : adapterId = [] := direct (List.cons_ne_nil _ _)
      subst bare
      have found : (target (endpoint :: rest) []).dropWhile isBlank =
          endpointsString (endpoint :: rest) := by
        rw [target_endpoints, endpoints_string_cons]
        rfl
      have enough := endpoints_string_long (endpoint :: rest)
      have string := endpoints_string_cons endpoint rest
      rw [string, List.length_cons (a := colon)] at enough
      rw [found, string, readTarget, if_pos rfl, ← string]
      constructor
      · intro read
        obtain ⟨⟨endpoints, unknown⟩, here, read⟩ := bind_ok read
        simp only at read
        split at read
        · cases read
        · cases read
          exact ⟨endpoints_read enough here, nil_readable⟩
      · intro readable
        rw [read_endpoints readable.1 enough]
        rfl

theorem close_quote_append {quoteChar : Byte} {tail : Str}
    (closed : closeQuote quoteChar previous (s ++ tail) = some (content, after)) :
    (∃ back, (∀ char ∈ back, char ∈ s) ∧ after = back ++ tail) ∨
      ∃ before inner, closeQuote quoteChar before tail = some (inner, after) := by
  induction s generalizing previous content with
  | nil => exact .inr ⟨previous, content, closed⟩
  | cons char rest ih =>
      rw [List.cons_append, closeQuote] at closed
      split at closed
      · cases closed
        exact .inl ⟨rest, fun other inside => List.mem_cons_of_mem char inside, rfl⟩
      · obtain ⟨⟨inner, behind⟩, found, same⟩ := Option.map_eq_some_iff.mp closed
        cases same
        obtain ⟨back, inside, split⟩ | later := ih found
        · exact .inl ⟨back, fun other member => List.mem_cons_of_mem char (inside other member),
            split⟩
        · exact .inr later

theorem close_quote_free {tail : Str} (free : doubleQuote ∉ s)
    (closed : closeQuote doubleQuote previous (s ++ tail) = some (content, after)) :
    ∃ inner, closeQuote doubleQuote (lastOf previous s) tail = some (inner, after) := by
  have isSealed : Sealed previous s := by
    induction s generalizing previous content with
    | nil => trivial
    | cons char rest ih =>
        have other : char ≠ doubleQuote := fun same => free (same ▸ List.mem_cons_self)
        have skipped : ¬(char = doubleQuote ∧ previous ≠ backslash) := fun stop => other stop.1
        rw [List.cons_append, closeQuote, if_neg skipped] at closed
        obtain ⟨⟨inner, behind⟩, found, same⟩ := Option.map_eq_some_iff.mp closed
        cases same
        exact ⟨fun same => absurd same other,
          ih (fun inside => free (List.mem_cons_of_mem char inside)) found⟩
  rw [close_quote_sealed isSealed] at closed
  obtain ⟨⟨inner, behind⟩, found, same⟩ := Option.map_eq_some_iff.mp closed
  cases same
  exact ⟨inner, found⟩

theorem quiet_free (quiet : Quiet s) : doubleQuote ∉ s :=
  fun inside => (quiet doubleQuote inside).2 rfl

theorem tail_port (endpoint : TcpEndpoint) {rest : Str}
    (stops : Stops (fun char => !isSeparator char) rest) :
    ∃ more, Stops (fun char => !isSeparator char) more ∧
      endpoint.tailWords.flatMap (space :: ·) ++ rest =
        space :: minus :: byte 'p' :: space :: (printInt endpoint.port.toInt ++ more) := by
  refine ⟨((if endpoint.timeout.toInt = -1 then []
    else [text "-t", printInt endpoint.timeout.toInt]) ++
    if endpoint.compress then [text "-z"] else []).flatMap (space :: ·) ++ rest, ?_, ?_⟩
  · by_cases infinite : endpoint.timeout.toInt = -1
    · rw [if_pos infinite]
      cases endpoint.compress with
      | true => exact stops_cons rfl _
      | false => exact stops
    · rw [if_neg infinite]
      exact stops_cons rfl _
  · simp [TcpEndpoint.tailWords, show text "-p" = [minus, byte 'p'] from rfl]

theorem shown_words {host : Str} (plain : Plain host) : Plain (shownHost host) := by
  by_cases none : host = []
  · rw [none]
    decide
  · exact (shown_plain none plain).2

theorem host_quote (plain : ∀ endpoint ∈ endpoints, Plain endpoint.host)
    (closed : closeQuote doubleQuote previous (endpointsString endpoints) =
      some (content, after)) : HostRest after := by
  induction endpoints generalizing previous content with
  | nil => cases closed
  | cons endpoint rest ih =>
      have here := plain endpoint List.mem_cons_self
      have front := quiet_free (front_quiet endpoint)
      have start : doubleQuote ∉ [colon] := by decide
      rw [endpoints_string_cons, to_string_shown, List.append_assoc, List.append_assoc,
        ← List.singleton_append] at closed
      obtain ⟨_, closed⟩ := close_quote_free start closed
      obtain ⟨_, closed⟩ := close_quote_free front closed
      obtain ⟨back, inside, split⟩ | ⟨_, _, closed⟩ := close_quote_append closed
      · have stops : Stops (fun char => !isSeparator char) (endpointsString rest) := by
          cases rest with
          | nil => exact stops_nil _
          | cons next more =>
              rw [endpoints_string_cons]
              exact stops_cons rfl _
        obtain ⟨more, ends, shape⟩ := tail_port endpoint stops
        rw [shape] at split
        exact ⟨back, endpoint.port.toInt, more,
          fun char member => shown_words here char (inside char member), ends, split⟩
      · obtain ⟨_, closed⟩ := close_quote_free (quiet_free (tail_quiet endpoint)) closed
        exact ih (fun other member => plain other (List.mem_cons_of_mem endpoint member)) closed

theorem missed_quote (plain : ∀ endpoint ∈ endpoints, Plain endpoint.host)
    (closed : closeQuote doubleQuote previous (target endpoints adapterId) =
      some (content, after)) : AdapterRest after ∨ HostRest after := by
  cases endpoints with
  | cons endpoint rest =>
      rw [target_endpoints] at closed
      exact .inr (host_quote plain closed)
  | nil =>
      by_cases none : adapterId = []
      · subst none
        cases closed
      · have chosen : Chosen [] := .inr rfl
        have shape : target [] adapterId =
            [space, atSign, space] ++ enclose (encodeAll [] adapterId) := target_adapter none
        have free : doubleQuote ∉ [space, atSign, space] := by decide
        rw [shape] at closed
        obtain ⟨inner, closed⟩ := close_quote_free free closed
        rw [(encode_spelled chosen adapterId).enclose_eq] at closed
        split at closed
        · have visible : lastOf previous [space, atSign, space] ≠ backslash := by
            have last : lastOf previous [space, atSign, space] = space := rfl
            rw [last]
            decide
          rw [closeQuote, if_pos ⟨rfl, visible⟩] at closed
          cases closed
          exact .inl (.inr ⟨adapterId, rfl⟩)
        · have passed := close_quote_sealed
            (sealed_encode chosen (lastOf previous [space, atSign, space]) adapterId) []
          rw [List.append_nil] at passed
          rw [passed] at closed
          cases closed

end IceTouch.Proxies
