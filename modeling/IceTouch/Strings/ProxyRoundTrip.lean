import IceTouch.Strings.ProxyTargets

/-!
# The round trip of stringified proxies

Each part of the string is read back exactly when it meets a condition of its own. Where one
does not, the parser fails or reads another reference.
-/

namespace IceTouch.Proxies

open Bytes WireTypes Escape Identities Scanning
  Results

variable {ω : Type}

def Reference.laterItems (reference : Reference ω) : List Item :=
  .mode reference.mode ::
    ((if reference.secure then [.secure] else []) ++
      (if reference.protocol = protocol10 then [] else [.protocol reference.protocol]) ++
      [.encoding reference.encoding])

def Reference.facetItems (reference : Reference ω) : List Item :=
  if reference.facet = [] then [] else [.facet reference.facet]

theorem endpoints_string_flat (instance' : Instance ω) (endpoints : List TcpEndpoint) :
    ((endpoints.map Endpoint.tcp).flatMap fun endpoint =>
      let endp := endpoint.toString instance'
      if endp = [] then [] else colon :: endp) = endpointsString endpoints := by
  induction endpoints with
  | nil => rfl
  | cons endpoint rest ih =>
      obtain ⟨more, shape⟩ := to_string_tcp endpoint []
      have some : Endpoint.toString instance' (.tcp endpoint) ≠ [] := by
        intro none
        rw [show endpoint.toString = [] from none] at shape
        cases shape
      rw [List.map_cons, List.flatMap_cons, ih, endpoints_string_cons]
      simp only [if_neg some]
      rfl

theorem base_string (reference : Reference ω) :
    reference.baseString = .ok (enclose (spelled reference.identity) ++
      (reference.facetItems.flatMap Item.spell ++ reference.laterItems.flatMap Item.spell)) := by
  have later : reference.laterItems.flatMap Item.spell = modeString reference.mode ++
      ((if reference.secure then text " -s" else []) ++
        ((if reference.protocol = protocol10 then []
          else text " -p " ++ versionToString reference.protocol) ++
          (text " -e " ++ versionToString reference.encoding))) := by
    rw [Reference.laterItems]
    cases reference.secure <;> by_cases known : reference.protocol = protocol10 <;>
      simp [Item.spell, known]
  rw [Reference.baseString, identity_to_string, later, Reference.facetItems]
  by_cases noFacet : reference.facet = []
  · simp only [bind, Except.bind, noFacet, if_true, List.append_assoc, List.flatMap_nil,
      List.nil_append]
  · simp only [bind, Except.bind, noFacet, if_false, escapeString, List.append_assoc,
      List.flatMap_cons, List.flatMap_nil, List.append_nil, Item.spell]
    rfl

variable {reference : Reference ω} {endpoints : List TcpEndpoint} {s : Str}

theorem to_string_parts (instance' : Instance ω) (tcp : reference.endpoints = endpoints.map .tcp) :
    reference.toString instance' = .ok (enclose (spelled reference.identity) ++
      (reference.facetItems.flatMap Item.spell ++ (reference.laterItems.flatMap Item.spell ++
        target endpoints reference.adapterId))) := by
  rw [Reference.toString, base_string, tcp, endpoints_string_flat, target]
  by_cases none : endpoints = []
  · by_cases bare : reference.adapterId = []
    · simp [bind, Except.bind, none, bare]
    · simp [bind, Except.bind, none, bare, escapeString]
  · simp [bind, Except.bind, none]

/-- The identities that are read back: the slash and the closing quote are not hidden. -/
def identityReadable (ident : Identity) : Prop :=
  ident.category.getLast? ≠ some backslash ∧
    (hasSeparator ident.name ∨ hasSeparator ident.category →
      ident.name.getLast? ≠ some backslash)

instance (ident : Identity) : Decidable (identityReadable ident) :=
  inferInstanceAs (Decidable (_ ∧ _))

/-- `create` for a string that neither is empty nor begins with a blank. -/
def createUnblanked (instance' : Instance ω) (s : Str) :
    Except ParseError (Option (Reference ω)) := do
  let (idstr, rest) ← readIdentity s s
  let ident ← (stringToIdentity idstr).mapError fun cause =>
    ParseError.identityParse (cause.str idstr)
  if ident.name = [] then
    if ident.category ≠ [] then .error (.illegalIdentity ident)
    else if rest.dropWhile isBlank ≠ [] then
      .error (.proxyParse (text "invalid characters after identity in \x60" ++ s ++ text "'"))
    else .ok none
  else do
    let (options, target) ← readOptions s s.length
      ⟨[], .twoway, false, instance'.defaultEncoding, protocol10⟩ rest
    readTarget instance' s ident options target

variable {rest : Str} {instance' : Instance ω} {result : Options × Str}

theorem create_found (instance' : Instance ω) {ident : Identity} (named : ident.name ≠ [])
    (string : s = enclose (spelled ident) ++ rest) :
    create instance' s = createUnblanked instance' s := by
  have isSpelled := spelled_identity ident
  have nonempty := spelled_ne_nil named
  have dropped : s.dropWhile isBlank = s := by
    rw [string]
    exact drop_blank_enclose isSpelled nonempty rest
  obtain ⟨first, more, shape, _⟩ := enclose_front isSpelled nonempty rest
  have some : s ≠ [] := by
    rw [string, shape]
    exact List.cons_ne_nil _ _
  simp only [create, if_neg some, dropped]
  rfl

theorem read_identity_token (s : Str) {found idstr : Str}
    (token : takeToken isSeparator found = some (idstr, rest)) (some' : idstr ≠ []) :
    readIdentity s found = .ok (idstr, rest) := by
  unfold takeToken at token
  unfold readIdentity
  cases quoted : checkQuote found with
  | bare =>
      rw [quoted] at token
      obtain ⟨front, back⟩ := Prod.mk.inj (Option.some.inj token)
      simp only [front, back, if_neg some']
  | unmatched =>
      rw [quoted] at token
      cases token
  | matched content after =>
      rw [quoted] at token
      cases token
      rfl

theorem create_identity (instance' : Instance ω) {ident : Identity} (named : ident.name ≠ [])
    (readable : identityReadable ident) (follows : Follows rest)
    (string : s = enclose (spelled ident) ++ rest) :
    create instance' s = (do
      let (options, target) ← readOptions s s.length
        ⟨[], .twoway, false, instance'.defaultEncoding, protocol10⟩ rest
      readTarget instance' s ident options target) := by
  have isSpelled := spelled_identity ident
  have nonempty := spelled_ne_nil named
  have ends : separated (spelled ident) = true → (spelled ident).getLast? ≠ some backslash := by
    intro isSeparated last
    exact readable.2 ((spelled_separated ident).mp isSeparated) ((spelled_last named).mp last)
  have found := read_identity_token s (token_enclose isSeparator (fun _ same => same)
    isSpelled nonempty ends follows.stops) nonempty
  rw [← string] at found
  have decoded := (string_to_identity_spelled ident).mpr readable.1
  rw [create_found instance' named string, createUnblanked, found]
  simp only [bind, Except.bind, decoded, Except.mapError, if_neg named]

theorem create_reads (read : createUnblanked instance' s = .ok (some reference)) :
    ∃ idstr rest, readIdentity s s = .ok (idstr, rest) ∧
      stringToIdentity idstr = .ok reference.identity := by
  unfold createUnblanked at read
  obtain ⟨⟨idstr, rest⟩, found, read⟩ := bind_ok read
  obtain ⟨ident, decoded, read⟩ := bind_ok read
  simp only at read
  split at read
  · split at read
    · cases read
    · split at read
      · cases read
      · cases read
  · obtain ⟨⟨options, target⟩, _, read⟩ := bind_ok read
    refine ⟨idstr, rest, found, ?_⟩
    rw [(read_target_kept read).1]
    exact map_error_ok decoded

theorem identity_read (named : reference.identity.name ≠ []) (follows : Follows rest)
    (string : s = enclose (spelled reference.identity) ++ rest)
    (read : create instance' s = .ok (some reference)) : identityReadable reference.identity := by
  generalize same : reference.identity = ident at *
  have isSpelled := spelled_identity ident
  have nonempty := spelled_ne_nil named
  rw [create_found instance' named string] at read
  obtain ⟨idstr, after, found, decoded⟩ := create_reads read
  rw [same] at decoded
  by_cases hidden : separated (spelled ident) = true ∧
      (spelled ident).getLast? = some backslash
  · -- The closing quote is missed, and the identity goes on behind it.
    have shape : s = doubleQuote :: (spelled ident ++ doubleQuote :: rest) := by
      rw [string, isSpelled.enclose_eq, if_pos hidden.1]
      simp
    have goes := check_quote_open isSpelled hidden.2 rest
    rw [readIdentity] at found
    rw [shape, goes] at found
    cases closed : closeQuote doubleQuote doubleQuote rest with
    | none =>
        rw [closed] at found
        cases found
    | some behind =>
        rw [closed] at found
        cases found
        exact absurd decoded (identity_overrun named behind.1)
  · have ends : separated (spelled ident) = true →
        (spelled ident).getLast? ≠ some backslash := fun isSeparated last =>
      hidden ⟨isSeparated, last⟩
    have whole := read_identity_token s (token_enclose isSeparator
      (fun _ same => same) isSpelled nonempty ends follows.stops) nonempty
    rw [← string, found] at whole
    rw [(Prod.mk.inj (Except.ok.inj whole)).1] at decoded
    refine ⟨(string_to_identity_spelled ident).mp decoded, ?_⟩
    intro isSeparated last
    exact ends ((spelled_separated ident).mpr isSeparated) ((spelled_last named).mpr last)

theorem later_free (reference : Reference ω) :
    doubleQuote ∉ reference.laterItems.flatMap Item.spell := by
  have version (v : Version) : doubleQuote ∉ versionToString v :=
    fun inside => (version_plain v doubleQuote inside).2.1 rfl
  intro inside
  obtain ⟨item, member, here⟩ := List.mem_flatMap.mp inside
  have free : ∀ item ∈ reference.laterItems, doubleQuote ∉ item.spell := by
    intro item member
    obtain rfl | member := List.mem_cons.mp member
    · cases reference.mode <;> decide
    · obtain front | last := List.mem_append.mp member
      · obtain secure | protocol := List.mem_append.mp front
        · split at secure
          · rw [List.mem_singleton.mp secure]
            decide
          · cases secure
        · split at protocol
          · cases protocol
          · rw [List.mem_singleton.mp protocol]
            intro inside
            obtain here | here := List.mem_append.mp inside
            · exact absurd here (by decide)
            · exact version _ here
      · rw [List.mem_singleton.mp last]
        intro inside
        obtain here | here := List.mem_append.mp inside
        · exact absurd here (by decide)
        · exact version _ here
  exact free item member here

theorem later_readable (reference : Reference ω) :
    (∀ item ∈ reference.laterItems, item.Readable) ↔
      (reference.protocol.major ≠ 0 ∧ reference.encoding.major ≠ 0) := by
  have known : protocol10.major ≠ 0 := by decide
  rw [Reference.laterItems]
  constructor
  · intro every
    have encoding := every (.encoding reference.encoding) (by simp)
    refine ⟨?_, encoding⟩
    by_cases plain : reference.protocol = protocol10
    · rw [plain]
      exact known
    · exact every (.protocol reference.protocol) (by simp [plain])
  · rintro ⟨protocol, encoding⟩ item member
    obtain rfl | member := List.mem_cons.mp member
    · trivial
    · obtain front | last := List.mem_append.mp member
      · obtain secure | version := List.mem_append.mp front
        · split at secure
          · rw [List.mem_singleton.mp secure]
            trivial
          · cases secure
        · split at version
          · cases version
          · rw [List.mem_singleton.mp version]
            exact protocol
      · rw [List.mem_singleton.mp last]
        exact encoding

theorem items_read {items : List Item} (noFacet : ∀ item ∈ items, ∀ facet, item ≠ .facet facet)
    {rounds : Nat} {options : Options} {tail : Str} (follows : Follows tail)
    (read : readOptions s (items.length + rounds) options (items.flatMap Item.spell ++ tail) =
      .ok result) : ∀ item ∈ items, item.Readable := by
  induction items generalizing options with
  | nil =>
      intro item inside
      cases inside
  | cons item items ih =>
      have count : (item :: items).length + rounds = items.length + rounds + 1 := by
        simp only [List.length_cons]
        omega
      rw [List.flatMap_cons, List.append_assoc, count] at read
      have here : item.Readable := by
        cases item with
        | facet value => exact absurd rfl (noFacet _ List.mem_cons_self value)
        | mode value => trivial
        | secure => trivial
        | protocol version =>
            intro zero
            exact version_unreadable (.inl rfl) zero s _ options (follows_items items follows)
              result read
        | encoding version =>
            intro zero
            exact version_unreadable (.inr rfl) zero s _ options (follows_items items follows)
              result read
      rw [read_item here s _ options (follows_items items follows)] at read
      have later := ih (fun other inside => noFacet other (List.mem_cons_of_mem item inside)) read
      intro other inside
      obtain rfl | inside := List.mem_cons.mp inside
      · exact here
      · exact later other inside

theorem later_no_facet (reference : Reference ω) :
    ∀ item ∈ reference.laterItems, ∀ facet, item ≠ .facet facet := by
  intro item member facet same
  subst same
  simp only [Reference.laterItems, List.mem_cons, reduceCtorEq, List.mem_append, false_or,
    or_false, List.not_mem_nil] at member
  obtain secure | protocol := member
  · split at secure <;> simp at secure
  · split at protocol <;> simp at protocol

theorem facet_items_readable (readable : facetReadable reference.facet) :
    ∀ item ∈ reference.facetItems, item.Readable := by
  intro item inside
  unfold Reference.facetItems at inside
  split at inside
  · cases inside
  · next some =>
      rw [List.mem_singleton.mp inside]
      exact ⟨some, readable⟩

theorem facet_read (plain : ∀ endpoint ∈ endpoints, Plain endpoint.host) {rounds : Nat}
    {options : Options}
    (read : readOptions s (reference.facetItems.length + rounds) options
      (reference.facetItems.flatMap Item.spell ++ (reference.laterItems.flatMap Item.spell ++
        target endpoints reference.adapterId)) = .ok result)
    (same : result.1.facet = reference.facet) : facetReadable reference.facet := by
  by_cases none : reference.facet = []
  · rw [none]
    decide
  have items : reference.facetItems = [.facet reference.facet] := by
    rw [Reference.facetItems, if_neg none]
  have count : reference.facetItems.length + rounds = rounds + 1 := by
    rw [items, List.length_singleton, Nat.add_comm]
  rw [count, items, List.flatMap_singleton] at read
  unfold facetReadable
  by_cases isSeparated : hasSeparator reference.facet
  · rw [if_pos isSeparated]
    intro hidden
    obtain ⟨content, after, other, closed, differs, later⟩ := open_facet isSeparated hidden read
    obtain ⟨_, behind⟩ := close_quote_free (later_free reference) closed
    have kept : result.1.facet = other ∨ ¬hasSeparator result.1.facet := by
      obtain adapter | host := missed_quote plain behind
      · exact loop_facet (adapter_round s) adapter later
      · exact loop_facet (host_round s) host later
    obtain changed | bare := kept
    · exact differs (changed.symm.trans same)
    · rw [same] at bare
      exact bare isSeparated
  · rw [if_neg isSeparated]
    intro dash
    exact dash_unreadable isSeparated dash s rounds options _ result read

def Reference.options (reference : Reference ω) : Options :=
  ⟨reference.facet, reference.mode, reference.secure, reference.encoding, reference.protocol⟩

theorem items_put (reference : Reference ω) (encoding : Version) :
    reference.laterItems.foldl Item.put (reference.facetItems.foldl Item.put
      ⟨[], .twoway, false, encoding, protocol10⟩) = reference.options := by
  have facet : reference.facetItems.foldl Item.put ⟨[], .twoway, false, encoding, protocol10⟩ =
      ⟨reference.facet, .twoway, false, encoding, protocol10⟩ := by
    unfold Reference.facetItems
    split
    · next none =>
        rw [none]
        rfl
    · rfl
  rw [facet, Reference.laterItems, Reference.options]
  cases reference.secure <;> by_cases known : reference.protocol = protocol10 <;>
    simp [Item.put, known]

theorem items_long (items : List Item) : items.length ≤ (items.flatMap Item.spell).length := by
  induction items with
  | nil => exact Nat.le_refl 0
  | cons item items ih =>
      obtain ⟨rest, shape⟩ := item_head item
      rw [List.flatMap_cons, shape]
      simp only [List.length_cons, List.length_append]
      omega

theorem rounds_enough (named : reference.identity.name ≠ []) {tail : Str}
    (string : s = enclose (spelled reference.identity) ++
      (reference.facetItems.flatMap Item.spell ++
        (reference.laterItems.flatMap Item.spell ++ tail))) :
    ∃ rounds, s.length = reference.facetItems.length +
      (reference.laterItems.length + (rounds + 1)) := by
  have facet := items_long reference.facetItems
  have later := items_long reference.laterItems
  obtain ⟨first, more, shape, _⟩ := enclose_front (spelled_identity reference.identity)
    (spelled_ne_nil named) []
  have long := congrArg List.length shape
  rw [List.append_nil, List.length_cons] at long
  refine ⟨s.length - reference.facetItems.length - reference.laterItems.length - 1, ?_⟩
  rw [string]
  simp only [List.length_append]
  omega

/-- The references that are read back from their strings. -/
structure ReadBack (instance' : Instance ω) (reference : Reference ω)
    (endpoints : List TcpEndpoint) : Prop where
  identity : identityReadable reference.identity
  facet : facetReadable reference.facet
  protocol : reference.protocol.major ≠ 0
  encoding : reference.encoding.major ≠ 0
  target : TargetReadable instance' endpoints reference.adapterId

theorem reference_of_options (tcp : reference.endpoints = endpoints.map .tcp)
    (direct : endpoints.map (Endpoint.tcp (ω := ω)) ≠ [] → reference.adapterId = []) :
    reference.options.reference reference.identity (endpoints.map .tcp) reference.adapterId
      direct = reference := by
  obtain ⟨identity, facet, mode, secure, protocol, encoding, found, adapterId, _⟩ := reference
  cases tcp
  rfl

/-- With a readable identity and facet and with known versions, only the target is left. -/
theorem create_parts (instance' : Instance ω) (named : reference.identity.name ≠ [])
    (identity : identityReadable reference.identity) (facet : facetReadable reference.facet)
    (versions : reference.protocol.major ≠ 0 ∧ reference.encoding.major ≠ 0)
    (string : s = enclose (spelled reference.identity) ++
      (reference.facetItems.flatMap Item.spell ++ (reference.laterItems.flatMap Item.spell ++
        target endpoints reference.adapterId))) :
    create instance' s = readTarget instance' s reference.identity reference.options
      ((target endpoints reference.adapterId).dropWhile isBlank) := by
  have last := follows_target endpoints reference.adapterId
  have later := follows_items reference.laterItems last
  have every := follows_items reference.facetItems later
  obtain ⟨rounds, enough⟩ := rounds_enough named string
  rw [create_identity instance' named identity every string, enough,
    read_items (facet_items_readable facet) s _ _ later,
    read_items ((later_readable reference).mpr versions) s _ _ last,
    read_options_target, items_put]
  rfl

/-- A reference with TCP endpoints, an adapter id or neither is read back from its string when
every part of it can be; and only then, unless an endpoint has a default host with blanks. -/
theorem proxy_string_round_trip (instance' : Instance ω) (reference : Reference ω)
    (endpoints : List TcpEndpoint) (tcp : reference.endpoints = endpoints.map .tcp)
    (named : reference.identity.name ≠ []) :
    (ReadBack instance' reference endpoints →
      ∃ s, reference.toString instance' = .ok s ∧ create instance' s = .ok (some reference)) ∧
    ((∀ endpoint ∈ endpoints, endpoint.host = instance'.defaultHost → Plain endpoint.host) →
      (∃ s, reference.toString instance' = .ok s ∧ create instance' s = .ok (some reference)) →
        ReadBack instance' reference endpoints) := by
  have direct : endpoints ≠ [] → reference.adapterId = [] := by
    intro some
    apply reference.direct
    rw [tcp]
    simpa using some
  have direct' : endpoints.map (Endpoint.tcp (ω := ω)) ≠ [] → reference.adapterId = [] :=
    fun some => reference.direct (by rwa [tcp])
  have same := reference_of_options tcp direct'
  have parts := to_string_parts instance' tcp
  have readTarget := read_target instance' direct
  constructor
  · rintro ⟨identity, facet, protocol, encoding, readable⟩
    refine ⟨_, parts, ?_⟩
    rw [create_parts instance' named identity facet ⟨protocol, encoding⟩ rfl,
      (readTarget _ _ _ direct').mpr readable, same]
  · rintro known ⟨s, string, read⟩
    rw [parts] at string
    have string := (Except.ok.inj string).symm
    have last := follows_target endpoints reference.adapterId
    have later := follows_items reference.laterItems last
    have every := follows_items reference.facetItems later
    have identity := identity_read named every string read
    obtain ⟨rounds, enough⟩ := rounds_enough named string
    have started := create_identity instance' named identity every string
    rw [started, enough] at read
    obtain ⟨⟨options, rest⟩, found, ended⟩ := bind_ok read
    obtain ⟨_, facetKept, hosts⟩ := read_target_kept ended
    have plain : ∀ endpoint ∈ endpoints, Plain endpoint.host := by
      intro endpoint inside
      have here : .tcp endpoint ∈ reference.endpoints := by
        rw [tcp]
        exact List.mem_map_of_mem inside
      exact (hosts endpoint here).elim id (known endpoint inside)
    have facet := facet_read plain found facetKept.symm
    rw [read_items (facet_items_readable facet) s _ _ later] at found
    have versions := (later_readable reference).mp
      (items_read (later_no_facet reference) last found)
    have whole := create_parts instance' named identity facet versions string
    rw [started, enough, read] at whole
    rw [← same] at whole
    exact ⟨identity, facet, versions.1, versions.2, (readTarget s _ _ direct').mp whole.symm⟩

def plainInstance : Instance Empty where
  defaultEncoding := ⟨1, 1⟩
  defaultProtocol := text "tcp"
  defaultHost := text "localhost"
  toString := nofun
  create := fun _ _ => .ok none

def plainEndpoint : TcpEndpoint where
  host := text "::1"
  port := 4061
  timeout := 3000
  connectionId := []
  compress := true

def plainReference : Reference Empty where
  identity := { name := text "a b", category := text "c/d" }
  facet := text "f\"g"
  mode := .oneway
  secure := true
  protocol := protocol10
  encoding := ⟨1, 1⟩
  endpoints := [.tcp plainEndpoint]
  adapterId := []
  direct := fun _ => rfl

theorem plain_reference_read_back :
    ∃ s, plainReference.toString plainInstance = .ok s ∧
      create plainInstance s = .ok (some plainReference) := by
  apply (proxy_string_round_trip plainInstance plainReference [plainEndpoint] rfl
    (by decide)).1
  have readable : plainEndpoint.Readable plainInstance := by
    constructor
    · decide
    · exact fun none => absurd none (by decide)
    · decide
    · exact fun bare => absurd bare (by decide)
    · decide
    · decide
    · rfl
  constructor
  · decide
  · decide
  · decide
  · decide
  · exact ⟨⟨readable, by decide, by decide, trivial⟩, nil_readable⟩

def backslashReference : Reference Empty where
  identity := { name := text "a b" ++ [backslash], category := [] }
  facet := []
  mode := .twoway
  secure := false
  protocol := protocol10
  encoding := ⟨1, 1⟩
  endpoints := []
  adapterId := []
  direct := fun _ => rfl

/-- The closing quote is taken for an escaped one, though it is the backslash that is. -/
theorem backslash_name_not_read :
    backslashReference.toString plainInstance =
        .ok (doubleQuote :: text "a b" ++ [backslash, backslash, doubleQuote] ++ text " -t -e 1.1") ∧
      create plainInstance (doubleQuote :: text "a b" ++ [backslash, backslash, doubleQuote] ++
          text " -t -e 1.1") =
        .error (.proxyParse (text "mismatched quotes around identity in \x60" ++
          (doubleQuote :: text "a b" ++ [backslash, backslash, doubleQuote] ++
            text " -t -e 1.1") ++ text "'")) := by
  constructor
  · rfl
  · rfl

end IceTouch.Proxies
