import IceTouch.Ssl.NameMachine

/-!
# Blanks around separators

Which spaces around a separator the parser of distinguished names ignores: all of them but those
in front of a separator that ends a value which is neither quoted nor a hex string, and those
behind a comma or semicolon that the text ends with.
-/

namespace IceTouch.Ssl

open Bytes WireTypes Escape Scanning
open Proxies (space dot byte)

def separators : Str := text ",;+="

def blanks (count : Nat) : Str := List.replicate count space

inductive Mode where
  | outside
  | escaped
  | quoted
  | quotedEscaped
deriving DecidableEq

/-- Whether the next character is quoted or escaped, and the text since the last equals sign
that is not. -/
structure Scan where
  mode : Mode
  value : Str
deriving DecidableEq

def Scan.next (state : Scan) (char : Byte) : Scan :=
  match state.mode with
  | .outside =>
      if char = backslash then ⟨.escaped, state.value ++ [char]⟩
      else if char = doubleQuote then ⟨.quoted, state.value ++ [char]⟩
      else if char = equals then ⟨.outside, []⟩
      else ⟨.outside, state.value ++ [char]⟩
  | .escaped => ⟨.outside, state.value ++ [char]⟩
  | .quoted =>
      if char = backslash then ⟨.quotedEscaped, state.value ++ [char]⟩
      else if char = doubleQuote then ⟨.outside, state.value ++ [char]⟩
      else ⟨.quoted, state.value ++ [char]⟩
  | .quotedEscaped => ⟨.quoted, state.value ++ [char]⟩

def scan (data : Str) : Scan := data.foldl Scan.next ⟨.outside, []⟩

def opening (value : Str) : Option Byte := (eatWhite value).head?

/-- The value is neither empty nor quoted nor a hex string. -/
def PlainValue (value : Str) : Prop :=
  ∃ first, opening value = some first ∧ first ≠ hash ∧ first ≠ doubleQuote

variable {value : Str} {char : Byte} {state : Scan} {move : Move} {reader : Reader}
  {results : List RDNEntry}

theorem opening_append {first : Byte} (opens : opening value = some first) (more : Str) :
    opening (value ++ more) = some first := by
  unfold opening eatWhite at *
  rw [List.dropWhile_append]
  cases dropped : value.dropWhile fun char => decide (char = space) with
  | nil =>
      rw [dropped] at opens
      cases opens
  | cons head rest =>
      rw [dropped] at opens
      exact opens

theorem opening_first (unset : opening value = none) (notSpace : char ≠ space) :
    opening (value ++ [char]) = some char := by
  unfold opening eatWhite at *
  rw [List.dropWhile_append, List.head?_eq_none_iff.mp unset]
  simp [notSpace]

theorem opening_blank (unset : opening value = none) : opening (value ++ [space]) = none := by
  unfold opening eatWhite at *
  rw [List.dropWhile_append, List.head?_eq_none_iff.mp unset]
  rfl

def Marked (value : Str) : Prop :=
  opening value = some hash ∨ opening value = some doubleQuote

theorem Marked.append (marked : Marked value) (more : Str) : Marked (value ++ more) :=
  marked.imp (fun opens => opening_append opens more) fun opens => opening_append opens more

theorem PlainValue.append (plain : PlainValue value) (more : Str) : PlainValue (value ++ more) := by
  obtain ⟨first, opens, other⟩ := plain
  exact ⟨first, opening_append opens more, other⟩

theorem Marked.not_plain (marked : Marked value) : ¬PlainValue value := by
  rintro ⟨first, opens, notHash, notQuote⟩
  obtain isHash | isQuote := marked
  · rw [isHash] at opens
    exact notHash (Option.some.inj opens).symm
  · rw [isQuote] at opens
    exact notQuote (Option.some.inj opens).symm

def Agrees (state : Scan) : Place → Prop
  | .pad _ => state.mode = .outside ∧ opening state.value = none
  | .plain _ _ => state.mode = .outside ∧ PlainValue state.value
  | .escaped _ _ => state.mode = .escaped ∧ PlainValue state.value
  | .hex _ _ _ | .closed _ _ => state.mode = .outside ∧ Marked state.value
  | .quoted _ _ => state.mode = .quoted ∧ Marked state.value
  | .quotedEscaped _ _ => state.mode = .quotedEscaped ∧ Marked state.value
  | _ => state.mode = .outside

def Move.place : Move → Place
  | .go place => place
  | .negate | .join _ => .blank
  | .component _ | .entry _ => .start true

theorem next_outside (outside : state.mode = .outside) (notBackslash : char ≠ backslash)
    (notQuote : char ≠ doubleQuote) : (state.next char).mode = .outside := by
  rw [Scan.next, outside]
  dsimp only
  rw [if_neg notBackslash, if_neg notQuote]
  split <;> rfl

theorem next_outside_value (outside : state.mode = .outside) (notBackslash : char ≠ backslash)
    (notQuote : char ≠ doubleQuote) (notEquals : char ≠ equals) :
    state.next char = ⟨.outside, state.value ++ [char]⟩ := by
  rw [Scan.next, outside]
  dsimp only
  rw [if_neg notBackslash, if_neg notQuote, if_neg notEquals]

theorem agrees_begin (moves : Place.beginType char = some move)
    (outside : (state.next char).mode = .outside) : Agrees (state.next char) move.place := by
  unfold Place.beginType at moves
  split at moves
  · cases moves
    exact outside
  · split at moves
    · cases moves
      exact outside
    · cases moves

section

variable (outside : state.mode = .outside)

include outside

theorem agrees_end_type {type : Str} (moves : Place.endType type char = some move) :
    Agrees (state.next char) move.place := by
  unfold Place.endType at moves
  split at moves
  · next isSpace =>
      cases moves
      rw [isSpace]
      exact next_outside outside (by decide) (by decide)
  · split at moves
    · next isEquals =>
        cases moves
        have cleared : state.next char = ⟨.outside, []⟩ := by
          rw [Scan.next, outside, isEquals]
          rfl
        rw [cleared]
        exact ⟨rfl, rfl⟩
    · cases moves

theorem agrees_end_value {rdn : Rdn} (moves : Place.endValue rdn char = some move) :
    Agrees (state.next char) move.place := by
  unfold Place.endValue at moves
  split at moves
  · next isPlus =>
      cases moves
      rw [isPlus]
      exact next_outside outside (by decide) (by decide)
  · split at moves
    · next isComma =>
        cases moves
        rw [isComma]
        exact next_outside outside (by decide) (by decide)
    · split at moves
      · next isSemicolon =>
          cases moves
          rw [isSemicolon]
          exact next_outside outside (by decide) (by decide)
      · cases moves

theorem agrees_go_on {type : Str}
    (plain : char ≠ hash → char ≠ doubleQuote → special.contains char = false →
      PlainValue (state.value ++ [char])) (moves : Place.goOn type value char = some move) :
    Agrees (state.next char) move.place := by
  unfold Place.goOn at moves
  split at moves
  · next isBackslash =>
      cases moves
      subst isBackslash
      have escapes : state.next backslash = ⟨.escaped, state.value ++ [backslash]⟩ := by
        rw [Scan.next, outside]
        rfl
      rw [escapes]
      exact ⟨rfl, plain (by decide) (by decide) (by decide)⟩
  · next notBackslash =>
      split at moves
      · next ordinary =>
          cases moves
          have notHash : char ≠ hash := by
            intro isHash
            rw [isHash] at ordinary
            exact absurd ordinary.1 (by decide)
          have notEquals : char ≠ equals := by
            intro isEquals
            rw [isEquals] at ordinary
            exact absurd ordinary.1 (by decide)
          rw [next_outside_value outside notBackslash ordinary.2 notEquals]
          exact ⟨rfl, plain notHash ordinary.2 ordinary.1⟩
      · exact agrees_end_value outside moves

theorem stays_outside {place : Place} (moves : place.move char = some move)
    (noBackslash : place.move backslash = none) (noQuote : place.move doubleQuote = none) :
    (state.next char).mode = .outside := by
  apply next_outside outside
  · intro isBackslash
    rw [isBackslash, noBackslash] at moves
    cases moves
  · intro isQuote
    rw [isQuote, noQuote] at moves
    cases moves

end

section

variable {type : Str}

theorem agrees_pad (agrees : Agrees state (.pad type))
    (moves : Place.move (.pad type) char = some move) : Agrees (state.next char) move.place := by
  obtain ⟨outside, unset⟩ := agrees
  rw [Place.move] at moves
  split at moves
  · next isSpace =>
      cases moves
      subst isSpace
      rw [next_outside_value outside (by decide) (by decide) (by decide)]
      exact ⟨rfl, opening_blank unset⟩
  · next notSpace =>
      split at moves
      · next isHash =>
          cases moves
          subst isHash
          rw [next_outside_value outside (by decide) (by decide) (by decide)]
          exact ⟨rfl, .inl (opening_first unset (by decide))⟩
      · split at moves
        · next isQuote =>
            cases moves
            subst isQuote
            have quotes : state.next doubleQuote = ⟨.quoted, state.value ++ [doubleQuote]⟩ := by
              rw [Scan.next, outside]
              rfl
            rw [quotes]
            exact ⟨rfl, .inr (opening_first unset (by decide))⟩
        · apply agrees_go_on outside _ moves
          intro notHash notQuote _
          exact ⟨char, opening_first unset notSpace, notHash, notQuote⟩

theorem agrees_hex {odd : Bool} (agrees : Agrees state (.hex type value odd))
    (moves : Place.move (.hex type value odd) char = some move) : Agrees (state.next char) move.place := by
  obtain ⟨outside, marked⟩ := agrees
  rw [Place.move] at moves
  split at moves
  · next isHex =>
      cases moves
      have hex : char ∈ hexvalid := List.contains_iff_mem.mp isHex
      obtain ⟨notSpecial, notBackslash, notQuote, _⟩ := hex_plain hex
      have notEquals : char ≠ equals := by
        rintro rfl
        exact notSpecial (by decide)
      rw [next_outside_value outside notBackslash notQuote notEquals]
      exact ⟨rfl, marked.append _⟩
  · split at moves
    · cases moves
    · split at moves
      · next isSpace =>
          cases moves
          subst isSpace
          rw [next_outside_value outside (by decide) (by decide) (by decide)]
          exact ⟨rfl, marked.append _⟩
      · exact agrees_end_value outside moves

theorem agrees_quoted (agrees : Agrees state (.quoted type value))
    (moves : Place.move (.quoted type value) char = some move) : Agrees (state.next char) move.place := by
  obtain ⟨quoted, marked⟩ := agrees
  rw [Place.move] at moves
  split at moves
  · next isQuote =>
      cases moves
      subst isQuote
      have ends : state.next doubleQuote = ⟨.outside, state.value ++ [doubleQuote]⟩ := by
        rw [Scan.next, quoted]
        rfl
      rw [ends]
      exact ⟨rfl, marked.append _⟩
  · next notQuote =>
      split at moves
      · next isBackslash =>
          cases moves
          have escapes : state.next char = ⟨.quotedEscaped, state.value ++ [char]⟩ := by
            rw [Scan.next, quoted]
            dsimp only
            rw [if_pos isBackslash]
          rw [escapes]
          exact ⟨rfl, marked.append _⟩
      · next notBackslash =>
          cases moves
          have goesOn : state.next char = ⟨.quoted, state.value ++ [char]⟩ := by
            rw [Scan.next, quoted]
            dsimp only
            rw [if_neg notBackslash, if_neg notQuote]
          rw [goesOn]
          exact ⟨rfl, marked.append _⟩

end

theorem agrees_move {place : Place} (agrees : Agrees state place)
    (moves : place.move char = some move) : Agrees (state.next char) move.place := by
  cases place with
  | start fresh =>
      have outside := stays_outside agrees moves (by rfl) (by rfl)
      rw [Place.move] at moves
      split at moves
      · cases moves
        exact outside
      · split at moves
        · cases moves
          exact outside
        · exact agrees_begin moves outside
  | blank =>
      have outside := stays_outside agrees moves (by rfl) (by rfl)
      rw [Place.move] at moves
      split at moves
      · cases moves
        exact outside
      · exact agrees_begin moves outside
  | key type | number type =>
      have outside := stays_outside agrees moves (by rfl) (by rfl)
      rw [Place.move] at moves
      split at moves
      · cases moves
        exact outside
      · split at moves
        · cases moves
          exact outside
        · exact agrees_end_type agrees moves
  | dotted type =>
      have outside := stays_outside agrees moves (by rfl) (by rfl)
      rw [Place.move] at moves
      split at moves
      · cases moves
        exact outside
      · cases moves
  | gap type => exact agrees_end_type agrees moves
  | pad type => exact agrees_pad agrees moves
  | plain type value =>
      obtain ⟨outside, plain⟩ := agrees
      exact agrees_go_on outside (fun _ _ _ => plain.append _) moves
  | escaped type value =>
      obtain ⟨escaped, plain⟩ := agrees
      cases moves
      have ends : state.next char = ⟨.outside, state.value ++ [char]⟩ := by
        rw [Scan.next, escaped]
      rw [ends]
      exact ⟨rfl, plain.append _⟩
  | hex type value odd => exact agrees_hex agrees moves
  | quoted type value => exact agrees_quoted agrees moves
  | quotedEscaped type value =>
      obtain ⟨escaped, marked⟩ := agrees
      cases moves
      have goesOn : state.next char = ⟨.quoted, state.value ++ [char]⟩ := by
        rw [Scan.next, escaped]
      rw [goesOn]
      exact ⟨rfl, marked.append _⟩
  | closed type value =>
      obtain ⟨outside, marked⟩ := agrees
      rw [Place.move] at moves
      split at moves
      · next isSpace =>
          cases moves
          subst isSpace
          rw [next_outside_value outside (by decide) (by decide) (by decide)]
          exact ⟨rfl, marked.append _⟩
      · exact agrees_end_value outside moves

theorem moved_place {after : Reader} (moved : reader.moved move = some after) :
    after.place = move.place := by
  cases move with
  | negate =>
      rw [Reader.moved] at moved
      split at moved
      · cases moved
      · cases moved
        rfl
  | go place =>
      cases moved
      rfl
  | join rdn =>
      cases moved
      rfl
  | component rdn =>
      cases moved
      rfl
  | entry rdn =>
      cases moved
      rfl

theorem agrees_step {after : Reader} (agrees : Agrees state reader.place)
    (stepped : reader.step char = some after) : Agrees (state.next char) after.place := by
  obtain ⟨move, moves, moved⟩ := Option.bind_eq_some_iff.mp stepped
  rw [moved_place moved]
  exact agrees_move agrees moves

theorem agrees_run {data : Str} {state : Scan} {reader after : Reader}
    (agrees : Agrees state reader.place) (ran : Machine.runAll Reader.step data reader = some after) :
    Agrees (data.foldl Scan.next state) after.place := by
  induction data generalizing state reader with
  | nil =>
      cases ran
      exact agrees
  | cons char rest ih =>
      obtain ⟨middle, stepped, later⟩ := Option.bind_eq_some_iff.mp ran
      exact ih (agrees_step agrees stepped) later

def rdnWeight (rdn : Rdn) : Nat := rdn.1.length + rdn.2.length

def rdnsWeight (rdns : List Rdn) : Nat := (rdns.map rdnWeight).sum

def weight (results : List RDNEntry) : Nat := (results.map fun entry => rdnsWeight entry.rdn).sum

def joinedWeight : Option Rdn → Nat
  | none => 0
  | some rdn => rdnWeight rdn

@[simp] theorem joined_weight_none : joinedWeight none = 0 := rfl

@[simp] theorem joined_weight_some (rdn : Rdn) : joinedWeight (some rdn) = rdnWeight rdn := rfl

def Reader.weight (reader : Reader) : Nat :=
  Ssl.weight reader.results + rdnsWeight reader.current.rdn + joinedWeight reader.joined

@[simp] theorem weight_append (first second : List RDNEntry) :
    weight (first ++ second) = weight first + weight second := by
  simp [weight]

@[simp] theorem weight_single (entry : RDNEntry) : weight [entry] = rdnsWeight entry.rdn := by
  simp [weight]

@[simp] theorem rdns_weight_nil : rdnsWeight [] = 0 := rfl

@[simp] theorem rdns_weight_append (first : List Rdn) (rdn : Rdn) :
    rdnsWeight (first ++ [rdn]) = rdnsWeight first + rdnWeight rdn := by
  simp [rdnsWeight]

@[simp] theorem joined_with_weight (joined : Option Rdn) (rdn : Rdn) :
    rdnWeight (joinedWith joined rdn) =
      joinedWeight joined + rdnWeight rdn + if joined.isSome then 2 else 0 := by
  cases joined with
  | none => simp [joinedWith, joinedWeight]
  | some final =>
      simp only [joinedWith, joinedWeight, rdnWeight, List.length_append, List.length_cons,
        Option.isSome_some, if_true]
      omega

theorem not_fresh (place : Place) (char : Byte) : place.move char ≠ some (.go (.start true)) := by
  cases place <;>
    simp only [Place.move, Place.beginType, Place.endType, Place.endValue, Place.goOn] <;>
    grind

/-- The second reader is where the first one is and has read `more` characters more. -/
structure Longer (more : Nat) (reader other : Reader) : Prop where
  place : other.place = reader.place
  begun : other.current.rdn = [] ↔ reader.current.rdn = []
  joins : other.joined.isSome = reader.joined.isSome
  alone : reader.place = .start true → reader.joined = none
  weight : other.weight = reader.weight + more

theorem longer_moved {more : Nat} {other : Reader} (longer : Longer more reader other)
    (stays : move ≠ .go (.start true)) {after : Reader} (moved : reader.moved move = some after) :
    ∃ later, other.moved move = some later ∧ Longer more after later := by
  obtain ⟨place, begun, joins, alone, weight⟩ := longer
  unfold Reader.weight at weight
  cases move with
  | go next =>
      cases moved
      exact ⟨_, rfl, rfl, begun, joins, fun fresh => absurd (congrArg Move.go fresh) stays, weight⟩
  | negate =>
      rw [Reader.moved] at moved
      split at moved
      · cases moved
      · next unset =>
          cases moved
          have other_unset : ¬other.current.rdn ≠ [] :=
            fun nonempty => unset fun empty => nonempty (begun.mpr empty)
          exact ⟨{ other with current := ⟨other.current.rdn, true⟩, place := .blank },
            if_neg other_unset, rfl, begun, joins, (by rintro ⟨⟩), weight⟩
  | join rdn =>
      cases moved
      refine ⟨_, rfl, rfl, begun, rfl, (by rintro ⟨⟩), ?_⟩
      simp only [Reader.weight, joined_weight_some, joined_with_weight, joins]
      omega
  | component rdn =>
      cases moved
      refine ⟨_, rfl, rfl, by simp, rfl, fun _ => rfl, ?_⟩
      simp only [Reader.weight, joined_weight_none, rdns_weight_append, joined_with_weight, joins]
      omega
  | entry rdn =>
      cases moved
      refine ⟨_, rfl, rfl, by simp, rfl, fun _ => rfl, ?_⟩
      simp only [Reader.weight, joined_weight_none, weight_append, weight_single,
        rdns_weight_append, rdns_weight_nil, joined_with_weight, joins]
      omega

theorem longer_step {more : Nat} {other : Reader} (longer : Longer more reader other)
    {after : Reader} (stepped : reader.step char = some after) :
    ∃ later, other.step char = some later ∧ Longer more after later := by
  obtain ⟨move, moves, moved⟩ := Option.bind_eq_some_iff.mp stepped
  have stays : move ≠ .go (.start true) := by
    rintro rfl
    exact not_fresh _ _ moves
  obtain ⟨later, same, still⟩ := longer_moved longer stays moved
  exact ⟨later, by rw [Reader.step, longer.place, moves]; exact same, still⟩

theorem longer_finish_with {more : Nat} {other : Reader} (longer : Longer more reader other)
    {rdn : Rdn} {others : List RDNEntry} (first : reader.finishWith rdn = some results)
    (second : other.finishWith rdn = some others) : weight others = weight results + more := by
  have larger := longer.weight
  cases first
  cases second
  simp only [weight_append, weight_single, rdns_weight_append, joined_with_weight, longer.joins]
  unfold Reader.weight at larger
  omega

theorem longer_finish {more : Nat} {other : Reader} (longer : Longer more reader other)
    {others : List RDNEntry} (first : reader.finish = some results)
    (second : other.finish = some others) : weight others = weight results + more := by
  rw [Reader.finish] at first second
  rw [longer.place] at second
  split at first
  · next fresh =>
      have alone := longer.alone fresh
      have bare : other.joined = none := by
        have joins := longer.joins
        rw [alone] at joins
        exact Option.not_isSome_iff_eq_none.mp (by simp [joins])
      have larger := longer.weight
      have begun := longer.begun
      rw [Reader.weight, Reader.weight, alone, bare, joined_weight_none] at larger
      rw [fresh] at second
      cases first
      cases second
      by_cases unset : reader.current.rdn = []
      · have other_unset := begun.mpr unset
        rw [unset, other_unset, rdns_weight_nil] at larger
        rw [if_pos unset, if_pos other_unset, List.append_nil, List.append_nil]
        exact larger
      · have nonempty : other.current.rdn ≠ [] := fun empty => unset (begun.mp empty)
        rw [if_neg unset, if_neg nonempty, weight_append, weight_append, weight_single,
          weight_single]
        exact larger
  · next type ends =>
      rw [ends] at second
      exact longer_finish_with longer first second
  · next type value ends =>
      rw [ends] at second
      exact longer_finish_with longer first second
  · next type value ends =>
      rw [ends] at second
      exact longer_finish_with longer first second
  · next type value ends =>
      rw [ends] at second
      exact longer_finish_with longer first second
  · cases first

theorem longer_read {more : Nat} {data : Str} {other : Reader} (longer : Longer more reader other)
    {others : List RDNEntry} (first : reader.read data = some results)
    (second : other.read data = some others) : weight others = weight results + more := by
  induction data generalizing reader other with
  | nil => exact longer_finish longer first second
  | cons char rest ih =>
      rw [Reader.read_cons] at first second
      obtain ⟨after, stepped, read⟩ := Option.bind_eq_some_iff.mp first
      obtain ⟨later, same, still⟩ := longer_step longer stepped
      rw [same] at second
      exact ih still read second

theorem separators_special {separator : Byte} (isSeparator : separator ∈ separators) :
    separator = comma ∨ separator = semicolon ∨ separator = plus ∨ separator = equals := by
  have every : ∀ separator ∈ separators,
      separator = comma ∨ separator = semicolon ∨ separator = plus ∨ separator = equals := by
    decide
  exact every separator isSeparator

theorem eat_white_blanks (count : Nat) (data : Str) :
    eatWhite (blanks count ++ data) = eatWhite data := by
  induction count with
  | zero => rfl
  | succ count ih => exact ih

theorem read_past_blanks {place : Place} (stays : place.move space = some (.go place)) (count : Nat)
    (data : Str) (reader : Reader) :
    (reader.put place).read (blanks count ++ data) = (reader.put place).read data := by
  rw [Reader.read_blanks stays, eat_white_blanks, ← Reader.read_blanks stays]

theorem read_skipped {place skipped : Place} (skips : place.move space = some (.go skipped))
    (stays : skipped.move space = some (.go skipped)) (alike : skipped.move char = place.move char)
    (count : Nat) (data : Str) (reader : Reader) :
    (reader.put place).read (blanks count ++ char :: data) =
      (reader.put place).read (char :: data) := by
  cases count with
  | zero => rfl
  | succ count =>
      have first : blanks (count + 1) ++ char :: data = space :: (blanks count ++ char :: data) :=
        rfl
      rw [first, Reader.read_go skips, read_past_blanks stays]
      apply Reader.read_alike
      · intro other rest same
        obtain ⟨rfl, rfl⟩ := List.cons.inj same
        exact alike
      · exact fun none => absurd none (List.cons_ne_nil _ _)

theorem read_value_blanks (type value : Str) (count : Nat) (data : Str) (reader : Reader) :
    (reader.put (.plain type value)).read (blanks count ++ data) =
      (reader.put (.plain type (value ++ blanks count))).read data := by
  induction count generalizing value with
  | zero => rw [blanks, List.replicate_zero, List.nil_append, List.append_nil]
  | succ count ih =>
      have first : blanks (count + 1) ++ data = space :: (blanks count ++ data) := rfl
      rw [first, @Reader.read_go _ (.plain type (value ++ [space])) _ (by rfl), ih,
        List.append_assoc]
      rfl

theorem not_stuck {place : Place} {char : Byte} {reader : Reader} {rest : Str}
    {results : List RDNEntry} (read : (reader.put place).read (char :: rest) = some results) :
    place.move char ≠ none := by
  intro stuck
  rw [Reader.read_stuck stuck] at read
  cases read

theorem longer_end {more : Nat} {first second : Rdn}
    (larger : rdnWeight second = rdnWeight first + more) {after : Reader}
    (ended : (Place.endValue first char).bind reader.moved = some after) (place : Place) :
    ∃ later, (Place.endValue second char).bind (reader.put place).moved = some later ∧
      Longer more after later := by
  unfold Place.endValue at *
  by_cases isPlus : char = plus
  · rw [if_pos isPlus] at *
    cases ended
    refine ⟨_, rfl, rfl, Iff.rfl, rfl, (by rintro ⟨⟩), ?_⟩
    simp only [Reader.weight, Reader.put, joined_weight_some, joined_with_weight, larger]
    omega
  · rw [if_neg isPlus] at *
    by_cases isComma : char = comma
    · rw [if_pos isComma] at *
      cases ended
      refine ⟨_, rfl, rfl, by simp, rfl, fun _ => rfl, ?_⟩
      simp only [Reader.weight, Reader.put, joined_weight_none, rdns_weight_append,
        joined_with_weight, larger]
      omega
    · rw [if_neg isComma] at *
      by_cases isSemicolon : char = semicolon
      · rw [if_pos isSemicolon] at *
        cases ended
        refine ⟨_, rfl, rfl, Iff.rfl, rfl, fun _ => rfl, ?_⟩
        simp only [Reader.weight, Reader.put, joined_weight_none, rdns_weight_append,
          weight_append, weight_single, joined_with_weight, larger]
        omega
      · rw [if_neg isSemicolon] at ended
        cases ended

theorem plain_blanks {type value after : Str} {separator : Byte}
    (isSeparator : separator ∈ separators) {reader : Reader} {results : List RDNEntry}
    (read : (reader.put (.plain type value)).read (separator :: after) = some results)
    {count : Nat} (same : (reader.put (.plain type value)).read
      (blanks count ++ separator :: after) = some results) : count = 0 := by
  have ends (value : Str) : (Place.plain type value).move separator =
      Place.endValue (type, value) separator := by
    obtain rfl | rfl | rfl | rfl := separators_special isSeparator <;> rfl
  have larger : rdnWeight (type, value ++ blanks count) = rdnWeight (type, value) + count := by
    simp only [rdnWeight, blanks, List.length_append, List.length_replicate]
    omega
  rw [read_value_blanks] at same
  rw [Reader.read_cons] at read same
  obtain ⟨after, stepped, first⟩ := Option.bind_eq_some_iff.mp read
  have ended : (Place.endValue (type, value) separator).bind
      (reader.put (.plain type value)).moved = some after := by
    rw [← ends]
    exact stepped
  obtain ⟨later, longer, still⟩ := longer_end larger ended (.plain type (value ++ blanks count))
  have steppedLater : (reader.put (.plain type (value ++ blanks count))).step separator =
      some later := by
    rw [Reader.step, Reader.put]
    dsimp only
    rw [ends]
    exact longer
  rw [steppedLater] at same
  have more := longer_read still first same
  omega

theorem blanks_before (agrees : Agrees state reader.place) (outside : state.mode = .outside)
    {separator : Byte} (isSeparator : separator ∈ separators) {after : Str}
    (read : reader.read (separator :: after) = some results) (count : Nat) :
    reader.read (blanks count ++ separator :: after) = some results ↔
      count = 0 ∨ separator = equals ∨ ¬PlainValue state.value := by
  obtain ⟨entries, current, joined, place⟩ := reader
  have stuck := @not_stuck _ _ ⟨entries, current, joined, place⟩ _ _ read
  have ignored {skipped : Place} (skips : place.move space = some (.go skipped))
      (stays : skipped.move space = some (.go skipped))
      (alike : skipped.move separator = place.move separator) :=
    (read_skipped skips stays alike count after ⟨entries, current, joined, place⟩).trans read
  have special := separators_special isSeparator
  cases place with
  | start fresh => obtain rfl | rfl | rfl | rfl := special <;> exact absurd rfl stuck
  | blank => obtain rfl | rfl | rfl | rfl := special <;> exact absurd rfl stuck
  | dotted type => obtain rfl | rfl | rfl | rfl := special <;> exact absurd rfl stuck
  | key type | number type | gap type =>
      obtain rfl | rfl | rfl | rfl := special
      · exact absurd rfl stuck
      · exact absurd rfl stuck
      · exact absurd rfl stuck
      · exact iff_of_true (@ignored (.gap type) (by rfl) (by rfl) (by rfl))
          (.inr (.inl rfl))
  | pad type =>
      have notPlain : ¬PlainValue state.value := by
        rintro ⟨first, opens, _⟩
        rw [agrees.2] at opens
        cases opens
      exact iff_of_true (@ignored (.pad type) (by rfl) (by rfl) rfl)
        (.inr (.inr notPlain))
  | plain type value =>
      constructor
      · intro same
        exact .inl (@plain_blanks _ _ _ _ isSeparator ⟨entries, current, joined, .blank⟩ _ read _ same)
      · rintro (rfl | rfl | notPlain)
        · exact read
        · exact absurd rfl stuck
        · exact absurd agrees.2 notPlain
  | escaped type value =>
      rw [agrees.1] at outside
      cases outside
  | hex type value odd =>
      cases odd with
      | true => obtain rfl | rfl | rfl | rfl := special <;> exact absurd rfl stuck
      | false =>
          have alike : (Place.closed type value).move separator =
              (Place.hex type value false).move separator := by
            obtain rfl | rfl | rfl | rfl := special <;> rfl
          exact iff_of_true (@ignored (.closed type value) (by rfl) (by rfl) alike)
            (.inr (.inr agrees.2.not_plain))
  | quoted type value =>
      rw [agrees.1] at outside
      cases outside
  | quotedEscaped type value =>
      rw [agrees.1] at outside
      cases outside
  | closed type value =>
      exact iff_of_true (@ignored (.closed type value) (by rfl) (by rfl) rfl)
        (.inr (.inr agrees.2.not_plain))

theorem value_leads {rdn : Rdn} (ends : Place.endValue rdn char = some move) :
    move.place = .start true ∧ char ≠ equals ∨ move.place = .blank ∧ char = plus := by
  unfold Place.endValue at ends
  split at ends
  · next isPlus =>
      cases ends
      exact .inr ⟨rfl, isPlus⟩
  · split at ends
    · next isComma =>
        cases ends
        rw [isComma]
        exact .inl ⟨rfl, by decide⟩
    · split at ends
      · next isSemicolon =>
          cases ends
          rw [isSemicolon]
          exact .inl ⟨rfl, by decide⟩
      · cases ends

theorem type_leads {type : Str} (notSpace : char ≠ space)
    (ends : Place.endType type char = some move) :
    ∃ type, move.place = .pad type ∧ char = equals := by
  unfold Place.endType at ends
  rw [if_neg notSpace] at ends
  split at ends
  · next isEquals =>
      cases ends
      exact ⟨type, rfl, isEquals⟩
  · cases ends

theorem separator_leads {place : Place} {separator : Byte} (isSeparator : separator ∈ separators)
    (agrees : Agrees state place) (outside : state.mode = .outside)
    (moves : place.move separator = some move) :
    (move.place = .start true ∧ separator ≠ equals ∨ move.place = .blank ∧ separator = plus) ∨
      ∃ type, move.place = .pad type ∧ separator = equals := by
  have special := separators_special isSeparator
  have notSpace : separator ≠ space := by obtain rfl | rfl | rfl | rfl := special <;> decide
  have type {type : Str} (same : place.move separator = Place.endType type separator) :=
    type_leads notSpace (same.symm.trans moves)
  have value {rdn : Rdn} (same : place.move separator = Place.endValue rdn separator) :=
    value_leads (same.symm.trans moves)
  cases place with
  | start fresh => obtain rfl | rfl | rfl | rfl := special <;> cases moves
  | blank => obtain rfl | rfl | rfl | rfl := special <;> cases moves
  | dotted name => obtain rfl | rfl | rfl | rfl := special <;> cases moves
  | key name => exact .inr (type (by obtain rfl | rfl | rfl | rfl := special <;> rfl))
  | number name => exact .inr (type (by obtain rfl | rfl | rfl | rfl := special <;> rfl))
  | gap name => exact .inr (type rfl)
  | pad name =>
      exact .inl (@value (name, []) (by obtain rfl | rfl | rfl | rfl := special <;> rfl))
  | plain name text =>
      exact .inl (@value (name, text) (by obtain rfl | rfl | rfl | rfl := special <;> rfl))
  | closed name text =>
      exact .inl (@value (name, text) (by obtain rfl | rfl | rfl | rfl := special <;> rfl))
  | hex name text odd =>
      cases odd with
      | true => obtain rfl | rfl | rfl | rfl := special <;> cases moves
      | false =>
          exact .inl (@value (name, text) (by obtain rfl | rfl | rfl | rfl := special <;> rfl))
  | escaped name text =>
      rw [agrees.1] at outside
      cases outside
  | quoted name text =>
      rw [agrees.1] at outside
      cases outside
  | quotedEscaped name text =>
      rw [agrees.1] at outside
      cases outside

theorem blanks_start (count : Nat) (after : Str) {reader : Reader} {results : List RDNEntry}
    (read : (reader.put (.start true)).read after = some results) :
    (reader.put (.start true)).read (blanks count ++ after) = some results ↔
      count = 0 ∨ after ≠ [] := by
  cases count with
  | zero => exact iff_of_true read (.inl rfl)
  | succ count =>
      have nonempty : blanks (count + 1) ++ after ≠ [] := List.cons_ne_nil _ _
      rw [read_fresh nonempty, @read_past_blanks (.start false) (by rfl)]
      by_cases nothing : after = []
      · subst nothing
        exact iff_of_false (by rintro ⟨⟩) (by simp)
      · rw [read_fresh nothing] at read
        exact iff_of_true read (.inr nothing)

theorem blanks_behind (agrees : Agrees state reader.place) (outside : state.mode = .outside)
    {separator : Byte} (isSeparator : separator ∈ separators) {after : Str}
    (read : reader.read (separator :: after) = some results) (count : Nat) :
    reader.read (separator :: (blanks count ++ after)) = some results ↔
      count = 0 ∨ separator = equals ∨ after ≠ [] := by
  rw [Reader.read_cons] at read ⊢
  obtain ⟨middle, stepped, read⟩ := Option.bind_eq_some_iff.mp read
  obtain ⟨move, moves, moved⟩ := Option.bind_eq_some_iff.mp stepped
  have led := moved_place moved
  rw [stepped, Option.bind_some]
  obtain ⟨entries, current, joined, place⟩ := middle
  dsimp only at led
  subst led
  obtain (⟨fresh, notEquals⟩ | ⟨blank, isPlus⟩) | ⟨type, pad, isEquals⟩ :=
    separator_leads isSeparator agrees outside moves
  · rw [fresh] at read ⊢
    have started := @blanks_start count after ⟨entries, current, joined, .blank⟩ _ read
    refine started.trans ⟨?_, ?_⟩
    · exact fun either => either.imp_right .inr
    · exact fun either => either.imp_right fun other => other.resolve_left notEquals
  · rw [blank] at read ⊢
    have ignored := @read_past_blanks .blank (by rfl) count after
      ⟨entries, current, joined, .blank⟩
    refine iff_of_true (ignored.trans read) (.inr (.inr ?_))
    rintro rfl
    cases read
  · rw [pad] at read ⊢
    have ignored := @read_past_blanks (.pad type) (by rfl) count after
      ⟨entries, current, joined, .blank⟩
    exact iff_of_true (ignored.trans read) (.inr (.inl isEquals))

theorem parse_ok_iff (data : Str) (results : List RDNEntry) :
    parse data = .ok results ↔ Reader.initial.read data = some results := by
  rw [← parse_read]
  cases parse data with
  | error e => exact iff_of_false (by rintro ⟨⟩) (by rintro ⟨⟩)
  | ok found =>
      exact ⟨fun same => congrArg Except.toOption same, fun same => congrArg Except.ok (Option.some.inj same)⟩

/-- Spaces around a separator are ignored, unless a plain value ends there or the text does. -/
theorem blanks_ignored {before after : Str} {separator : Byte} {results : List RDNEntry}
    (accepted : parse (before ++ separator :: after) = .ok results)
    (isSeparator : separator ∈ separators) (outside : (scan before).mode = .outside)
    (count : Nat) :
    (parse (before ++ (blanks count ++ separator :: after)) = .ok results ↔
        count = 0 ∨ separator = equals ∨ ¬PlainValue (scan before).value) ∧
      (parse (before ++ separator :: (blanks count ++ after)) = .ok results ↔
        count = 0 ∨ separator = equals ∨ after ≠ []) := by
  rw [parse_ok_iff, Reader.read_append] at accepted
  obtain ⟨reader, ran, read⟩ := Option.bind_eq_some_iff.mp accepted
  have agrees : Agrees (scan before) reader.place :=
    @agrees_run _ ⟨.outside, []⟩ Reader.initial _ rfl ran
  rw [parse_ok_iff, parse_ok_iff, Reader.read_append, Reader.read_append, ran, Option.bind_some,
    Option.bind_some]
  exact ⟨blanks_before agrees outside isSeparator read count,
    blanks_behind agrees outside isSeparator read count⟩

theorem blanks_ignored_quoted :
    parse (text "CN=\"a\"" ++ (blanks 2 ++ comma :: text "O=b")) =
      .ok [⟨[(text "CN", text "\"a\""), (text "O", text "b")], false⟩] := by
  have accepted : parse (text "CN=\"a\"" ++ comma :: text "O=b") =
      .ok [⟨[(text "CN", text "\"a\""), (text "O", text "b")], false⟩] := by rfl
  have marked : ¬PlainValue (scan (text "CN=\"a\"")).value :=
    Marked.not_plain (.inr (by rfl))
  exact (blanks_ignored accepted (by decide) (by rfl) 2).1.mpr (.inr (.inr marked))

/-- The space in front of a comma becomes a part of the value. -/
theorem blank_kept : ¬∀ before after separator results count,
    parse (before ++ separator :: after) = .ok results → separator ∈ separators →
      (scan before).mode = .outside →
      parse (before ++ (blanks count ++ separator :: after)) = .ok results ∧
        parse (before ++ separator :: (blanks count ++ after)) = .ok results := by
  intro ignored
  have read : parse (text "CN=a" ++ (blanks 1 ++ comma :: text "O=b")) =
      .ok [⟨[(text "CN", text "a "), (text "O", text "b")], false⟩] := by rfl
  have same := (ignored (text "CN=a") (text "O=b") comma
    [⟨[(text "CN", text "a"), (text "O", text "b")], false⟩] 1 (by rfl) (by decide) (by rfl)).1
  rw [read] at same
  exact absurd same (by decide)

end IceTouch.Ssl
