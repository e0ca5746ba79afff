import IceTouch.Ssl.Writings
import IceTouch.Library.Machine

/-!
# Distinguished names read one character at a time

The parser of distinguished names as a machine. Its state after a part of the text is all that
the rest of the text can still be read with, so what the blanks in the middle of a text change
can be told from the state they are read in.
-/

namespace IceTouch.Ssl

open Bytes WireTypes Escape Scanning
open Proxies (space dot byte)

inductive Place where
  /-- In front of a component. -/
  | start (fresh : Bool)
  /-- In front of a type that has to follow. -/
  | blank
  | key (type : Str)
  | number (type : Str)
  /-- Behind a dot in an oid. -/
  | dotted (type : Str)
  | gap (type : Str)
  | pad (type : Str)
  | plain (type value : Str)
  | escaped (type value : Str)
  | hex (type value : Str) (odd : Bool)
  | quoted (type value : Str)
  | quotedEscaped (type value : Str)
  | closed (type value : Str)
deriving DecidableEq

inductive Move where
  | go (place : Place)
  | negate
  | join (rdn : Rdn)
  | component (rdn : Rdn)
  | entry (rdn : Rdn)

structure Reader where
  results : List RDNEntry
  current : RDNEntry
  /-- What comes before the last plus sign of the component. -/
  joined : Option Rdn
  place : Place
deriving DecidableEq

namespace Place

def beginType (char : Byte) : Option Move :=
  if isDigit char then some (.go (.number [char]))
  else if isAlpha char then some (.go (.key [char]))
  else none

def endType (type : Str) (char : Byte) : Option Move :=
  if char = space then some (.go (.gap type))
  else if char = equals then some (.go (.pad type))
  else none

def endValue (rdn : Rdn) (char : Byte) : Option Move :=
  if char = plus then some (.join rdn)
  else if char = comma then some (.component rdn)
  else if char = semicolon then some (.entry rdn)
  else none

def goOn (type value : Str) (char : Byte) : Option Move :=
  if char = backslash then some (.go (.escaped type (value ++ [char])))
  else if special.contains char = false ∧ char ≠ doubleQuote then
    some (.go (.plain type (value ++ [char])))
  else endValue (type, value) char

def move : Place → Byte → Option Move
  | .start _, char =>
      if char = space then some (.go (.start false))
      else if char = exclamation then some .negate
      else beginType char
  | .blank, char => if char = space then some (.go .blank) else beginType char
  | .key type, char =>
      if isKeychar char then some (.go (.key (type ++ [char])))
      else if char = dot ∧ (type = text "oid" ∨ type = text "OID") then
        some (.go (.number (type ++ [char])))
      else endType type char
  | .number type, char =>
      if isDigit char then some (.go (.number (type ++ [char])))
      else if char = dot then some (.go (.dotted (type ++ [char])))
      else endType type char
  | .dotted type, char =>
      if isDigit char then some (.go (.number (type ++ [char]))) else none
  | .gap type, char => endType type char
  | .pad type, char =>
      if char = space then some (.go (.pad type))
      else if char = hash then some (.go (.hex type [char] false))
      else if char = doubleQuote then some (.go (.quoted type [char]))
      else goOn type [] char
  | .plain type value, char => goOn type value char
  | .escaped type value, char => some (.go (.plain type (value ++ [char])))
  | .hex type value odd, char =>
      if hexvalid.contains char then some (.go (.hex type (value ++ [char]) (!odd)))
      else if odd then none
      else if char = space then some (.go (.closed type value))
      else endValue (type, value) char
  | .quoted type value, char =>
      if char = doubleQuote then some (.go (.closed type (value ++ [char])))
      else if char = backslash then some (.go (.quotedEscaped type (value ++ [char])))
      else some (.go (.quoted type (value ++ [char])))
  | .quotedEscaped type value, char => some (.go (.quoted type (value ++ [char])))
  | .closed type value, char =>
      if char = space then some (.go (.closed type value)) else endValue (type, value) char

end Place

def joinedWith : Option Rdn → Rdn → Rdn
  | none, rdn => rdn
  | some final, rdn => (final.1, final.2 ++ plus :: rdn.1 ++ equals :: rdn.2)

namespace Reader

def moved (reader : Reader) : Move → Option Reader
  | .go place => some { reader with place := place }
  | .negate =>
      if reader.current.rdn ≠ [] then none
      else some { reader with current := ⟨reader.current.rdn, true⟩, place := .blank }
  | .join rdn => some { reader with joined := some (joinedWith reader.joined rdn), place := .blank }
  | .component rdn => some { reader with
      current := ⟨reader.current.rdn ++ [joinedWith reader.joined rdn], reader.current.negate⟩
      joined := none
      place := .start true }
  | .entry rdn => some {
      results := reader.results ++
        [⟨reader.current.rdn ++ [joinedWith reader.joined rdn], reader.current.negate⟩]
      current := ⟨[], false⟩
      joined := none
      place := .start true }

def step (char : Byte) (reader : Reader) : Option Reader :=
  (reader.place.move char).bind reader.moved

def finishWith (reader : Reader) (rdn : Rdn) : Option (List RDNEntry) :=
  some (reader.results ++
    [⟨reader.current.rdn ++ [joinedWith reader.joined rdn], reader.current.negate⟩])

/-- What the parser returns when the text is over. -/
def finish (reader : Reader) : Option (List RDNEntry) :=
  match reader.place with
  | .start true =>
      some (reader.results ++ if reader.current.rdn = [] then [] else [reader.current])
  | .pad type => reader.finishWith (type, [])
  | .plain type value => reader.finishWith (type, value)
  | .hex type value false => reader.finishWith (type, value)
  | .closed type value => reader.finishWith (type, value)
  | _ => none

def read (data : Str) (reader : Reader) : Option (List RDNEntry) :=
  (Machine.runAll step data reader).bind finish

def initial : Reader := ⟨[], ⟨[], false⟩, none, .start true⟩

def put (reader : Reader) (place : Place) : Reader := { reader with place := place }

theorem read_cons (char : Byte) (rest : Str) (reader : Reader) :
    reader.read (char :: rest) = (reader.step char).bind (read rest) := by
  rw [read, Machine.runAll, Option.bind_assoc]
  rfl

theorem read_append (first second : Str) (reader : Reader) :
    reader.read (first ++ second) =
      (Machine.runAll step first reader).bind (read second) := by
  induction first generalizing reader with
  | nil => rfl
  | cons char first ih =>
      rw [List.cons_append, read_cons, Machine.runAll, Option.bind_assoc]
      exact congrArg (Option.bind _) (funext ih)

theorem read_go {place next : Place} {char : Byte} (goes : place.move char = some (.go next))
    (reader : Reader) (rest : Str) :
    (reader.put place).read (char :: rest) = (reader.put next).read rest := by
  rw [read_cons, step, put, goes]
  rfl

theorem read_stuck {place : Place} {char : Byte} (stuck : place.move char = none)
    (reader : Reader) (rest : Str) : (reader.put place).read (char :: rest) = none := by
  rw [read_cons, step, put, stuck]
  rfl

theorem read_alike {first second : Place} {data : Str}
    (move : ∀ char rest, data = char :: rest → first.move char = second.move char)
    (finish : data = [] → ∀ reader : Reader,
      (reader.put first).finish = (reader.put second).finish)
    (reader : Reader) : (reader.put first).read data = (reader.put second).read data := by
  cases data with
  | nil => exact finish rfl reader
  | cons char rest =>
      have same : (reader.put first).step char = (reader.put second).step char := by
        rw [step, step, put, put, move char rest rfl]
        cases second.move char with
        | none => rfl
        | some move => cases move <;> rfl
      rw [read_cons, read_cons, same]

theorem read_blanks {place : Place} (stays : place.move space = some (.go place))
    (reader : Reader) (data : Str) :
    (reader.put place).read data = (reader.put place).read (eatWhite data) := by
  induction data with
  | nil => rfl
  | cons char rest ih =>
      by_cases isSpace : char = space
      · subst isSpace
        rw [read_go stays, ih]
        rfl
      · rw [eatWhite, List.dropWhile_cons_of_neg (by simpa using isSpace)]

end Reader

def onward {α : Type} (parsed : Except ParseException (α × Str))
    (next : α → Str → Option (List RDNEntry)) : Option (List RDNEntry) :=
  match parsed with
  | .ok (value, rest) => next value rest
  | .error _ => none

variable {α : Type} {rest : Str}

@[simp] theorem onward_ok (value : α) (rest : Str) (next : α → Str → Option (List RDNEntry)) :
    onward (.ok (value, rest)) next = next value rest := rfl

@[simp] theorem onward_fail (reason : String) (next : α → Str → Option (List RDNEntry)) :
    onward (fail reason) next = none := rfl

@[simp] theorem onward_bind {β : Type} (parsed : Except ParseException (α × Str))
    (more : α × Str → Except ParseException (β × Str)) (next : β → Str → Option (List RDNEntry)) :
    onward (parsed >>= more) next = onward parsed fun value rest => onward (more (value, rest)) next := by
  cases parsed <;> rfl

variable {data : Str} {rounds : Nat}

theorem eat_white_head {char : Byte} (eaten : eatWhite data = char :: rest) : char ≠ space := by
  have stops := List.head?_dropWhile_not (fun char : Byte => decide (char = space)) data
  rw [show data.dropWhile (fun char : Byte => decide (char = space)) = char :: rest from eaten]
    at stops
  simpa using stops

open Reader

theorem read_ended {place : Place} {type value : Str}
    (ending : ∀ char rest, data = char :: rest →
      char ≠ space ∧ place.move char = Place.endValue (type, value) char)
    (finish : ∀ reader : Reader, (reader.put place).finish = reader.finishWith (type, value))
    (reader : Reader) :
    (reader.put place).read data = (reader.put (.closed type value)).read data := by
  apply read_alike
  · intro char rest same
    obtain ⟨notSpace, ends⟩ := ending char rest same
    rw [ends, Place.move, if_neg notSpace]
  · intro _ reader
    rw [finish reader]
    rfl

theorem read_string (type : Str) (enough : data.length ≤ rounds) (value : Str) (reader : Reader) :
    (reader.put (.plain type value)).read data =
      onward (parseString rounds data) fun more rest =>
        (reader.put (.closed type (value ++ more))).read rest := by
  induction rounds generalizing data value with
  | zero =>
      rw [List.length_eq_zero_iff.mp (Nat.le_zero.mp enough), parseString, onward_ok,
        List.append_nil]
      rfl
  | succ rounds ih =>
      cases data with
      | nil =>
          rw [parseString, onward_ok, List.append_nil]
          rfl
      | cons char rest =>
          rw [List.length_cons] at enough
          by_cases isBackslash : char = backslash
          · have goes : (Place.plain type value).move char =
                some (.go (.escaped type (value ++ [char]))) := by
              rw [Place.move, Place.goOn, if_pos isBackslash]
            rw [read_go goes, parseString, if_pos isBackslash]
            cases rest with
            | nil => rfl
            | cons second rest =>
                have room : rest.length ≤ rounds := by
                  rw [List.length_cons] at enough
                  omega
                rw [read_go rfl, parse_pair, onward_bind, onward_ok, ih room, onward_bind]
                simp only [onward_ok, isBackslash, List.append_assoc, List.cons_append, List.nil_append]
          · by_cases plain : special.contains char = false ∧ char ≠ doubleQuote
            · have goes : (Place.plain type value).move char =
                  some (.go (.plain type (value ++ [char]))) := by
                rw [Place.move, Place.goOn, if_neg isBackslash, if_pos plain]
              have stringchar : char ∉ special ∧ char ≠ doubleQuote := by simpa using plain
              rw [read_go goes, parseString, if_neg isBackslash, if_pos stringchar,
                ih (by omega), onward_bind]
              simp only [onward_ok, List.append_assoc, List.cons_append, List.nil_append]
            · have stringchar : ¬(char ∉ special ∧ char ≠ doubleQuote) := by simpa using plain
              rw [parseString, if_neg isBackslash, if_neg stringchar, onward_ok, List.append_nil]
              apply read_ended
              · intro first more same
                obtain ⟨rfl, rfl⟩ := List.cons.inj same
                refine ⟨?_, ?_⟩
                · intro isSpace
                  subst isSpace
                  exact plain (by decide)
                · rw [Place.move, Place.goOn, if_neg isBackslash, if_neg plain]
              · exact fun _ => rfl

theorem read_quoted (type : Str) (enough : data.length < rounds) (value : Str) (reader : Reader) :
    (reader.put (.quoted type value)).read data =
      onward (parseQuoted rounds data) fun more rest =>
        (reader.put (.closed type (value ++ more))).read rest := by
  induction rounds generalizing data value with
  | zero => exact absurd enough (Nat.not_lt_zero _)
  | succ rounds ih =>
      cases data with
      | nil => rfl
      | cons char rest =>
          rw [List.length_cons] at enough
          by_cases isQuote : char = doubleQuote
          · have goes : (Place.quoted type value).move char =
                some (.go (.closed type (value ++ [char]))) := by
              rw [Place.move, if_pos isQuote]
            rw [read_go goes, parseQuoted, if_pos isQuote, onward_ok, isQuote]
          · by_cases isBackslash : char = backslash
            · have goes : (Place.quoted type value).move char =
                  some (.go (.quotedEscaped type (value ++ [char]))) := by
                rw [Place.move, if_neg isQuote, if_pos isBackslash]
              rw [read_go goes, parseQuoted, if_neg isQuote, if_neg (fun other => other isBackslash)]
              cases rest with
              | nil => rfl
              | cons second rest =>
                  have room : rest.length < rounds := by
                    rw [List.length_cons] at enough
                    omega
                  rw [read_go rfl, parse_pair, onward_bind, onward_ok, ih room, onward_bind]
                  simp only [onward_ok, isBackslash, List.append_assoc, List.cons_append,
                    List.nil_append]
            · have goes : (Place.quoted type value).move char =
                  some (.go (.quoted type (value ++ [char]))) := by
                rw [Place.move, if_neg isQuote, if_neg isBackslash]
              rw [read_go goes, parseQuoted, if_neg isQuote, if_pos isBackslash, ih (by omega),
                onward_bind]
              simp only [onward_ok, List.append_assoc, List.cons_append, List.nil_append]

theorem read_hex (type : Str) (enough : data.length ≤ rounds) (value : Str) (reader : Reader) :
    (reader.put (.hex type value false)).read data =
      onward (parseHexString rounds data) fun more rest =>
        (reader.put (.closed type (value ++ more))).read rest := by
  induction rounds generalizing data value with
  | zero =>
      rw [List.length_eq_zero_iff.mp (Nat.le_zero.mp enough), parseHexString, onward_ok,
        List.append_nil]
      rfl
  | succ rounds ih =>
      cases data with
      | nil =>
          have stops : parseHexString (rounds + 1) [] = .ok ([], []) := rfl
          rw [stops, onward_ok, List.append_nil]
          rfl
      | cons high rest =>
          rw [List.length_cons] at enough
          by_cases isHigh : high ∈ hexvalid
          · have goes (odd : Bool) {char : Byte} (isHex : char ∈ hexvalid) (value : Str) :
                (Place.hex type value odd).move char =
                  some (.go (.hex type (value ++ [char]) (!odd))) := by
              rw [Place.move, if_pos (List.contains_iff_mem.mpr isHex)]
            rw [read_go (goes false isHigh value), parseHexString]
            cases rest with
            | nil =>
                simp only [parseHexPair, List.take, List.takeWhile, isHigh, decide_true]
                rfl
            | cons low rest =>
                by_cases isLow : low ∈ hexvalid
                · rw [Bool.not_false, read_go (goes true isLow _), parse_hex_pair isHigh isLow,
                    onward_bind, onward_ok, Bool.not_true,
                    ih (by rw [List.length_cons] at enough; omega)]
                  dsimp only
                  rw [if_neg (List.cons_ne_nil _ _), onward_bind]
                  simp only [onward_ok, List.append_assoc, List.cons_append, List.nil_append]
                · have stuck : (Place.hex type (value ++ [high]) (!false)).move low = none := by
                    simp [Place.move, isLow]
                  rw [read_stuck stuck]
                  simp [parseHexPair, isHigh, isLow]
          · have stops : parseHexPair (high :: rest) true = .ok ([], high :: rest) := by
              simp [parseHexPair, isHigh]
            have notHex : hexvalid.contains high = false := by simpa using isHigh
            rw [parseHexString, stops, onward_bind, onward_ok]
            dsimp only
            rw [if_pos rfl, onward_ok, List.append_nil]
            apply read_alike
            · intro char more same
              obtain ⟨rfl, rfl⟩ := List.cons.inj same
              simp only [Place.move, notHex, Bool.false_eq_true, if_false]
            · exact fun none => absurd none (List.cons_ne_nil _ _)

theorem read_value (type : Str) (data : Str) (reader : Reader) :
    (reader.put (.pad type)).read data =
      onward (parseAttributeValue data) fun value rest =>
        (reader.put (.closed type value)).read rest := by
  rw [@read_blanks (.pad type) (by rfl), parseAttributeValue]
  cases eaten : eatWhite data with
  | nil => rfl
  | cons first rest =>
      have notSpace := eat_white_head eaten
      dsimp only
      by_cases isHash : first = hash
      · have goes : (Place.pad type).move first = some (.go (.hex type [first] false)) := by
          rw [Place.move, if_neg notSpace, if_pos isHash]
        rw [read_go goes, if_pos isHash, read_hex type (Nat.le_refl _), onward_bind]
        simp only [onward_ok, isHash, List.cons_append, List.nil_append]
      · by_cases isQuote : first = doubleQuote
        · have goes : (Place.pad type).move first = some (.go (.quoted type [first])) := by
            rw [Place.move, if_neg notSpace, if_neg isHash, if_pos isQuote]
          rw [read_go goes, if_neg isHash, if_pos isQuote, read_quoted type (Nat.lt_succ_self _),
            onward_bind]
          simp only [onward_ok, isQuote, List.cons_append, List.nil_append]
        · -- The first character is read as the others of the value are.
          have alike : (reader.put (.pad type)).read (first :: rest) =
              (reader.put (.plain type [])).read (first :: rest) := by
            apply read_alike
            · intro char more same
              obtain ⟨rfl, rfl⟩ := List.cons.inj same
              rw [Place.move, if_neg notSpace, if_neg isHash, if_neg isQuote, Place.move]
            · exact fun none => absurd none (List.cons_ne_nil _ _)
          rw [alike, if_neg isHash, if_neg isQuote, read_string type (Nat.le_refl _)]
          rfl

theorem read_while {p : Byte → Bool} {place : Str → Place}
    (goes : ∀ type char, p char = true → (place type).move char = some (.go (place (type ++ [char]))))
    (type data : Str) (reader : Reader) :
    (reader.put (place type)).read data =
      (reader.put (place (type ++ data.takeWhile p))).read (data.dropWhile p) := by
  induction data generalizing type with
  | nil => rw [List.takeWhile_nil, List.append_nil, List.dropWhile_nil]
  | cons char rest ih =>
      by_cases continues : p char = true
      · rw [read_go (goes type char continues), ih, List.takeWhile_cons_of_pos continues,
          List.dropWhile_cons_of_pos continues, List.append_assoc, List.singleton_append]
      · rw [List.takeWhile_cons_of_neg continues, List.dropWhile_cons_of_neg continues,
          List.append_nil]

theorem drop_while_head {p : Byte → Bool} {char : Byte}
    (dropped : data.dropWhile p = char :: rest) :
    p char = false := by
  have stops := List.head?_dropWhile_not p data
  rw [dropped] at stops
  exact stops

theorem read_oid {rounds : Nat} {data : Str} (enough : data.length ≤ rounds) (type : Str)
    (reader : Reader) :
    (reader.put (.number type)).read data =
      onward (parseOid rounds data) fun more rest =>
        (reader.put (.gap (type ++ more))).read rest := by
  induction rounds generalizing data type with
  | zero =>
      rw [List.length_eq_zero_iff.mp (Nat.le_zero.mp enough)]
      rfl
  | succ rounds ih =>
      have digit (type : Str) (char : Byte) (isDigit : isDigit char = true) :
          (Place.number type).move char = some (.go (.number (type ++ [char]))) := by
        rw [Place.move, if_pos isDigit]
      have shorter : (data.dropWhile isDigit).length ≤ data.length :=
        (List.dropWhile_sublist isDigit).length_le
      rw [read_while digit, parseOid]
      cases dropped : data.dropWhile isDigit with
      | nil => rfl
      | cons first rest =>
          have notDigit : ¬isDigit first = true := by
            rw [drop_while_head dropped]
            exact Bool.false_ne_true
          rw [dropped, List.length_cons] at shorter
          dsimp only
          by_cases isDot : first = dot
          · have goes (type : Str) : (Place.number type).move first =
                some (.go (.dotted (type ++ [first]))) := by
              rw [Place.move, if_neg notDigit, if_pos isDot]
            rw [read_go (goes _), if_pos isDot]
            cases rest with
            | nil =>
                cases rounds <;> rfl
            | cons second rest =>
                by_cases follows : isDigit second = true
                · have alike (type : Str) : (reader.put (.dotted type)).read (second :: rest) =
                      (reader.put (.number type)).read (second :: rest) := by
                    apply read_alike
                    · intro char more same
                      obtain ⟨rfl, rfl⟩ := List.cons.inj same
                      rw [Place.move, Place.move, if_pos follows, if_pos follows]
                    · exact fun none => absurd none (List.cons_ne_nil _ _)
                  have allowed : ¬(second :: rest ≠ [] ∧
                      ¬((second :: rest).head?.any isDigit) = true) := by simp [follows]
                  rw [alike, ih (by omega), if_neg allowed, onward_bind]
                  simp only [onward_ok, isDot, List.append_assoc, List.cons_append,
                    List.nil_append]
                · have stuck (type : Str) : (Place.dotted type).move second = none := by
                    rw [Place.move, if_neg follows]
                  have refused : second :: rest ≠ [] ∧
                      ¬((second :: rest).head?.any isDigit) = true := by simp [follows]
                  rw [read_stuck (stuck _), if_pos refused]
                  rfl
          · rw [if_neg isDot, onward_ok]
            apply read_alike
            · intro char more same
              obtain ⟨rfl, rfl⟩ := List.cons.inj same
              rw [Place.move, if_neg notDigit, if_neg isDot, Place.move]
            · exact fun none => absurd none (List.cons_ne_nil _ _)

theorem read_key (type data : Str) (reader : Reader)
    (noPrefix : ∀ more, data = data.takeWhile isKeychar ++ dot :: more →
      ¬(type ++ data.takeWhile isKeychar = text "oid" ∨
        type ++ data.takeWhile isKeychar = text "OID")) :
    (reader.put (.key type)).read data =
      (reader.put (.gap (type ++ data.takeWhile isKeychar))).read (data.dropWhile isKeychar) := by
  have keychar (type : Str) (char : Byte) (isKey : isKeychar char = true) :
      (Place.key type).move char = some (.go (.key (type ++ [char]))) := by
    rw [Place.move, if_pos isKey]
  have whole := List.takeWhile_append_dropWhile (p := isKeychar) (l := data)
  rw [read_while keychar]
  apply read_alike
  · intro char more dropped
    have notKey : ¬isKeychar char = true := by
      rw [drop_while_head dropped]
      exact Bool.false_ne_true
    rw [dropped] at whole
    have notOid : ¬(char = dot ∧ (type ++ data.takeWhile isKeychar = text "oid" ∨
        type ++ data.takeWhile isKeychar = text "OID")) := by
      rintro ⟨rfl, isOid⟩
      exact noPrefix more whole.symm isOid
    rw [Place.move, if_neg notKey, if_neg notOid, Place.move]
  · exact fun _ _ => rfl

theorem read_prefix {front : Str} (isPrefix : front = text "oid." ∨ front = text "OID.")
    (more : Str) (reader : Reader) :
    (reader.put .blank).read (front ++ more) = (reader.put (.number front)).read more := by
  obtain rfl | rfl := isPrefix
  · exact (@read_go .blank _ _ (by rfl) reader _).trans
      ((read_go (by rfl) reader _).trans
        ((read_go (by rfl) reader _).trans (read_go (by rfl) reader more)))
  · exact (@read_go .blank _ _ (by rfl) reader _).trans
      ((read_go (by rfl) reader _).trans
        ((read_go (by rfl) reader _).trans (read_go (by rfl) reader more)))

theorem read_type (data : Str) (reader : Reader) :
    (reader.put .blank).read data =
      onward (parseAttributeType data) fun type rest => (reader.put (.gap type)).read rest := by
  rw [@read_blanks .blank (by rfl), parseAttributeType]
  cases eaten : eatWhite data with
  | nil => rfl
  | cons first rest =>
      have notSpace := eat_white_head eaten
      dsimp only
      by_cases digit : isDigit first = true
      · have alike : (reader.put .blank).read (first :: rest) =
            (reader.put (.number [])).read (first :: rest) := by
          apply read_alike
          · intro char more same
            obtain ⟨rfl, rfl⟩ := List.cons.inj same
            rw [Place.move, if_neg notSpace, Place.beginType, if_pos digit, Place.move,
              if_pos digit, List.nil_append]
          · exact fun none => absurd none (List.cons_ne_nil _ _)
        rw [if_pos (.inl digit), if_pos digit, alike, read_oid (Nat.le_refl _)]
        rfl
      · by_cases isPrefix : (first :: rest).take 4 = text "oid." ∨
            (first :: rest).take 4 = text "OID."
        · have split := read_prefix isPrefix ((first :: rest).drop 4) reader
          rw [List.take_append_drop] at split
          rw [if_pos (.inr isPrefix), if_neg digit, split,
            @read_oid (first :: rest).length _ (by rw [List.length_drop]; omega),
            onward_bind]
          rfl
        · have noOid : ¬(isDigit first = true ∨ (first :: rest).take 4 = text "oid." ∨
              (first :: rest).take 4 = text "OID.") := by
            rintro (isDigit | other)
            · exact digit isDigit
            · exact isPrefix other
          rw [if_neg noOid]
          by_cases alpha : isAlpha first = true
          · have goes : Place.blank.move first = some (.go (.key [first])) := by
              rw [Place.move, if_neg notSpace, Place.beginType, if_neg digit, if_pos alpha]
            rw [if_pos alpha, onward_ok, read_go goes, read_key]
            · rfl
            · intro more whole isOid
              apply isPrefix
              rw [whole]
              obtain key | key := isOid
              · rw [← List.cons_append, ← List.singleton_append, key]
                exact .inl rfl
              · rw [← List.cons_append, ← List.singleton_append, key]
                exact .inr rfl
          · have stuck : Place.blank.move first = none := by
              rw [Place.move, if_neg notSpace, Place.beginType, if_neg digit, if_neg alpha]
            rw [if_neg alpha, onward_fail, read_stuck stuck]

theorem read_pair (data : Str) (reader : Reader) :
    (reader.put .blank).read data =
      onward (parseAttributeTypeAndValue data) fun pair rest =>
        (reader.put (.closed pair.1 pair.2)).read rest := by
  rw [read_type, parseAttributeTypeAndValue, onward_bind]
  apply congrArg (onward (parseAttributeType data))
  funext type rest
  rw [@read_blanks (.gap type) (by rfl)]
  dsimp only
  cases eaten : eatWhite rest with
  | nil => rfl
  | cons first rest =>
      have notSpace := eat_white_head eaten
      dsimp only
      by_cases isEquals : first = equals
      · have goes : (Place.gap type).move first = some (.go (.pad type)) := by
          rw [Place.move, Place.endType, if_neg notSpace, if_pos isEquals]
        rw [read_go goes, if_neg (fun other => other isEquals), read_value, onward_bind]
        rfl
      · have stuck : (Place.gap type).move first = none := by
          rw [Place.move, Place.endType, if_neg notSpace, if_neg isEquals]
        rw [read_stuck stuck, if_pos isEquals, onward_fail]

theorem read_joined (data : Str) (reader : Reader) (rdn : Rdn) :
    (reader.put (.closed rdn.1 rdn.2)).read data =
      ({ reader with joined := none }.put (.closed (joinedWith reader.joined rdn).1
        (joinedWith reader.joined rdn).2)).read data := by
  rw [@read_blanks (.closed rdn.1 rdn.2) (by rfl),
    @read_blanks (.closed (joinedWith reader.joined rdn).1 _) (by rfl)]
  cases eaten : eatWhite data with
  | nil => rfl
  | cons char rest =>
      have notSpace := eat_white_head eaten
      rw [read_cons, read_cons, step, step, put, put]
      dsimp only
      rw [Place.move, Place.move, if_neg notSpace, if_neg notSpace, Place.endValue, Place.endValue]
      split
      · rfl
      · split
        · rfl
        · split <;> rfl

/-- What is left of the text is no longer than `size`. -/
def Leaves {α : Type} (parsed : Except ParseException (α × Str)) (size : Nat) : Prop :=
  ∀ value rest, parsed = .ok (value, rest) → rest.length ≤ size

theorem leaves_ok {value : α} {size : Nat} (short : rest.length ≤ size) :
    Leaves (.ok (value, rest)) size := by
  intro other left same
  cases same
  exact short

theorem leaves_fail (reason : String) (size : Nat) :
    Leaves (fail reason : Except ParseException (α × Str)) size := by
  intro value rest same
  cases same

theorem Leaves.bind {α β : Type} {parsed : Except ParseException (α × Str)} {size : Nat}
    (leaves : Leaves parsed size) {more : α × Str → Except ParseException (β × Str)}
    (later : ∀ value rest, rest.length ≤ size → Leaves (more (value, rest)) size) :
    Leaves (parsed >>= more) size := by
  cases parsed with
  | error e =>
      intro value rest same
      cases same
  | ok pair => exact later pair.1 pair.2 (leaves pair.1 pair.2 rfl)

theorem Leaves.mono {α : Type} {parsed : Except ParseException (α × Str)} {size larger : Nat}
    (leaves : Leaves parsed size) (bigger : size ≤ larger) : Leaves parsed larger :=
  fun value rest same => (leaves value rest same).trans bigger

theorem eat_white_length (data : Str) : (eatWhite data).length ≤ data.length :=
  (List.dropWhile_sublist _).length_le

theorem leaves_hex_pair (data : Str) (allowEmpty : Bool) :
    Leaves (parseHexPair data allowEmpty) data.length := by
  unfold parseHexPair
  dsimp only
  split
  · split
    · exact leaves_ok (Nat.le_refl _)
    · exact leaves_fail _ _
  · exact leaves_ok (by rw [List.length_drop]; omega)

theorem leaves_hex (rounds : Nat) (data : Str) :
    Leaves (parseHexString rounds data) data.length := by
  induction rounds generalizing data with
  | zero => exact leaves_ok (Nat.le_refl _)
  | succ rounds ih =>
      apply (leaves_hex_pair data true).bind
      intro h rest short
      dsimp only
      split
      · exact leaves_ok short
      · apply ((ih rest).mono short).bind
        intro result left less
        exact leaves_ok less

theorem leaves_pair (data : Str) : Leaves (parsePair data) data.length := by
  cases data with
  | nil => exact leaves_fail _ _
  | cons char rest =>
      rw [parse_pair]
      exact leaves_ok (Nat.le_succ _)

theorem leaves_quoted (rounds : Nat) (data : Str) :
    Leaves (parseQuoted rounds data) data.length := by
  induction rounds generalizing data with
  | zero => exact leaves_ok (Nat.le_refl _)
  | succ rounds ih =>
      cases data with
      | nil => exact leaves_fail _ _
      | cons char rest =>
          rw [parseQuoted]
          split
          · exact leaves_ok (Nat.le_succ _)
          · split
            · apply ((ih rest).mono (Nat.le_succ _)).bind
              intro result left less
              exact leaves_ok less
            · apply ((leaves_pair rest).mono (Nat.le_succ _)).bind
              intro pair left less
              apply ((ih left).mono less).bind
              intro result left less
              exact leaves_ok less

theorem leaves_string (rounds : Nat) (data : Str) :
    Leaves (parseString rounds data) data.length := by
  induction rounds generalizing data with
  | zero => exact leaves_ok (Nat.le_refl _)
  | succ rounds ih =>
      cases data with
      | nil => exact leaves_ok (Nat.le_refl _)
      | cons char rest =>
          rw [parseString]
          split
          · apply ((leaves_pair rest).mono (Nat.le_succ _)).bind
            intro pair left less
            apply ((ih left).mono less).bind
            intro result left less
            exact leaves_ok less
          · split
            · apply ((ih rest).mono (Nat.le_succ _)).bind
              intro result left less
              exact leaves_ok less
            · exact leaves_ok (Nat.le_refl _)

theorem leaves_value (data : Str) : Leaves (parseAttributeValue data) data.length := by
  have eaten := eat_white_length data
  unfold parseAttributeValue
  split
  · exact leaves_ok (Nat.zero_le _)
  · next first rest shape =>
      rw [shape, List.length_cons] at eaten
      split
      · apply ((leaves_hex _ rest).mono (by omega)).bind
        intro result left less
        exact leaves_ok less
      · split
        · apply ((leaves_quoted _ rest).mono (by omega)).bind
          intro result left less
          exact leaves_ok less
        · exact (leaves_string _ _).mono eaten

theorem leaves_oid (rounds : Nat) (data : Str) : Leaves (parseOid rounds data) data.length := by
  induction rounds generalizing data with
  | zero => exact leaves_ok (Nat.le_refl _)
  | succ rounds ih =>
      have shorter : (data.dropWhile isDigit).length ≤ data.length :=
        (List.dropWhile_sublist isDigit).length_le
      rw [parseOid]
      dsimp only
      split
      · exact leaves_ok (Nat.zero_le _)
      · next first rest dropped =>
          rw [dropped, List.length_cons] at shorter
          split
          · split
            · exact leaves_fail _ _
            · apply ((ih rest).mono (by omega)).bind
              intro result left less
              exact leaves_ok less
          · exact leaves_ok shorter

theorem leaves_type (data : Str) : Leaves (parseAttributeType data) data.length := by
  have eaten := eat_white_length data
  unfold parseAttributeType
  split
  · exact leaves_fail _ _
  · next first rest shape =>
      rw [shape] at eaten
      dsimp only
      split
      · split
        · exact (leaves_oid _ _).mono eaten
        · apply (@Leaves.mono _ _ ((first :: rest).drop 4).length _ (leaves_oid _ _) (by
            rw [List.length_drop]
            omega)).bind
          intro result left less
          exact leaves_ok less
      · split
        · apply leaves_ok
          have shorter := (List.dropWhile_sublist (l := rest) isKeychar).length_le
          rw [List.length_cons] at eaten
          omega
        · exact leaves_fail _ _

theorem leaves_type_and_value (data : Str) :
    Leaves (parseAttributeTypeAndValue data) data.length := by
  apply (leaves_type data).bind
  intro type rest short
  have eaten := eat_white_length rest
  dsimp only
  split
  · exact leaves_fail _ _
  · next first left shape =>
      rw [shape, List.length_cons] at eaten
      split
      · exact leaves_fail _ _
      · apply ((leaves_value left).mono (by omega)).bind
        intro value after less
        exact leaves_ok less

theorem leaves_joined (rounds : Nat) (final : Rdn) (data : Str) :
    Leaves (parseJoined rounds final data) data.length := by
  induction rounds generalizing final data with
  | zero => exact leaves_ok (Nat.le_refl _)
  | succ rounds ih =>
      have eaten := eat_white_length data
      unfold parseJoined
      split
      · exact leaves_ok (Nat.zero_le _)
      · next first rest shape =>
          rw [shape, List.length_cons] at eaten
          split
          · apply ((leaves_type_and_value rest).mono (by omega)).bind
            intro pair left less
            exact (ih _ left).mono less
          · exact leaves_ok eaten

theorem leaves_component (data : Str) : Leaves (parseNameComponent data) data.length := by
  apply (leaves_type_and_value data).bind
  intro final rest short
  exact (leaves_joined _ final rest).mono short

theorem onward_congr {parsed : Except ParseException (α × Str)}
    {first second : α → Str → Option (List RDNEntry)}
    (same : ∀ value rest, parsed = .ok (value, rest) → first value rest = second value rest) :
    onward parsed first = onward parsed second := by
  cases parsed with
  | error e => rfl
  | ok pair => exact same pair.1 pair.2 rfl

theorem read_rest (enough : data.length < rounds) (final : Rdn) {reader : Reader}
    (alone : reader.joined = none) :
    (reader.put (.closed final.1 final.2)).read data =
      onward (parseJoined rounds final data) fun final rest =>
        (reader.put (.closed final.1 final.2)).read rest := by
  induction rounds generalizing data final with
  | zero => exact absurd enough (Nat.not_lt_zero _)
  | succ rounds ih =>
      have eaten := eat_white_length data
      rw [@read_blanks (.closed final.1 final.2) (by rfl), parseJoined]
      cases shape : eatWhite data with
      | nil => rfl
      | cons first rest =>
          have notSpace := eat_white_head shape
          rw [shape, List.length_cons] at eaten
          dsimp only
          by_cases isPlus : first = plus
          · have joins : (reader.put (.closed final.1 final.2)).read (first :: rest) =
                ({ reader with joined := some final }.put .blank).read rest := by
              rw [read_cons, step, put]
              dsimp only
              rw [Place.move, if_neg notSpace, Place.endValue, if_pos isPlus, Option.bind_some,
                moved, alone]
              rfl
            rw [joins, if_pos isPlus, read_pair, onward_bind]
            apply onward_congr
            intro pair left parsed
            have less := leaves_type_and_value rest pair left parsed
            rw [read_joined left _ pair]
            have later := @ih left (by omega)
              (final.1, final.2 ++ plus :: pair.1 ++ equals :: pair.2)
            rw [← later]
            cases reader
            cases alone
            rfl
          · rw [if_neg isPlus, onward_ok]

theorem read_component (data : Str) {reader : Reader} (alone : reader.joined = none) :
    (reader.put .blank).read data =
      onward (parseNameComponent data) fun component rest =>
        (reader.put (.closed component.1 component.2)).read rest := by
  rw [read_pair, parseNameComponent, onward_bind]
  apply congrArg (onward (parseAttributeTypeAndValue data))
  funext final rest
  exact read_rest (Nat.lt_succ_self _) final alone

theorem joined_stops (enough : data.length < rounds) {final : Rdn} {value : Rdn}
    (parsed : parseJoined rounds final data = .ok (value, rest)) :
    (eatWhite rest).head? ≠ some plus := by
  induction rounds generalizing data final with
  | zero => exact absurd enough (Nat.not_lt_zero _)
  | succ rounds ih =>
      have eaten := eat_white_length data
      rw [parseJoined] at parsed
      cases shape : eatWhite data with
      | nil =>
          rw [shape] at parsed
          cases parsed
          simp [eatWhite]
      | cons first more =>
          have notSpace := eat_white_head shape
          rw [shape] at parsed
          rw [shape, List.length_cons] at eaten
          dsimp only at parsed
          by_cases isPlus : first = plus
          · rw [if_pos isPlus] at parsed
            cases read : parseAttributeTypeAndValue more with
            | error e =>
                rw [read] at parsed
                cases parsed
            | ok pair =>
                rw [read] at parsed
                have less := leaves_type_and_value more pair.1 pair.2 read
                exact ih (by omega) parsed
          · rw [if_neg isPlus] at parsed
            cases parsed
            rw [eatWhite, List.dropWhile_cons_of_neg (by simpa using notSpace)]
            simpa using isPlus

theorem component_stops {component : Rdn}
    (parsed : parseNameComponent data = .ok (component, rest)) :
    (eatWhite rest).head? ≠ some plus := by
  rw [parseNameComponent] at parsed
  cases read : parseAttributeTypeAndValue data with
  | error e =>
      rw [read] at parsed
      cases parsed
  | ok pair =>
      rw [read] at parsed
      exact joined_stops (Nat.lt_succ_self _) parsed

theorem onward_results (parsed : Except ParseException (Rdn × Str))
    (more : Rdn × Str → Except ParseException (List RDNEntry)) (results : List RDNEntry) :
    (parsed >>= more).toOption.map (results ++ ·) =
      onward parsed fun component rest =>
        (more (component, rest)).toOption.map (results ++ ·) := by
  cases parsed <;> rfl

theorem read_start {first : Byte} (notSpace : first ≠ space) (notNegated : first ≠ exclamation)
    (rest : Str) (reader : Reader) :
    (reader.put (.start false)).read (first :: rest) = (reader.put .blank).read (first :: rest) := by
  apply read_alike
  · intro char more same
    obtain ⟨rfl, rfl⟩ := List.cons.inj same
    rw [Place.move, if_neg notSpace, if_neg notNegated, Place.move, if_neg notSpace]
  · exact fun none => absurd none (List.cons_ne_nil _ _)

theorem read_fresh (nonempty : data ≠ []) (reader : Reader) :
    (reader.put (.start true)).read data = (reader.put (.start false)).read data := by
  apply read_alike
  · exact fun _ _ _ => rfl
  · exact fun none => absurd none nonempty

def entriesBehind (rounds : Nat) (current : RDNEntry) (parsed : Rdn × Str) :
    Except ParseException (List RDNEntry) :=
  let entry : RDNEntry := ⟨current.rdn ++ [parsed.1], current.negate⟩
  match eatWhite parsed.2 with
  | [] => .ok [entry]
  | first :: rest =>
      if first = comma then parseEntries rounds entry rest
      else if first = semicolon then do
        let results ← parseEntries rounds ⟨[], false⟩ rest
        .ok (entry :: results)
      else expectedSeparator (first :: rest)

theorem read_behind {rounds : Nat} {data : Str} (enough : data.length ≤ rounds)
    (later : ∀ rest : Str, rest.length < rounds → ∀ results current,
      (Reader.mk results current none (.start true)).read rest =
        (parseEntries rounds current rest).toOption.map (results ++ ·))
    (results : List RDNEntry) (current : RDNEntry) (place : Place) :
    ((Reader.mk results current none place).put .blank).read data =
      (parseNameComponent data >>= entriesBehind rounds current).toOption.map (results ++ ·) := by
  rw [onward_results, read_component _ rfl]
  apply onward_congr
  intro component rest parsed
  have less := leaves_component data component rest parsed
  have stops := component_stops parsed
  have eaten := eat_white_length rest
  rw [@read_blanks (.closed component.1 component.2) (by rfl), entriesBehind]
  dsimp only
  cases shape : eatWhite rest with
  | nil => rfl
  | cons first left =>
      have notSpace := eat_white_head shape
      rw [shape] at stops
      rw [shape, List.length_cons] at eaten
      have notPlus : first ≠ plus := by simpa using stops
      have room : left.length < rounds := by omega
      dsimp only
      rw [read_cons, step, put]
      dsimp only
      rw [Place.move, if_neg notSpace, Place.endValue, if_neg notPlus]
      by_cases isComma : first = comma
      · rw [if_pos isComma, if_pos isComma, Option.bind_some, moved, Option.bind_some]
        exact later left room results _
      · rw [if_neg isComma, if_neg isComma]
        by_cases isSemicolon : first = semicolon
        · rw [if_pos isSemicolon, if_pos isSemicolon, Option.bind_some, moved, Option.bind_some]
          refine (later left room (results ++ [⟨current.rdn ++ [component], current.negate⟩])
            ⟨[], false⟩).trans ?_
          cases parseEntries rounds ⟨[], false⟩ left with
          | error e => rfl
          | ok entries => exact congrArg some (List.append_assoc results [_] entries)
        · rw [if_neg isSemicolon, if_neg isSemicolon]
          rfl

theorem read_entries (enough : data.length < rounds) (results : List RDNEntry)
    (current : RDNEntry) :
    (Reader.mk results current none (.start true)).read data =
      (parseEntries rounds current data).toOption.map (results ++ ·) := by
  induction rounds generalizing data results current with
  | zero => exact absurd enough (Nat.not_lt_zero _)
  | succ rounds ih =>
      cases data with
      | nil => rfl
      | cons char more =>
          have eaten := eat_white_length (char :: more)
          have behind (front : Str) (short : front.length ≤ (char :: more).length) :=
            @read_behind rounds front (by omega)
              (fun rest room results current => ih room results current) results
          have fresh := read_fresh (List.cons_ne_nil char more)
            (Reader.mk results current none (.start true))
          refine fresh.trans ?_
          rw [@read_blanks (.start false) (by rfl), parseEntries]
          dsimp only
          cases shape : eatWhite (char :: more) with
          | nil =>
              have refused : parseNameComponent [] =
                  fail "invalid attribute type (expected end of data)" := rfl
              rw [if_neg (by simp), if_neg (by simp), refused]
              rfl
          | cons first rest =>
              have notSpace := eat_white_head shape
              rw [shape] at eaten
              by_cases negated : first = exclamation
              · subst negated
                by_cases unset : current.rdn = []
                · have begins : ((Reader.mk results current none (.start true)).put
                      (.start false)).read (exclamation :: rest) =
                      ((Reader.mk results ⟨current.rdn, true⟩ none .blank).put .blank).read rest := by
                    rw [read_cons, step, put]
                    dsimp only
                    rw [Place.move, if_neg (by decide), if_pos rfl, Option.bind_some, moved,
                      if_neg (fun other => other unset)]
                    rfl
                  rw [begins, behind rest (by rw [List.length_cons] at eaten; omega),
                    if_neg (by simp [unset]), if_pos (by simp)]
                  simp only [List.head?_cons, decide_true, Bool.or_true, List.tail_cons]
                  rfl
                · have stuck : ((Reader.mk results current none (.start true)).put
                      (.start false)).read (exclamation :: rest) = none := by
                    rw [read_cons, step, put]
                    dsimp only
                    rw [Place.move, if_neg (by decide), if_pos rfl, Option.bind_some, moved,
                      if_pos unset]
                    rfl
                  rw [stuck, if_pos ⟨by simp, unset⟩]
                  rfl
              · have plain : ¬(first :: rest).head? = some exclamation := by simpa using negated
                rw [read_start notSpace negated, behind (first :: rest) eaten, decide_eq_false plain,
                  if_neg (fun other => plain other.1), if_neg plain]
                simp only [Bool.or_false]
                rfl

theorem parse_read (data : Str) : (parse data).toOption = Reader.initial.read data := by
  rw [Reader.initial, read_entries (Nat.lt_succ_self _) [] ⟨[], false⟩, parse]
  simp

end IceTouch.Ssl
