import IceTouch.Strings.ProxyStrings

/-!
# Distinguished names in their text form

`RFC2253::parse` and `parseStrict`, which copy the values as they are written, and `unescape`,
which decodes them afterwards. Where the source keeps a position in a string, the text from
there on is passed on, and a loop that calls another function for each piece has a round for
each character.
-/

namespace IceTouch.Ssl

open Bytes WireTypes Escape Scanning
open Proxies (space dot byte)

abbrev exclamation : Byte := 33
abbrev hash : Byte := 35
abbrev plus : Byte := 43
abbrev comma : Byte := 44
abbrev semicolon : Byte := 59
abbrev equals : Byte := 61

structure ParseException where
  reason : Str
deriving DecidableEq

abbrev Rdn := Str × Str

structure RDNEntry where
  rdn : List Rdn
  negate : Bool
deriving DecidableEq

def special : Str := text ",=+<>#;"

def hexvalid : Str := text "0123456789abcdefABCDEF"

def isAlpha (char : Byte) : Bool :=
  (byte 'a' ≤ char && char ≤ byte 'z') || (byte 'A' ≤ char && char ≤ byte 'Z')

/-- `keychar`. -/
def isKeychar (char : Byte) : Bool := isAlpha char || isDigit char || char = minus

def fail {α : Type} (reason : String) : Except ParseException α := .error ⟨text reason⟩

def eatWhite (data : Str) : Str := data.dropWhile fun char => char = space

def hexToInt (v : Byte) : Except ParseException Nat :=
  if byte '0' ≤ v ∧ v ≤ byte '9' then .ok (v.toNat - 48)
  else if byte 'a' ≤ v ∧ v ≤ byte 'f' then .ok (10 + (v.toNat - 97))
  else if byte 'A' ≤ v ∧ v ≤ byte 'F' then .ok (10 + (v.toNat - 65))
  else fail "unescape: invalid hex pair"

def unescapeHex : Str → Except ParseException Byte
  | high :: low :: _ :: _ => do
      let first ← hexToInt high
      let second ← hexToInt low
      .ok (UInt8.ofNat (first * 16 + second))
  | _ => fail "unescape: invalid hex pair"

/-- The loop for what follows a hash. -/
def unescapeHexString : Str → Except ParseException Str
  | [] => .ok []
  | [last] => (unescapeHex [last]).map fun char => [char]
  | high :: low :: more => do
      let char ← unescapeHex (high :: low :: more)
      let result ← unescapeHexString more
      .ok (char :: result)

def unescapePairs : Str → Except ParseException Str
  | [] => .ok []
  | char :: rest =>
      if char ≠ backslash then do
        let result ← unescapePairs rest
        .ok (char :: result)
      else
        match rest with
        | [] => fail "unescape: invalid escape sequence"
        | escaped :: more =>
            if escaped ∈ special ∨ escaped ≠ backslash ∨ escaped ≠ doubleQuote then do
              let result ← unescapePairs more
              .ok (escaped :: result)
            else
              match more with
              | [] => (unescapeHex [escaped]).map fun char => [char]
              | low :: more => do
                  let char ← unescapeHex (escaped :: low :: more)
                  let result ← unescapePairs more
                  .ok (char :: result)

def unescape : Str → Except ParseException Str
  | [] => .ok []
  | first :: rest =>
      if first = doubleQuote then
        if (first :: rest).getLast? ≠ some doubleQuote then fail "unescape: missing \""
        else .ok rest.dropLast
      else if first = hash then unescapeHexString rest
      else unescapePairs (first :: rest)

def parseHexPair (data : Str) (allowEmpty : Bool) : Except ParseException (Str × Str) :=
  let result := (data.take 2).takeWhile fun char => decide (char ∈ hexvalid)
  if result.length ≠ 2 then
    if allowEmpty ∧ result = [] then .ok ([], data) else fail "invalid hex format"
  else .ok (result, data.drop 2)

/-- A pair, of which `data` is what comes after its backslash. -/
def parsePair (data : Str) : Except ParseException (Str × Str) :=
  match data with
  | [] => fail "invalid escape format (unexpected end of data)"
  | char :: rest =>
      if char ∈ special ∨ char ≠ backslash ∨ char ≠ doubleQuote then .ok ([backslash, char], rest)
      else parseHexPair data false

/-- The loop for what follows a hash. -/
def parseHexString : Nat → Str → Except ParseException (Str × Str)
  | 0, data => .ok ([], data)
  | rounds + 1, data => do
      let (h, rest) ← parseHexPair data true
      if h = [] then .ok ([], rest)
      else do
        let (result, rest) ← parseHexString rounds rest
        .ok (h ++ result, rest)

def parseQuoted : Nat → Str → Except ParseException (Str × Str)
  | 0, data => .ok ([], data)
  | _ + 1, [] => fail "invalid attribute value (unexpected end of data)"
  | rounds + 1, char :: rest =>
      if char = doubleQuote then .ok ([doubleQuote], rest)
      else if char ≠ backslash then do
        let (result, rest) ← parseQuoted rounds rest
        .ok (char :: result, rest)
      else do
        let (pair, rest) ← parsePair rest
        let (result, rest) ← parseQuoted rounds rest
        .ok (pair ++ result, rest)

def parseString : Nat → Str → Except ParseException (Str × Str)
  | 0, data => .ok ([], data)
  | _ + 1, [] => .ok ([], [])
  | rounds + 1, char :: rest =>
      if char = backslash then do
        let (pair, rest) ← parsePair rest
        let (result, rest) ← parseString rounds rest
        .ok (pair ++ result, rest)
      else if char ∉ special ∧ char ≠ doubleQuote then do
        let (result, rest) ← parseString rounds rest
        .ok (char :: result, rest)
      else .ok ([], char :: rest)

def parseAttributeValue (data : Str) : Except ParseException (Str × Str) :=
  match eatWhite data with
  | [] => .ok ([], [])
  | first :: rest =>
      if first = hash then do
        let (result, rest) ← parseHexString rest.length rest
        .ok (hash :: result, rest)
      else if first = doubleQuote then do
        let (result, rest) ← parseQuoted (rest.length + 1) rest
        .ok (doubleQuote :: result, rest)
      else parseString (rest.length + 1) (first :: rest)

/-- The loop over the numbers of an oid. -/
def parseOid : Nat → Str → Except ParseException (Str × Str)
  | 0, data => .ok ([], data)
  | rounds + 1, data =>
      let digits := data.takeWhile isDigit
      match data.dropWhile isDigit with
      | [] => .ok (digits, [])
      | first :: rest =>
          if first = dot then
            if rest ≠ [] ∧ ¬(rest.head?.any isDigit) then
              fail "invalid attribute type (expected end of data)"
            else do
              let (result, rest) ← parseOid rounds rest
              .ok (digits ++ dot :: result, rest)
          else .ok (digits, first :: rest)

def parseAttributeType (data : Str) : Except ParseException (Str × Str) :=
  match eatWhite data with
  | [] => fail "invalid attribute type (expected end of data)"
  | first :: rest =>
      let data := first :: rest
      if isDigit first ∨ data.take 4 = text "oid." ∨ data.take 4 = text "OID." then
        if isDigit first then parseOid data.length data
        else do
          let (result, rest) ← parseOid data.length (data.drop 4)
          .ok (data.take 4 ++ result, rest)
      else if isAlpha first then .ok (first :: rest.takeWhile isKeychar, rest.dropWhile isKeychar)
      else fail "invalid attribute type"

def parseAttributeTypeAndValue (data : Str) : Except ParseException (Rdn × Str) := do
  let (type, rest) ← parseAttributeType data
  match eatWhite rest with
  | [] => fail "invalid attribute type/value pair (unexpected end of data)"
  | first :: rest =>
      if first ≠ equals then fail "invalid attribute type/value pair (missing =)"
      else do
        let (value, rest) ← parseAttributeValue rest
        .ok ((type, value), rest)

def parseJoined : Nat → Rdn → Str → Except ParseException (Rdn × Str)
  | 0, final, data => .ok (final, data)
  | rounds + 1, final, data =>
      match eatWhite data with
      | [] => .ok (final, [])
      | first :: rest =>
          if first = plus then do
            let (p, rest) ← parseAttributeTypeAndValue rest
            parseJoined rounds (final.1, final.2 ++ plus :: p.1 ++ equals :: p.2) rest
          else .ok (final, first :: rest)

def parseNameComponent (data : Str) : Except ParseException (Rdn × Str) := do
  let (final, rest) ← parseAttributeTypeAndValue data
  parseJoined (rest.length + 1) final rest

def expectedSeparator {α : Type} (data : Str) : Except ParseException α :=
  .error ⟨text "expected ',' or ';' at \x60" ++ data ++ text "'"⟩

/-- The loop of `parseStrict`. -/
def parseComponents : Nat → Str → Except ParseException (List Rdn)
  | 0, _ => .ok []
  | _ + 1, [] => .ok []
  | rounds + 1, char :: rest => do
      let (component, rest) ← parseNameComponent (char :: rest)
      match eatWhite rest with
      | [] => .ok [component]
      | first :: rest =>
          if first = comma ∨ first = semicolon then do
            let results ← parseComponents rounds rest
            .ok (component :: results)
          else expectedSeparator (first :: rest)

def parseStrict (data : Str) : Except ParseException (List Rdn) :=
  parseComponents data.length data

/-- The loop of `parse`, with the entry that is being collected. -/
def parseEntries : Nat → RDNEntry → Str → Except ParseException (List RDNEntry)
  | 0, _, _ => .ok []
  | _ + 1, current, [] => .ok (if current.rdn = [] then [] else [current])
  | rounds + 1, current, char :: more => do
      let data := eatWhite (char :: more)
      let negated := data.head? = some exclamation
      if negated ∧ current.rdn ≠ [] then
        fail "negation symbol '!' must appear at start of list"
      else do
        let (component, rest) ← parseNameComponent (if negated then data.tail else data)
        let current : RDNEntry := ⟨current.rdn ++ [component], current.negate || negated⟩
        match eatWhite rest with
        | [] => .ok [current]
        | first :: rest =>
            if first = comma then parseEntries rounds current rest
            else if first = semicolon then do
              let results ← parseEntries rounds ⟨[], false⟩ rest
              .ok (current :: results)
            else expectedSeparator (first :: rest)

def parse (data : Str) : Except ParseException (List RDNEntry) :=
  parseEntries (data.length + 1) ⟨[], false⟩ data

end IceTouch.Ssl
