import IceTouch.Strings.Identities
import IceTouch.Library.Scanning

/-!
# Stringified proxies

`RoutableReference::toString`, with the `toString` of its base class and of `TcpEndpointI`, and
`ReferenceFactory::create`, with `EndpointFactoryManager::create` and the `TcpEndpointI` that
reads a string. No string converter is installed, and the factories of other endpoints are a
parameter. Where the source keeps a position in a string, the text from there on is passed on.
-/

namespace IceTouch.Proxies

open Bytes WireTypes Escape Identities Scanning

abbrev space : Byte := 32
abbrev star : Byte := 42
abbrev dot : Byte := 46
abbrev colon : Byte := 58
abbrev atSign : Byte := 64

def byte (char : Char) : Byte := UInt8.ofNat char.toNat

/-- The characters of `delim`. -/
def isBlank (char : Byte) : Bool :=
  char = space || char = tab || char = carriageReturn || char = newline

/-- The characters of `delim + ":@"`. -/
def isSeparator (char : Byte) : Bool := isBlank char || char = colon || char = atSign

structure TcpEndpoint where
  host : Str
  port : BitVec 32
  timeout : BitVec 32
  connectionId : Str
  compress : Bool
deriving DecidableEq

inductive Endpoint (ω : Type) where
  | tcp (endpoint : TcpEndpoint)
  | other (endpoint : ω)
deriving DecidableEq

/-- What the string of a `RoutableReference` carries. Endpoints exclude an adapter id. -/
structure Reference (ω : Type) where
  identity : Identity
  facet : Str
  mode : ProxyMode
  secure : Bool
  protocol : Version
  encoding : Version
  endpoints : List (Endpoint ω)
  adapterId : Str
  direct : endpoints ≠ [] → adapterId = []
deriving DecidableEq

inductive ParseError where
  | proxyParse (str : Str)
  | identityParse (str : Str)
  | illegalIdentity (id : Identity)
  | endpointParse (str : Str)
deriving DecidableEq

/-- The defaults, and the endpoints that are not TCP. -/
structure Instance (ω : Type) where
  defaultEncoding : Version
  defaultProtocol : Str
  defaultHost : Str
  toString : ω → Str
  /-- What the factory for a protocol makes of a string, if there is one. -/
  create : Str → Str → Except ParseError (Option ω)

variable {ω : Type}

def TcpEndpoint.toString (endpoint : TcpEndpoint) : Str :=
  text "tcp" ++
    (if endpoint.host = [] then []
      else text " -h " ++
        if colon ∈ endpoint.host then doubleQuote :: (endpoint.host ++ [doubleQuote])
        else endpoint.host) ++
    text " -p " ++ printInt endpoint.port.toInt ++
    (if endpoint.timeout.toInt = -1 then []
      else text " -t " ++ printInt endpoint.timeout.toInt) ++
    if endpoint.compress then text " -z" else []

def Endpoint.toString (instance' : Instance ω) : Endpoint ω → Str
  | .tcp endpoint => endpoint.toString
  | .other endpoint => instance'.toString endpoint

/-- A string with characters which the parser uses as separators is enclosed in quotes. -/
def enclose (s : Str) : Str :=
  if space ∈ s ∨ colon ∈ s ∨ atSign ∈ s then doubleQuote :: (s ++ [doubleQuote]) else s

def modeString : ProxyMode → Str
  | .twoway => text " -t"
  | .oneway => text " -o"
  | .batchOneway => text " -O"
  | .datagram => text " -d"
  | .batchDatagram => text " -D"

def versionToString (version : Version) : Str :=
  decimal version.major.toNat ++ dot :: decimal version.minor.toNat

def protocol10 : Version := ⟨1, 0⟩

/-- `Reference::toString`. -/
def Reference.baseString (reference : Reference ω) : Except IllegalArgument Str := do
  let id ← identityToString reference.identity
  let facet ←
    if reference.facet = [] then .ok []
    else do
      let fs ← escapeString reference.facet []
      .ok (text " -f " ++ enclose fs)
  .ok (enclose id ++ facet ++ modeString reference.mode ++
    (if reference.secure then text " -s" else []) ++
    (if reference.protocol = protocol10 then []
      else text " -p " ++ versionToString reference.protocol) ++
    text " -e " ++ versionToString reference.encoding)

/-- `RoutableReference::toString`. -/
def Reference.toString (instance' : Instance ω) (reference : Reference ω) :
    Except IllegalArgument Str := do
  let result ← reference.baseString
  if reference.endpoints ≠ [] then
    .ok (result ++ reference.endpoints.flatMap fun endpoint =>
      let endp := endpoint.toString instance'
      if endp = [] then [] else colon :: endp)
  else if reference.adapterId ≠ [] then do
    let a ← escapeString reference.adapterId []
    .ok (result ++ text " @ " ++ enclose a)
  else .ok result

def optionLetter : Str → Option Byte
  | [dash, letter] => if dash = minus then some letter else none
  | _ => none

/-- An argument in double quotes is taken without them; of a single double quote nothing is
left. -/
def stripQuotes (argument : Str) : Str :=
  if argument.head? = some doubleQuote ∧ argument.getLast? = some doubleQuote then
    argument.tail.dropLast
  else argument

/-- The `switch` over the options of a TCP endpoint. -/
def TcpEndpoint.apply (str option : Str) (letter : Byte) (argument : Str)
    (endpoint : TcpEndpoint) : Except ParseError TcpEndpoint :=
  if letter = byte 'h' then
    if argument = [] then
      .error (.endpointParse (text "no argument provided for -h option in endpoint \x60tcp " ++
        str ++ text "'"))
    else .ok { endpoint with host := argument }
  else if letter = byte 'p' then
    if argument = [] then
      .error (.endpointParse (text "no argument provided for -p option in endpoint \x60tcp " ++
        str ++ text "'"))
    else
      match readInt argument with
      | none =>
          .error (.endpointParse (text "invalid port value \x60" ++ argument ++
            text "' in endpoint \x60tcp " ++ str ++ text "'"))
      | some port =>
          if port < 0 ∨ 65535 < port then
            .error (.endpointParse (text "port value \x60" ++ argument ++
              text "' out of range in endpoint \x60tcp " ++ str ++ text "'"))
          else .ok { endpoint with port := BitVec.ofInt 32 port }
  else if letter = byte 't' then
    if argument = [] then
      .error (.endpointParse (text "no argument provided for -t option in endpoint \x60tcp " ++
        str ++ text "'"))
    else
      match readInt argument with
      | none =>
          .error (.endpointParse (text "invalid timeout value \x60" ++ argument ++
            text "' in endpoint \x60tcp " ++ str ++ text "'"))
      | some timeout => .ok { endpoint with timeout := BitVec.ofInt 32 timeout }
  else if letter = byte 'z' then
    if argument ≠ [] then
      .error (.endpointParse (text "unexpected argument \x60" ++ argument ++
        text "' provided for -z option in \x60tcp " ++ str ++ text "'"))
    else .ok { endpoint with compress := true }
  else
    .error (.endpointParse (text "unknown option \x60" ++ option ++ text "' in endpoint \x60tcp " ++
      str ++ text "'"))

/-- The loop over the options of a TCP endpoint, which are words of the string. A word that
does not start with a dash is the argument of the option before it. -/
def TcpEndpoint.readOptions (str : Str) : TcpEndpoint → List Str → Except ParseError TcpEndpoint
  | endpoint, [] => .ok endpoint
  | endpoint, [option] =>
      match optionLetter option with
      | none =>
          .error (.endpointParse (text "expected an endpoint option but found \x60" ++ option ++
            text "' in endpoint \x60tcp " ++ str ++ text "'"))
      | some letter => endpoint.apply str option letter []
  | endpoint, option :: word :: more =>
      match optionLetter option with
      | none =>
          .error (.endpointParse (text "expected an endpoint option but found \x60" ++ option ++
            text "' in endpoint \x60tcp " ++ str ++ text "'"))
      | some letter =>
          if word.head? = some minus then do
            let endpoint ← endpoint.apply str option letter []
            endpoint.readOptions str (word :: more)
          else do
            let endpoint ← endpoint.apply str option letter (stripQuotes word)
            endpoint.readOptions str more

/-- The `TcpEndpointI` that reads a string. -/
def TcpEndpoint.create (instance' : Instance ω) (str : Str) (oaEndpoint : Bool) :
    Except ParseError TcpEndpoint := do
  let endpoint ← TcpEndpoint.readOptions str ⟨[], 0, -1, [], false⟩ (words isBlank str)
  if endpoint.host = [] then .ok { endpoint with host := instance'.defaultHost }
  else if endpoint.host = [star] then
    if oaEndpoint then .ok { endpoint with host := [] }
    else
      .error (.endpointParse (text "\x60-h *' not valid for proxy endpoint \x60tcp " ++ str ++
        text "'"))
  else .ok endpoint

/-- `EndpointFactoryManager::create`. -/
def createEndpoint (instance' : Instance ω) (str : Str) (oaEndpoint : Bool) :
    Except ParseError (Option (Endpoint ω)) :=
  let found := str.dropWhile isBlank
  if found = [] then .error (.endpointParse (text "value has no non-whitespace characters"))
  else
    let name := found.takeWhile fun char => !isBlank char
    let rest := found.dropWhile fun char => !isBlank char
    let protocol := if name = text "default" then instance'.defaultProtocol else name
    if protocol = text "tcp" then
      (TcpEndpoint.create instance' rest oaEndpoint).map fun endpoint => some (.tcp endpoint)
    else (instance'.create protocol rest).map fun endpoint => endpoint.map .other

/-- `stringToMajorMinor`, with the text of the `VersionParseException`. -/
def stringToVersion (str : Str) : Except Str Version :=
  if dot ∉ str then .error (text "malformed version value \x60" ++ str ++ text "'")
  else
    match readInt (str.takeWhile fun char => char ≠ dot) with
    | none => .error (text "invalid major version value \x60" ++ str ++ text "'")
    | some major =>
        match readInt (str.dropWhile fun char => char ≠ dot).tail with
        | none => .error (text "invalid minor version value \x60" ++ str ++ text "'")
        | some minor =>
            if major < 1 ∨ 255 < major ∨ minor < 0 ∨ 255 < minor then
              .error (text "range error in version \x60" ++ str ++ text "'")
            else .ok ⟨UInt8.ofNat major.toNat, UInt8.ofNat minor.toNat⟩

/-- The loop of `checkQuote`: the text before the quote that has no backslash before it, and
the text after it. -/
def closeQuote (quoteChar : Byte) : Byte → Str → Option (Str × Str)
  | _, [] => none
  | previous, char :: rest =>
      if char = quoteChar ∧ previous ≠ backslash then some ([], rest)
      else (closeQuote quoteChar char rest).map fun (content, after) => (char :: content, after)

inductive Quoted where
  | bare
  | unmatched
  | matched (content after : Str)
deriving DecidableEq

def checkQuote : Str → Quoted
  | [] => .bare
  | char :: rest =>
      if char = doubleQuote ∨ char = quote then
        match closeQuote char char rest with
        | none => .unmatched
        | some (content, after) => .matched content after
      else .bare

/-- The text up to the first character of `stop`, or in quotes, and the text after it. -/
def takeToken (stop : Byte → Bool) (s : Str) : Option (Str × Str) :=
  match checkQuote s with
  | .bare => some (s.takeWhile fun char => !stop char, s.dropWhile fun char => !stop char)
  | .unmatched => none
  | .matched content after => some (content, after)

structure Options where
  facet : Str
  mode : ProxyMode
  secure : Bool
  encoding : Version
  protocol : Version
deriving DecidableEq

def flag (s option argument : Str) (options : Options) : Except ParseError Options :=
  if argument ≠ [] then
    .error (.proxyParse (text "unexpected argument \x60" ++ argument ++ text "' provided for " ++
      option ++ text " option in \x60" ++ s ++ text "'"))
  else .ok options

/-- The `switch` over the options of a proxy. -/
def Options.apply (s option : Str) (letter : Byte) (argument : Str) (options : Options) :
    Except ParseError Options :=
  if letter = byte 'f' then
    if argument = [] then
      .error (.proxyParse (text "no argument provided for -f option in \x60" ++ s ++ text "'"))
    else
      match unescapeString argument 0 argument.length with
      | .error cause =>
          .error (.proxyParse (text "invalid facet in \x60" ++ s ++ text "': " ++ cause.reason))
      | .ok facet => .ok { options with facet := facet }
  else if letter = byte 't' then flag s option argument { options with mode := .twoway }
  else if letter = byte 'o' then flag s option argument { options with mode := .oneway }
  else if letter = byte 'O' then flag s option argument { options with mode := .batchOneway }
  else if letter = byte 'd' then flag s option argument { options with mode := .datagram }
  else if letter = byte 'D' then flag s option argument { options with mode := .batchDatagram }
  else if letter = byte 's' then flag s option argument { options with secure := true }
  else if letter = byte 'e' then
    if argument = [] then
      .error (.proxyParse (text "no argument provided for -e option in \x60" ++ s ++ text "'"))
    else
      match stringToVersion argument with
      | .error str =>
          .error (.proxyParse (text "invalid encoding version \x60" ++ argument ++
            text "' in \x60" ++ s ++ text "':\n" ++ str))
      | .ok version => .ok { options with encoding := version }
  else if letter = byte 'p' then
    if argument = [] then
      .error (.proxyParse (text "no argument provided for -p option in \x60" ++ s ++ text "'"))
    else
      match stringToVersion argument with
      | .error str =>
          .error (.proxyParse (text "invalid protocol version \x60" ++ argument ++
            text "' in \x60" ++ s ++ text "':\n" ++ str))
      | .ok version => .ok { options with protocol := version }
  else .error (.proxyParse (text "unknown option \x60" ++ option ++ text "' in \x60" ++ s ++ text "'"))

def readArgument (s option rest : Str) : Except ParseError (Str × Str) :=
  match rest.dropWhile isBlank with
  | [] => .ok ([], rest)
  | char :: more =>
      if char = atSign ∨ char = colon ∨ char = minus then .ok ([], rest)
      else
        match takeToken isSeparator (char :: more) with
        | none =>
            .error (.proxyParse (text "mismatched quotes around value for " ++ option ++
              text " option in \x60" ++ s ++ text "'"))
        | some (argument, after) => .ok (argument, after)

/-- The loop over the options of a proxy, with a round for each option: the length of the text
is always enough. The text that is left is empty or starts with a colon or an at sign. -/
def readOptions (s : Str) : Nat → Options → Str → Except ParseError (Options × Str)
  | 0, options, rest => .ok (options, rest)
  | rounds + 1, options, rest =>
      match rest.dropWhile isBlank with
      | [] => .ok (options, [])
      | char :: more =>
          if char = colon ∨ char = atSign then .ok (options, char :: more)
          else
            let option := (char :: more).takeWhile fun char => !isSeparator char
            let rest := (char :: more).dropWhile fun char => !isSeparator char
            match optionLetter option with
            | none =>
                .error (.proxyParse (text "expected a proxy option but found \x60" ++ option ++
                  text "' in \x60" ++ s ++ text "'"))
            | some letter => do
                let (argument, after) ← readArgument s option rest
                let options ← options.apply s option letter argument
                readOptions s rounds options after

/-- The text up to the next colon that is not quoted, and the text from there on. A colon is
quoted after an odd number of double quotes, when another one follows. -/
def splitEndpoint : Bool → Str → Str × Str
  | _, [] => ([], [])
  | opened, char :: rest =>
      if char = colon ∧ ¬(opened = true ∧ doubleQuote ∈ rest) then ([], char :: rest)
      else
        let (es, after) := splitEndpoint (if char = doubleQuote then !opened else opened) rest
        (char :: es, after)

/-- The loop over the endpoints, with a round for each: the endpoints and the strings of
unknown ones. -/
def readEndpoints (instance' : Instance ω) :
    Nat → Str → Except ParseError (List (Endpoint ω) × List Str)
  | 0, _ => .ok ([], [])
  | _ + 1, [] => .ok ([], [])
  | rounds + 1, char :: rest =>
      if char = colon then do
        let (es, after) := splitEndpoint false rest
        let endp ← createEndpoint instance' es false
        let (endpoints, unknownEndpoints) ← readEndpoints instance' rounds after
        match endp with
        | some endpoint => .ok (endpoint :: endpoints, unknownEndpoints)
        | none => .ok (endpoints, es :: unknownEndpoints)
      else .ok ([], [])

def readIdentity (s found : Str) : Except ParseError (Str × Str) :=
  match checkQuote found with
  | .unmatched =>
      .error (.proxyParse (text "mismatched quotes around identity in \x60" ++ s ++ text "'"))
  | .matched content after => .ok (content, after)
  | .bare =>
      let idstr := found.takeWhile fun char => !isSeparator char
      if idstr = [] then .error (.proxyParse (text "no identity in \x60" ++ s ++ text "'"))
      else .ok (idstr, found.dropWhile fun char => !isSeparator char)

/-- The `create` that all the others call, as far as its reference is concerned. -/
def Options.reference (options : Options) (ident : Identity) (endpoints : List (Endpoint ω))
    (adapterId : Str) (direct : endpoints ≠ [] → adapterId = []) : Reference ω where
  identity := ident
  facet := options.facet
  mode := options.mode
  secure := options.secure
  protocol := options.protocol
  encoding := options.encoding
  endpoints := endpoints
  adapterId := adapterId
  direct := direct

def readAdapter (s rest : Str) : Except ParseError Str :=
  let found := rest.dropWhile isBlank
  if found = [] then .error (.proxyParse (text "missing adapter id in \x60" ++ s ++ text "'"))
  else
    match takeToken isBlank found with
    | none =>
        .error (.proxyParse (text "mismatched quotes around adapter id in \x60" ++ s ++ text "'"))
    | some (adapterstr, after) =>
        if after.dropWhile isBlank ≠ [] then
          .error (.proxyParse (text "invalid trailing characters after \x60" ++
            s.take (s.length - after.length + 1) ++ text "' in \x60" ++ s ++ text "'"))
        else
          match unescapeString adapterstr 0 adapterstr.length with
          | .error cause =>
              .error (.proxyParse (text "invalid adapter id in \x60" ++ s ++ text "': " ++
                cause.reason))
          | .ok adapter =>
              if adapter = [] then
                .error (.proxyParse (text "empty adapter id in \x60" ++ s ++ text "'"))
              else .ok adapter

def readTarget (instance' : Instance ω) (s : Str) (ident : Identity) (options : Options) :
    Str → Except ParseError (Option (Reference ω))
  | [] => .ok (some (options.reference ident [] [] fun _ => rfl))
  | char :: rest =>
      if char = colon then do
        let (endpoints, unknownEndpoints) ←
          readEndpoints instance' (rest.length + 1) (char :: rest)
        if endpoints = [] then
          .error (.endpointParse (text "invalid endpoint \x60" ++ unknownEndpoints.headD [] ++
            text "' in \x60" ++ s ++ text "'"))
        else .ok (some (options.reference ident endpoints [] fun _ => rfl))
      else if char = atSign then do
        let adapter ← readAdapter s rest
        .ok (some (options.reference ident [] adapter fun some => absurd rfl some))
      else .error (.proxyParse (text "malformed proxy \x60" ++ s ++ text "'"))

/-- `ReferenceFactory::create` for a string, without a property prefix. -/
def create (instance' : Instance ω) (s : Str) : Except ParseError (Option (Reference ω)) :=
  if s = [] then .ok none
  else
    let found := s.dropWhile isBlank
    if found = [] then
      .error (.proxyParse (text "no non-whitespace characters found in \x60" ++ s ++ text "'"))
    else do
      let (idstr, rest) ← readIdentity s found
      let ident ← (stringToIdentity idstr).mapError fun cause =>
        ParseError.identityParse (cause.str idstr)
      if ident.name = [] then
        if ident.category ≠ [] then .error (.illegalIdentity ident)
        else if rest.dropWhile isBlank ≠ [] then
          .error (.proxyParse (text "invalid characters after identity in \x60" ++ s ++ text "'"))
        else .ok none
      else do
        let (options, target) ← readOptions s s.length
          ⟨[], .twoway, false, instance'.defaultEncoding, protocol10⟩ rest
        readTarget instance' s ident options target

end IceTouch.Proxies
