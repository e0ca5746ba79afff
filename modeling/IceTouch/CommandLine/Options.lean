import IceTouch.CommandLine.Split
import Mathlib.Logic.Function.Basic

/-!
# Options

The class `Options` of the compilers and tools. The details of an option and the arguments of
a repeating one are objects that both names of the option refer to, so that they are numbered
here; the value of an option that is not repeating is an object too, but it is never changed,
and both names hold the value itself. The assertions and the mutex are left out.
-/

namespace IceTouch.CommandLine

open Bytes WireTypes Escape
open Proxies (space byte)

abbrev dash : Byte := 45
abbrev equals : Byte := 61

inductive OptionsException where
  | api (reason : Str)
  | illegalArgument (reason : Str)
  | badOpt (ex : BadOptException)
deriving DecidableEq

def badOpt (reason : Str) : OptionsException := .badOpt ⟨reason⟩

inductive LengthType where
  | shortOpt
  | longOpt
deriving DecidableEq

inductive RepeatType where
  | repeats
  | noRepeat
deriving DecidableEq

inductive ArgType where
  | needArg
  | noArg
deriving DecidableEq

structure OptionDetails where
  length : LengthType
  arg : ArgType
  repeat_ : RepeatType
  hasDefault : Bool
deriving DecidableEq

structure Options where
  /-- The objects that `validOpts` refers to. -/
  details : List OptionDetails
  validOpts : Str → Option Nat
  opts : Str → Option Str
  /-- The objects that `ropts` refers to. -/
  vectors : List (List Str)
  ropts : Str → Option Nat
  synonyms : Str → Option Str
  parseCalled : Bool

def Options.empty : Options where
  details := []
  validOpts _ := none
  opts _ := none
  vectors := []
  ropts _ := none
  synonyms _ := none
  parseCalled := false

/-- One of ` \t\n\r\f\v`. -/
def isWhitespace (c : Byte) : Bool := c = space || (9 ≤ c && c ≤ 13)

def inQuotes (opt message : Str) : Str := text "`" ++ opt ++ text "': " ++ message

def checkShortOpt (shortOpt : Str) : Except OptionsException Unit :=
  if shortOpt = [] then .ok ()
  else if shortOpt.length ≠ 1 then
    .error (.illegalArgument
      (inQuotes shortOpt (text "a short option cannot specify more than one option")))
  else if shortOpt.any isWhitespace then
    .error (.illegalArgument (inQuotes shortOpt (text "a short option cannot be whitespace")))
  else if shortOpt.head? = some dash then
    .error (.illegalArgument (inQuotes shortOpt (text "a short option cannot be `-'")))
  else .ok ()

def checkLongOpt (longOpt : Str) : Except OptionsException Unit :=
  if longOpt.any isWhitespace then
    .error (.illegalArgument (inQuotes longOpt (text "a long option cannot contain whitespace")))
  else if longOpt.head? = some dash then
    .error (.illegalArgument
      (inQuotes longOpt (text "a long option must not contain a leading `-'")))
  else .ok ()

def checkArgs (shortOpt longOpt : Str) (needArg : Bool) (dflt : Str) :
    Except OptionsException Unit := do
  if shortOpt = [] ∧ longOpt = [] then
    throw (.illegalArgument (text "short and long option cannot both be empty"))
  checkShortOpt shortOpt
  checkLongOpt longOpt
  if !needArg ∧ dflt ≠ [] then
    throw (.illegalArgument
      (text "a default value can be specified only for options requiring an argument"))

section State

variable (options : Options)

/-- The empty string stands for no synonym. -/
def Options.getSynonym (optName : Str) : Str := (options.synonyms optName).getD []

def Options.updateSynonyms (shortOpt longOpt : Str) : Options :=
  if shortOpt ≠ [] ∧ longOpt ≠ [] then
    { options with
      synonyms := Function.update (Function.update options.synonyms shortOpt (some longOpt))
        longOpt (some shortOpt) }
  else options

def Options.setNonRepeatingOpt (opt val : Str) : Options :=
  if opt = [] then options
  else
    let opts := Function.update options.opts opt (some val)
    let synonym := options.getSynonym opt
    { options with
      opts := if synonym ≠ [] then Function.update opts synonym (some val) else opts }

def Options.addTo (opt : Str) (vector : Nat) (val : Str) : Options :=
  let vals := options.vectors.getD vector []
  match options.validOpts opt with
  | none => options
  | some number =>
      match options.details[number]? with
      | none => options
      | some found =>
          if found.hasDefault ∧ vals.length = 1 then
            { options with
              vectors := options.vectors.set vector [val]
              details := options.details.set number { found with hasDefault := false } }
          else { options with vectors := options.vectors.set vector (vals ++ [val]) }

def Options.setRepeatingOpt (opt val : Str) : Options :=
  if opt = [] then options
  else
    let synonym := options.getSynonym opt
    match options.ropts opt, options.ropts synonym with
    | some vector, _ => options.addTo opt vector val
    | none, some vector => options.addTo opt vector val
    | none, none =>
        let vector := options.vectors.length
        let ropts := Function.update options.ropts opt (some vector)
        { options with
          vectors := options.vectors ++ [[val]]
          ropts := if synonym ≠ [] then Function.update ropts synonym (some vector) else ropts }

def Options.setOpt (opt1 opt2 val : Str) (rt : RepeatType) : Options :=
  match rt with
  | .noRepeat => (options.setNonRepeatingOpt opt1 val).setNonRepeatingOpt opt2 val
  | .repeats => (options.setRepeatingOpt opt1 val).setRepeatingOpt opt2 val

def Options.addDetails (shortOpt longOpt : Str) (found : OptionDetails) : Options :=
  let number := options.details.length
  let length := if longOpt ≠ [] then .longOpt else .shortOpt
  let short :=
    if shortOpt ≠ [] then Function.update options.validOpts shortOpt (some number)
    else options.validOpts
  { options with
    details := options.details ++ [{ found with length := length }]
    validOpts := if longOpt ≠ [] then Function.update short longOpt (some number) else short }

def Options.addValidOpt (shortOpt longOpt : Str) (arg : ArgType) (dflt : Str) (rt : RepeatType) :
    Except OptionsException Options :=
  if shortOpt ≠ [] ∧ (options.validOpts shortOpt).isSome then
    .error (.illegalArgument (inQuotes shortOpt (text "duplicate option")))
  else if longOpt ≠ [] ∧ (options.validOpts longOpt).isSome then
    .error (.illegalArgument (inQuotes longOpt (text "duplicate option")))
  else
    let added := (options.addDetails shortOpt longOpt ⟨.shortOpt, arg, rt, dflt ≠ []⟩).updateSynonyms
      shortOpt longOpt
    .ok (if arg = .needArg ∧ dflt ≠ [] then added.setOpt shortOpt longOpt dflt rt else added)

def Options.addOpt (shortOpt longOpt : Str) (arg : ArgType) (dflt : Str) (rt : RepeatType) :
    Except OptionsException Options := do
  if options.parseCalled then
    throw (.api (text "cannot add options after parse() was called"))
  checkArgs shortOpt longOpt (arg = .needArg) dflt
  options.addValidOpt shortOpt longOpt arg dflt rt

def Options.find (opt : Str) : Option OptionDetails :=
  (options.validOpts opt).bind fun number => options.details[number]?

def Options.checkOpt (opt : Str) (lt : LengthType) : Except OptionsException OptionDetails :=
  match options.find opt with
  | some found => .ok found
  | none =>
      .error (badOpt (text "invalid option: `-" ++ (if lt = .longOpt then [dash] else []) ++ opt ++
        text "'"))

def Options.checkRepeated (seen : List Str) (dashes opt : Str) (found : OptionDetails) :
    Except OptionsException (List Str) :=
  match found.repeat_ with
  | .repeats => .ok seen
  | .noRepeat =>
      if seen.contains opt then
        .error (badOpt (text "`" ++ dashes ++ opt ++ text ":' option cannot be repeated"))
      else
        let synonym := options.getSynonym opt
        .ok (opt :: if synonym ≠ [] then synonym :: seen else seen)

/-- An option of a word: its name, its details, what was seen, and the argument that the word
has for it. -/
structure Read where
  opt : Str
  found : OptionDetails
  seen : List Str
  val : Option Str

def Options.readLong (seen : List Str) (arg : Str) : Except OptionsException Read := do
  let body := arg.drop 2
  let opt := body.takeWhile (· ≠ equals)
  let found ← options.checkOpt opt .longOpt
  let seen ← options.checkRepeated seen [dash, dash] opt found
  match body.dropWhile (· ≠ equals) with
  | [] => .ok ⟨opt, found, seen, none⟩
  | _ :: val =>
      if found.arg = .noArg ∧ val ≠ [] then
        .error (badOpt (text "`" ++ arg ++ text "': option does not take an argument"))
      else .ok ⟨opt, found, seen, some val⟩

/-- The loop over the letters of a word: an option that needs an argument takes what is left. -/
def Options.readShort (options : Options) (seen : List Str) (c : Byte) : Str → Except OptionsException Read
  | [] => do
      let found ← options.checkOpt [c] .shortOpt
      let seen ← options.checkRepeated seen [dash] [c] found
      .ok ⟨[c], found, seen, none⟩
  | next :: rest => do
      let found ← options.checkOpt [c] .shortOpt
      let seen ← options.checkRepeated seen [dash] [c] found
      if found.arg = .needArg then .ok ⟨[c], found, seen, some (next :: rest)⟩
      else options.readShort seen next rest

def Options.readOption (seen : List Str) (arg : Str) : Except OptionsException (Option Read) :=
  match arg with
  | first :: next :: rest =>
      if first = dash then
        if next = dash then some <$> options.readLong seen arg
        else some <$> options.readShort seen next rest
      else .ok none
  | _ => .ok none

end State

/-- The loop over the words behind the name of the program, and the words left at its end. -/
def Options.parseWords (options : Options) (seen : List Str) (result : List Str) :
    List Str → Except OptionsException (Options × List Str)
  | [] => .ok (options, result)
  | arg :: rest =>
      if arg = [dash] ∨ arg = [dash, dash] then .ok (options, result ++ rest)
      else
        match options.readOption seen arg with
        | .error ex => .error ex
        | .ok none => options.parseWords seen (result ++ [arg]) rest
        | .ok (some ⟨opt, found, seen, some val⟩) =>
            (options.setOpt opt [] val found.repeat_).parseWords seen result rest
        | .ok (some ⟨opt, found, seen, none⟩) =>
            if found.arg = .needArg then
              match rest with
              | [] =>
                  .error (badOpt (text "`-" ++ (if opt.length ≠ 1 then [dash] else []) ++ opt ++
                    text "' option requires an argument"))
              | val :: more =>
                  (options.setOpt opt [] val found.repeat_).parseWords seen result more
            else (options.setOpt opt [] (text "1") found.repeat_).parseWords seen result rest

/-- The options afterwards and the words that are no options. -/
def Options.parse (options : Options) (args : List Str) :
    Except OptionsException (Options × List Str) := do
  if options.parseCalled then
    throw (.api (text "cannot call parse() more than once on the same Option instance"))
  let (options, result) ← { options with parseCalled := true }.parseWords [] [] args.tail
  .ok ({ options with synonyms := fun _ => none }, result)

section Results

variable (options : Options)

def Options.checkOptIsValid (opt : Str) : Except OptionsException OptionDetails :=
  match options.find opt with
  | some found => .ok found
  | none => .error (.illegalArgument (inQuotes opt (text "invalid option")))

def aboutOption (opt : Str) (found : OptionDetails) (message : Str) : OptionsException :=
  .illegalArgument (text "`-" ++ (if found.length = .longOpt then [dash] else []) ++ opt ++
    text "': " ++ message)

def Options.checkOptHasArg (opt : Str) : Except OptionsException OptionDetails := do
  let found ← options.checkOptIsValid opt
  if found.arg = .noArg then
    throw (aboutOption opt found (text "option does not take arguments"))
  .ok found

def Options.checkParsed : Except OptionsException Unit :=
  if options.parseCalled then .ok ()
  else .error (.api (text "cannot lookup options before calling parse()"))

def Options.isSet (opt : Str) : Except OptionsException Bool := do
  options.checkParsed
  let found ← options.checkOptIsValid opt
  .ok (if found.repeat_ = .noRepeat then (options.opts opt).isSome
    else (options.ropts opt).isSome)

def Options.optArg (opt : Str) : Except OptionsException Str := do
  options.checkParsed
  let found ← options.checkOptHasArg opt
  if found.repeat_ = .repeats then
    throw (aboutOption opt found
      (text "is a repeating option -- use argVec() to get its arguments"))
  .ok ((options.opts opt).getD [])

def Options.argVec (opt : Str) : Except OptionsException (List Str) := do
  options.checkParsed
  let found ← options.checkOptHasArg opt
  if found.repeat_ = .noRepeat then
    throw (aboutOption opt found
      (text "is a non-repeating option -- use optArg() to get its argument"))
  .ok (((options.ropts opt).bind fun vector => options.vectors[vector]?).getD [])

end Results

end IceTouch.CommandLine
