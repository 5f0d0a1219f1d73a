import EcmaStack.Text.Quoted

/-!
# Flags

A command line is a list of words. Some are **flags**, which start with a dash; the others are
**operands**. A flag that takes a text has it after an equals sign, as the next word, or, for a
flag of one letter, in the same word. A switch is on where nothing else is said after an equals
sign. Two dashes end the flags.
-/

namespace EcmaStack

/-- A flag. -/
inductive Flag where
  | config
  | format
  | out
  | logLevel
  | omitSource
  | module
  | help
  deriving DecidableEq

namespace Flag

/-- All flags. -/
def all : List Flag :=
  [.config, .format, .out, .logLevel, .omitSource, .module, .help]

/-- The name of a flag. -/
def name : Flag → String
  | .config => "config"
  | .format => "format"
  | .out => "out"
  | .logLevel => "log-level"
  | .omitSource => "omit-source"
  | .module => "module"
  | .help => "help"

/-- The letter of a flag. -/
def letter? : Flag → Option Char
  | .format => some 'f'
  | .out => some 'o'
  | .help => some 'h'
  | _ => none

/-- Whether a flag is a switch. -/
def isSwitch : Flag → Bool
  | .omitSource | .module | .help => true
  | _ => false

/-- The flag of a name. -/
def ofName? (name : List Char) : Option Flag :=
  all.find? (·.name.toList == name)

/-- The flag of a letter. -/
def ofLetter? (c : Char) : Option Flag :=
  all.find? (·.letter? == some c)

/-- A flag as messages show it. -/
def describe (f : Flag) : String :=
  match f.letter? with
  | some c => "-" ++ String.ofList [c] ++ ", --" ++ f.name
  | none => "--" ++ f.name

end Flag

/-- What the flags of a command line say; the last flag of a kind counts. -/
structure Options where
  config : Option String := none
  format : Option String := none
  out : Option String := none
  logLevel : Option String := none
  omitSource : Option Bool := none
  module : Option Bool := none
  help : Bool := false
  deriving DecidableEq

/-- A word that is no flag here, or lacks what a flag needs. -/
inductive FlagFault where
  | syntaxOf (word : String)
  | unknown (name : String)
  | unknownLetter (byte : UInt8) (letters : Text)
  | missingText (word : String)
  | missingLetterText (letter : Char) (letters : String)
  | value (flag : Flag) (given : String)
  deriving DecidableEq

/-- A character between single quotes. -/
def quotedChar (c : Char) : String :=
  let shown :=
    if c == '\x27' then ['\\', c] else if c == '\x22' then [c] else Text.quotePiece (.char c)
  String.ofList ('\x27' :: shown ++ ['\x27'])

/-- The wording of a fault. -/
def FlagFault.message : FlagFault → String
  | .syntaxOf word => "bad flag syntax: " ++ word
  | .unknown name => "unknown flag: --" ++ name
  | .unknownLetter byte letters =>
    "unknown shorthand flag: " ++ quotedChar (Char.ofNat byte.toNat) ++ " in -" ++ letters.toString
  | .missingText word => "flag needs an argument: " ++ word
  | .missingLetterText letter letters =>
    "flag needs an argument: " ++ quotedChar letter ++ " in -" ++ letters
  | .value flag given =>
    let shown := Text.quoted (Text.ofString given)
    "invalid argument " ++ shown ++ " for " ++ Text.quoted (Text.ofString flag.describe) ++
      " flag: strconv.ParseBool: parsing " ++ shown ++ ": invalid syntax"

/-- The truth value of a word. -/
def switchValue? (given : String) : Option Bool :=
  if ["1", "t", "T", "TRUE", "true", "True"].contains given then some true
  else if ["0", "f", "F", "FALSE", "false", "False"].contains given then some false
  else none

/-- Take what is given for a flag. -/
def Options.set (o : Options) (flag : Flag) (given : String) : Except FlagFault Options :=
  let switch (f : Bool → Options) : Except FlagFault Options :=
    match switchValue? given with
    | some b => .ok (f b)
    | none => .error (.value flag given)
  match flag with
  | .config => .ok { o with config := some given }
  | .format => .ok { o with format := some given }
  | .out => .ok { o with out := some given }
  | .logLevel => .ok { o with logLevel := some given }
  | .omitSource => switch fun b => { o with omitSource := some b }
  | .module => switch fun b => { o with module := some b }
  | .help => switch fun b => { o with help := b }

/-! ## Reading words -/

/-- Read a flag given by its name. The result tells whether it took the next word. -/
def Options.readNamed (o : Options) (word : String) (next : Option String) :
    Except FlagFault (Options × Bool) := do
  let body := word.toList.drop 2
  let name := body.takeWhile (· != '=')
  if body.head?.all fun c => c == '-' || c == '=' then .error (.syntaxOf word)
  else
    match Flag.ofName? name with
    | none => .error (.unknown (String.ofList name))
    | some flag =>
      if name.length < body.length then
        return (← o.set flag (String.ofList (body.drop (name.length + 1))), false)
      else if flag.isSwitch then return (← o.set flag "true", false)
      else
        match next with
        | some given => return (← o.set flag given, true)
        | none => .error (.missingText word)

/-- Read flags given by their letters. The last may take the rest of the letters, or the next
word; the result tells whether it took that. Letters that start like a flag of a test run are
passed over. -/
def Options.readLetters (o : Options) (next : Option String) :
    List Char → Except FlagFault (Options × Bool)
  | [] => .ok (o, false)
  | 't' :: 'e' :: 's' :: 't' :: '.' :: _ => .ok (o, false)
  | c :: rest =>
    match Flag.ofLetter? c with
    | none =>
      .error (.unknownLetter ((String.utf8EncodeChar c).headD 0)
        (Text.ofString (String.ofList (c :: rest))))
    | some flag =>
      let set (given : List Char) : Except FlagFault (Options × Bool) := do
        return (← o.set flag (String.ofList given), false)
      match rest with
      | '=' :: value :: more => set (value :: more)
      | _ =>
        if flag.isSwitch then do
          let o ← o.set flag "true"
          o.readLetters next rest
        else if !rest.isEmpty then set rest
        else
          match next with
          | some given => do return (← o.set flag given, true)
          | none => .error (.missingLetterText c (String.ofList [c]))

/-- Read words one by one; `taken` tells that the first belongs to the word before it. -/
def Options.readWords (o : Options) :
    (taken : Bool) → List String → Except FlagFault (Options × List String)
  | _, [] => .ok (o, [])
  | true, _ :: rest => o.readWords false rest
  | false, word :: rest =>
    let operand : Except FlagFault (Options × List String) := do
      let (o, operands) ← o.readWords false rest
      return (o, word :: operands)
    match word.toList with
    | ['-', '-'] => .ok (o, rest)
    | '-' :: '-' :: _ => do
      let (o, taken) ← o.readNamed word rest.head?
      o.readWords taken rest
    | '-' :: c :: letters => do
      let (o, taken) ← o.readLetters rest.head? (c :: letters)
      o.readWords taken rest
    | _ => operand

/-- The options of a command line and its operands. -/
def Options.read (words : List String) : Except FlagFault (Options × List String) :=
  ({} : Options).readWords false words

end EcmaStack
