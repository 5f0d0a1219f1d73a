import EcmaStack.Command.Flags
import EcmaStack.Settings.Basic

/-!
# Choosing a command

The first operand of a command line names the command. At this point flags are only passed over:
one that takes a text takes the next word with it, and so does one that is not known. A name
that no command has is answered with the commands that it may stand for.
-/

namespace EcmaStack

/-- A command. -/
inductive Command where
  | parse
  | compile
  | disasm
  | fmt
  | completion
  | help
  deriving DecidableEq

namespace Command

/-- The commands in the order in which they are proposed. -/
def proposed : List Command :=
  [.parse, .compile, .disasm, .fmt, .completion]

/-- The name of a command. -/
def name : Command → String
  | .parse => "parse"
  | .compile => "compile"
  | .disasm => "disasm"
  | .fmt => "fmt"
  | .completion => "completion"
  | .help => "help"

/-- The command of a name. -/
def ofName? (name : String) : Option Command :=
  (proposed ++ [Command.help]).find? (·.name == name)

end Command

/-- Whether a word is a flag that takes the next word with it, as far as can be told before a
command is chosen. -/
def takesNext (word : String) : Bool :=
  let isKnownSwitch (flag : Option Flag) : Bool := flag.any fun f => f.isSwitch && f != .help
  match word.toList with
  | ['-', '-'] => false
  | '-' :: '-' :: name => !name.contains '=' && !isKnownSwitch (Flag.ofName? name)
  | ['-', c] => c.utf8Size == 1 && c != '=' && !isKnownSwitch (Flag.ofLetter? c)
  | _ => false

/-- Whether a word is an operand. -/
def isOperand (word : String) : Bool :=
  !word.isEmpty && !word.startsWith "-"

/-- The first operand. A flag that takes the next word hides all that follows if at most one
word does. -/
def firstOperand? : List String → Option String
  | [] => none
  | word :: rest =>
    if word == "--" then none
    else if takesNext word then
      match rest with
      | _ :: next :: more => firstOperand? (next :: more)
      | _ => none
    else if isOperand word then some word
    else firstOperand? rest

/-- The words without the first that equals a name and is no flag's text. -/
def withoutName (name : String) : List String → List String
  | [] => []
  | word :: rest =>
    if word == "--" then word :: rest
    else if takesNext word then
      match rest with
      | [] => [word]
      | text :: more => word :: text :: withoutName name more
    else if word == name then rest
    else word :: withoutName name rest

/-! ## Proposals -/

/-- How many bytes have to be inserted, dropped or replaced to turn one list into another: the
next row of the table of distances. -/
def distanceRow (b : UInt8) (diagonal left : Nat) : List UInt8 → List Nat → List Nat
  | c :: cs, above :: row =>
    let here := if b == c then diagonal else min (min above left) diagonal + 1
    here :: distanceRow b above here cs row
  | _, _ => []

/-- How many bytes have to be inserted, dropped or replaced to turn one list into another. -/
def distance (a b : List UInt8) : Nat :=
  let rows := b.foldl (fun (count, row) c => match row with
    | [] => (count, row)
    | first :: rest => (count + 1, (count + 1) :: distanceRow c first (count + 1) a rest))
    (0, List.range (a.length + 1))
  rows.2.getLast?.getD 0

/-- The commands that a name may stand for: those at a distance of two at most, and those that
begin with it. -/
def proposals (typed : String) : List Command :=
  let typed := Text.inSmallLetters typed
  Command.proposed.filter fun c => distance (utf8Bytes typed) (utf8Bytes c.name) ≤
    2 || c.name.startsWith typed

/-- The proposals as they stand after a message. -/
def proposalText (typed : String) : String :=
  match proposals typed with
  | [] => ""
  | commands =>
    "\n\nDid you mean this?\n" ++ String.join (commands.map fun c => "\t" ++ c.name ++ "\n")

/-- What a command line asks for: a command with its own words, words alone, or a command that
there is not. -/
inductive Selection where
  | command (c : Command) (words : List String)
  | bare (words : List String)
  | unknown (name : String)

/-- Choose the command of a command line. -/
def Selection.ofWords (words : List String) : Selection :=
  match firstOperand? words with
  | none => .bare words
  | some name =>
    match Command.ofName? name with
    | some c => .command c (withoutName name words)
    | none => .unknown name

end EcmaStack
