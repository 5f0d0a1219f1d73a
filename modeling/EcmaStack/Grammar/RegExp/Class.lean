import EcmaStack.Grammar.RegExp.Escape
import EcmaStack.Token.Escape

/-!
# Character classes in regular expressions

A class lists characters, ranges of them and sets, between brackets. A range must be in order,
and may end in no set. A class in brackets after a hyphen is taken away from the class around
it, which it must end. While groups are still looked for (a dry scan) only the end of the class
is of interest.
-/

namespace EcmaStack

open Text

namespace RegExp

/-- What follows a name between colons and the closing bracket after it, the opening bracket
being read. Such a name adds nothing to the bracket that opens it. -/
def skipClassName (rest : List Char) : List Char :=
  match rest with
  | ':' :: tail =>
    match (if tail.head? == some '^' then tail.drop 1 else tail).dropWhile isWordCharacter with
    | ':' :: ']' :: after => after
    | _ => rest
  | _ => rest

/-- Read a class after its opening bracket up to and including the closing one, with the start
of a range if one is open. -/
def classFrom (o : Options) (dry : Bool) :
    Nat → Bool → Option Nat → List Char → Scan (Unit × List Char)
  | 0, _, _, cs => .error (.openClass, cs)
  | fuel + 1, isFirst, start, cs =>
    let inner (rest : List Char) : Scan (Unit × List Char) :=
      classFrom o dry fuel true none (if rest.head? == some '^' then rest.drop 1 else rest)
    let subtract (rest : List Char) : Scan (Unit × List Char) :=
      if dry then classFrom o dry fuel false none (restOf (inner rest))
      else do
        let (_, after) ← inner rest
        if after.isEmpty || after.head? == some ']' then classFrom o dry fuel false none after
        else .error (.subtraction, after)
    let member (code : Nat) (escaped : Bool) (rest : List Char) : Scan (Unit × List Char) :=
      match start with
      | some low =>
        if dry then classFrom o dry fuel false none rest
        else if code == '['.toNat && !escaped && !isFirst then subtract rest
        else if code < low then .error (.reversedRange (charOfCode low) (charOfCode code), rest)
        else classFrom o dry fuel false none rest
      | none =>
        match rest with
        | '-' :: ']' :: _ => classFrom o dry fuel false none rest
        | '-' :: next :: tail => classFrom o dry fuel false (some code) (next :: tail)
        | '[' :: tail =>
          if code == '-'.toNat && !escaped && !isFirst then subtract tail
          else classFrom o dry fuel false none rest
        | _ => classFrom o dry fuel false none rest
    match cs with
    | [] => .error (.openClass, [])
    | ']' :: rest => .ok ((), rest)
    | '\\' :: c :: rest =>
      let isProperty := c == 'p' || c == 'P'
      if isProperty || "dDsSwW".toList.contains c then
        if !dry && start.isSome then .error (.rangeSet c, rest)
        else if !isProperty then classFrom o dry fuel false start rest
        else if dry then classFrom o dry fuel false start (restOf (property rest))
        else do
          let (_, after) ← property rest
          classFrom o dry fuel false start after
      else if c == '-' then classFrom o dry fuel false start rest
      else do
        let (code, after) ← charCode o c rest
        member code true after
    | '[' :: rest => member '['.toNat false (if start.isNone then skipClassName rest else rest)
    | c :: rest => member c.toNat false rest

/-- Read a class after its opening bracket. -/
def characterClass (o : Options) (dry : Bool) (cs : List Char) : Scan (Unit × List Char) :=
  classFrom o dry (cs.length + 1) true none (if cs.head? == some '^' then cs.drop 1 else cs)

end RegExp

end EcmaStack

/-!
## Declared groups

A reference may stand before its group, so the groups of a body are found first, in a dry scan.
What is malformed is passed over; only a number that is too large ends the search.
-/

namespace EcmaStack

open Text

namespace RegExp

/-- What a dry scan has found: the groups, the next number for a group without one, the options
and those to return to at closing parentheses, and whether the next parenthesis opens a
condition, which is not numbered. -/
structure Search where
  groups : Groups := {}
  next : Nat := 1
  options : Options := {}
  outer : List Options := []
  atCondition : Bool := false

namespace Search

/-- Note the group whose name or number starts here. -/
def noteName (s : Search) (cs : List Char) : Except PatternFault (Search × List Char) :=
  match cs with
  | [] => .ok (s, cs)
  | c :: _ =>
    if c == '0' || !isWordCharacter c then .ok (s, cs)
    else if isDecimalDigit c then
      match decimal cs with
      | .error (fault, _) => .error fault
      | .ok (n, rest) => .ok ({ s with groups := s.groups.addNumber n }, rest)
    else
      let name := String.ofList (cs.takeWhile isWordCharacter)
      .ok ({ s with groups := s.groups.addName name }, cs.dropWhile isWordCharacter)

/-- Read what follows an opening parenthesis. -/
def openGroup (s : Search) (cs : List Char) : Except PatternFault (Search × List Char) :=
  let inner := { s with outer := s.options :: s.outer, atCondition := false }
  match cs with
  | '?' :: '<' :: c :: rest | '?' :: '\x27' :: c :: rest => inner.noteName (c :: rest)
  | '?' :: rest =>
    let (options, after) := s.options.read true rest
    match after with
    | ')' :: past => .ok ({ inner with options, outer := s.outer }, past)
    | '(' :: _ => .ok ({ inner with options, atCondition := true }, after)
    | _ => .ok ({ inner with options }, after)
  | _ =>
    if s.options.explicit || s.atCondition then .ok (inner, cs)
    else .ok ({ inner with groups := s.groups.addNumber s.next, next := s.next + 1 }, cs)

/-- Read a part of a body. -/
def step (s : Search) (c : Char) (rest : List Char) : Except PatternFault (Search × List Char) :=
  match c with
  | '\\' =>
    .ok (s, if rest.isEmpty then rest else restOf (escape ⟨[], s.groups.names⟩ s.options true rest))
  | '#' => .ok (s, if s.options.spaced then restOf (skipGap s.options (c :: rest)) else rest)
  | '[' => .ok (s, restOf (characterClass s.options true rest))
  | ')' =>
    match s.outer with
    | [] => .ok (s, rest)
    | options :: outer => .ok ({ s with options, outer }, rest)
  | '(' =>
    match rest with
    | '?' :: '#' :: _ =>
      .ok ({ s with atCondition := false }, restOf (skipGap s.options (c :: rest)))
    | _ => s.openGroup rest
  | _ => .ok (s, rest)

/-- Go through a body, so many parts of it at most. -/
def run (s : Search) : Nat → List Char → Except PatternFault Search
  | 0, _ => .ok s
  | _, [] => .ok s
  | fuel + 1, c :: rest => do
    let (s, rest) ← s.step c rest
    s.run fuel rest

end Search

/-- The groups that a body declares. -/
def declaredGroups (body : List Char) : Except PatternFault Groups := do
  let found ← Search.run {} (body.length + 1) body
  return found.groups.number found.next

end RegExp

end EcmaStack
