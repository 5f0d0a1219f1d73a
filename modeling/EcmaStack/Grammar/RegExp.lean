import EcmaStack.Grammar.Parse
import EcmaStack.Grammar.RegExp.Class

/-!
# Well-formed regular expressions

`checkPattern` tells what is wrong with the body of a regular expression. The groups it declares
are found first, because a reference may stand before its group. Then one walk goes through the
body. It knows which groups are open and whether something stands before the cursor that a
quantifier can repeat.
-/

namespace EcmaStack

open Text

namespace RegExp

/-- What a group may be: an ordinary one, or a choice by a condition or by whether a group has
matched, of which so many parts have been read. -/
inductive GroupKind where
  | ordinary
  | byCondition (parts : Nat)
  | byReference (parts : Nat)
  deriving DecidableEq

namespace GroupKind

/-- The group with one part more. -/
def addPart : GroupKind → GroupKind
  | ordinary => ordinary
  | byCondition n => byCondition (n + 1)
  | byReference n => byReference (n + 1)

/-- Whether a group has more parts than a choice may have: a condition and two alternatives, or
those alone. -/
def isOverfull : GroupKind → Bool
  | ordinary => false
  | byCondition n => 3 < n
  | byReference n => 2 < n

end GroupKind

/-! ## How groups open -/

/-- The opening of a group that is not understood, as far as it was read. -/
def unknownGroup (whole after : List Char) : PatternFault :=
  .grouping (String.ofList (whole.take (whole.length - after.length)))

/-- The value and the rest of a scan, or its fault. -/
def orFault {α : Type} : Scan (α × List Char) → Except PatternFault (α × List Char)
  | .ok r => .ok r
  | .error (fault, _) => .error fault

/-- The name or number a group is given: whether a group is known by it, and what follows it. -/
def groupLabel (g : Groups) (close : Char) (cs : List Char) :
    Except PatternFault (Bool × List Char) := do
  let endsAt (after : List Char) : Bool := match after with
    | [] => true
    | c :: _ => c == close || c == '-'
  match cs with
  | [] => .error .groupName
  | c :: _ =>
    if isDecimalDigit c then
      let (n, after) ← orFault (decimal cs)
      if !endsAt after then .error .groupName
      else if n == 0 then .error .groupZero
      else .ok (g.hasNumber n, after)
    else if isWordCharacter c then
      let after := cs.dropWhile isWordCharacter
      if endsAt after then .ok (g.hasName (String.ofList (cs.takeWhile isWordCharacter)), after)
      else .error .groupName
    else if c == '-' then .ok (true, cs)
    else .error .groupName

/-- The group that another one closes, after a hyphen. It must be declared. -/
def closedLabel (g : Groups) (close : Char) (cs : List Char) : Except PatternFault (List Char) := do
  let ended (after : List Char) : Except PatternFault (List Char) :=
    if after.isEmpty || after.head? == some close then .ok after else .error .groupName
  match cs with
  | [] => .error .groupName
  | c :: _ =>
    if isDecimalDigit c then
      let (n, after) ← orFault (decimal cs)
      if g.hasNumber n then ended after else .error (.undefinedNumber n)
    else if isWordCharacter c then
      let name := String.ofList (cs.takeWhile isWordCharacter)
      if g.hasName name then ended (cs.dropWhile isWordCharacter) else .error (.undefinedName name)
    else .error .groupName

/-- Read what names a group, up to and including the closing mark. -/
def groupName (g : Groups) (whole : List Char) (close : Char) (cs : List Char) :
    Except PatternFault (List Char) := do
  let (known, after) ← groupLabel g close cs
  let after ← match known, after with
    | true, '-' :: tail => closedLabel g close tail
    | _, _ => .ok after
  match known, after with
  | true, c :: rest => if c == close then .ok rest else .error (unknownGroup whole rest)
  | _, _ => .error (unknownGroup whole after)

/-- Read the opening of a choice, the parenthesis of its condition being the first character. A
number or a name refers to a group; anything else is a condition of its own, read next, which
may neither be named nor be a comment. -/
def choiceHead (g : Groups) (cs : List Char) : Except PatternFault (GroupKind × List Char) := do
  let inner := cs.drop 1
  let ownCondition : Except PatternFault (GroupKind × List Char) := match inner with
    | '?' :: '#' :: _ => .error .conditionComment
    | '?' :: '\x27' :: _ => .error .conditionCaptures
    | '?' :: '<' :: c :: _ =>
      if c == '!' || c == '=' then .ok (.byCondition 0, cs) else .error .conditionCaptures
    | _ => .ok (.byCondition 0, cs)
  match inner with
  | [] => ownCondition
  | c :: _ =>
    if isDecimalDigit c then
      let (n, after) ← orFault (decimal inner)
      match after with
      | ')' :: rest =>
        if g.hasNumber n then .ok (.byReference 0, rest) else .error (.undefinedCondition n)
      | _ => .error (.malformedCondition n)
    else
      match inner.dropWhile isWordCharacter with
      | ')' :: rest =>
        if g.hasName (String.ofList (inner.takeWhile isWordCharacter)) then
          .ok (.byReference 0, rest)
        else ownCondition
      | _ => ownCondition

/-- Read what follows an opening parenthesis and a question mark: the group that was opened, if
one was, the options from there on, and the rest. Directly in a choice by condition no options
are switched. -/
def groupHead (g : Groups) (o : Options) (around : GroupKind) (whole cs : List Char) :
    Except PatternFault (Option GroupKind × Options × List Char) := do
  let opened (rest : List Char) : Option GroupKind × Options × List Char :=
    (some .ordinary, o, rest)
  match cs with
  | [] => .error (unknownGroup whole [])
  | ':' :: rest | '=' :: rest | '!' :: rest | '>' :: rest => return opened rest
  | '<' :: [] | '\x27' :: [] => .error (unknownGroup whole [])
  | '<' :: '=' :: rest | '<' :: '!' :: rest => return opened rest
  | '\x27' :: '=' :: rest | '\x27' :: '!' :: rest => .error (unknownGroup whole rest)
  | '<' :: rest => return opened (← groupName g whole '>' rest)
  | '\x27' :: rest => return opened (← groupName g whole '\x27' rest)
  | '(' :: _ =>
    let (kind, rest) ← choiceHead g cs
    return (some kind, o, rest)
  | _ =>
    let (options, after) := match around with
      | .byCondition _ => (o, cs)
      | _ => o.read true cs
    match after with
    | [] => .error (unknownGroup whole [])
    | ')' :: rest => return (none, options, rest)
    | ':' :: rest => return (some .ordinary, options, rest)
    | _ :: rest => .error (unknownGroup whole rest)

/-! ## The walk -/

/-- An open group and the options to return to when it closes. -/
structure OpenGroup where
  kind : GroupKind
  outer : Options

/-- Where a walk stands: the options, the open groups from the innermost on, and whether a
quantifier ends here. -/
structure Walk where
  options : Options := {}
  groups : List OpenGroup := []
  afterQuantifier : Bool := false

namespace Walk

/-- The kind of the innermost open group. -/
def around (w : Walk) : GroupKind :=
  match w.groups with
  | [] => .ordinary
  | g :: _ => g.kind

/-- The walk after one more part of the innermost group. -/
def addPart (w : Walk) : Walk :=
  match w.groups with
  | [] => w
  | g :: rest => { w with groups := { g with kind := g.kind.addPart } :: rest }

/-- Close the innermost group: whether it can be repeated. The first group in a choice by
condition is the condition, and cannot be. -/
def close (w : Walk) : Except PatternFault (Bool × Walk) :=
  match w.groups with
  | [] => .error .unexpectedParen
  | g :: rest =>
    if g.kind.addPart.isOverfull then .error .tooManyAlternatives
    else
      let w := { w with options := g.outer, groups := rest }
      if w.around == .byCondition 0 then .ok (false, w.addPart) else .ok (true, w)

/-- Read the quantifier after something that can be repeated, if there is one. -/
def quantifier (w : Walk) (cs : List Char) : Except PatternFault (Walk × List Char) := do
  let (_, cs) ← orFault (skipGap w.options cs)
  match cs with
  | [] => return ({ w with afterQuantifier := false }, cs)
  | c :: rest =>
    if !quantifierFollows cs then return ({ w with afterQuantifier := false }, cs)
    else
      let (inOrder, rest) ← if c == '\x7b' then orFault (count rest) else .ok (true, rest)
      let (_, rest) ← orFault (skipGap w.options rest)
      let rest := if rest.head? == some '?' then rest.drop 1 else rest
      if inOrder then return ({ w with afterQuantifier := true }, rest) else .error .repeatCount

/-- Read a special character and what belongs to it, with or without a run of ordinary
characters before it. -/
def special (g : Groups) (w : Walk) (afterRun : Bool) (c : Char) (rest : List Char) :
    Except PatternFault (Walk × List Char) := do
  let plain : Walk := { w with afterQuantifier := false }
  match c with
  | '[' =>
    let (_, rest) ← orFault (characterClass w.options false rest)
    w.quantifier rest
  | '\\' =>
    let (_, rest) ← orFault (escape g w.options false rest)
    w.quantifier rest
  | '|' => return (plain.addPart, rest)
  | '(' =>
    match rest with
    | '?' :: ')' :: _ => return ({ plain with groups := ⟨.ordinary, w.options⟩ :: w.groups }, rest)
    | '?' :: tail =>
      match ← groupHead g w.options w.around (c :: rest) tail with
      | (some kind, options, rest) =>
        return ({ plain with options, groups := ⟨kind, w.options⟩ :: w.groups }, rest)
      | (none, options, rest) => return ({ plain with options }, rest)
    | _ => return ({ plain with groups := ⟨.ordinary, w.options⟩ :: w.groups }, rest)
  | ')' =>
    match ← w.close with
    | (true, w) => w.quantifier rest
    | (false, w) => return ({ w with afterQuantifier := false }, rest)
  | c =>
    if isQuantifierMark c then
      if afterRun then w.quantifier (c :: rest)
      else .error (if w.afterQuantifier then .nestedQuantifier else .missingArgument)
    else w.quantifier rest

/-- Read a run of ordinary characters and the special one after it. A comment that is not closed
behind the run ends the body. -/
def step (g : Groups) (w : Walk) (cs : List Char) : Except PatternFault (Walk × List Char) := do
  let (_, start) ← orFault (skipGap w.options cs)
  let stop := skipRun w.options start
  match restOf (skipGap w.options stop) with
  | [] => return (w, [])
  | c :: rest =>
    if isSpecial c then w.special g (stop.length < start.length) c rest
    else return ({ w with afterQuantifier := false }, c :: rest)

/-- Go through a body, so many steps at most. -/
def run (g : Groups) (w : Walk) : Nat → List Char → Except PatternFault Walk
  | 0, _ => .ok w
  | _, [] => .ok w
  | fuel + 1, cs => do
    let (w, rest) ← w.step g cs
    w.run g fuel rest

end Walk

end RegExp

/-- What is wrong with the body of a regular expression. Each step reads at least one character. -/
def checkPattern (body : String) : Except PatternFault Unit := do
  let cs := body.toList
  let groups ← RegExp.declaredGroups cs
  let walk ← RegExp.Walk.run groups {} (cs.length + 1) cs
  if walk.groups.isEmpty then .ok () else .error .missingParen

/-- A compiler of regular expressions. Neither option has a part in what is refused. -/
def compilePattern : PatternCompiler := fun _ body =>
  match checkPattern body with
  | .ok () => none
  | .error fault => some ("error parsing regexp: " ++ fault.message ++ " in `" ++ body ++ "`")

end EcmaStack
