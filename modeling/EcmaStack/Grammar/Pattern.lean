import EcmaStack.Grammar.Names
import EcmaStack.Tree.Basic

/-!
# Patterns and parameters

What receives values. Reading a pattern may miss: then the rule answers `none` and the state is
as before, so that the same text can be read as an expression.
-/

namespace EcmaStack.Parse

/-- An expression as a pattern. Of the expressions only identifiers and members are patterns. -/
def asPattern (e : Expr) : Parse Pattern :=
  match e with
  | .identifier _ | .member _ _ _ _ _ => return .target e
  | _ => fail (.breakdown .noPattern)

/-- An optional default value. -/
def fallback (r : Rules) : Parse (Option Expr) := do
  if ← atPunct .assign then
    next
    return some (← withIn true r.assignment)
  return none

/-- A target with an optional default. -/
def patternElement (r : Rules) (binding : Bool) : Parse (Option Element) := do
  let start ← offset
  match ← r.target binding with
  | none => return none
  | some target =>
    let value ← fallback r
    return some (.bound (← spanFrom start) target value)

/-- The elements of an array pattern and its rest, up to the closing bracket. -/
def arrayElements (r : Rules) (binding : Bool) : Parse (Option (List Element × Option Pattern)) :=
  repeating [] fun items => do
    if ← atPunct .rightBracket then return .done (some (items.reverse, none))
    if ← atPunct .comma then
      next
      return .again (.hole :: items)
    if ← atPunct .ellipsis then
      next
      match ← r.target binding with
      | some rest =>
        if ← atPunct .rightBracket then return .done (some (items.reverse, some rest))
        return .done none
      | none => return .done none
    match ← patternElement r binding with
    | none => return .done none
    | some e =>
      if ← atPunct .rightBracket then return .done (some ((e :: items).reverse, none))
      if ← atPunct .comma then
        next
        return .again (e :: items)
      return .done none

/-- An array pattern. -/
def arrayPattern (r : Rules) (binding : Bool) : Parse (Option Pattern) :=
  attempt do
    let start ← expectPunct .leftBracket
    match ← arrayElements r binding with
    | none => return none
    | some (elements, rest) =>
      next
      return some (.array (← spanFrom start) elements rest)

/-- A property of an object pattern. It may miss after reading some of it. -/
def patternProperty (r : Rules) (binding : Bool) : Parse (Option PatternProperty) := do
  let start ← offset
  if (← isAt .identifier) && (← peek).kind != .punct .colon then
    match ← bindingIdentifier with
    | none => return none
    | some n =>
      let value ← fallback r
      return some ⟨← spanFrom start, .identifier n, false, .target (.identifier n), value, true⟩
  else
    match ← propertyKey r with
    | none => return none
    | some (key, computed) =>
      if !(← atPunct .colon) || key.isPrivateName then return none
      next
      match ← r.target binding with
      | none => return none
      | some target =>
        let value ← fallback r
        return some ⟨← spanFrom start, key, computed, target, value, false⟩

/-- What may stand after the dots in an object pattern. -/
def objectRest (r : Rules) (binding : Bool) : Parse (Option Pattern) := do
  if binding then return (← bindingIdentifier).map fun n => .target (.identifier n)
  r.target false

/-- The properties of an object pattern and its rest, up to the closing brace. -/
def objectProperties (r : Rules) (binding : Bool) :
    Parse (Option (List PatternProperty × Option Pattern)) :=
  repeating [] fun items => do
    if ← atPunct .rightBrace then return .done (some (items.reverse, none))
    if ← atPunct .ellipsis then
      next
      match ← objectRest r binding with
      | some rest =>
        if ← atPunct .rightBrace then return .done (some (items.reverse, some rest))
        return .done none
      | none => return .done none
    match ← patternProperty r binding with
    | none => return .done none
    | some p =>
      if ← atPunct .rightBrace then return .done (some ((p :: items).reverse, none))
      if ← atPunct .comma then
        next
        return .again (p :: items)
      return .done none

/-- An object pattern. -/
def objectPattern (r : Rules) (binding : Bool) : Parse (Option Pattern) :=
  attempt do
    let start ← expectPunct .leftBrace
    match ← objectProperties r binding with
    | none => return none
    | some (properties, rest) =>
      next
      return some (.object (← spanFrom start) properties rest)

/-- A target that is an identifier or a member. -/
def simpleTarget (r : Rules) : Parse (Option Pattern) := do
  match ← kind with
  | .identifier | .keyword .thisWord | .keyword .superWord =>
    attempt do
      let e ← r.leftHandSide
      match e.simpleTarget? with
      | some target => return some (← asPattern target)
      | none => return none
  | _ => return none

/-- Something that receives a value. -/
def patternTarget (r : Rules) (binding : Bool) : Parse (Option Pattern) := do
  match ← kind with
  | .punct .leftBracket => arrayPattern r binding
  | .punct .leftBrace => objectPattern r binding
  | _ =>
    if binding then return (← bindingIdentifier).map fun n => .target (.identifier n)
    simpleTarget r

/-- The parameters between parentheses and the rest parameter, up to the closing parenthesis. A
list that is not well formed is a miss when reading speculatively, and a fault otherwise. -/
def parameterItems (r : Rules) (speculative : Bool) :
    Parse (Option (List Element × Option Pattern)) :=
  let miss {σ : Type} : Parse (Turn σ (Option (List Element × Option Pattern))) :=
    if speculative then return .done none else unexpected
  repeating [] fun items => do
    if ← atPunct .rightParen then return .done (some (items.reverse, none))
    if ← atPunct .ellipsis then
      next
      match ← r.target true with
      | none => miss
      | some rest =>
        if ← atPunct .rightParen then return .done (some (items.reverse, some rest))
        if speculative then return .done none
        fail .restNotLast
    else
      match ← patternElement r true with
      | none => miss
      | some e =>
        if ← atPunct .rightParen then return .again (e :: items)
        if ← atPunct .comma then
          next
          return .again (e :: items)
        miss

/-- A parameter list in parentheses. -/
def parameterList (r : Rules) (speculative : Bool) : Parse (Option Params) := do
  if ← atPunct .leftParen then
    let start ← offset
    next
    match ← withIn true (parameterItems r speculative) with
    | none => return none
    | some (items, rest) =>
      next
      return some (.list (← spanFrom start) items rest)
  else if speculative then return none
  else unexpected

/-- A parameter list that may turn out to be something else. -/
def maybeParameters (r : Rules) : Parse (Option Params) :=
  attempt (parameterList r true)

/-- A parameter list. -/
def parameters (r : Rules) : Parse Params := do
  match ← parameterList r false with
  | some p => return p
  | none => unexpected

/-- Declare what a pattern binds. -/
def declarePattern (p : Pattern) (kind : DeclKind) : Parse Unit :=
  declareAll kind p.boundNames

/-- Declare what a parameter list binds. -/
def declareParameters (p : Params) : Parse Unit :=
  declareAll .param p.boundNames

end EcmaStack.Parse
