import EcmaStack.Grammar.Parse
import EcmaStack.Number.Literal

/-!
# Names, keys and literals

The smallest phrases: identifiers in their three roles (bound, referred to, and merely a name),
property keys, and number literals.
-/

namespace EcmaStack.Parse

/-- The name a token carries. -/
def nameOf (t : Token) : Name :=
  ⟨tokenSpan t, t.name⟩

/-- An identifier that is bound here; `none` where the token in hand cannot name a binding. -/
def bindingIdentifier : Parse (Option Name) := do
  let t ← token
  if t.kind != .identifier || (t.escaped && isReserved t.name) || (← isReservedHere t.name) then
    return none
  next
  return some (nameOf t)

/-- An identifier that must be bound here. -/
def requiredBinding : Parse Name := do
  match ← bindingIdentifier with
  | some n => return n
  | none => unexpected

/-- An identifier that is referred to. The names `NaN` and `Infinity` are numbers. -/
def identifierReference : Parse Expr := do
  let t ← token
  if t.kind != .identifier then unexpected
  else if t.escaped && isReserved t.name then fail .escapedKeyword
  else if ← isReservedHere t.name then fail .reservedWord
  else
    next
    match t.name with
    | "NaN" => return .number (tokenSpan t) "NaN" .nan
    | "Infinity" => return .number (tokenSpan t) "Infinity" (.infinity false)
    | _ => return .identifier (nameOf t)

/-- The name after a point. -/
def memberName : Parse Expr := do
  let t ← token
  if t.kind == .privateName then
    if (← region).inClass then
      next
      return .privateName (nameOf t)
    else fail (.privateOutsideClass t.name)
  else if t.kind.isIdentifierName then
    next
    return .identifier (nameOf t)
  else unexpected

/-- The literal of a number token that was already read. -/
def numberLiteral (t : Token) : Parse Expr := do
  let raw ← literal t
  if t.kind == .bigint then
    match bigIntValue? raw.toString with
    | some value => return .bigint (tokenSpan t) raw.toString (some value)
    | none => failAt t.start (.invalidBigInt raw.toString)
  else
    match numberValue? raw.toString with
    | some value => return .number (tokenSpan t) raw.toString value
    | none => failAt t.start (.invalidNumber raw.toString)

/-- The literal of a string token. -/
def stringLiteral (t : Token) : Parse StringLiteral := do
  return ⟨tokenSpan t, ← literal t, t.value⟩

/-- The key of an object or class member, and whether it is computed; `none`, reading nothing,
where no key starts. -/
def propertyKey (r : Rules) : Parse (Option (Expr × Bool)) := do
  let t ← token
  match t.kind with
  | .string =>
    next
    return some (.string (← stringLiteral t), false)
  | .number | .bigint =>
    next
    return some (← numberLiteral t, false)
  | .punct .leftBracket =>
    next
    let key ← withIn true r.assignment
    let _ ← expectPunct .rightBracket
    return some (key, true)
  | .privateName =>
    next
    return some (.privateName (nameOf t), false)
  | k =>
    if k.isIdentifierName then
      next
      return some (.identifier (nameOf t), false)
    else return none

/-- Whether the word in hand modifies a member key that follows it, rather than being the key. -/
def modifierFollows (allowNewline : Bool) : Parse Bool := do
  let t ← peek
  if !allowNewline && t.newline then return false
  match t.kind with
  | .string | .number | .bigint | .punct .leftBracket | .privateName | .punct .star => return true
  | k => return k.isIdentifierName

end EcmaStack.Parse
