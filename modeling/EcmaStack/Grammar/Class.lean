import EcmaStack.Grammar.Function

/-!
# Classes

A class body has a function scope of its own; a named class also binds its name in a block scope
around what it extends and its body.
-/

namespace EcmaStack.Parse

/-- An argument of a call or an element of an array, which may be spread. -/
def spreadOrAssignment (r : Rules) : Parse Expr := do
  if ← atPunct .ellipsis then
    let start ← offset
    next
    let argument ← r.assignment
    return .spread (← spanFrom start) argument
  else r.assignment

/-- Arguments in parentheses. -/
def arguments (r : Rules) : Parse (List Expr) := do
  let _ ← expectPunct .leftParen
  let args ← withIn true <| commaList .rightParen (spreadOrAssignment r)
  next
  return args

/-- An expression in parentheses. -/
def parenthesized (r : Rules) : Parse Expr := do
  let start ← expectPunct .leftParen
  let inner ← withIn true r.expression
  let _ ← expectPunct .rightParen
  return .paren (← spanFrom start) inner

/-- Dotted names after an expression that starts at `start`. -/
def dottedNames (start : Nat) (e : Expr) : Parse Expr :=
  repeating e fun e => do
    if ← atPunct .dot then
      next
      let property ← memberName
      return .again (.member (← spanFrom start) e property false false)
    else return .done e

/-- What a decorator evaluates: an expression in parentheses, or dotted names and perhaps one
call. -/
def decoratorExpression (r : Rules) : Parse Expr := do
  if ← atPunct .leftParen then parenthesized r
  else
    let start ← offset
    let e ← dottedNames start (← identifierReference)
    if ← atPunct .leftParen then
      let args ← arguments r
      return .call (← spanFrom start) e args false
    else return e

/-- Decorators. -/
def decorators (r : Rules) : Parse (List Decorator) :=
  repeating [] fun items => do
    if ← atPunct .at then
      let start ← offset
      next
      let e ← decoratorExpression r
      return .again (⟨← spanFrom start, e⟩ :: items)
    else return .done items.reverse

/-- A static block, from the brace on. -/
def staticBlock (r : Rules) (start : Nat) : Parse ClassElement := do
  let (body, scope) ← inScope (functionScope false false) <| within Region.staticBlock do
    let _ ← expectPunct .leftBrace
    let items ← itemsUntil (· == .punct .rightBrace) r.item
    next
    return items
  let env : Env := { scope }
  return .staticBlock (← spanFrom start) body { env with closure := closureOfBlock env body }

/-- What stands before the key of a class element. -/
structure Modifiers where
  kind : PropertyKind := .method
  async : Bool := false
  generator : Bool := false

/-- `get`, `set`, `async` and `*` before the key of a class element. -/
def memberModifiers : Parse Modifiers := do
  let m ← (do
    if ((← atContextual "get") || (← atContextual "set")) && (← modifierFollows true) then
      let kind : PropertyKind := if (← token).name == "set" then .setter else .getter
      next
      return ({ kind } : Modifiers)
    else if (← atContextual "async") && (← modifierFollows false) then
      next
      return { async := true }
    else return {} : Parse Modifiers)
  if m.kind == .method && (← atPunct .star) then
    next
    return { m with generator := true }
  return m

/-- The kind of a method, once its key is known. A constructor may be nothing else. -/
def methodKind (m : Modifiers) (isConstructor : Bool) (keyStart : Nat) : Parse PropertyKind := do
  if !isConstructor then return m.kind
  if m.kind != .method then failAt keyStart .constructorAccessor
  else if m.generator then failAt keyStart .constructorGenerator
  else if m.async then failAt keyStart .constructorAsync
  else return .constructor

/-- A member of a class body, after its decorators. -/
def classMember (r : Rules) (derived : Bool) (start : Nat) (decorations : List Decorator)
    (static : Bool) :
    Parse ClassElement := do
  let accessor ← (do
    if (← atContextual "accessor") && (← modifierFollows false) then
      next
      return true
    return false : Parse Bool)
  let m ← if accessor then pure {} else memberModifiers
  let keyStart ← offset
  match ← propertyKey r with
  | none => unexpected
  | some (key, computed) =>
    let name := key.keyName?.getD ""
    let isConstructor := !computed && !static && name == "constructor"
    if !accessor && (← atPunct .leftParen) then
      let kind ← methodKind m isConstructor keyStart
      let f ← method r keyStart kind m.async m.generator (isConstructor && derived)
      return .method (← spanFrom start) key computed static kind (some f) decorations
    else
      if m.kind != .method || m.async || m.generator then unexpected
      if !computed && (name == "constructor" || name == "#constructor") then
        failAt keyStart .constructorField
      let initializer ← behind (atPunct .assign)
        (within (fun _ => Region.fieldInitializer) r.assignment)
      let span ← spanFrom start
      semicolon
      return .field span key computed static accessor initializer decorations

/-- An element of a class body. -/
def classElement (r : Rules) (derived : Bool) : Parse ClassElement := do
  let start ← offset
  let decorations ← decorators r
  if ← atWord .staticWord then
    if (← peek).kind == .punct .leftBrace then
      if !decorations.isEmpty then fail .decoratedBlock
      next
      staticBlock r start
    else if ← modifierFollows true then
      next
      classMember r derived start decorations true
    else classMember r derived start decorations false
  else classMember r derived start decorations false

/-- Whether an element is the constructor. -/
def isConstructor : ClassElement → Bool
  | .method _ _ _ _ .constructor _ _ => true
  | _ => false

/-- The elements of a class body up to the closing brace. There may be one constructor. -/
def classElements (r : Rules) (derived : Bool) : Parse (List ClassElement) :=
  repeating [] fun items => do
    if ← atPunct .rightBrace then return .done items.reverse
    if ← atPunct .semicolon then
      next
      return .again items
    let e ← classElement r derived
    if isConstructor e && items.any isConstructor then failAt e.span.offset .secondConstructor
    else return .again (e :: items)

/-- What a class extends, and its body. -/
def classRest (r : Rules) : Parse (Option Expr × List ClassElement × Option Scope) := do
  let superClass ← behind (atWord .extendsWord) r.leftHandSide
  let (elements, scope) ← inScope (functionScope false false) <|
    within (fun _ => Region.classBody) do
    let _ ← expectPunct .leftBrace
    let elements ← classElements r superClass.isSome
    next
    return elements
  return (superClass, elements, scope)

/-- The name of a class, if it has one. -/
def className (declaration nameOptional : Bool) : Parse (Option Name) := do
  if ← isAt .identifier then return some (← requiredBinding)
  else if declaration && !nameOptional then unexpected
  else return none

/-- A class declaration or expression. -/
def classLiteral (r : Rules) (declaration nameOptional : Bool) : Parse Class := do
  let start ← offset
  let decorations ← decorators r
  let _ ← expectWord .classWord
  let name ← className declaration nameOptional
  let (superClass, elements, env) ← match name with
    | some n =>
      let ((superClass, elements, scope), nameScope) ← inBlock do
        declare n .constDecl
        classRest r
      pure (superClass, elements, ({ scope, nameScope } : Env))
    | none =>
      let (superClass, elements, scope) ← classRest r
      pure (superClass, elements, ({ scope } : Env))
  return ⟨← spanFrom start, name, superClass, elements, decorations,
    { env with closure := closureOfClass env elements }⟩

end EcmaStack.Parse
