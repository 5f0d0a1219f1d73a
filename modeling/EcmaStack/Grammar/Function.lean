import EcmaStack.Closure.Free
import EcmaStack.Grammar.Pattern

/-!
# Functions

Function declarations, expressions and methods. A function's parameters and body share one
scope. A function expression with a name binds it in a scope of its own around that. What the
function captures is known as soon as it has been read.
-/

namespace EcmaStack.Parse

/-- A string that stands as a whole statement; `none` where none does. -/
def directive : Parse (Option Directive) :=
  attempt do
    let t ← token
    if t.kind != .string then return none
    next
    if ← canEnd then
      semicolon
      return some ⟨tokenSpan t, ← unquoted t⟩
    return none

/-- The strings at the head of a body that stand as statements. -/
def directives : Parse (List Directive) :=
  repeating [] fun items => do
    match ← directive with
    | some d => return .again (d :: items)
    | none => return .done items.reverse

/-- A function body in braces. -/
def functionBody (r : Rules) : Parse Body := do
  let start ← expectPunct .leftBrace
  let ds ← directives
  let items ← itemsUntil (· == .punct .rightBrace) r.item
  next
  return .block (← spanFrom start) ds items

/-- The scope of a function. -/
def functionScope (generator async : Bool) : Scope :=
  { kind := .function, generator, async }

/-- Parameters and body, inside the function's own scope. -/
def functionRest (r : Rules) (generator async : Bool) : Parse ((Params × Body) × Option Scope) :=
  inScope (functionScope generator async) <| within Region.function do
    let params ← parameters r
    declareParameters params
    return (params, ← functionBody r)

/-- The name of a function, if it has one. The name of a function expression follows the
function's own rules on `yield` and `await`. -/
def functionName (declaration nameOptional generator async : Bool) : Parse (Option Name) := do
  if ← isAt .identifier then
    if declaration then return some (← requiredBinding)
    let (name, _) ← inScope (functionScope generator async) bindingIdentifier
    match name with
    | some n => return some n
    | none => unexpected
  else if declaration && !nameOptional then unexpected
  else return none

/-- A function declaration or expression. -/
def function (r : Rules) (declaration nameOptional : Bool) : Parse Function := do
  let start ← offset
  let async ← atContextual "async"
  if async then next
  let _ ← expectWord .functionWord
  let generator ← atPunct .star
  if generator then next
  let name ← functionName declaration nameOptional generator async
  let (params, body, env) ← match name, declaration with
    | some n, false =>
      let (((params, body), scope), nameScope) ← inBlock do
        declare n .constDecl
        functionRest r generator async
      pure (params, body, ({ scope, nameScope } : Env))
    | _, _ =>
      let ((params, body), scope) ← functionRest r generator async
      pure (params, body, ({ scope } : Env))
  return ⟨← spanFrom start, name, params, body, async, generator,
    { env with closure := closureOfFunction env params body none }⟩

/-- Whether a parameter list suits a getter or setter. -/
def checkAccessor (kind : PropertyKind) (start : Nat) (params : Params) : Parse Unit :=
  let (count, rest) : Nat × Bool := match params with
    | .list _ items rest => (items.length, rest.isSome)
    | .missing => (0, false)
  match kind with
  | .getter => if count != 0 || rest then failAt start .getterParameters else pure ()
  | .setter => if count != 1 || rest then failAt start .setterParameters else pure ()
  | _ => pure ()

/-- The parameters and body of a method whose key starts at `start`. -/
def method (r : Rules) (start : Nat) (kind : PropertyKind) (async generator superCall : Bool) :
    Parse Function := do
  let ((params, body), scope) ← inScope (functionScope generator async) <|
    within (fun outer => outer.method superCall) do
      let paramStart ← offset
      let params ← parameters r
      checkAccessor kind paramStart params
      declareParameters params
      return (params, ← functionBody r)
  let env : Env := { scope }
  return ⟨← spanFrom start, none, params, body, async, generator,
    { env with closure := closureOfFunction env params body none }⟩

/-- What stands before the arrow: one identifier, or a parameter list. -/
def arrowParameters (r : Rules) : Parse (Option Params) := do
  if ← isAt .identifier then
    match ← bindingIdentifier with
    | some n => return some (.list n.span [.bound n.span (.target (.identifier n)) none] none)
    | none => return none
  maybeParameters r

/-- Whether an arrow function may start here, and whether it would be asynchronous. -/
def arrowStart : Parse (Option Bool) := do
  if ← atContextual "async" then
    let t ← peek
    if t.kind == .punct .arrow then return some false
    if t.newline || (t.kind != .identifier && t.kind != .punct .leftParen) then return none
    return some true
  if ← isAt .identifier then
    return if (← peek).kind == .punct .arrow then some false else none
  return if ← atPunct .leftParen then some false else none

/-- What an arrow function does: statements in braces, or else an expression. -/
def arrowBody (r : Rules) : Parse (Body × Option Expr) := do
  if ← atPunct .leftBrace then return (← functionBody r, none)
  return (.missing, some (← r.assignment))

/-- An arrow function from its parameters on, inside its own scope. It may miss after reading
some of it. -/
def arrowRest (r : Rules) : Parse (Option (Params × Body × Option Expr)) := do
  match ← arrowParameters r with
  | none => return none
  | some params =>
    if !(← atPunct .arrow) || (← token).newline then return none
    next
    declareParameters params
    return some (params, ← within Region.arrow (arrowBody r))

/-- An arrow function; `none`, with nothing read, where none starts. The parameters are read
inside the scope of the function before it is known that there is one. -/
def arrowFunction (r : Rules) : Parse (Option Expr) := do
  match ← arrowStart with
  | none => return none
  | some async =>
    let start ← offset
    attempt do
      if async then next
      match ← inTrialScope (functionScope false async) (arrowRest r) with
      | none => return none
      | some ((params, body, value), scope) =>
        let env : Env := { scope }
        return some (.arrow (← spanFrom start) params body value async
          { env with closure := closureOfFunction env params body value })

end EcmaStack.Parse
