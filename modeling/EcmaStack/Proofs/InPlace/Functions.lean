import EcmaStack.Proofs.InPlace.Patterns
import EcmaStack.Grammar.Class

/-!
# Functions and classes in place

The body of a function, a class and what initializes a field are read in
contexts of their own, which are opened after the scope that goes with them and
closed before it. An arrow function opens its scope before it is known that
there is one: where there is none, the scope is abandoned and the parser goes
back to the mark, and no context has been opened yet.
-/

namespace EcmaStack.InPlace

open Parse

/-! ## Bodies -/

/-- A string that stands as a whole statement. One that starts an expression is
given back. -/
def directive : InPlace (Option Directive) := do
  let t ← token
  if t.kind != .string then return none
  let st ← mark
  next
  if ← canEnd then
    semicolon
    return some ⟨tokenSpan t, ← unquoted t⟩
  rewind st
  return none

/-- The strings at the head of a body that stand as statements. -/
def directives : InPlace (List Directive) :=
  repeating [] fun items => do
    match ← directive with
    | some d => return .again (d :: items)
    | none => return .done items.reverse

/-- A function body in braces. -/
def functionBody (r : Rules) : InPlace Body := do
  let start ← expectPunct .leftBrace
  let ds ← directives
  let items ← itemsUntil (· == .punct .rightBrace) r.item
  next
  return .block (← spanFrom start) ds items

/-! ## Functions -/

/-- Parameters and body, inside the function's own scope and context. -/
def functionRest (r : Rules) (generator async : Bool) :
    InPlace ((Params × Body) × Option Scope) := do
  let depth ← scopeDepth
  Parse.openScope (functionScope generator async)
  openFunctionContext false
  let params ← parameters r
  declareParameters params
  let body ← functionBody r
  closeContext
  let scope ← closeScope depth
  return ((params, body), scope)

/-- A function declaration or expression. -/
def function (r : Rules) (declaration nameOptional : Bool) : InPlace Function := do
  let start ← offset
  let async ← atContextual "async"
  if async then next
  let _ ← expectWord .functionWord
  let generator ← atPunct .star
  if generator then next
  let name ← functionName declaration nameOptional generator async
  let (params, body, env) ← match name, declaration with
    | some n, false =>
      let depth ← scopeDepth
      Parse.openScope { kind := .block }
      declare n .constDecl
      let ((params, body), scope) ← functionRest r generator async
      let nameScope ← closeScope depth
      pure (params, body, ({ scope, nameScope } : Env))
    | _, _ =>
      let ((params, body), scope) ← functionRest r generator async
      pure (params, body, ({ scope } : Env))
  return ⟨← spanFrom start, name, params, body, async, generator,
    { env with closure := closureOfFunction env params body none }⟩

/-- The parameters and body of a method whose key starts at `start`. -/
def method (r : Rules) (start : Nat) (kind : PropertyKind) (async generator superCall : Bool) :
    InPlace Function := do
  let depth ← scopeDepth
  Parse.openScope (functionScope generator async)
  openFunctionContext false
  changeContext fun c => { c with allowSuperProperty := true, allowSuperCall := superCall }
  let paramStart ← offset
  let params ← parameters r
  checkAccessor kind paramStart params
  declareParameters params
  let body ← functionBody r
  closeContext
  let scope ← closeScope depth
  let env : Env := { scope }
  return ⟨← spanFrom start, none, params, body, async, generator,
    { env with closure := closureOfFunction env params body none }⟩

/-! ## Arrow functions -/

/-- What stands before the arrow: one identifier, or a parameter list. -/
def arrowParameters (r : Rules) : InPlace (Option Params) := do
  if ← isAt .identifier then
    match ← bindingIdentifier with
    | some n => return some (.list n.span [.bound n.span (.target (.identifier n)) none] none)
    | none => return none
  parameterList r true

/-- What an arrow function does: statements in braces, or else an expression. -/
def arrowBody (r : Rules) : InPlace (Body × Option Expr) := do
  if ← atPunct .leftBrace then return (← functionBody r, none)
  return (.missing, some (← r.assignment))

/-- An arrow function; `none` where none starts. The scope of the function is
abandoned on a miss, and so is what was read in it. -/
def arrowFunction (r : Rules) : InPlace (Option Expr) := do
  match ← arrowStart with
  | none => return none
  | some async =>
    let start ← offset
    let st ← mark
    if async then next
    let depth ← scopeDepth
    Parse.openScope (functionScope false async)
    match ← arrowParameters r with
    | none =>
      abandonScope depth
      rewind st
      return none
    | some params =>
      if !(← atPunct .arrow) || (← token).newline then
        abandonScope depth
        rewind st
        return none
      next
      declareParameters params
      openFunctionContext true
      let (body, value) ← arrowBody r
      closeContext
      let scope ← closeScope depth
      let env : Env := { scope }
      return some (.arrow (← spanFrom start) params body value async
        { env with closure := closureOfFunction env params body value })

/-! ## Parts of classes -/

/-- An argument of a call or an element of an array, which may be spread. -/
def spreadOrAssignment (r : Rules) : InPlace Expr := do
  if ← atPunct .ellipsis then
    let start ← offset
    next
    let argument ← r.assignment
    return .spread (← spanFrom start) argument
  else r.assignment

/-- Arguments in parentheses. -/
def arguments (r : Rules) : InPlace (List Expr) := do
  let _ ← expectPunct .leftParen
  let restore ← setAllowIn true
  let args ← commaList .rightParen (spreadOrAssignment r)
  next
  restore
  return args

/-- An expression in parentheses. -/
def parenthesized (r : Rules) : InPlace Expr := do
  let start ← expectPunct .leftParen
  let restore ← setAllowIn true
  let inner ← r.expression
  restore
  let _ ← expectPunct .rightParen
  return .paren (← spanFrom start) inner

/-- What a decorator evaluates. -/
def decoratorExpression (r : Rules) : InPlace Expr := do
  if ← atPunct .leftParen then parenthesized r
  else
    let start ← offset
    let e ← dottedNames start (← identifierReference)
    if ← atPunct .leftParen then
      let args ← arguments r
      return .call (← spanFrom start) e args false
    else return e

/-- Decorators. -/
def decorators (r : Rules) : InPlace (List Decorator) :=
  repeating [] fun items => do
    if ← atPunct .at then
      let start ← offset
      next
      let e ← decoratorExpression r
      return .again (⟨← spanFrom start, e⟩ :: items)
    else return .done items.reverse

/-- A static block, from the brace on. -/
def staticBlock (r : Rules) (start : Nat) : InPlace ClassElement := do
  let depth ← scopeDepth
  Parse.openScope (functionScope false false)
  openFunctionContext false
  changeContext fun c => { c with inFunction := false, allowSuperProperty := true }
  let _ ← expectPunct .leftBrace
  let body ← itemsUntil (· == .punct .rightBrace) r.item
  next
  closeContext
  let scope ← closeScope depth
  let env : Env := { scope }
  return .staticBlock (← spanFrom start) body { env with closure := closureOfBlock env body }

/-- What initializes a field, in a context of its own. -/
def fieldInitializer (r : Rules) : InPlace Expr := do
  openContext
  changeContext fun c =>
    { c with inClass := true, allowSuperProperty := true, allowNewTarget := true }
  let value ← r.assignment
  closeContext
  return value

/-! ## Classes -/

/-- A member of a class body, after its decorators. -/
def classMember (r : Rules) (derived : Bool) (start : Nat) (decorations : List Decorator)
    (static : Bool) :
    InPlace ClassElement := do
  let accessor ← (do
    if (← atContextual "accessor") && (← modifierFollows false) then
      next
      return true
    return false : Parse Bool)
  let m ← if accessor then pure {} else memberModifiers
  let keyStart ← offset
  match ← propertyKey r with
  | none => unexpected
  | some (key, computed) =>
    let name := key.keyName?.getD ""
    let isConstructor := !computed && !static && name == "constructor"
    if !accessor && (← atPunct .leftParen) then
      let kind ← methodKind m isConstructor keyStart
      let f ← method r keyStart kind m.async m.generator (isConstructor && derived)
      return .method (← spanFrom start) key computed static kind (some f) decorations
    else
      if m.kind != .method || m.async || m.generator then unexpected
      if !computed && (name == "constructor" || name == "#constructor") then
        failAt keyStart .constructorField
      let initializer ← behind (atPunct .assign) (fieldInitializer r)
      let span ← spanFrom start
      semicolon
      return .field span key computed static accessor initializer decorations

/-- An element of a class body. -/
def classElement (r : Rules) (derived : Bool) : InPlace ClassElement := do
  let start ← offset
  let decorations ← decorators r
  if ← atWord .staticWord then
    if (← peek).kind == .punct .leftBrace then
      if !decorations.isEmpty then fail .decoratedBlock
      next
      staticBlock r start
    else if ← modifierFollows true then
      next
      classMember r derived start decorations true
    else classMember r derived start decorations false
  else classMember r derived start decorations false

/-- The elements of a class body up to the closing brace. -/
def classElements (r : Rules) (derived : Bool) : InPlace (List ClassElement) :=
  repeating [] fun items => do
    if ← atPunct .rightBrace then return .done items.reverse
    if ← atPunct .semicolon then
      next
      return .again items
    let e ← classElement r derived
    if isConstructor e && items.any isConstructor then failAt e.span.offset .secondConstructor
    else return .again (e :: items)

/-- What a class extends, and its body, which has a context of its own. -/
def classRest (r : Rules) : InPlace (Option Expr × List ClassElement × Option Scope) := do
  let superClass ← behind (atWord .extendsWord) r.leftHandSide
  let depth ← scopeDepth
  Parse.openScope (functionScope false false)
  openContext
  changeContext fun c => { c with inClass := true }
  let _ ← expectPunct .leftBrace
  let elements ← classElements r superClass.isSome
  next
  closeContext
  let scope ← closeScope depth
  return (superClass, elements, scope)

/-- A class declaration or expression. -/
def classLiteral (r : Rules) (declaration nameOptional : Bool) : InPlace Class := do
  let start ← offset
  let decorations ← decorators r
  let _ ← expectWord .classWord
  let name ← className declaration nameOptional
  let (superClass, elements, env) ← match name with
    | some n =>
      let depth ← scopeDepth
      Parse.openScope { kind := .block }
      declare n .constDecl
      let (superClass, elements, scope) ← classRest r
      let nameScope ← closeScope depth
      pure (superClass, elements, ({ scope, nameScope } : Env))
    | none =>
      let (superClass, elements, scope) ← classRest r
      pure (superClass, elements, ({ scope } : Env))
  return ⟨← spanFrom start, name, superClass, elements, decorations,
    { env with closure := closureOfClass env elements }⟩

namespace Follows

variable {r : InPlace.Rules} {q : EcmaStack.Rules} [h : r.Follow q]

instance directive : Follows InPlace.directive Parse.directive := by
  rw [Parse.directive, attempt_look]
  refine andThen fun t => ?_
  split
  · rw [attempt_none]
    infer_instance
  · exact attempt fun st => inferInstance

instance directives : Follows InPlace.directives Parse.directives :=
  turns fun items => andThen fun o => by cases o <;> infer_instance

instance functionBody : Follows (InPlace.functionBody r) (Parse.functionBody q) := by
  unfold InPlace.functionBody Parse.functionBody
  infer_instance

instance functionRest {generator async : Bool} :
    Follows (InPlace.functionRest r generator async) (Parse.functionRest q generator async) := by
  simp only [Parse.functionRest, Parse.inScope, within_bind, within_pure, bind_assoc, pure_bind]
  refine Runs.follows fun c => .bind .leaf fun depth => .bind .leaf fun _ => .openFunction ?_
  refine .bind (.within (.of_follows parameters)) fun params => .bind (.within .leaf) fun _ => ?_
  exact .bind (.within (.of_follows functionBody)) fun body =>
    .closeContext (.of_follows inferInstance)

instance function {declaration nameOptional : Bool} :
    Follows (InPlace.function r declaration nameOptional)
    (Parse.function q declaration nameOptional) := by
  refine andThen fun start => andThen fun async => optional fun _ => andThen fun _ =>
    andThen fun generator => ?_
  refine optional fun _ => andThen fun name => ?_
  cases name with
  | none =>
    simp only [pure_bind]
    infer_instance
  | some n =>
    simp only [inBlock, Parse.inScope, bind_assoc, pure_bind]
    cases declaration <;> infer_instance

instance method {start : Nat} {kind : PropertyKind} {async generator superCall : Bool} :
    Follows (InPlace.method r start kind async generator superCall)
      (Parse.method q start kind async generator superCall) := by
  simp only [Parse.method, Parse.inScope, within_bind, within_pure, bind_assoc, pure_bind]
  refine Runs.follows fun c => .bind .leaf fun depth => .bind .leaf fun _ =>
    .openFunction (.changeContext ?_)
  refine .bind (.within .leaf) fun paramStart =>
    .bind (.within (.of_follows parameters)) fun params => ?_
  refine .bind (.within .leaf) fun _ => .bind (.within .leaf) fun _ => ?_
  exact .bind (.within (.of_follows functionBody)) fun body =>
    .closeContext (.of_follows inferInstance)

instance arrowParameters : Follows (InPlace.arrowParameters r) (Parse.arrowParameters q) := by
  refine andThen fun _ => branch (andThen fun o => ?_) inferInstance
  cases o <;> infer_instance

instance arrowBody : Follows (InPlace.arrowBody r) (Parse.arrowBody q) := by
  unfold InPlace.arrowBody Parse.arrowBody
  infer_instance

/-- On a miss nothing but the scope of the function has been opened. -/
instance arrowFunction : Follows (InPlace.arrowFunction r) (Parse.arrowFunction q) := by
  refine andThen fun o => ?_
  cases o with
  | none => infer_instance
  | some async =>
    refine andThen fun start => attempt fun st => undoOptional fun _ => ?_
    simp only [inTrialScope, Parse.arrowRest, bind_assoc]
    refine undo fun depth => undo fun _ => undo fun o => ?_
    cases o with
    | none =>
      simp only [pure_bind, bind_assoc]
      infer_instance
    | some params =>
      simp only [bind_assoc]
      refine undo fun _ => undo fun t => ?_
      split
      · simp only [pure_bind, bind_assoc]
        infer_instance
      · simp only [bind_assoc, pure_bind, undoing_bind, undoing_some]
        refine Runs.follows fun c => .bind .leaf fun _ => .bind .leaf fun _ => .openArrow ?_
        exact .bind (.within (.of_follows arrowBody)) fun x =>
          .closeContext (.of_follows inferInstance)

/-! ## Classes -/

instance spreadOrAssignment :
    Follows (InPlace.spreadOrAssignment r) (Parse.spreadOrAssignment q) := by
  unfold InPlace.spreadOrAssignment Parse.spreadOrAssignment
  infer_instance

/-- The flag is put back behind the closing parenthesis. -/
instance arguments : Follows (InPlace.arguments r) (Parse.arguments q) := by
  refine andThen fun _ => Runs.follows fun c => .setAllowIn ?_
  exact .bind (.withIn (.of_follows inferInstance)) fun args => .bind .blind fun _ =>
    .changeContext .pure

instance parenthesized : Follows (InPlace.parenthesized r) (Parse.parenthesized q) := by
  unfold InPlace.parenthesized Parse.parenthesized
  infer_instance

instance decoratorExpression :
    Follows (InPlace.decoratorExpression r) (Parse.decoratorExpression q) := by
  unfold InPlace.decoratorExpression Parse.decoratorExpression
  infer_instance

instance decorators : Follows (InPlace.decorators r) (Parse.decorators q) := by
  unfold InPlace.decorators Parse.decorators
  infer_instance

instance staticBlock {start : Nat} :
    Follows (InPlace.staticBlock r start) (Parse.staticBlock q start) := by
  simp only [Parse.staticBlock, Parse.inScope, within_bind, within_pure, bind_assoc, pure_bind]
  refine Runs.follows fun c => .bind .leaf fun depth => .bind .leaf fun _ =>
    .openFunction (.changeContext ?_)
  refine .bind (.within .leaf) fun _ => .bind (.within (.of_follows inferInstance)) fun body => ?_
  exact .bind (.within .leaf) fun _ => .closeContext (.of_follows inferInstance)

instance fieldInitializer :
    Follows (InPlace.fieldInitializer r) (Parse.within (fun _ => Region.fieldInitializer)
      q.assignment) := by
  rw [← bind_pure (Parse.within _ _)]
  refine Runs.follows fun c => .openContext (.changeContext ?_)
  exact .bind (.within (.of_follows inferInstance)) fun value => .closeContext .pure

instance classMember {derived : Bool} {start : Nat} {decorations : List Decorator} {static : Bool} :
    Follows (InPlace.classMember r derived start decorations static)
      (Parse.classMember q derived start decorations static) := by
  refine andThen fun accessor => either fun m => andThen fun keyStart => andThen fun o => ?_
  cases o with
  | none => infer_instance
  | some x =>
    refine andThen fun _ => branch inferInstance ?_
    exact optional fun _ => optional fun _ => inferInstance

instance classElement {derived : Bool} :
    Follows (InPlace.classElement r derived) (Parse.classElement q derived) := by
  refine andThen fun start => andThen fun ds => andThen fun _ =>
    branch (andThen fun _ => branch ?_ ?_) inferInstance
  · exact optional fun _ => inferInstance
  · infer_instance

instance classElements {derived : Bool} :
    Follows (InPlace.classElements r derived) (Parse.classElements q derived) := by
  unfold InPlace.classElements Parse.classElements
  infer_instance

instance classRest : Follows (InPlace.classRest r) (Parse.classRest q) := by
  refine andThen fun superClass => ?_
  simp only [Parse.inScope, within_bind, within_pure, bind_assoc, pure_bind]
  refine Runs.follows fun c => .bind .leaf fun depth => .bind .leaf fun _ =>
    .openContext (.changeContext ?_)
  refine .bind (.within .leaf) fun _ =>
    .bind (.within (.of_follows classElements)) fun elements => ?_
  exact .bind (.within .leaf) fun _ => .closeContext (.of_follows inferInstance)

instance classLiteral {declaration nameOptional : Bool} :
    Follows (InPlace.classLiteral r declaration nameOptional)
    (Parse.classLiteral q declaration nameOptional) := by
  refine andThen fun start => andThen fun ds => andThen fun _ => andThen fun name => ?_
  cases name with
  | none => infer_instance
  | some n =>
    simp only [inBlock, Parse.inScope, bind_assoc, pure_bind]
    infer_instance

end Follows

end EcmaStack.InPlace
