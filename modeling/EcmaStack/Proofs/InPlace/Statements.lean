import EcmaStack.Proofs.InPlace.Expressions
import EcmaStack.Grammar.Module

/-!
# Statements in place

A statement changes the flags of the context it stands in, not the stack: a
label is in force for the statement it names, and a loop or a switch lets `break`
and `continue` be used in its body. Each is taken back when the body has been
read. What stands before the `in` of a loop is read with the operator `in` not
allowed, and as a target first.
-/

namespace EcmaStack.InPlace

open Parse

/-! ## Declarations -/

/-- One target of a declaration, with its initializer. -/
def declarator (r : Rules) (kind : DeclKind) : InPlace Declarator := do
  let start ← offset
  if (kind == .using || kind == .awaitUsing) &&
      ((← atPunct .leftBracket) || (← atPunct .leftBrace)) then
    fail (.usingPattern kind)
  match ← r.target true with
  | none => unexpected
  | some target =>
    let initializer ← behind (atPunct .assign) r.assignment
    declarePattern target kind
    return ⟨← spanFrom start, target, initializer⟩

/-- The targets of a declaration, with commas between them. -/
def declarators (r : Rules) (kind : DeclKind) : InPlace (List Declarator) :=
  repeating [] fun items => do
    let d ← declarator r kind
    if ← atPunct .comma then
      next
      return .again (d :: items)
    return .done (d :: items).reverse

/-- A declaration of variables, without what ends it. -/
def variableDeclaration (r : Rules) : InPlace VarDecl := do
  let start ← offset
  let kind ← declarationKind
  let list ← declarators r kind
  return ⟨← spanFrom start, kind, list⟩

/-- A declaration of variables that stands as a statement. -/
def variableStatement (r : Rules) : InPlace Stmt := do
  let d ← variableDeclaration r
  checkInitializers d.kind d.list
  semicolon
  return .declaration { d with span := ← spanFrom d.span.offset }

/-- A function declaration. Its name is declared where it stands. -/
def functionDeclaration (r : Rules) (nameOptional : Bool) : InPlace Stmt := do
  let f ← function r true nameOptional
  match f.name with
  | some n => declareAt n f.span.offset .function
  | none => pure ()
  return .function f.span f

/-- A class declaration. -/
def classDeclaration (r : Rules) (nameOptional : Bool) : InPlace Stmt := do
  let c ← classLiteral r true nameOptional
  match c.name with
  | some n => declare n .classDecl
  | none => pure ()
  return .classDecl c.span c

/-! ## Blocks and jumps -/

/-- Statements in braces. -/
def block (r : Rules) : InPlace Block := do
  let start ← expectPunct .leftBrace
  let depth ← scopeDepth
  Parse.openScope { kind := .block }
  let items ← itemsUntil (· == .punct .rightBrace) r.item
  next
  let scope ← closeScope depth
  return ⟨← spanFrom start, items, scope⟩

/-- A condition in parentheses. -/
def condition (r : Rules) : InPlace Expr := do
  let _ ← expectPunct .leftParen
  let test ← r.expression
  let _ ← expectPunct .rightParen
  return test

/-- A labelled statement. The label is pushed for the statement it names. -/
def labelledStatement (r : Rules) : InPlace Stmt := do
  let t ← token
  if isReserved t.name || (← isReservedHere t.name) then fail .reservedWord
  next
  let _ ← expectPunct .colon
  if ((← region).label? t.name).isSome then failAt t.start (.repeatedLabel t.name)
  let loop := match ← kind with
    | .keyword .doWord | .keyword .whileWord | .keyword .forWord => true
    | _ => false
  changeContext fun c => { c with labels := ⟨t.name, loop⟩ :: c.labels }
  let body ← r.statement
  changeContext fun c => { c with labels := c.labels.tail }
  return .labelled (← spanFrom t.start) (some (nameOf t)) body

/-- A return statement. -/
def returnStatement (r : Rules) : InPlace Stmt := do
  let start ← expectWord .returnWord
  if !(← region).inFunction then failAt start .illegalReturn
  let argument ← if ← canEnd then pure none else some <$> r.expression
  semicolon
  return .giveBack (← spanFrom start) argument

/-- A throw statement. -/
def throwStatement (r : Rules) : InPlace Stmt := do
  let start ← expectWord .throwWord
  if (← token).newline then fail .newlineAfterThrow
  let argument ← r.expression
  semicolon
  return .raise (← spanFrom start) argument

/-! ## Branches -/

/-- An if statement. -/
def ifStatement (r : Rules) : InPlace Stmt := do
  let start ← expectWord .ifWord
  let test ← condition r
  let consequent ← r.statement
  let alternate ← behind (atWord .elseWord) r.statement
  return .branch (← spanFrom start) test consequent alternate

/-- The test of a clause; there may be one clause without. -/
def clauseTest (r : Rules) (hasDefault : Bool) : InPlace (Option Expr) := do
  if ← atWord .defaultWord then
    if hasDefault then fail .repeatedDefault
    next
    return none
  else
    let _ ← expectWord .caseWord
    return some (← r.expression)

/-- The clauses of a switch. -/
def clauses (r : Rules) : InPlace (List CaseClause) :=
  repeating [] fun items => do
    if ← atPunct .rightBrace then return .done items.reverse
    let start ← offset
    let test ← clauseTest r (items.any (·.test.isNone))
    let _ ← expectPunct .colon
    let consequent ← itemsUntil endsClause r.item
    return .again (⟨← spanFrom start, test, consequent⟩ :: items)

/-- A switch statement. -/
def switchStatement (r : Rules) : InPlace Stmt := do
  let start ← expectWord .switchWord
  let discriminant ← condition r
  let _ ← expectPunct .leftBrace
  let depth ← scopeDepth
  Parse.openScope { kind := .block }
  let before := (← context).inSwitch
  changeContext fun c => { c with inSwitch := true }
  let cases ← clauses r
  next
  changeContext fun c => { c with inSwitch := before }
  let scope ← closeScope depth
  return .switch (← spanFrom start) discriminant cases scope

/-- What a handler binds the exception to, if anything; its names are declared there. -/
def catchParam (r : Rules) : InPlace (Option Pattern) := do
  if ← atPunct .leftParen then
    next
    match ← r.target true with
    | none => unexpected
    | some p =>
      declarePattern p .letDecl
      let _ ← expectPunct .rightParen
      return some p
  else return none

/-- What handles an exception. -/
def catchClause (r : Rules) : InPlace CatchClause := do
  let start ← offset
  next
  let depth ← scopeDepth
  Parse.openScope { kind := .block }
  let param ← catchParam r
  let _ ← expectPunct .leftBrace
  let body ← itemsUntil (· == .punct .rightBrace) r.item
  next
  let scope ← closeScope depth
  return ⟨← spanFrom start, param, body, scope⟩

/-- A try statement. -/
def tryStatement (r : Rules) : InPlace Stmt := do
  let start ← expectWord .tryWord
  let main ← block r
  let handler ← if ← atWord .catchWord then some <$> catchClause r else pure none
  let finalizer ← behind (atWord .finallyWord) (block r)
  if handler.isNone && finalizer.isNone then fail .missingHandler
  return .guarded (← spanFrom start) main handler finalizer

/-! ## Loops -/

/-- The body of a loop. -/
def iterationBody (r : Rules) : InPlace Stmt := do
  let before := (← context).inIteration
  changeContext fun c => { c with inIteration := true }
  let body ← r.statement
  changeContext fun c => { c with inIteration := before }
  return body

/-- A while statement. -/
def whileStatement (r : Rules) : InPlace Stmt := do
  let start ← expectWord .whileWord
  let test ← condition r
  let body ← iterationBody r
  return .whileLoop (← spanFrom start) test body

/-- A do statement. -/
def doStatement (r : Rules) : InPlace Stmt := do
  let start ← expectWord .doWord
  let body ← iterationBody r
  let _ ← expectWord .whileWord
  let test ← condition r
  if ← atPunct .semicolon then next
  return .doWhile (← spanFrom start) body test

/-- A target before `in` or `of`. Where it is none, or neither word follows, the
parser goes back. -/
def targetHead (r : Rules) : InPlace (Option Node) := do
  let st ← mark
  match ← r.target false with
  | none =>
    rewind st
    return none
  | some p =>
    if (← loopWord).isSome then return some (patternHead p)
    else
      rewind st
      return none

/-- What stands after the parenthesis of a loop. -/
def loopHead (r : Rules) : InPlace (Option Node) := do
  if ← atPunct .semicolon then return none
  if ← startsDeclaration then
    let restore ← setAllowIn false
    let d ← variableDeclaration r
    restore
    return some (.stmt (.declaration d))
  match ← targetHead r with
  | some h => return some h
  | none =>
    let restore ← setAllowIn false
    let e ← r.expression
    restore
    return some (.expr e)

/-- The rest of a loop over a collection. -/
def collectionLoop (r : Rules) (start : Nat) (await : Bool) (head : Option Node) (word : LoopWord) :
    InPlace (Span → Option Scope → Stmt) := do
  checkHead start word head
  if await && word == .forIn then unexpected
  next
  let right ← match word with
    | .forOf => r.assignment
    | .forIn => r.expression
  let _ ← expectPunct .rightParen
  let body ← iterationBody r
  let left := head.getD (.expr right)
  return fun span scope => match word with
    | .forOf => .forOf span left right body await scope
    | .forIn => .forIn span left right body scope

/-- The test, the update and the body of a loop, from the first semicolon on. -/
def loopClauses (r : Rules) (head : Option Node) : InPlace (Span → Option Scope → Stmt) := do
  let _ ← expectPunct .semicolon
  let test ← if ← atPunct .semicolon then pure none else some <$> r.expression
  let _ ← expectPunct .semicolon
  let update ← if ← atPunct .rightParen then pure none else some <$> r.expression
  let _ ← expectPunct .rightParen
  let body ← iterationBody r
  return fun span scope => .forLoop span head test update body scope

/-- The rest of a loop with a test and an update. -/
def countedLoop (r : Rules) (head : Option Node) : InPlace (Span → Option Scope → Stmt) := do
  match head with
  | some (.stmt (.declaration d)) => checkInitializers d.kind d.list
  | _ => pure ()
  loopClauses r head

/-- What stands in the parentheses of a loop, and its body. -/
def loopParts (r : Rules) (start : Nat) (await : Bool) : InPlace (Span → Option Scope → Stmt) := do
  let head ← loopHead r
  match ← loopWord with
  | some word => collectionLoop r start await head word
  | none =>
    if await then unexpected
    countedLoop r head

/-- A loop that starts at `start`, from the parenthesis on. -/
def loopRest (r : Rules) (start : Nat) (await : Bool) : InPlace Stmt := do
  let _ ← expectPunct .leftParen
  let depth ← scopeDepth
  Parse.openScope { kind := .block }
  let build ← loopParts r start await
  let scope ← closeScope depth
  return build (← spanFrom start) scope

/-- The three forms of for. -/
def forStatement (r : Rules) : InPlace Stmt := do
  let start ← expectWord .forWord
  let await ← atContextual "await"
  if await then
    if !(← inAsync) then unexpected
    next
  loopRest r start await

/-! ## Dispatch -/

/-- An expression that stands as a statement. -/
def expressionStatement (r : Rules) : InPlace Stmt := do
  let start ← offset
  let e ← r.expression
  semicolon
  return .expression (← spanFrom start) e

/-- A statement. -/
def statementRule (r : Rules) : InPlace Stmt := do
  let t ← token
  match t.kind with
  | .punct .semicolon =>
    next
    return .empty (← spanFrom t.start)
  | .punct .leftBrace => return .block (← block r)
  | .keyword .varWord => variableStatement r
  | .keyword .ifWord => ifStatement r
  | .keyword .doWord => doStatement r
  | .keyword .whileWord => whileStatement r
  | .keyword .forWord => forStatement r
  | .keyword .breakWord => breakStatement
  | .keyword .continueWord => continueStatement
  | .keyword .debuggerWord => debuggerStatement
  | .keyword .switchWord => switchStatement r
  | .keyword .returnWord => returnStatement r
  | .keyword .throwWord => throwStatement r
  | .keyword .tryWord => tryStatement r
  | .keyword .withWord => fail .withStatement
  | .keyword .letWord | .keyword .constWord | .keyword .classWord | .keyword .functionWord =>
    fail .lexicalStatement
  | .identifier =>
    if !t.escaped && (← peek).kind == .punct .colon then labelledStatement r
    else expressionStatement r
  | _ => expressionStatement r

/-- A statement or a declaration. -/
def itemRule (r : Rules) : InPlace Stmt := do
  match ← kind with
  | .keyword .functionWord => functionDeclaration r false
  | .keyword .classWord | .punct .at => classDeclaration r false
  | .keyword .letWord | .keyword .constWord => variableStatement r
  | .identifier =>
    if ← startsAsyncFunction true then functionDeclaration r false
    else if ← startsUsing then variableStatement r
    else statementRule r
  | _ => statementRule r

/-! ## Modules -/

/-- The default export. -/
def exportStandard (r : Rules) (start : Nat) : InPlace Stmt := do
  next
  if (← atWord .functionWord) || (← startsAsyncFunction false) then
    let s ← functionDeclaration r true
    return .exportDefault (← spanFrom start) (.stmt s)
  else if (← atWord .classWord) || (← atPunct .at) then
    let s ← classDeclaration r true
    return .exportDefault (← spanFrom start) (.stmt s)
  else
    let e ← r.assignment
    semicolon
    return .exportDefault (← spanFrom start) (.expr e)

/-- A declaration that is exported as it is made. -/
def exportedDeclaration (r : Rules) : InPlace Stmt := do
  if ← startsDeclaration then variableStatement r
  else if (← atWord .functionWord) || (← startsAsyncFunction false) then functionDeclaration r false
  else if (← atWord .classWord) || (← atPunct .at) then classDeclaration r false
  else unexpected

/-- An export declaration. -/
def exportDeclaration (r : Rules) : InPlace Stmt := do
  let start ← expectWord .exportWord
  match ← kind with
  | .punct .star => exportEverything start
  | .keyword .defaultWord => exportStandard r start
  | .punct .leftBrace => exportList start
  | _ =>
    let s ← exportedDeclaration r
    return .exportNamed (← spanFrom start) (some s) [] none []

/-- An item of a program. -/
def moduleItem (r : Rules) : InPlace Stmt := do
  if (← surroundings).module then
    match ← kind with
    | .keyword .importWord =>
      let after := (← peek).kind
      if after != .punct .leftParen && after != .punct .dot then importDeclaration else r.item
    | .keyword .exportWord => exportDeclaration r
    | _ => r.item
  else r.item

namespace Follows

variable {r : InPlace.Rules} {q : EcmaStack.Rules} [h : r.Follow q]

/-! ## Declarations -/

instance declarator {kind : DeclKind} :
    Follows (InPlace.declarator r kind) (Parse.declarator q kind) := by
  refine andThen fun start => andThen fun _ => andThen fun _ => optional fun _ =>
    andThen fun o => ?_
  cases o <;> infer_instance

instance declarators {kind : DeclKind} :
    Follows (InPlace.declarators r kind) (Parse.declarators q kind) := by
  unfold InPlace.declarators Parse.declarators
  infer_instance

instance variableDeclaration :
    Follows (InPlace.variableDeclaration r) (Parse.variableDeclaration q) := by
  unfold InPlace.variableDeclaration Parse.variableDeclaration
  infer_instance

instance variableStatement : Follows (InPlace.variableStatement r) (Parse.variableStatement q) := by
  unfold InPlace.variableStatement Parse.variableStatement
  infer_instance

instance functionDeclaration {nameOptional : Bool} :
    Follows (InPlace.functionDeclaration r nameOptional)
    (Parse.functionDeclaration q nameOptional) := by
  refine andThen fun f => ?_
  cases f.name <;> infer_instance

instance classDeclaration {nameOptional : Bool} :
    Follows (InPlace.classDeclaration r nameOptional) (Parse.classDeclaration q nameOptional) := by
  refine andThen fun c => ?_
  cases c.name <;> infer_instance

/-! ## Blocks and jumps -/

instance block : Follows (InPlace.block r) (Parse.block q) := by
  simp only [Parse.block, inBlock, Parse.inScope, bind_assoc, pure_bind]
  unfold InPlace.block
  infer_instance

instance condition : Follows (InPlace.condition r) (Parse.condition q) := by
  unfold InPlace.condition Parse.condition
  infer_instance

instance labelledStatement : Follows (InPlace.labelledStatement r) (Parse.labelledStatement q) := by
  refine andThen fun t => andThen fun _ => optional fun _ => andThen fun _ => andThen fun _ =>
    andThen fun here => ?_
  refine optional fun _ => andThen fun k => Runs.follows fun c => .changeContext ?_
  exact .bind (.within (.of_follows inferInstance)) fun body =>
    .changeContext (.of_follows inferInstance)

instance returnStatement : Follows (InPlace.returnStatement r) (Parse.returnStatement q) := by
  refine andThen fun start => andThen fun here => optional fun _ => andThen fun _ => ?_
  exact either fun argument => inferInstance

instance throwStatement : Follows (InPlace.throwStatement r) (Parse.throwStatement q) :=
  andThen fun _ => andThen fun _ => optional fun _ => inferInstance

/-! ## Branches -/

instance ifStatement : Follows (InPlace.ifStatement r) (Parse.ifStatement q) := by
  unfold InPlace.ifStatement Parse.ifStatement
  infer_instance

instance clauseTest {hasDefault : Bool} :
    Follows (InPlace.clauseTest r hasDefault) (Parse.clauseTest q hasDefault) :=
  andThen fun _ => branch (optional fun _ => inferInstance) inferInstance

instance clauses : Follows (InPlace.clauses r) (Parse.clauses q) := by
  unfold InPlace.clauses Parse.clauses
  infer_instance

instance switchStatement : Follows (InPlace.switchStatement r) (Parse.switchStatement q) := by
  simp only [Parse.switchStatement, inBlock, Parse.inScope, within_bind, within_pure, bind_assoc,
    pure_bind]
  refine andThen fun start => andThen fun discriminant => andThen fun _ => andThen fun depth =>
    andThen fun _ => ?_
  refine Runs.follows fun c =>
    .context (.changeContext (.bind (.within (.of_follows inferInstance)) fun cases => ?_))
  exact .bind (.within .leaf) fun _ => .changeContext (.of_follows inferInstance)

instance catchParam : Follows (InPlace.catchParam r) (Parse.catchParam q) := by
  refine andThen fun _ => branch (andThen fun _ => andThen fun o => ?_) inferInstance
  cases o <;> infer_instance

instance catchClause : Follows (InPlace.catchClause r) (Parse.catchClause q) := by
  simp only [InPlace.catchClause, Parse.catchClause, inBlock, Parse.inScope, bind_assoc, pure_bind]
  exact andThen fun _ => andThen fun _ => andThen fun _ => andThen fun _ => inferInstance

instance tryStatement : Follows (InPlace.tryStatement r) (Parse.tryStatement q) := by
  refine andThen fun start => andThen fun main => andThen fun _ => either fun handler =>
    andThen fun finalizer => ?_
  exact optional fun _ => inferInstance

/-! ## Loops -/

instance iterationBody : Follows (InPlace.iterationBody r) (Parse.iterationBody q) := by
  rw [Parse.iterationBody, ← bind_pure (Parse.within _ _)]
  refine Runs.follows fun c => .context (.changeContext ?_)
  exact .bind (.within (.of_follows inferInstance)) fun body => .changeContext .pure

instance whileStatement : Follows (InPlace.whileStatement r) (Parse.whileStatement q) := by
  unfold InPlace.whileStatement Parse.whileStatement
  infer_instance

instance doStatement : Follows (InPlace.doStatement r) (Parse.doStatement q) :=
  andThen fun _ => andThen fun _ => andThen fun _ => andThen fun _ => andThen fun _ =>
    optional fun _ => inferInstance

instance targetHead : Follows (InPlace.targetHead r) (Parse.targetHead q) := by
  refine attempt fun st => undo fun o => ?_
  cases o with
  | none => infer_instance
  | some p =>
    refine undo fun word => ?_
    cases word with
    | none => exact missedNone
    | some word => exact matchedSome

instance loopHead : Follows (InPlace.loopHead r) (Parse.loopHead q) := by
  refine andThen fun _ =>
    branch inferInstance (andThen fun _ => branch inferInstance (andThen fun o => ?_))
  cases o <;> infer_instance

instance collectionLoop {start : Nat} {await : Bool} {head : Option Node} {word : LoopWord} :
    Follows (InPlace.collectionLoop r start await head word)
    (Parse.collectionLoop q start await head word) := by
  refine andThen fun _ => optional fun _ => andThen fun _ => ?_
  cases word <;> infer_instance

instance loopClauses {head : Option Node} :
    Follows (InPlace.loopClauses r head) (Parse.loopClauses q head) := by
  refine andThen fun _ => andThen fun _ => either fun test => andThen fun _ => andThen fun _ => ?_
  exact either fun update => inferInstance

instance countedLoop {head : Option Node} :
    Follows (InPlace.countedLoop r head) (Parse.countedLoop q head) := by
  rcases head with _ | n
  · exact loopClauses
  cases n with
  | stmt stmt =>
    cases stmt with
    | declaration d => exact andThen fun _ => loopClauses
    | _ => exact loopClauses
  | _ => exact loopClauses

instance loopParts {start : Nat} {await : Bool} :
    Follows (InPlace.loopParts r start await) (Parse.loopParts q start await) := by
  refine andThen fun head => andThen fun o => ?_
  cases o with
  | some word => infer_instance
  | none => exact optional fun _ => inferInstance

instance loopRest {start : Nat} {await : Bool} :
    Follows (InPlace.loopRest r start await) (Parse.loopRest q start await) := by
  simp only [Parse.loopRest, inBlock, Parse.inScope, bind_assoc, pure_bind]
  unfold InPlace.loopRest
  infer_instance

instance forStatement : Follows (InPlace.forStatement r) (Parse.forStatement q) := by
  refine andThen fun start => andThen fun await => ?_
  exact branch (andThen fun _ => optional fun _ => inferInstance) inferInstance

/-! ## Dispatch -/

instance expressionStatement :
    Follows (InPlace.expressionStatement r) (Parse.expressionStatement q) := by
  unfold InPlace.expressionStatement Parse.expressionStatement
  infer_instance

instance statementRule : Follows (InPlace.statementRule r) (Parse.statementRule q) := by
  refine andThen fun t => ?_
  generalize t.kind = k
  cases k with
  | punct p => cases p <;> infer_instance
  | keyword w => cases w <;> infer_instance
  | _ => infer_instance

instance itemRule : Follows (InPlace.itemRule r) (Parse.itemRule q) := by
  refine andThen fun k => ?_
  cases k with
  | punct p => cases p <;> infer_instance
  | keyword w => cases w <;> infer_instance
  | _ => infer_instance

/-! ## Modules -/

set_option synthInstance.maxSize 512 in
instance exportStandard {start : Nat} :
    Follows (InPlace.exportStandard r start) (Parse.exportStandard q start) := by
  unfold InPlace.exportStandard Parse.exportStandard
  infer_instance

instance exportedDeclaration :
    Follows (InPlace.exportedDeclaration r) (Parse.exportedDeclaration q) := by
  unfold InPlace.exportedDeclaration Parse.exportedDeclaration
  infer_instance

instance exportDeclaration : Follows (InPlace.exportDeclaration r) (Parse.exportDeclaration q) := by
  refine andThen fun start => andThen fun k => ?_
  cases k with
  | punct p => cases p <;> infer_instance
  | keyword w => cases w <;> infer_instance
  | _ => infer_instance

instance moduleItem : Follows (InPlace.moduleItem r) (Parse.moduleItem q) := by
  refine andThen fun here => branch (andThen fun k => ?_) inferInstance
  cases k with
  | keyword w => cases w <;> infer_instance
  | _ => infer_instance

end Follows

end EcmaStack.InPlace
