import EcmaStack.Grammar.Operators

/-!
# Statements and declarations

Everything a body is made of except imports and exports. A semicolon may be left out before a
closing brace, at the end of a line and at the end of the source.
-/

namespace EcmaStack.Parse

/-! ## Variable declarations -/

/-- Whether a declaration with `using` or `await using` starts here. -/
def startsUsing : Parse Bool := do
  if ← atContextual "using" then
    let t ← peek
    return t.kind == .identifier && !t.newline && t.name != "of" && t.name != "in"
  else if (← atContextual "await") && (← inAsync) then
    let (first, second) ← peekTwo
    return first.kind == .identifier && first.name == "using" && !first.newline &&
      second.kind == .identifier && !second.newline
  else return false

/-- Whether a declaration of variables starts here. -/
def startsDeclaration : Parse Bool := do
  match ← kind with
  | .keyword .varWord | .keyword .letWord | .keyword .constWord => return true
  | _ => startsUsing

/-- The word or words that start a declaration. -/
def declarationKind : Parse DeclKind := do
  if ← atWord .letWord then
    next
    return .letDecl
  else if ← atWord .constWord then
    next
    return .constDecl
  else if ← atContextual "using" then
    next
    return .using
  else if ← atContextual "await" then
    next
    next
    return .awaitUsing
  else
    next
    return .var

/-- One target of a declaration, with its initializer. -/
def declarator (r : Rules) (kind : DeclKind) : Parse Declarator := do
  let start ← offset
  if (kind == .using || kind == .awaitUsing) &&
      ((← atPunct .leftBracket) || (← atPunct .leftBrace)) then
    fail (.usingPattern kind)
  match ← r.target true with
  | none => unexpected
  | some target =>
    let initializer ← behind (atPunct .assign) r.assignment
    declarePattern target kind
    return ⟨← spanFrom start, target, initializer⟩

/-- The targets of a declaration, with commas between them. -/
def declarators (r : Rules) (kind : DeclKind) : Parse (List Declarator) :=
  repeating [] fun items => do
    let d ← declarator r kind
    if ← atPunct .comma then
      next
      return .again (d :: items)
    return .done (d :: items).reverse

/-- A declaration of variables, without what ends it. -/
def variableDeclaration (r : Rules) : Parse VarDecl := do
  let start ← offset
  let kind ← declarationKind
  let list ← declarators r kind
  return ⟨← spanFrom start, kind, list⟩

/-- A pattern, a constant and a resource need an initializer. -/
def checkInitializer (kind : DeclKind) (d : Declarator) : Parse Unit :=
  match d.initializer, d.target with
  | some _, _ => pure ()
  | none, .target _ =>
    if kind == .constDecl || kind == .using || kind == .awaitUsing then
      failAt d.span.offset (.missingInitializer kind)
    else pure ()
  | none, _ => failAt d.span.offset .patternInitializer

/-- Check one declarator after the other. -/
def checkInitializers (kind : DeclKind) : List Declarator → Parse Unit
  | [] => pure ()
  | d :: rest => do
    checkInitializer kind d
    checkInitializers kind rest

/-- A declaration of variables that stands as a statement. -/
def variableStatement (r : Rules) : Parse Stmt := do
  let d ← variableDeclaration r
  checkInitializers d.kind d.list
  semicolon
  return .declaration { d with span := ← spanFrom d.span.offset }

/-- A function declaration. Its name is declared where it stands. -/
def functionDeclaration (r : Rules) (nameOptional : Bool) : Parse Stmt := do
  let f ← function r true nameOptional
  match f.name with
  | some n => declareAt n f.span.offset .function
  | none => pure ()
  return .function f.span f

/-- A class declaration. -/
def classDeclaration (r : Rules) (nameOptional : Bool) : Parse Stmt := do
  let c ← classLiteral r true nameOptional
  match c.name with
  | some n => declare n .classDecl
  | none => pure ()
  return .classDecl c.span c

/-! ## Blocks and jumps -/

/-- Statements in braces. -/
def block (r : Rules) : Parse Block := do
  let start ← expectPunct .leftBrace
  let (items, scope) ← inBlock do
    let items ← itemsUntil (· == .punct .rightBrace) r.item
    next
    return items
  return ⟨← spanFrom start, items, scope⟩

/-- A condition in parentheses. -/
def condition (r : Rules) : Parse Expr := do
  let _ ← expectPunct .leftParen
  let test ← r.expression
  let _ ← expectPunct .rightParen
  return test

/-- A labelled statement. -/
def labelledStatement (r : Rules) : Parse Stmt := do
  let t ← token
  if isReserved t.name || (← isReservedHere t.name) then fail .reservedWord
  next
  let _ ← expectPunct .colon
  if ((← region).label? t.name).isSome then failAt t.start (.repeatedLabel t.name)
  let loop := match ← kind with
    | .keyword .doWord | .keyword .whileWord | .keyword .forWord => true
    | _ => false
  let body ← within (fun outer => { outer with labels := ⟨t.name, loop⟩ :: outer.labels })
    r.statement
  return .labelled (← spanFrom t.start) (some (nameOf t)) body

/-- The label after `break` or `continue`, on the same line. -/
def labelReference : Parse (Option Name) := do
  let t ← token
  if t.kind != .identifier || t.newline then return none
  next
  return some (nameOf t)

/-- A break statement. -/
def breakStatement : Parse Stmt := do
  let start ← expectWord .breakWord
  let label ← labelReference
  let here ← region
  match label with
  | some n => if (here.label? n.text).isNone then failAt n.span.offset (.undefinedLabel n.text)
  | none => if !here.inIteration && !here.inSwitch then failAt start .illegalBreak
  semicolon
  return .breakOff (← spanFrom start) label

/-- A continue statement. -/
def continueStatement : Parse Stmt := do
  let start ← expectWord .continueWord
  let label ← labelReference
  let here ← region
  match label with
  | some n =>
    match here.label? n.text with
    | none => failAt n.span.offset (.undefinedLabel n.text)
    | some l => if !l.loop then failAt start (.continueTarget n.text)
  | none => if !here.inIteration then failAt start .illegalContinue
  semicolon
  return .carryOn (← spanFrom start) label

/-- A return statement. -/
def returnStatement (r : Rules) : Parse Stmt := do
  let start ← expectWord .returnWord
  if !(← region).inFunction then failAt start .illegalReturn
  let argument ← if ← canEnd then pure none else some <$> r.expression
  semicolon
  return .giveBack (← spanFrom start) argument

/-- A throw statement. -/
def throwStatement (r : Rules) : Parse Stmt := do
  let start ← expectWord .throwWord
  if (← token).newline then fail .newlineAfterThrow
  let argument ← r.expression
  semicolon
  return .raise (← spanFrom start) argument

/-- A debugger statement. -/
def debuggerStatement : Parse Stmt := do
  let start ← expectWord .debuggerWord
  semicolon
  return .debugger (← spanFrom start)

/-! ## Branches -/

/-- An if statement. -/
def ifStatement (r : Rules) : Parse Stmt := do
  let start ← expectWord .ifWord
  let test ← condition r
  let consequent ← r.statement
  let alternate ← behind (atWord .elseWord) r.statement
  return .branch (← spanFrom start) test consequent alternate

/-- Whether a clause of a switch ends before a token. -/
def endsClause (k : Kind) : Bool :=
  k == .keyword .caseWord || k == .keyword .defaultWord || k == .punct .rightBrace

/-- The test of a clause; there may be one clause without. -/
def clauseTest (r : Rules) (hasDefault : Bool) : Parse (Option Expr) := do
  if ← atWord .defaultWord then
    if hasDefault then fail .repeatedDefault
    next
    return none
  else
    let _ ← expectWord .caseWord
    return some (← r.expression)

/-- The clauses of a switch. -/
def clauses (r : Rules) : Parse (List CaseClause) :=
  repeating [] fun items => do
    if ← atPunct .rightBrace then return .done items.reverse
    let start ← offset
    let test ← clauseTest r (items.any (·.test.isNone))
    let _ ← expectPunct .colon
    let consequent ← itemsUntil endsClause r.item
    return .again (⟨← spanFrom start, test, consequent⟩ :: items)

/-- A switch statement. -/
def switchStatement (r : Rules) : Parse Stmt := do
  let start ← expectWord .switchWord
  let discriminant ← condition r
  let _ ← expectPunct .leftBrace
  let (cases, scope) ← inBlock <| within (fun outer => { outer with inSwitch := true }) do
    let cases ← clauses r
    next
    return cases
  return .switch (← spanFrom start) discriminant cases scope

/-- What a handler binds the exception to, if anything; its names are declared there. -/
def catchParam (r : Rules) : Parse (Option Pattern) := do
  if ← atPunct .leftParen then
    next
    match ← r.target true with
    | none => unexpected
    | some p =>
      declarePattern p .letDecl
      let _ ← expectPunct .rightParen
      return some p
  else return none

/-- What handles an exception. -/
def catchClause (r : Rules) : Parse CatchClause := do
  let start ← offset
  next
  let ((param, body), scope) ← inBlock do
    let param ← catchParam r
    let _ ← expectPunct .leftBrace
    let body ← itemsUntil (· == .punct .rightBrace) r.item
    next
    return (param, body)
  return ⟨← spanFrom start, param, body, scope⟩

/-- A try statement. -/
def tryStatement (r : Rules) : Parse Stmt := do
  let start ← expectWord .tryWord
  let main ← block r
  let handler ← if ← atWord .catchWord then some <$> catchClause r else pure none
  let finalizer ← behind (atWord .finallyWord) (block r)
  if handler.isNone && finalizer.isNone then fail .missingHandler
  return .guarded (← spanFrom start) main handler finalizer

/-! ## Loops -/

/-- The body of a loop. -/
def iterationBody (r : Rules) : Parse Stmt :=
  within (fun outer => { outer with inIteration := true }) r.statement

/-- A while statement. -/
def whileStatement (r : Rules) : Parse Stmt := do
  let start ← expectWord .whileWord
  let test ← condition r
  let body ← iterationBody r
  return .whileLoop (← spanFrom start) test body

/-- A do statement. -/
def doStatement (r : Rules) : Parse Stmt := do
  let start ← expectWord .doWord
  let body ← iterationBody r
  let _ ← expectWord .whileWord
  let test ← condition r
  if ← atPunct .semicolon then next
  return .doWhile (← spanFrom start) body test

/-- Whether `in` or `of` comes next, and which. -/
def loopWord : Parse (Option LoopWord) := do
  if ← atWord .inWord then return some .forIn
  if ← atContextual "of" then return some .forOf
  return none

/-- A pattern as the head of a loop. -/
def patternHead : Pattern → Node
  | .target e => .expr e
  | p => .pattern p

/-- A target before `in` or `of`. -/
def targetHead (r : Rules) : Parse (Option Node) :=
  attempt do
    match ← r.target false with
    | none => return none
    | some p => return if (← loopWord).isSome then some (patternHead p) else none

/-- What stands after the parenthesis of a loop. -/
def loopHead (r : Rules) : Parse (Option Node) := do
  if ← atPunct .semicolon then return none
  if ← startsDeclaration then return some (.stmt
    (.declaration (← withIn false (variableDeclaration r))))
  match ← targetHead r with
  | some h => return some h
  | none => return some (.expr (← withIn false r.expression))

/-- Whether a head may stand before `in` or `of`. -/
def checkHead (start : Nat) (word : LoopWord) : Option Node → Parse Unit
  | some (.stmt (.declaration d)) =>
    match d.list with
    | [single] =>
      if single.initializer.isSome then failAt d.span.offset (.loopInitializer word) else pure ()
    | _ => failAt d.span.offset (.loopBindings word)
  | some (.expr (.identifier _)) | some (.expr (.member _ _ _ _ _)) | some (.pattern _) => pure ()
  | _ => failAt start (.loopTarget word)

/-- The rest of a loop over a collection. -/
def collectionLoop (r : Rules) (start : Nat) (await : Bool) (head : Option Node) (word : LoopWord) :
    Parse (Span → Option Scope → Stmt) := do
  checkHead start word head
  if await && word == .forIn then unexpected
  next
  let right ← match word with
    | .forOf => r.assignment
    | .forIn => r.expression
  let _ ← expectPunct .rightParen
  let body ← iterationBody r
  let left := head.getD (.expr right)
  return fun span scope => match word with
    | .forOf => .forOf span left right body await scope
    | .forIn => .forIn span left right body scope

/-- The test, the update and the body of a loop, from the first semicolon on. -/
def loopClauses (r : Rules) (head : Option Node) : Parse (Span → Option Scope → Stmt) := do
  let _ ← expectPunct .semicolon
  let test ← if ← atPunct .semicolon then pure none else some <$> r.expression
  let _ ← expectPunct .semicolon
  let update ← if ← atPunct .rightParen then pure none else some <$> r.expression
  let _ ← expectPunct .rightParen
  let body ← iterationBody r
  return fun span scope => .forLoop span head test update body scope

/-- The rest of a loop with a test and an update. -/
def countedLoop (r : Rules) (head : Option Node) : Parse (Span → Option Scope → Stmt) := do
  match head with
  | some (.stmt (.declaration d)) => checkInitializers d.kind d.list
  | _ => pure ()
  loopClauses r head

/-- What stands in the parentheses of a loop, and its body. -/
def loopParts (r : Rules) (start : Nat) (await : Bool) : Parse (Span → Option Scope → Stmt) := do
  let head ← loopHead r
  match ← loopWord with
  | some word => collectionLoop r start await head word
  | none =>
    if await then unexpected
    countedLoop r head

/-- A loop that starts at `start`, from the parenthesis on. What its head declares
belongs to the loop. -/
def loopRest (r : Rules) (start : Nat) (await : Bool) : Parse Stmt := do
  let _ ← expectPunct .leftParen
  let (build, scope) ← inBlock (loopParts r start await)
  return build (← spanFrom start) scope

/-- The three forms of for. -/
def forStatement (r : Rules) : Parse Stmt := do
  let start ← expectWord .forWord
  let await ← atContextual "await"
  if await then
    if !(← inAsync) then unexpected
    next
  loopRest r start await

/-! ## Dispatch -/

/-- An expression that stands as a statement. -/
def expressionStatement (r : Rules) : Parse Stmt := do
  let start ← offset
  let e ← r.expression
  semicolon
  return .expression (← spanFrom start) e

/-- A statement. -/
def statementRule (r : Rules) : Parse Stmt := do
  let t ← token
  match t.kind with
  | .punct .semicolon =>
    next
    return .empty (← spanFrom t.start)
  | .punct .leftBrace => return .block (← block r)
  | .keyword .varWord => variableStatement r
  | .keyword .ifWord => ifStatement r
  | .keyword .doWord => doStatement r
  | .keyword .whileWord => whileStatement r
  | .keyword .forWord => forStatement r
  | .keyword .breakWord => breakStatement
  | .keyword .continueWord => continueStatement
  | .keyword .debuggerWord => debuggerStatement
  | .keyword .switchWord => switchStatement r
  | .keyword .returnWord => returnStatement r
  | .keyword .throwWord => throwStatement r
  | .keyword .tryWord => tryStatement r
  | .keyword .withWord => fail .withStatement
  | .keyword .letWord | .keyword .constWord | .keyword .classWord | .keyword .functionWord =>
    fail .lexicalStatement
  | .identifier =>
    if !t.escaped && (← peek).kind == .punct .colon then labelledStatement r
    else expressionStatement r
  | _ => expressionStatement r

/-- Whether an asynchronous function starts at the token in hand. -/
def startsAsyncFunction (sameLine : Bool) : Parse Bool := do
  if ← atContextual "async" then
    let t ← peek
    return t.kind == .keyword .functionWord && !(sameLine && t.newline)
  return false

/-- A statement or a declaration. -/
def itemRule (r : Rules) : Parse Stmt := do
  match ← kind with
  | .keyword .functionWord => functionDeclaration r false
  | .keyword .classWord | .punct .at => classDeclaration r false
  | .keyword .letWord | .keyword .constWord => variableStatement r
  | .identifier =>
    if ← startsAsyncFunction true then functionDeclaration r false
    else if ← startsUsing then variableStatement r
    else statementRule r
  | _ => statementRule r

end EcmaStack.Parse
