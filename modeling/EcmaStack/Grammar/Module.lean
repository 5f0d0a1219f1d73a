import EcmaStack.Grammar.Statement

/-!
# Imports and exports

The declarations that only a module may hold.
-/

namespace EcmaStack.Parse

/-- A name that an import or export goes by: any identifier name, or a string. -/
def exportName : Parse Name := do
  let t ← token
  if t.kind == .string || t.kind.isIdentifierName then
    next
    return nameOf t
  else unexpected

/-- The string that names a module. -/
def moduleSource : Parse StringLiteral := do
  let t ← token
  if t.kind == .string then
    next
    stringLiteral t
  else unexpected

/-- One attribute of an import. -/
def importAttribute : Parse ImportAttribute := do
  let start ← offset
  let key ← exportName
  let _ ← expectPunct .colon
  let value ← moduleSource
  return ⟨← spanFrom start, key.text, value⟩

/-- Attributes in braces after `with`, or after `assert` on the same line. -/
def importAttributes : Parse (List ImportAttribute) := do
  if (← atWord .withWord) || ((← atContextual "assert") && !(← token).newline) then
    next
    let _ ← expectPunct .leftBrace
    let list ← commaList .rightBrace importAttribute
    next
    return list
  return []

/-- A name in the braces of an import. -/
def importSpecifier : Parse ImportSpecifier := do
  let t ← token
  let plain := t.kind == .identifier && !t.escaped
  let imported ← exportName
  if ← atContextual "as" then
    next
    let inner ← requiredBinding
    return .named (← spanFrom t.start) imported inner
  else if !plain || (← isReservedHere imported.text) then failAt t.start .reservedWord
  else return .named (← spanFrom t.start) imported imported

/-- The default import, before a comma or the rest. -/
def defaultSpecifier : Parse (List ImportSpecifier) := do
  if ← isAt .identifier then
    let inner ← requiredBinding
    if ← atPunct .comma then
      next
      if !(← atPunct .star) && !(← atPunct .leftBrace) then unexpected
    return [.standard inner.span (some inner)]
  return []

/-- What is imported besides the default. -/
def otherSpecifiers : Parse (List ImportSpecifier) := do
  match ← kind with
  | .punct .star =>
    let start ← offset
    next
    expectContextual "as"
    let inner ← requiredBinding
    return [.whole (← spanFrom start) (some inner)]
  | .punct .leftBrace =>
    next
    let list ← commaList .rightBrace importSpecifier
    next
    return list
  | _ => return []

/-- What an import brings in, up to `from`. -/
def importSpecifiers : Parse (List ImportSpecifier) := do
  if ← isAt .string then return []
  let first ← defaultSpecifier
  let specifiers := first ++ (← otherSpecifiers)
  if specifiers.isEmpty then unexpected
  expectContextual "from"
  return specifiers

/-- The name an import declares. -/
def importedName : ImportSpecifier → Option Name
  | .named _ _ inner => some inner
  | .standard _ inner | .whole _ inner => inner

/-- An import declaration. -/
def importDeclaration : Parse Stmt := do
  let start ← expectWord .importWord
  let specifiers ← importSpecifiers
  let source ← moduleSource
  let attributes ← importAttributes
  semicolon
  let span ← spanFrom start
  declareAll .importDecl (specifiers.filterMap importedName)
  return .importDecl span (specifiers.map .importSpecifier) source attributes

/-- A name in the braces of an export, and whether it can name a variable. -/
def exportSpecifier : Parse (ExportSpecifier × Bool) := do
  let t ← token
  let plain := t.kind == .identifier && !t.escaped
  let inner ← exportName
  let exported ← (do
    if ← atContextual "as" then
      next
      exportName
    else return inner : Parse Name)
  return (⟨← spanFrom t.start, some inner, some exported⟩, plain)

/-- Names exported from this module must be able to name a variable. -/
def checkPlain : List (ExportSpecifier × Bool) → Parse Unit
  | [] => pure ()
  | (s, plain) :: rest => if plain then checkPlain rest else failAt s.span.offset .reservedWord

/-- Names in braces, of this module or of another. -/
def exportList (start : Nat) : Parse Stmt := do
  next
  let specifiers ← commaList .rightBrace exportSpecifier
  next
  let (source, attributes) ← (do
    if ← atContextual "from" then
      next
      let source ← moduleSource
      return (some source, ← importAttributes)
    else
      checkPlain specifiers
      return (none, []) : Parse (Option StringLiteral × List ImportAttribute))
  semicolon
  return .exportNamed (← spanFrom start) none (specifiers.map (·.1)) source attributes

/-- Everything of another module. -/
def exportEverything (start : Nat) : Parse Stmt := do
  next
  let exported ← behind (atContextual "as") exportName
  expectContextual "from"
  let source ← moduleSource
  let attributes ← importAttributes
  semicolon
  return .exportAll (← spanFrom start) exported source attributes

/-- The default export. -/
def exportStandard (r : Rules) (start : Nat) : Parse Stmt := do
  next
  if (← atWord .functionWord) || (← startsAsyncFunction false) then
    let s ← functionDeclaration r true
    return .exportDefault (← spanFrom start) (.stmt s)
  else if (← atWord .classWord) || (← atPunct .at) then
    let s ← classDeclaration r true
    return .exportDefault (← spanFrom start) (.stmt s)
  else
    let e ← r.assignment
    semicolon
    return .exportDefault (← spanFrom start) (.expr e)

/-- A declaration that is exported as it is made. -/
def exportedDeclaration (r : Rules) : Parse Stmt := do
  if ← startsDeclaration then variableStatement r
  else if (← atWord .functionWord) || (← startsAsyncFunction false) then functionDeclaration r false
  else if (← atWord .classWord) || (← atPunct .at) then classDeclaration r false
  else unexpected

/-- An export declaration. -/
def exportDeclaration (r : Rules) : Parse Stmt := do
  let start ← expectWord .exportWord
  match ← kind with
  | .punct .star => exportEverything start
  | .keyword .defaultWord => exportStandard r start
  | .punct .leftBrace => exportList start
  | _ =>
    let s ← exportedDeclaration r
    return .exportNamed (← spanFrom start) (some s) [] none []

/-- An item of a program. -/
def moduleItem (r : Rules) : Parse Stmt := do
  if (← surroundings).module then
    match ← kind with
    | .keyword .importWord =>
      let after := (← peek).kind
      if after != .punct .leftParen && after != .punct .dot then importDeclaration else r.item
    | .keyword .exportWord => exportDeclaration r
    | _ => r.item
  else r.item

end EcmaStack.Parse
