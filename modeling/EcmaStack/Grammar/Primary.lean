import EcmaStack.Grammar.Class

/-!
# Primary expressions

Literals, names, parenthesized expressions, object and array literals, functions, classes,
`super`, `new` and `import`, and the chains of members and calls that may follow them.
-/

namespace EcmaStack.Parse

/-- A template literal, from its first token on. After each substitution the brace is read again
as template text. -/
def templateLiteral (r : Rules) : Parse Template := do
  let start ← offset
  repeating (([], []) : List TemplateElement × List Expr) fun (quasis, expressions) => do
    let t ← token
    let quasi : TemplateElement := ⟨tokenSpan t, t.raw, t.value⟩
    next
    if t.kind == .template || t.kind == .templateTail then
      return .done ⟨← spanFrom start, (quasi :: quasis).reverse, expressions.reverse⟩
    let e ← withIn true r.expression
    if ← atPunct .rightBrace then
      let s ← get
      let (again, cursor) := rescanTemplate (← surroundings).source s.token
      hold again cursor s.previousEnd
      return .again (quasi :: quasis, e :: expressions)
    else unexpected

/-- Whether the body of a regular expression is compiled at all: the flags `u` and `v` allow
notations that are not known to the compiler. -/
def isChecked (flags : String) : Bool :=
  !(flags.toList.any fun c => c == 'u' || c == 'v')

/-- A token that was read again as a regular expression: it comes into hand, and is taken. -/
def regExpToken (t : Token) (cursor : Cursor) (previousEnd : Nat) : Parse Expr := do
  hold t cursor previousEnd
  next
  return .regexp (tokenSpan t) (← literal t) t.value t.raw.toString

/-- A regular expression, from the slash in hand. -/
def regExpLiteral : Parse Expr := do
  let s ← get
  let e ← surroundings
  let (t, cursor) := rescanRegExp e.source s.token
  match t.fault with
  | some fault => failAt t.start (.lexical fault)
  | none =>
    if t.kind != .regexp then unexpected
    else
      let flags := t.raw.toString
      if isChecked flags then
        match e.compiler (.ofFlags flags) t.name with
        | none => pure ()
        | some message => failAt t.start (.pattern t.name flags message)
      regExpToken t cursor s.previousEnd

/-- The elements of an array literal up to the closing bracket; a comma without an element before
it leaves a hole. -/
def arrayItems (r : Rules) : Parse (List Expr) :=
  repeating [] fun items => do
    if ← atPunct .rightBracket then return .done items.reverse
    if ← atPunct .comma then
      next
      return .again (.missing :: items)
    let e ← spreadOrAssignment r
    unless ← atPunct .rightBracket do
      let _ ← expectPunct .comma
    return .again (e :: items)

/-- An array literal. -/
def arrayLiteral (r : Rules) : Parse Expr := do
  let start ← expectPunct .leftBracket
  let elements ← withIn true (arrayItems r)
  next
  return .array (← spanFrom start) elements

/-- What stands before the key of an object's property. -/
def propertyModifiers : Parse Modifiers := do
  let m ← (do
    if ((← atContextual "get") || (← atContextual "set")) && (← modifierFollows true) then
      let kind : PropertyKind := if (← token).name == "set" then .setter else .getter
      next
      return ({ kind } : Modifiers)
    else if (← atContextual "async") && (← modifierFollows false) then
      next
      return { kind := .method, async := true }
    else return { kind := .value } : Parse Modifiers)
  if (m.kind == .value || m.async) && (← atPunct .star) then
    next
    return { m with kind := .method, generator := true }
  return m

/-- A name that is both key and value. -/
def shorthand (keyToken : Token) (key : Expr) : Parse Property := do
  match key with
  | .identifier n =>
    if keyToken.kind != .identifier then unexpected
    else if (keyToken.escaped && isReserved n.text) || (← isReservedHere n.text) then
      failAt keyToken.start .reservedWord
    else if ← atPunct .assign then fail .shorthandInitializer
    else return .short n.span (some n)
  | _ => unexpected

/-- A property of an object literal. -/
def objectProperty (r : Rules) : Parse Property := do
  let start ← offset
  if ← atPunct .ellipsis then
    next
    let argument ← r.assignment
    return .spread (← spanFrom start) argument
  let m ← propertyModifiers
  let keyToken ← token
  match ← propertyKey r with
  | none => unexpected
  | some (key, computed) =>
    if key.isPrivateName then failAt keyToken.start (.unexpectedPrivateName keyToken.name)
    let kind : PropertyKind := if m.kind == .value && (← atPunct .leftParen) then .method
      else m.kind
    if kind != .value then
      let f ← method r keyToken.start kind m.async m.generator false
      return .keyed (← spanFrom start) key computed kind (.function f)
    else if ← atPunct .colon then
      next
      let value ← r.assignment
      return .keyed (← spanFrom start) key computed kind value
    else shorthand keyToken key

/-- An object literal. -/
def objectLiteral (r : Rules) : Parse Expr := do
  let start ← expectPunct .leftBrace
  let properties ← withIn true (commaList .rightBrace (objectProperty r))
  next
  return .object (← spanFrom start) properties

/-- `super`, before a call or a member. -/
def superReference : Parse Expr := do
  let start ← expectWord .superWord
  let allowed ← match ← kind with
    | .punct .leftParen => pure (← region).allowSuperCall
    | .punct .dot | .punct .leftBracket => pure (← region).allowSuperProperty
    | _ => pure false
  if allowed then return .superRef (← spanFrom start)
  failAt start .superOutside

/-- The source of an import as a call, and the options behind it, if there are any. -/
def importArguments (r : Rules) : Parse (Expr × Option Expr) := do
  let source ← r.assignment
  if ← atPunct .comma then
    next
    if ← atPunct .rightParen then return (source, none)
    let options ← r.assignment
    if ← atPunct .comma then next
    return (source, some options)
  return (source, none)

/-- An import as an expression: `import.meta`, or a call. -/
def importExpression (r : Rules) : Parse Expr := do
  let start ← expectWord .importWord
  if ← atPunct .dot then
    next
    if !(← atContextual "meta") then unexpected
    if !(← surroundings).module then failAt start .importMetaOutside
    let property : Name := ⟨tokenSpan (← token), "meta"⟩
    next
    return .metaProperty (← spanFrom start) (some ⟨⟨start, start + 6⟩, "import"⟩) (some property)
  else
    let _ ← expectPunct .leftParen
    let (source, options) ← withIn true (importArguments r)
    let _ ← expectPunct .rightParen
    return .importCall (← spanFrom start) source options

/-- An identifier, or an asynchronous function. -/
def identifierOrFunction (r : Rules) : Parse Expr := do
  if ← atContextual "async" then
    let t ← peek
    if t.kind == .keyword .functionWord && !t.newline then
      return .function (← function r false false)
  identifierReference

/-- A primary expression. -/
def primary (r : Rules) : Parse Expr := do
  let t ← token
  match t.kind with
  | .identifier => identifierOrFunction r
  | .keyword .thisWord =>
    next
    return .thisRef (tokenSpan t)
  | .keyword .superWord => superReference
  | .keyword .nullWord =>
    next
    return .nullLiteral (tokenSpan t)
  | .keyword .trueWord =>
    next
    return .boolean (tokenSpan t) true
  | .keyword .falseWord =>
    next
    return .boolean (tokenSpan t) false
  | .number | .bigint =>
    next
    numberLiteral t
  | .string =>
    next
    return .string (← stringLiteral t)
  | .template | .templateHead => return .template (← templateLiteral r)
  | .punct .slash | .punct .slashAssign => regExpLiteral
  | .punct .leftBracket => arrayLiteral r
  | .punct .leftBrace => objectLiteral r
  | .punct .leftParen => parenthesized r
  | .keyword .functionWord => return .function (← function r false false)
  | .keyword .classWord | .punct .at => return .classExpr (← classLiteral r false true)
  | .keyword .importWord => importExpression r
  | .privateName =>
    if (← region).inClass && (← peek).kind == .keyword .inWord then
      next
      return .privateName (nameOf t)
    else unexpected
  | _ => unexpected

/-! ## Chains -/

/-- A key in brackets. -/
def bracketKey (r : Rules) : Parse Expr := do
  next
  let key ← withIn true r.expression
  let _ ← expectPunct .rightBracket
  return key

/-- The link after `?.`, of a chain that starts at `start`. -/
def optionalLink (r : Rules) (start : Nat) (left : Expr) : Parse Expr := do
  match ← kind with
  | .punct .leftParen =>
    let args ← arguments r
    return .call (← spanFrom start) left args true
  | .punct .leftBracket =>
    let key ← bracketKey r
    return .member (← spanFrom start) left key true true
  | .template | .templateHead => fail .optionalTemplate
  | _ =>
    let property ← memberName
    return .member (← spanFrom start) left property false true

/-- Members, calls, optional links and templates after an expression. Without `allowCall` the
chain ends before the first argument list, which belongs to a `new` around it. -/
def chain (r : Rules) (left : Expr) (allowCall : Bool) : Parse Expr :=
  let start := left.span.offset
  repeating (left, false) fun (left, optional) => do
    match ← kind with
    | .punct .dot =>
      next
      let property ← memberName
      return .again (.member (← spanFrom start) left property false false, optional)
    | .punct .leftBracket =>
      let key ← bracketKey r
      return .again (.member (← spanFrom start) left key true false, optional)
    | .punct .optionalDot =>
      if !allowCall then fail .newOptional
      next
      return .again (← optionalLink r start left, true)
    | .punct .leftParen =>
      if !allowCall then return .done left
      let args ← arguments r
      return .again (.call (← spanFrom start) left args false, optional)
    | .template | .templateHead =>
      if optional then fail .optionalTemplate
      let quasi ← templateLiteral r
      return .again (.tagged (← spanFrom start) left quasi, optional)
    | _ => return .done left

/-- What a `new` constructs, before its arguments. -/
def constructed (r : Rules) : Parse Expr := do
  match ← kind with
  | .keyword .newWord => r.construct
  | .keyword .importWord => fail .newImport
  | _ => primary r

/-- `new.target`, or the construction of an object. -/
def newExpression (r : Rules) : Parse Expr := do
  let start ← expectWord .newWord
  if ← atPunct .dot then
    next
    if !(← atContextual "target") then unexpected
    if !(← region).allowNewTarget then failAt start .newTargetOutside
    let property : Name := ⟨tokenSpan (← token), "target"⟩
    next
    return .metaProperty (← spanFrom start) (some ⟨⟨start, start + 3⟩, "new"⟩) (some property)
  else
    let callee ← chain r (← constructed r) false
    let args ← if ← atPunct .leftParen then arguments r else pure []
    return .construct (← spanFrom start) callee args

/-- A left-hand side expression. -/
def leftHandSide (r : Rules) : Parse Expr := do
  let left ← if ← atWord .newWord then r.construct else primary r
  chain r left true

end EcmaStack.Parse
