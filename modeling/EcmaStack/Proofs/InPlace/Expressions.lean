import EcmaStack.Proofs.InPlace.Functions
import EcmaStack.Grammar.Operators

/-!
# Expressions in place

Brackets, braces and parentheses allow the operator `in` for what stands inside
them. The flag is put back behind the part, or, where a literal or a list of
arguments is read to its end first, behind the closing token. An assignment that
begins like a pattern marks where it starts and rewinds where the pattern or the
operator is missing.
-/

namespace EcmaStack.InPlace

open Parse

/-! ## Literals -/

/-- A template literal, from its first token on. -/
def templateLiteral (r : Rules) : InPlace Template := do
  let start ← offset
  repeating (([], []) : List TemplateElement × List Expr) fun (quasis, expressions) => do
    let t ← token
    let quasi : TemplateElement := ⟨tokenSpan t, t.raw, t.value⟩
    next
    if t.kind == .template || t.kind == .templateTail then
      return .done ⟨← spanFrom start, (quasi :: quasis).reverse, expressions.reverse⟩
    let restore ← setAllowIn true
    let e ← r.expression
    restore
    if ← atPunct .rightBrace then
      let s ← get
      let (again, cursor) := rescanTemplate (← surroundings).source s.token
      hold again cursor s.previousEnd
      return .again (quasi :: quasis, e :: expressions)
    else unexpected

/-- The elements of an array literal up to the closing bracket; a comma without an element before
it leaves a hole. -/
def arrayItems (r : Rules) : InPlace (List Expr) :=
  repeating [] fun items => do
    if ← atPunct .rightBracket then return .done items.reverse
    if ← atPunct .comma then
      next
      return .again (.missing :: items)
    let e ← spreadOrAssignment r
    unless ← atPunct .rightBracket do
      let _ ← expectPunct .comma
    return .again (e :: items)

/-- An array literal. -/
def arrayLiteral (r : Rules) : InPlace Expr := do
  let start ← expectPunct .leftBracket
  let restore ← setAllowIn true
  let elements ← arrayItems r
  next
  let span ← spanFrom start
  restore
  return .array span elements

/-- A property of an object literal. -/
def objectProperty (r : Rules) : InPlace Property := do
  let start ← offset
  if ← atPunct .ellipsis then
    next
    let argument ← r.assignment
    return .spread (← spanFrom start) argument
  let m ← propertyModifiers
  let keyToken ← token
  match ← propertyKey r with
  | none => unexpected
  | some (key, computed) =>
    if key.isPrivateName then failAt keyToken.start (.unexpectedPrivateName keyToken.name)
    let kind : PropertyKind := if m.kind == .value && (← atPunct .leftParen) then .method
      else m.kind
    if kind != .value then
      let f ← method r keyToken.start kind m.async m.generator false
      return .keyed (← spanFrom start) key computed kind (.function f)
    else if ← atPunct .colon then
      next
      let value ← r.assignment
      return .keyed (← spanFrom start) key computed kind value
    else shorthand keyToken key

/-- An object literal. -/
def objectLiteral (r : Rules) : InPlace Expr := do
  let start ← expectPunct .leftBrace
  let restore ← setAllowIn true
  let properties ← commaList .rightBrace (objectProperty r)
  next
  let span ← spanFrom start
  restore
  return .object span properties

/-- The source of an import as a call, and the options behind it, if there are any. -/
def importArguments (r : Rules) : InPlace (Expr × Option Expr) := do
  let source ← r.assignment
  if ← atPunct .comma then
    next
    if ← atPunct .rightParen then return (source, none)
    let options ← r.assignment
    if ← atPunct .comma then next
    return (source, some options)
  return (source, none)

/-- An import as an expression: `import.meta`, or a call. -/
def importExpression (r : Rules) : InPlace Expr := do
  let start ← expectWord .importWord
  if ← atPunct .dot then
    next
    if !(← atContextual "meta") then unexpected
    if !(← surroundings).module then failAt start .importMetaOutside
    let property : Name := ⟨tokenSpan (← token), "meta"⟩
    next
    return .metaProperty (← spanFrom start) (some ⟨⟨start, start + 6⟩, "import"⟩) (some property)
  else
    let _ ← expectPunct .leftParen
    let restore ← setAllowIn true
    let (source, options) ← importArguments r
    let _ ← expectPunct .rightParen
    let span ← spanFrom start
    restore
    return .importCall span source options

/-- An identifier, or an asynchronous function. -/
def identifierOrFunction (r : Rules) : InPlace Expr := do
  if ← atContextual "async" then
    let t ← peek
    if t.kind == .keyword .functionWord && !t.newline then
      return .function (← function r false false)
  identifierReference

/-- A primary expression. -/
def primary (r : Rules) : InPlace Expr := do
  let t ← token
  match t.kind with
  | .identifier => identifierOrFunction r
  | .keyword .thisWord =>
    next
    return .thisRef (tokenSpan t)
  | .keyword .superWord => superReference
  | .keyword .nullWord =>
    next
    return .nullLiteral (tokenSpan t)
  | .keyword .trueWord =>
    next
    return .boolean (tokenSpan t) true
  | .keyword .falseWord =>
    next
    return .boolean (tokenSpan t) false
  | .number | .bigint =>
    next
    numberLiteral t
  | .string =>
    next
    return .string (← stringLiteral t)
  | .template | .templateHead => return .template (← templateLiteral r)
  | .punct .slash | .punct .slashAssign => regExpLiteral
  | .punct .leftBracket => arrayLiteral r
  | .punct .leftBrace => objectLiteral r
  | .punct .leftParen => parenthesized r
  | .keyword .functionWord => return .function (← function r false false)
  | .keyword .classWord | .punct .at => return .classExpr (← classLiteral r false true)
  | .keyword .importWord => importExpression r
  | .privateName =>
    if (← region).inClass && (← peek).kind == .keyword .inWord then
      next
      return .privateName (nameOf t)
    else unexpected
  | _ => unexpected

/-! ## Chains -/

/-- A key in brackets. -/
def bracketKey (r : Rules) : InPlace Expr := do
  next
  let restore ← setAllowIn true
  let key ← r.expression
  restore
  let _ ← expectPunct .rightBracket
  return key

/-- The link after `?.`, of a chain that starts at `start`. -/
def optionalLink (r : Rules) (start : Nat) (left : Expr) : InPlace Expr := do
  match ← kind with
  | .punct .leftParen =>
    let args ← arguments r
    return .call (← spanFrom start) left args true
  | .punct .leftBracket =>
    let key ← bracketKey r
    return .member (← spanFrom start) left key true true
  | .template | .templateHead => fail .optionalTemplate
  | _ =>
    let property ← memberName
    return .member (← spanFrom start) left property false true

/-- Members, calls, optional links and templates after an expression. -/
def chain (r : Rules) (left : Expr) (allowCall : Bool) : InPlace Expr :=
  let start := left.span.offset
  repeating (left, false) fun (left, optional) => do
    match ← kind with
    | .punct .dot =>
      next
      let property ← memberName
      return .again (.member (← spanFrom start) left property false false, optional)
    | .punct .leftBracket =>
      let key ← bracketKey r
      return .again (.member (← spanFrom start) left key true false, optional)
    | .punct .optionalDot =>
      if !allowCall then fail .newOptional
      next
      return .again (← optionalLink r start left, true)
    | .punct .leftParen =>
      if !allowCall then return .done left
      let args ← arguments r
      return .again (.call (← spanFrom start) left args false, optional)
    | .template | .templateHead =>
      if optional then fail .optionalTemplate
      let quasi ← templateLiteral r
      return .again (.tagged (← spanFrom start) left quasi, optional)
    | _ => return .done left

/-- What a `new` constructs, before its arguments. -/
def constructed (r : Rules) : InPlace Expr := do
  match ← kind with
  | .keyword .newWord => r.construct
  | .keyword .importWord => fail .newImport
  | _ => primary r

/-- `new.target`, or the construction of an object. -/
def newExpression (r : Rules) : InPlace Expr := do
  let start ← expectWord .newWord
  if ← atPunct .dot then
    next
    if !(← atContextual "target") then unexpected
    if !(← region).allowNewTarget then failAt start .newTargetOutside
    let property : Name := ⟨tokenSpan (← token), "target"⟩
    next
    return .metaProperty (← spanFrom start) (some ⟨⟨start, start + 3⟩, "new"⟩) (some property)
  else
    let callee ← chain r (← constructed r) false
    let args ← if ← atPunct .leftParen then arguments r else pure []
    return .construct (← spanFrom start) callee args

/-- A left-hand side expression. -/
def leftHandSide (r : Rules) : InPlace Expr := do
  let left ← if ← atWord .newWord then r.construct else primary r
  chain r left true

/-! ## Operators -/

/-- An operand with an update after it, perhaps. -/
def updateExpression (r : Rules) : InPlace Expr := do
  let operand ← r.leftHandSide
  let t ← token
  if !isUpdateOperator t.kind || t.newline then return operand
  match operand.simpleTarget? with
  | none => failAt operand.span.offset .afterTarget
  | some target =>
    next
    return .update (← spanFrom operand.span.offset) t.kind target false

/-- A unary expression. -/
def unaryExpression (r : Rules) : InPlace Expr := do
  let t ← token
  if isUnaryOperator t.kind then
    next
    let operand ← r.unary
    if t.kind == .keyword .deleteWord && isPrivateMember operand then failAt t.start .privateDelete
    return .unary (← spanFrom t.start) t.kind operand
  else if isUpdateOperator t.kind then
    next
    let operand ← r.unary
    match operand.simpleTarget? with
    | none => failAt operand.span.offset .beforeTarget
    | some target => return .update (← spanFrom t.start) t.kind target true
  else if (← atContextual "await") && (← inAsync) then
    next
    let argument ← r.unary
    return .await (← spanFrom t.start) argument
  else updateExpression r

/-- Operators that bind at least as tightly as asked for. Whether `in` is one of
them is for the context to say. -/
def binaryExpression (r : Rules) (least : Nat) : InPlace Expr := do
  repeating (← r.unary) fun left => do
    let t ← token
    let tightness := t.kind.binaryPrecedence
    if tightness == 0 || tightness < least ||
        (t.kind == .keyword .inWord && !(← region).allowIn) then
      return .done left
    let isPower := t.kind == .punct .power
    if isPower && isBareUnary left then fail .exponentOperand
    next
    let right ← r.binary (if isPower then tightness else tightness + 1)
    if mixesCoalesce t.kind left right then failAt t.start .mixedCoalesce
    return .again (.binary (join left right) t.kind left right)

/-- A conditional expression. -/
def conditional (r : Rules) : InPlace Expr := do
  let test ← r.binary loosest
  if ← atPunct .question then
    next
    let restore ← setAllowIn true
    let consequent ← r.assignment
    restore
    let _ ← expectPunct .colon
    let alternate ← r.assignment
    return .conditional (join test alternate) test consequent alternate
  return test

/-- A yield expression. -/
def yieldExpression (r : Rules) : InPlace Expr := do
  let start ← offset
  next
  let t ← token
  if t.newline then return .yield (← spanFrom start) none false
  if t.kind == .punct .star then
    next
    let argument ← r.assignment
    return .yield (← spanFrom start) (some argument) true
  if startsOperand t.kind then
    let argument ← r.assignment
    return .yield (← spanFrom start) (some argument) false
  return .yield (← spanFrom start) none false

/-! ## Assignments -/

/-- The target of an assignment that starts with an identifier or a
destructuring pattern. -/
def assignmentTarget (r : Rules) : InPlace (Option Pattern) := do
  match ← kind with
  | .identifier => return (← bindingIdentifier).map fun n => .target (.identifier n)
  | .punct .leftBracket => arrayPattern r false
  | .punct .leftBrace => objectPattern r false
  | _ => return none

/-- An assignment to an identifier or a destructuring pattern; `none` for
anything else. The parser goes back where the target or its operator is
missing. -/
def patternAssignment (r : Rules) : InPlace (Option Expr) := do
  let start ← offset
  let st ← mark
  match ← assignmentTarget r with
  | none =>
    rewind st
    return none
  | some target =>
    let op ← kind
    if !mayAssign op target then
      rewind st
      return none
    next
    let value ← r.assignment
    return some (.assign (← spanFrom start) op target value)

/-- What an assignment expression is when it is no yield expression, arrow
function or pattern assignment. -/
def plainAssignment (r : Rules) : InPlace Expr := do
  let left ← conditional r
  let op ← kind
  if !op.isAssignment then return left
  match left.simpleTarget? with
  | none => failAt left.span.offset .assignmentTarget
  | some target =>
    next
    let value ← r.assignment
    return .assign (join left value) op (← asPattern target) value

/-- An assignment expression. -/
def assignmentExpression (r : Rules) : InPlace Expr := do
  if (← atContextual "yield") && (← inGenerator) then return ← yieldExpression r
  match ← arrowFunction r with
  | some e => return e
  | none =>
    match ← patternAssignment r with
    | some e => return e
    | none => plainAssignment r

/-- A comma sequence, which groups to the right. -/
def commaExpression (r : Rules) : InPlace Expr := do
  let left ← r.assignment
  if ← atPunct .comma then
    next
    let right ← r.expression
    return .binary (join left right) (.punct .comma) left right
  return left

namespace Follows

variable {r : InPlace.Rules} {q : EcmaStack.Rules} [h : r.Follow q]

/-! ## Literals -/

set_option synthInstance.maxSize 512 in
instance templateLiteral : Follows (InPlace.templateLiteral r) (Parse.templateLiteral q) := by
  unfold InPlace.templateLiteral Parse.templateLiteral
  infer_instance

instance arrayItems : Follows (InPlace.arrayItems r) (Parse.arrayItems q) := by
  refine turns fun items => andThen fun _ => branch inferInstance ?_
  exact andThen fun _ => branch inferInstance (andThen fun _ => andThen fun _ => inferInstance)

instance arrayLiteral : Follows (InPlace.arrayLiteral r) (Parse.arrayLiteral q) :=
  andThen fun _ => Runs.follows fun _ => .setAllowIn (.bind (.withIn (.of_follows arrayItems))
    fun _ => .bind .blind fun _ => .bind .blind fun _ => .changeContext .pure)

instance objectProperty : Follows (InPlace.objectProperty r) (Parse.objectProperty q) := by
  refine andThen fun start => andThen fun _ => branch inferInstance ?_
  refine andThen fun m => andThen fun keyToken => andThen fun o => ?_
  cases o with
  | none => infer_instance
  | some x => exact optional fun _ => inferInstance

instance objectLiteral : Follows (InPlace.objectLiteral r) (Parse.objectLiteral q) :=
  andThen fun _ => Runs.follows fun _ => .setAllowIn (.bind (.withIn (.of_follows inferInstance))
    fun _ => .bind .blind fun _ => .bind .blind fun _ => .changeContext .pure)

instance importArguments : Follows (InPlace.importArguments r) (Parse.importArguments q) := by
  refine andThen fun _ => andThen fun _ =>
    branch (andThen fun _ => andThen fun _ => ?_) inferInstance
  exact branch inferInstance (andThen fun _ => andThen fun _ => optional fun _ => inferInstance)

set_option synthInstance.maxSize 512 in
instance importExpression : Follows (InPlace.importExpression r) (Parse.importExpression q) := by
  refine andThen fun start => andThen fun _ => branch ?_ (andThen fun _ => Runs.follows fun c => ?_)
  · exact andThen fun _ => andThen fun _ => optional fun _ => andThen fun here => optional fun _ =>
      inferInstance
  · exact .setAllowIn (.bind (.withIn (.of_follows inferInstance)) fun x =>
      .bind .blind fun _ => .bind .blind fun span => .changeContext .pure)

instance identifierOrFunction :
    Follows (InPlace.identifierOrFunction r) (Parse.identifierOrFunction q) := by
  unfold InPlace.identifierOrFunction Parse.identifierOrFunction
  infer_instance

instance primary : Follows (InPlace.primary r) (Parse.primary q) := by
  refine andThen fun t => ?_
  generalize t.kind = k
  cases k with
  | punct p => cases p <;> infer_instance
  | keyword w => cases w <;> infer_instance
  | _ => infer_instance

/-! ## Chains -/

instance bracketKey : Follows (InPlace.bracketKey r) (Parse.bracketKey q) := by
  unfold InPlace.bracketKey Parse.bracketKey
  infer_instance

instance optionalLink {start : Nat} {left : Expr} :
    Follows (InPlace.optionalLink r start left) (Parse.optionalLink q start left) := by
  refine andThen fun k => ?_
  cases k with
  | punct p => cases p <;> infer_instance
  | _ => infer_instance

instance chain {left : Expr} {allowCall : Bool} :
    Follows (InPlace.chain r left allowCall) (Parse.chain q left allowCall) := by
  refine turns fun x => andThen fun k => ?_
  cases k with
  | punct p =>
    cases p with
    | optionalDot => exact optional fun _ => inferInstance
    | _ => infer_instance
  | template | templateHead => exact optional fun _ => inferInstance
  | _ => infer_instance

instance constructed : Follows (InPlace.constructed r) (Parse.constructed q) := by
  refine andThen fun k => ?_
  cases k with
  | keyword w => cases w <;> infer_instance
  | _ => infer_instance

instance newExpression : Follows (InPlace.newExpression r) (Parse.newExpression q) := by
  refine andThen fun start => andThen fun _ => branch ?_ inferInstance
  exact andThen fun _ => andThen fun _ => optional fun _ => andThen fun here => optional fun _ =>
    inferInstance

instance leftHandSide : Follows (InPlace.leftHandSide r) (Parse.leftHandSide q) := by
  unfold InPlace.leftHandSide Parse.leftHandSide
  infer_instance

/-! ## Operators -/

instance updateExpression : Follows (InPlace.updateExpression r) (Parse.updateExpression q) := by
  refine andThen fun operand => andThen fun t => branch inferInstance ?_
  cases operand.simpleTarget? <;> infer_instance

instance unaryExpression : Follows (InPlace.unaryExpression r) (Parse.unaryExpression q) := by
  refine andThen fun t => branch ?_ (branch ?_ inferInstance)
  · exact andThen fun _ => andThen fun operand => optional fun _ => inferInstance
  · refine andThen fun _ => andThen fun operand => ?_
    cases operand.simpleTarget? <;> infer_instance

instance binaryExpression {least : Nat} :
    Follows (InPlace.binaryExpression r least) (Parse.binaryExpression q least) := by
  refine andThen fun first => turns fun left => andThen fun t => andThen fun here =>
    branch inferInstance ?_
  exact optional fun _ => andThen fun _ => andThen fun right => optional fun _ => inferInstance

instance conditional : Follows (InPlace.conditional r) (Parse.conditional q) := by
  unfold InPlace.conditional Parse.conditional
  infer_instance

set_option synthInstance.maxSize 512 in
instance yieldExpression : Follows (InPlace.yieldExpression r) (Parse.yieldExpression q) := by
  unfold InPlace.yieldExpression Parse.yieldExpression
  infer_instance

instance assignmentTarget : Follows (InPlace.assignmentTarget r) (Parse.assignmentTarget q) := by
  refine andThen fun k => ?_
  cases k with
  | punct p => cases p <;> infer_instance
  | _ => infer_instance

instance patternAssignment : Follows (InPlace.patternAssignment r) (Parse.patternAssignment q) := by
  refine andThen fun start => attempt fun st => undo fun o => ?_
  cases o with
  | none => infer_instance
  | some target => exact undo fun op => undoBranch inferInstance inferInstance

instance plainAssignment : Follows (InPlace.plainAssignment r) (Parse.plainAssignment q) := by
  refine andThen fun left => andThen fun op => branch inferInstance ?_
  cases left.simpleTarget? <;> infer_instance

instance assignmentExpression :
    Follows (InPlace.assignmentExpression r) (Parse.assignmentExpression q) := by
  refine andThen fun _ => andThen fun _ => branch inferInstance (andThen fun o => ?_)
  cases o with
  | some x => infer_instance
  | none =>
    refine andThen fun o => ?_
    cases o <;> infer_instance

instance commaExpression : Follows (InPlace.commaExpression r) (Parse.commaExpression q) := by
  unfold InPlace.commaExpression Parse.commaExpression
  infer_instance

end Follows

end EcmaStack.InPlace
