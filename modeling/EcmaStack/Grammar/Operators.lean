import EcmaStack.Grammar.Primary

/-!
# Operators

Unary and binary operators, conditionals, assignments and comma sequences. Binary operators are
read by precedence climbing: an operand is followed by every operator that binds at least as
tightly as asked for. Exponentiation is the one operator that groups to the right.
-/

namespace EcmaStack.Parse

/-- The range from the start of one expression to the end of another. -/
def join (first last : Expr) : Span :=
  ⟨first.span.start, last.span.stop⟩

/-- Whether a token kind is an operator before its operand. -/
def isUnaryOperator : Kind → Bool
  | .punct .plus | .punct .minus | .punct .bang | .punct .tilde => true
  | .keyword .typeofWord | .keyword .voidWord | .keyword .deleteWord => true
  | _ => false

/-- Whether a token kind is `++` or `--`. -/
def isUpdateOperator (k : Kind) : Bool :=
  k == .punct .increment || k == .punct .decrement

/-- Whether an expression is a private member. -/
def isPrivateMember : Expr → Bool
  | .member _ _ property _ _ => property.isPrivateName
  | _ => false

/-- An operand with an update after it, perhaps. -/
def updateExpression (r : Rules) : Parse Expr := do
  let operand ← r.leftHandSide
  let t ← token
  if !isUpdateOperator t.kind || t.newline then return operand
  match operand.simpleTarget? with
  | none => failAt operand.span.offset .afterTarget
  | some target =>
    next
    return .update (← spanFrom operand.span.offset) t.kind target false

/-- A unary expression. -/
def unaryExpression (r : Rules) : Parse Expr := do
  let t ← token
  if isUnaryOperator t.kind then
    next
    let operand ← r.unary
    if t.kind == .keyword .deleteWord && isPrivateMember operand then failAt t.start .privateDelete
    return .unary (← spanFrom t.start) t.kind operand
  else if isUpdateOperator t.kind then
    next
    let operand ← r.unary
    match operand.simpleTarget? with
    | none => failAt operand.span.offset .beforeTarget
    | some target => return .update (← spanFrom t.start) t.kind target true
  else if (← atContextual "await") && (← inAsync) then
    next
    let argument ← r.unary
    return .await (← spanFrom t.start) argument
  else updateExpression r

/-- Whether an expression is a binary expression with one of the operators. -/
def hasOperator (ops : List Punct) : Expr → Bool
  | .binary _ (.punct p) _ _ => ops.contains p
  | _ => false

/-- Whether joining two operands mixes `??` with `&&` or `||`. -/
def mixesCoalesce (op : Kind) (left right : Expr) : Bool :=
  match op with
  | .punct .coalesce =>
    hasOperator [.logicalAnd, .logicalOr] left || hasOperator [.logicalAnd, .logicalOr] right
  | .punct .logicalAnd | .punct .logicalOr =>
    hasOperator [.coalesce] left || hasOperator [.coalesce] right
  | _ => false

/-- Whether an expression may not stand directly before an exponentiation. -/
def isBareUnary : Expr → Bool
  | .unary _ _ _ | .await _ _ => true
  | _ => false

/-- Operators that bind at least as tightly as asked for. -/
def binaryExpression (r : Rules) (least : Nat) : Parse Expr := do
  repeating (← r.unary) fun left => do
    let t ← token
    let tightness := t.kind.binaryPrecedence
    if tightness == 0 || tightness < least ||
        (t.kind == .keyword .inWord && !(← region).allowIn) then
      return .done left
    let isPower := t.kind == .punct .power
    if isPower && isBareUnary left then fail .exponentOperand
    next
    let right ← r.binary (if isPower then tightness else tightness + 1)
    if mixesCoalesce t.kind left right then failAt t.start .mixedCoalesce
    return .again (.binary (join left right) t.kind left right)

/-- The precedence of the loosest binary operators. -/
def loosest : Nat := 3

/-- A conditional expression. -/
def conditional (r : Rules) : Parse Expr := do
  let test ← r.binary loosest
  if ← atPunct .question then
    next
    let consequent ← withIn true r.assignment
    let _ ← expectPunct .colon
    let alternate ← r.assignment
    return .conditional (join test alternate) test consequent alternate
  return test

/-- Whether an operand may start at a token after a word whose operand is optional. -/
def startsOperand : Kind → Bool
  | .punct .rightParen | .punct .rightBracket | .punct .rightBrace | .punct .comma
  | .punct .semicolon | .punct .colon | .punct .question | .keyword .inWord | .eof => false
  | k => !k.isAssignment

/-- A yield expression. -/
def yieldExpression (r : Rules) : Parse Expr := do
  let start ← offset
  next
  let t ← token
  if t.newline then return .yield (← spanFrom start) none false
  if t.kind == .punct .star then
    next
    let argument ← r.assignment
    return .yield (← spanFrom start) (some argument) true
  if startsOperand t.kind then
    let argument ← r.assignment
    return .yield (← spanFrom start) (some argument) false
  return .yield (← spanFrom start) none false

/-- The target of an assignment that starts with an identifier or a destructuring pattern. -/
def assignmentTarget (r : Rules) : Parse (Option Pattern) := do
  match ← kind with
  | .identifier => return (← bindingIdentifier).map fun n => .target (.identifier n)
  | .punct .leftBracket => arrayPattern r false
  | .punct .leftBrace => objectPattern r false
  | _ => return none

/-- Whether an operator may assign to a pattern: only plain assignment destructures. -/
def mayAssign (op : Kind) : Pattern → Bool
  | .target _ => op.isAssignment
  | _ => op == .punct .assign

/-- An assignment to an identifier or a destructuring pattern; `none`, with nothing read, for
anything else. -/
def patternAssignment (r : Rules) : Parse (Option Expr) := do
  let start ← offset
  attempt do
    match ← assignmentTarget r with
    | none => return none
    | some target =>
      let op ← kind
      if !mayAssign op target then return none
      next
      let value ← r.assignment
      return some (.assign (← spanFrom start) op target value)

/-- What an assignment expression is when it is no yield expression, arrow function or pattern
assignment. -/
def plainAssignment (r : Rules) : Parse Expr := do
  let left ← conditional r
  let op ← kind
  if !op.isAssignment then return left
  match left.simpleTarget? with
  | none => failAt left.span.offset .assignmentTarget
  | some target =>
    next
    let value ← r.assignment
    return .assign (join left value) op (← asPattern target) value

/-- An assignment expression. -/
def assignmentExpression (r : Rules) : Parse Expr := do
  if (← atContextual "yield") && (← inGenerator) then return ← yieldExpression r
  match ← arrowFunction r with
  | some e => return e
  | none =>
    match ← patternAssignment r with
    | some e => return e
    | none => plainAssignment r

/-- A comma sequence, which groups to the right. -/
def commaExpression (r : Rules) : Parse Expr := do
  let left ← r.assignment
  if ← atPunct .comma then
    next
    let right ← r.expression
    return .binary (join left right) (.punct .comma) left right
  return left

end EcmaStack.Parse
