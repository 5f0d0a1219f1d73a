import EcmaStack.Lowering.Access
import EcmaStack.Lowering.Shape

/-!
# From trees to code

The code of every expression leaves one value on the stack, that of a pattern
takes one, and that of a statement leaves the stack as it was. Parts are lowered
in the order in which their code stands, so the first fault in that order is the
one reported. A writer puts the same code into a program piece by piece.

Function declarations have no code where they stand: the opening of the scope
they are declared in holds it (`Stmt.hoisted`).
-/

namespace EcmaStack

mutual

/-- The code of an expression for a use. -/
def Expr.lower (s : CodeSite) (use : Use) : Expr → Lowering
  | .missing => refuse {} .missingPart
  | .identifier n => .ok (Code.text .load n.text)
  | .privateName n => .ok (Code.string ("#" ++ n.text))
  | .nullLiteral _ => .ok (Code.op .pushNull)
  | .boolean _ value => .ok (Code.op (if value then .pushTrue else .pushFalse))
  | .number _ _ value => .ok (numberCode value)
  | .bigint _ _ value => .ok (Code.text .pushBigint (integerText value))
  | .string l => .ok (Code.string l.value)
  | .regexp _ _ pattern flags =>
    .ok [⟨.pushRegexp, [.text pattern.encode, .text (utf8Bytes flags)]⟩]
  | .template t => Template.lower s t
  | .tagged span tag quasi =>
    match tag.calledMember? s with
    | some (m, _) => m.tag s span (Template.lowerParts s quasi)
    | none => do
      let code ← tag.lower s .value
      return code ++ (← Template.lowerParts s quasi) ++ s.placed .tag span
  | .thisRef _ => .ok (Code.op .pushThis)
  | .superRef span => refuse span .bareSuper
  | .array _ elements => do return Code.op .pushArray ++ (← Expr.lowerItems s elements)
  | .object _ properties => do return Code.op .pushObject ++ (← Property.lowerList s properties)
  | .spread span _ => refuse span .spread
  | .paren _ e => e.lower s .value
  | .call span callee arguments optional =>
    if callee.isSuper then do
      let arguments ← Expr.lowerItems s arguments
      return use.finish (Code.op .pushArray ++ arguments ++ (← s.superCall span))
    else match callee.calledMember? s with
      | some (m, direct) => do
        return use.finish (← m.call direct optional s span (Expr.lowerItems s arguments))
      | none => do
        let function ← callee.lower s .link
        let arguments ← Expr.lowerItems s arguments
        let arguments := Code.op .pushArray ++ arguments
        if callee.isEval && !optional then return function ++ arguments ++ s.placed .directEval span
        return use.finish (function ++ optionalExit optional ++ arguments ++ s.placed .call span)
  | .construct span callee arguments => do
    let code ← callee.lower s .value
    return code ++ Code.op .pushArray ++ (← Expr.lowerItems s arguments) ++ s.placed .construct span
  | .member _ base property computed optional => do
    let m := Member.of base property computed optional (fun use => base.lower s use)
      (property.lower s .value)
    return use.finish (← m.read)
  | .metaProperty _ owner property =>
    .ok (Code.text .load (nameText owner ++ "." ++ nameText property))
  | .importCall span source options => do
    let source ← source.lower s .value
    let options ← Expr.lowerOption s .value options
    return Code.text .load "import" ++ arrayCode (source :: options.toList) ++ s.placed .call span
  | .unary span op e =>
    if op == .keyword .deleteWord then
      match e.bareMember? s with
      | some m => m.remove span
      | none =>
        if e.withoutParens matches .identifier _ then .ok (Code.op .pushFalse)
        else do return (← e.lower s .value) ++ Code.op .remove
    else match op.unaryOpcode? with
      | some o => do return (← e.lower s .value) ++ Code.op o
      | none => refuse span (.operator op)
  | .await _ e => do return (← e.lower s .value) ++ Code.op .await
  | .update _ op e before => do
    let r ← e.reference s (if before then .beforeTarget else .afterTarget)
    return r.update (op == .punct .increment) before
  | .binary span op left right =>
    if op == .punct .comma then do
      let left ← left.lower s .value
      return left ++ Code.op .pop ++ (← right.lower s .value)
    else match op.shortCircuit? with
      | some decided => do
        let left ← left.lower s .value
        return left ++ Code.bypassed decided (Code.op .pop ++ (← right.lower s .value))
      | none =>
        match op.binaryOpcode? with
        | some o => do
          let left ← left.lower s .value
          return left ++ (← right.lower s .value) ++ Code.op o
        | none => refuse span (.operator op)
  | .conditional _ test consequent alternate => do
    let test ← test.lower s .value
    let consequent ← consequent.lower s .value
    return Code.choice test consequent (← alternate.lower s .value)
  | .assign span op target value =>
    if op == .punct .assign && target.isDestructuring then do
      let value ← value.lower s .value
      return value ++ Code.pick 1 ++ (← target.lower s)
    else do
      let r ← target.reference s
      if op == .punct .assign then
        return r.code ++ (← value.lower s r.target.use) ++ r.target.set
      else match op.binary.shortCircuit? with
        | some decided => return r.assignUnless decided (← value.lower s r.target.use)
        | none =>
          match op.binary.binaryOpcode? with
          | some o =>
            return r.code ++ r.target.get ++ (← value.lower s .value) ++ Code.op o ++ r.target.set
          | none => refuse span (.operator op)
  | .yield _ argument delegate => do
    let value := (← Expr.lowerOption s .value argument).getD (Code.op .pushUndefined)
    return value ++ if delegate then delegateCode s.async else Code.op .yield
  | .function f => Function.lower s use f
  | .arrow span params body value async env => do
    let inner := s.inArrow async
    let opening ← openScope env.scope (Body.hoisted s body)
    let params ← Params.lower inner params
    let body ← if body.isMissing then Expr.lowerValue inner value else Body.lower inner body
    return s.functionObject (if async then .pushAsyncLambda else .pushLambda) span use.name
      env.closure
      (opening ++ params ++ body ++ Code.op .giveBack ++ Code.op .popScope)
  | .classExpr c => Class.lowerWith s use none c

/-- The member that a call or a tag applies to, and whether it stands there without parentheses.
Parentheses around an optional chain end it, so that no member is left. -/
def Expr.calledMember? (s : CodeSite) : Expr → Option (Member × Bool)
  | .member _ base property computed optional =>
    some (Member.of base property computed optional (fun use => base.lower s use)
      (property.lower s .value), true)
  | .paren _ (.member _ base property computed optional) =>
    if optional || base.isOptionalChain then none
    else some (Member.of base property computed optional (fun use => base.lower s use)
      (property.lower s .value), false)
  | _ => none

/-- The member that an expression is, whatever parentheses stand around it. -/
def Expr.bareMember? (s : CodeSite) : Expr → Option Member
  | .member _ base property computed optional =>
    some (Member.of base property computed optional (fun use => base.lower s use)
      (property.lower s .value))
  | .paren _ e => e.bareMember? s
  | _ => none

/-- The target that an expression is, if a value can be assigned to it. -/
def Expr.reference (s : CodeSite) (cause : WriteCause) : Expr → Except WriteFault Reference
  | .identifier n => .ok ⟨.binding n.text, []⟩
  | .paren _ e => e.reference s cause
  | .member span base property computed optional =>
    if optional || base.isOptionalChain then refuse span cause
    else Member.reference
      (Member.of base property computed optional (fun use => base.lower s use)
        (property.lower s .value))
  | e => refuse e.span cause

/-- The code of an expression that may be missing. -/
def Expr.lowerOption (s : CodeSite) (use : Use) : Option Expr → Except WriteFault (Option Code)
  | none => .ok none
  | some e => do return some (← e.lower s use)

/-- The codes of expressions. -/
def Expr.lowerList (s : CodeSite) : List Expr → Except WriteFault (List Code)
  | [] => .ok []
  | e :: rest => do
    let code ← e.lower s .value
    return code :: (← Expr.lowerList s rest)

/-- What an arrow function gives back without statements of its own. -/
def Expr.lowerValue (s : CodeSite) : Option Expr → Lowering
  | none => refuse {} .missingPart
  | some e => e.lower s .value

/-- What is appended to an array or to the arguments of a call. A missing element is a hole. -/
def Expr.lowerItems (s : CodeSite) : List Expr → Lowering
  | [] => .ok []
  | .missing :: rest => do return holeCode ++ (← Expr.lowerItems s rest)
  | .spread _ e :: rest => do
    let code ← e.lower s .value
    return code ++ Code.op .spread ++ (← Expr.lowerItems s rest)
  | e :: rest => do
    let code ← e.lower s .value
    return code ++ Code.op .append ++ (← Expr.lowerItems s rest)

/-- Put a value in place of a missing one; nothing if there is none for that. -/
def Expr.lowerFallback (s : CodeSite) (use : Use) : Option Expr → Lowering
  | none => .ok []
  | some e => do return Code.bypassed .jumpNotUndefined (Code.op .pop ++ (← e.lower s use))

/-- A template as a string. -/
def Template.lower (s : CodeSite) : Template → Lowering
  | ⟨_, quasis, expressions⟩ =>
    if quasis.isEmpty then .ok (Code.string "")
    else do return templateCode quasis (← Expr.lowerList s expressions)

/-- A template as what a tag is called with: the texts as meant, the texts as written and the
values. -/
def Template.lowerParts (s : CodeSite) : Template → Lowering
  | ⟨_, quasis, expressions⟩ => do
    let values ← Expr.lowerList s expressions
    return arrayCode (quasis.map fun q => Code.string q.cooked) ++
      arrayCode (quasis.map fun q => Code.string q.raw) ++
      arrayCode values

/-- Put a property into the object on top. -/
def Property.lower (s : CodeSite) : Property → Lowering
  | .missing => .ok []
  | .keyed _ key computed kind value => do
    let keyCode ← key.asKey computed (key.lower s .value)
    let code ← value.lower s (key.keyUse computed)
    match kind with
    | .value => return keyCode ++ code ++ Code.op .initField
    | _ =>
      return keyCode ++ code ++ Code.pick 3 ++ Code.op .setClass ++
        Code.op (methodOpcode false kind)
  | .short _ n =>
    .ok (Code.string (nameText n) ++ Code.text .load (nameText n) ++ Code.op .initField)
  | .spread _ e => do return (← e.lower s .value) ++ Code.op .spread

/-- Put properties into the object on top. -/
def Property.lowerList (s : CodeSite) : List Property → Lowering
  | [] => .ok []
  | p :: rest => do
    let code ← p.lower s
    return code ++ (← Property.lowerList s rest)

/-- Store the top value into a pattern and drop it. -/
def Pattern.lower (s : CodeSite) : Pattern → Lowering
  | .target (.identifier n) => .ok (Code.text .store n.text ++ Code.op .pop)
  | .target e => do
    let r ← e.reference s .destructuringTarget
    return r.code ++ r.target.bind
  | .array _ elements rest => do
    let elements ← Element.lowerList s elements
    return Code.op .iterator ++ elements ++ (← Pattern.lowerRest s rest) ++ Code.op .pop
  | .object _ properties none => do
    return (← PatternProperty.lowerList s propertyCode properties) ++ Code.op .pop
  | .object _ properties (some rest) => do
    let properties ← PatternProperty.lowerList s listedPropertyCode properties
    return Code.op .pushArray ++ properties ++ Code.op .restObject ++ (← rest.lower s) ++
      Code.drop 2

/-- Store what is left of the iterator on top. -/
def Pattern.lowerRest (s : CodeSite) : Option Pattern → Lowering
  | none => .ok []
  | some p => do return Code.op .rest ++ (← p.lower s)

/-- Store the exception on top, or drop it. -/
def Pattern.lowerParam (s : CodeSite) : Option Pattern → Lowering
  | none => .ok (Code.op .pop)
  | some p => p.lower s

/-- A pattern as the target of an assignment. -/
def Pattern.reference (s : CodeSite) : Pattern → Except WriteFault Reference
  | .target e => e.reference s .assignmentTarget
  | .array span _ _ => refuse span .assignmentTarget
  | .object span _ _ => refuse span .assignmentTarget

/-- Take the next value of the iterator on top and store it. -/
def Element.lower (s : CodeSite) : Element → Lowering
  | .hole => .ok (Code.op .next ++ Code.drop 2)
  | .bound _ target fallback => do
    let fallback ← Expr.lowerFallback s target.use fallback
    return Code.op .next ++ Code.op .pop ++ fallback ++ (← target.lower s)

/-- Take values of the iterator on top and store them. -/
def Element.lowerList (s : CodeSite) : List Element → Lowering
  | [] => .ok []
  | e :: rest => do
    let code ← e.lower s
    return code ++ (← Element.lowerList s rest)

/-- Store a property, read off in the given way. -/
def PatternProperty.lower (s : CodeSite) (shape : Code → Code → Code → Code) :
    PatternProperty → Lowering
  | ⟨_, key, computed, value, fallback, _⟩ => do
    let key ← key.asKey computed (key.lower s .value)
    let fallback ← Expr.lowerFallback s value.use fallback
    return shape key fallback (← value.lower s)

/-- Store properties, read off in the given way. -/
def PatternProperty.lowerList (s : CodeSite) (shape : Code → Code → Code → Code) :
    List PatternProperty → Lowering
  | [] => .ok []
  | p :: rest => do
    let code ← p.lower s shape
    return code ++ (← PatternProperty.lowerList s shape rest)

/-- Store the arguments of a call in the parameters. -/
def Params.lower (s : CodeSite) : Params → Lowering
  | .missing => .ok []
  | .list _ items rest =>
    if items.isEmpty && rest.isNone then .ok []
    else do
      let items ← Element.lowerList s items
      return Code.text .load "arguments" ++ Code.op .iterator ++ items ++
        (← Pattern.lowerRest s rest) ++ Code.op .pop

/-- The body of a function, up to the value it gives back. -/
def Body.lower (s : CodeSite) : Body → Lowering
  | .missing => .ok (Code.op .pushUndefined)
  | .block _ directives items => do
    return directives.flatMap Directive.lower ++ (← Stmt.lowerList s items) ++
      Code.op .pushUndefined

/-- The functions declared directly in a body. -/
def Body.hoisted (s : CodeSite) : Body → List Hoisted
  | .block _ _ items => Stmt.hoistedList s items
  | _ => []

/-- A function. -/
def Function.lower (s : CodeSite) (use : Use) : Function → Lowering
  | ⟨span, own, params, body, async, generator, env⟩ => do
    let name := nameFor own use
    let inner := s.inFunction async
    let around ← if env.nameScope.isSome then openScope env.nameScope [] else .ok []
    let opening ← openScope env.scope (Body.hoisted s body)
    let params ← Params.lower inner params
    let body ← Body.lower inner body
    let object := s.functionObject (functionOpcode async generator) span name env.closure
      (opening ++ params ++ body ++ Code.op .giveBack ++ Code.op .popScope)
    return around ++ object ++
      if env.nameScope.isSome then Code.text .store name ++ Code.op .popScope else []

/-- A function that may be missing. -/
def Function.lowerOption (s : CodeSite) (use : Use) : Option Function → Lowering
  | none => refuse {} .missingPart
  | some f => f.lower s use

/-- A class. What initializes an instance may be given; else it is what the
elements ask for. -/
def Class.lowerWith (s : CodeSite) (use : Use) (given : Option (Bool → Lowering)) : Class → Lowering
  | ⟨span, own, superClass, elements, decorators, env⟩ => do
    let name := nameFor own use
    let inner := s.inFunction false
    let fields := given.getD fun async =>
      if elements.any ClassElement.onInstance then do
        let code ← ClassElement.lowerWhere { inner with async } ClassElement.onInstance elements
        return Code.op .pushThis ++ code ++ Code.op .pop
      else .ok []
    let derived := superClass.isSome
    let constructor := ClassElement.constructor? inner
      (if derived then { inner with fields := some fields } else inner) elements
    let around ← if env.nameScope.isSome then openScope env.nameScope [] else .ok []
    let opening ← openScope env.scope []
    let head ← (constructor.map (·.head)).getD (.ok [])
    let prepared ←
      if !derived then fields false
      else if constructor.isSome then .ok []
      else CodeSite.implicitSuperCall { inner with fields := some fields } span
    let body ← (constructor.map (·.body)).getD (.ok (Code.op .pushUndefined))
    let object := s.functionObject .pushClass span name env.closure
      (opening ++ head ++ prepared ++ body ++ Code.op .giveBack ++
        (if constructor.isSome then Code.op .popScope else []) ++ Code.op .popScope)
    let heritage ← Expr.lowerOption s .value superClass
    let onPrototype ← ClassElement.lowerWhere s ClassElement.onPrototype elements
    let onClass ← ClassElement.lowerWhere s ClassElement.onClass elements
    let decorated ← Decorator.lowerList s
      (fun d => Code.string name ++ Code.sink 1 ++ d ++ Code.count .decorator classDecorator ++
        Code.sink 1 ++
        Code.op .pop) decorators
    let once ← ClassElement.lowerWhere inner ClassElement.onceOnly elements
    return around ++ object ++ (heritage.map (· ++ Code.op .inherit)).getD [] ++
      (if elements.any ClassElement.onPrototype then
        Code.pick 1 ++ Code.string "prototype" ++ Code.op .getField ++ onPrototype ++ Code.op .pop
      else []) ++ onClass ++ decorated ++
      (if env.nameScope.isSome then Code.text .store name else []) ++
      (if elements.any ClassElement.onceOnly then
        Code.enclosed
            (Code.op .pushThis ++ once ++ Code.op .pop ++ Code.op .pushUndefined ++
              Code.op .giveBack)
            (Code.op .pushFunction ++ Code.pick 2 ++ Code.op .setBind ++ Code.pick 2 ++
              Code.op .setClass) ++
          (env.closure.flatMap fun n => Code.text .setClosure (.ofString n)) ++
          Code.op .pushArray ++ s.placed .call span ++ Code.op .pop
      else []) ++
      if env.nameScope.isSome then Code.op .popScope else []

/-- The constructor of a class, its parameters and its body each at its site. -/
def ClassElement.constructor? (outside inside : CodeSite) : List ClassElement → Option Constructor
  | [] => none
  | .method _ _ _ _ .constructor (some ⟨_, _, params, body, _, _, env⟩) _ :: _ =>
    some {
      head := do
        let opening ← openScope env.scope (Body.hoisted outside body)
        return opening ++ (← Params.lower outside params)
      body := Body.lower inside body }
  | _ :: rest => ClassElement.constructor? outside inside rest

/-- Make an element of a class on the object on top. -/
def ClassElement.lower (s : CodeSite) : ClassElement → Lowering
  | .missing => .ok []
  | .method _ key computed _ kind function decorators => do
    let keyCode ← key.asKey computed (key.lower s .value)
    let function ← Function.lowerOption s (key.keyUse computed) function
    let decorated ← Decorator.lowerList s (· ++ Code.count .decorator (methodDecorator kind))
      decorators
    return keyCode ++ function ++ Code.pick 3 ++ Code.op .setClass ++ decorated ++
      Code.op (methodOpcode (key.isPrivateKey computed) kind)
  | .field _ key computed _ accessor initializer decorators => do
    let keyCode ← key.asKey computed (key.lower s .value)
    let value ← Expr.lowerOption s (key.keyUse computed) initializer
    let decorated ← Decorator.lowerList s (· ++ Code.count .decorator (fieldDecorator accessor))
      decorators
    return keyCode ++ value.getD (Code.op .pushUndefined) ++ decorated ++
      Code.op (fieldOpcode (key.isPrivateKey computed) accessor)
  | .staticBlock _ body env => inScope env.scope (Stmt.hoistedList s body) (Stmt.lowerList s body)

/-- Make the selected elements of a class on the object on top. -/
def ClassElement.lowerWhere (s : CodeSite) (selected : ClassElement → Bool) :
    List ClassElement → Lowering
  | [] => .ok []
  | e :: rest => do
    let code ← if selected e then e.lower s else .ok []
    return code ++ (← ClassElement.lowerWhere s selected rest)

/-- Apply decorators, the last one first. -/
def Decorator.lowerList (s : CodeSite) (apply : Code → Code) : List Decorator → Lowering
  | [] => .ok []
  | ⟨_, e⟩ :: rest => do
    let inner ← Decorator.lowerList s apply rest
    return inner ++ apply (← e.lower s .value)

/-- A block. -/
def Block.lower (s : CodeSite) : Block → Lowering
  | ⟨_, body, scope⟩ => inScope scope (Stmt.hoistedList s body) (Stmt.lowerList s body)

/-- A block that may be missing. -/
def Block.lowerOption (s : CodeSite) : Option Block → Except WriteFault (Option Code)
  | none => .ok none
  | some b => do return some (← b.lower s)

/-- A declaration of variables. -/
def VarDecl.lower (s : CodeSite) : VarDecl → Lowering
  | ⟨_, kind, list⟩ => Declarator.lowerList s kind list

/-- The targets of a declaration of a kind. A `var` without a value stays as it is. -/
def Declarator.lowerList (s : CodeSite) (kind : DeclKind) : List Declarator → Lowering
  | [] => .ok []
  | ⟨_, target, initializer⟩ :: rest => do
    let value ← Expr.lowerOption s target.use initializer
    let skipped := value.isNone && kind == .var
    let bound ← if skipped then .ok [] else target.lower s
    return (if skipped then [] else value.getD (Code.op .pushUndefined)) ++ bound ++
      (← Declarator.lowerList s kind rest)

/-- The tests of the clauses of a switch. -/
def CaseClause.lowerTests (s : CodeSite) : List CaseClause → Except WriteFault (List (Option Code))
  | [] => .ok []
  | ⟨_, test, _⟩ :: rest => do
    let test ← Expr.lowerOption s .value test
    return test :: (← CaseClause.lowerTests s rest)

/-- The bodies of the clauses of a switch. -/
def CaseClause.lowerBodies (s : CodeSite) : List CaseClause → Except WriteFault (List Code)
  | [] => .ok []
  | ⟨_, _, consequent⟩ :: rest => do
    let body ← Stmt.lowerList s consequent
    return body :: (← CaseClause.lowerBodies s rest)

/-- The functions declared directly in the clauses of a switch. -/
def CaseClause.hoistedList (s : CodeSite) : List CaseClause → List Hoisted
  | [] => []
  | ⟨_, _, consequent⟩ :: rest => Stmt.hoistedList s consequent ++ CaseClause.hoistedList s rest

/-- What handles an exception, when something does. -/
def CatchClause.lowerOption (s : CodeSite) : Option CatchClause → Except WriteFault (Option Code)
  | none => .ok none
  | some ⟨_, param, body, scope⟩ => do
    let code ← inScope scope (Stmt.hoistedList s body) do
      let param ← Pattern.lowerParam s param
      return param ++ (← Stmt.lowerList s body)
    return some code

/-- What runs before a loop: a declaration or an expression. -/
def Node.lowerStart (s : CodeSite) : Option Node → Lowering
  | some (.stmt (.declaration d)) => VarDecl.lower s d
  | some (.expr e) => do return (← e.lower s .value) ++ Code.op .pop
  | _ => .ok []

/-- Store the value of a turn in the head of a loop: a declaration of one target, a variable, a
member or a pattern that takes the value apart. -/
def Node.lowerBind (s : CodeSite) : Node → Lowering
  | .stmt (.declaration ⟨_, _, [⟨_, target, _⟩]⟩) => target.lower s
  | .expr (.identifier n) => .ok (Code.text .store n.text ++ Code.op .pop)
  | .expr (.member span base property computed optional) =>
    if optional || base.isOptionalChain then refuse span .destructuringTarget
    else do
      let r ← Member.reference
        (Member.of base property computed optional (fun use => base.lower s use)
          (property.lower s .value))
      return r.code ++ r.target.bind
  | .pattern p => p.lower s
  | n => refuse n.span .loopHead

/-- A statement with the labels on it. -/
def Stmt.lower (s : CodeSite) (labels : List String) : Stmt → Lowering
  | .missing => refuse {} .missingPart
  | .expression _ e => do return (← e.lower s .value) ++ Code.op .save ++ Code.op .pop
  | .block b => Block.lower s b
  | .empty _ => .ok []
  | .debugger _ => .ok (Code.op .breakpoint)
  | .giveBack _ argument => do
    return (← Expr.lowerOption s .value argument).getD (Code.op .pushUndefined) ++ Code.op .giveBack
  | .labelled _ label body =>
    let labels := labels ++ [nameText label]
    if body.takesLabels then body.lower s labels
    else do return Code.framed .pushBreakLabel labels (← body.lower s [])
  | .breakOff _ label => .ok (Code.text .breakOff (nameText label))
  | .carryOn _ label => .ok (Code.text .carryOn (nameText label))
  | .branch _ test consequent alternate => do
    let test ← test.lower s .value
    let consequent ← consequent.lower s []
    return Code.choice test consequent (← Stmt.lowerOption s alternate)
  | .switch _ discriminant cases scope =>
    inScope scope (CaseClause.hoistedList s cases) do
      let discriminant ← discriminant.lower s .value
      let tests ← CaseClause.lowerTests s cases
      let bodies ← CaseClause.lowerBodies s cases
      return breakable labels (← switchCode discriminant tests bodies)
  | .raise _ argument => do return (← argument.lower s .value) ++ Code.op .raise
  | .guarded _ b handler finalizer => do
    let body ← Block.lower s b
    let handler ← CatchClause.lowerOption s handler
    return tryCode body handler (← Block.lowerOption s finalizer)
  | .whileLoop _ test body => do
    let test ← test.lower s .value
    return breakable labels (whileCode test (turnCode labels (← body.lower s [])))
  | .doWhile _ body test => do
    let body ← body.lower s []
    return breakable labels (doWhileCode (turnCode labels body) (← test.lower s .value))
  | .forLoop _ init test update body scope =>
    inScope scope [] do
      let init ← Node.lowerStart s init
      let test ← Expr.lowerOption s .value test
      let body ← body.lower s []
      let update ← Expr.lowerOption s .value update
      return init ++ breakable labels
        (forCode test (turnCode labels body ++ (update.map (· ++ Code.op .pop)).getD []))
  | .forIn _ left right body scope => do
    let right ← right.lower s .value
    let turn ← inScope scope [] do
      let target ← Node.lowerBind s left
      return target ++ turnCode labels (← body.lower s [])
    return right ++ Code.op .keys ++ Code.op .iterator ++ breakable labels (eachCode .next turn) ++
      Code.op .pop
  | .forOf _ left right body await scope => do
    let right ← right.lower s .value
    let turn ← inScope scope [] do
      let target ← Node.lowerBind s left
      return target ++ turnCode labels (← body.lower s [])
    return right ++ Code.op (if await then .asyncIterator else .iterator) ++
      breakable labels (eachCode (if await then .awaitNext else .next) turn) ++ Code.op .pop
  | .declaration d => VarDecl.lower s d
  | .function _ _ => .ok []
  | .classDecl _ c => do
    return (← Class.lowerWith s .value none c) ++ Code.text .store (nameText c.name) ++ Code.op .pop
  | .importDecl _ specifiers source attributes => do
    return importCode source attributes ++ (← Node.lowerSpecifiers specifiers) ++ Code.op .pop
  | .exportNamed _ (some declared) _ _ _ => do
    return (← declared.lower s []) ++
      declared.declaredNames.flatMap fun n : String => Code.text .load n ++ Code.text .exportName n
  | .exportNamed _ none specifiers source attributes =>
    .ok (exportCode specifiers source attributes)
  | .exportDefault span declared => do
    return (← declared.lowerDefault s span) ++ Code.text .exportName "default"
  | .exportAll _ exported source attributes =>
    .ok (importCode source attributes ++ match exported with
      | some n => Code.text .exportName n.text
      | none => Code.op .exportAll)

/-- The value of a declaration that is the module's default. -/
def Stmt.lowerDefault (s : CodeSite) (span : Span) : Stmt → Lowering
  | .function _ f =>
    match f.name with
    | some n => .ok (Code.text .load n.text)
    | none => Function.lower s (.named "default") f
  | .classDecl _ c =>
    match c.name with
    | some n => do
      return (← Class.lowerWith s .value none c) ++ Code.text .store n.text ++ Code.op .pop ++
        Code.text .load n.text
    | none => Class.lowerWith s (.named "default") none c
  | _ => refuse span .exportDefault

/-- The value of the module's default: a function, a class or an expression. -/
def Node.lowerDefault (s : CodeSite) (span : Span) : Node → Lowering
  | .stmt stmt => stmt.lowerDefault s span
  | .expr .missing => refuse span .exportDefault
  | .expr e => e.lower s (.named "default")
  | _ => refuse span .exportDefault

/-- A statement that may be missing. -/
def Stmt.lowerOption (s : CodeSite) : Option Stmt → Lowering
  | none => .ok []
  | some stmt => stmt.lower s []

/-- Statements one after the other. -/
def Stmt.lowerList (s : CodeSite) : List Stmt → Lowering
  | [] => .ok []
  | stmt :: rest => do
    let code ← stmt.lower s []
    return code ++ (← Stmt.lowerList s rest)

/-- The function declared by a statement, also where it is exported. -/
def Stmt.hoisted (s : CodeSite) : Stmt → List Hoisted
  | .function span f => [⟨span.offset, nameText f.name, Function.lower s .value f⟩]
  | .exportNamed _ (some declared) _ _ _ => declared.hoisted s
  | .exportDefault _ (.stmt declared) => declared.hoisted s
  | _ => []

/-- The functions declared directly in a list of statements. -/
def Stmt.hoistedList (s : CodeSite) : List Stmt → List Hoisted
  | [] => []
  | stmt :: rest => stmt.hoisted s ++ Stmt.hoistedList s rest

end

/-- A class, whose instances are initialized as its elements ask for. -/
def Class.lower (s : CodeSite) (use : Use) (c : Class) : Lowering :=
  c.lowerWith s use none

/-! ## The constructs whose code depends on what they are made of -/

namespace Expr

variable (s : CodeSite) (use : Use) (span : Span)

theorem lower_tagged (tag : Expr) (quasi : Template) :
    (tagged span tag quasi).lower s use = match tag.calledMember? s with
      | some (m, _) => m.tag s span (quasi.lowerParts s)
      | none => do
        let code ← tag.lower s .value
        return code ++ (← quasi.lowerParts s) ++ s.placed .tag span :=
  rfl

theorem lower_call (callee : Expr) (arguments : List Expr) (optional : Bool) :
    (call span callee arguments optional).lower s use =
      if callee.isSuper then do
        let arguments ← lowerItems s arguments
        return use.finish (Code.op .pushArray ++ arguments ++ (← s.superCall span))
      else match callee.calledMember? s with
        | some (m, direct) => do
          return use.finish (← m.call direct optional s span (lowerItems s arguments))
        | none => do
          let function ← callee.lower s .link
          let arguments ← lowerItems s arguments
          let arguments := Code.op .pushArray ++ arguments
          if callee.isEval && !optional then
            return function ++ arguments ++ s.placed .directEval span
          return use.finish (function ++ optionalExit optional ++ arguments ++
            s.placed .call span) :=
  rfl

theorem lower_unary (op : Kind) (e : Expr) :
    (unary span op e).lower s use =
      if op == .keyword .deleteWord then
        match e.bareMember? s with
        | some m => m.remove span
        | none =>
          if e.withoutParens matches .identifier _ then .ok (Code.op .pushFalse)
          else do return (← e.lower s .value) ++ Code.op .remove
      else match op.unaryOpcode? with
        | some o => do return (← e.lower s .value) ++ Code.op o
        | none => refuse span (.operator op) :=
  rfl

theorem lower_binary (op : Kind) (left right : Expr) :
    (binary span op left right).lower s use =
      if op == .punct .comma then do
        let left ← left.lower s .value
        return left ++ Code.op .pop ++ (← right.lower s .value)
      else match op.shortCircuit? with
        | some decided => do
          let left ← left.lower s .value
          return left ++ Code.bypassed decided (Code.op .pop ++ (← right.lower s .value))
        | none =>
          match op.binaryOpcode? with
          | some o => do
            let left ← left.lower s .value
            return left ++ (← right.lower s .value) ++ Code.op o
          | none => refuse span (.operator op) :=
  rfl

theorem lower_assign (op : Kind) (target : Pattern) (value : Expr) :
    (assign span op target value).lower s use =
      if op == .punct .assign && target.isDestructuring then do
        let value ← value.lower s .value
        return value ++ Code.pick 1 ++ (← target.lower s)
      else (do
        let r ← target.reference s
        if op == .punct .assign then
          return r.code ++ (← value.lower s r.target.use) ++ r.target.set
        else match op.binary.shortCircuit? with
          | some decided => return r.assignUnless decided (← value.lower s r.target.use)
          | none =>
            match op.binary.binaryOpcode? with
            | some o =>
              return r.code ++ r.target.get ++ (← value.lower s .value) ++ Code.op o ++ r.target.set
            | none => refuse span (.operator op)) :=
  rfl

theorem lower_arrow (params : Params) (body : Body) (value : Option Expr) (async : Bool)
    (env : Env) :
    (arrow span params body value async env).lower s use = do
      let inner := s.inArrow async
      let opening ← openScope env.scope (body.hoisted s)
      let params ← params.lower inner
      let body ← if body.isMissing then lowerValue inner value else body.lower inner
      return s.functionObject (if async then .pushAsyncLambda else .pushLambda) span use.name
        env.closure
        (opening ++ params ++ body ++ Code.op .giveBack ++ Code.op .popScope) :=
  rfl

end Expr

namespace Node

variable (s : CodeSite) (span inner : Span)

theorem lowerDefault_function (f : Function) :
    (stmt (.function inner f)).lowerDefault s span = match f.name with
      | some n => .ok (Code.text .load n.text)
      | none => f.lower s (.named "default") :=
  rfl

theorem lowerDefault_classDecl (c : Class) :
    (stmt (.classDecl inner c)).lowerDefault s span = match c.name with
      | some n => do
        return (← c.lower s .value) ++ Code.text .store n.text ++ Code.op .pop ++
          Code.text .load n.text
      | none => c.lower s (.named "default") :=
  rfl

end Node

end EcmaStack
