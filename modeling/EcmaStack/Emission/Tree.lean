import EcmaStack.Emission.Pieces

/-!
# Writing trees

A tree is written from left to right. Jumps that lead ahead are reserved and
patched around the parts they pass over; the slots stand in variables, on the
list of the chain, on the list of the frames, and for the clauses of a switch in
the table of its entries.

What is written for an expression leaves one value on the stack; what is written
for a pattern takes one; a statement leaves the stack as it was. An expression is
written with the name it is bound to, which an anonymous function or class takes.
-/

namespace EcmaStack

open Writing

mutual

/-- Write an expression that is bound to a name, or to none. -/
def Expr.write (s : WriteSite) (name : Text) : Expr → Writing Unit
  | .missing => do
    report {} .missingPart
    op .pushUndefined
  | .identifier n => text .load n.text
  | .privateName n => Writing.string ("#" ++ n.text)
  | .nullLiteral _ => op .pushNull
  | .boolean _ value => op (if value then .pushTrue else .pushFalse)
  | .number _ _ value => put (numberCode value)
  | .bigint _ _ value => text .pushBigint (integerText value)
  | .string l => Writing.string l.value
  | .regexp _ _ pattern flags =>
    put [⟨.pushRegexp, [.text pattern.encode, .text (utf8Bytes flags)]⟩]
  | .template t => Template.write s t
  | .tagged span tag quasi =>
    match tag.calledWriter? s with
    | some (m, _) => m.tag s span (Template.writeParts s quasi)
    | none => do
      tag.write s ""
      Template.writeParts s quasi
      s.placed .tag span
  | .thisRef _ => op .pushThis
  | .superRef span => do
    report span .bareSuper
    op .pushUndefined
  | .array _ elements => do
    op .pushArray
    Expr.writeItems s elements
  | .object _ properties => do
    op .pushObject
    Property.writeList s properties
  | .spread span _ => do
    report span .spread
    op .pushUndefined
  | .paren _ e => e.write s ""
  | .call span callee arguments optional =>
    chain (s.call span callee optional (callee.calledWriter? s) (callee.write s "")
      (callee.writeLink s)
      (writeArguments (Expr.writeItems s arguments)))
  | .construct span callee arguments => do
    callee.write s ""
    writeArguments (Expr.writeItems s arguments)
    s.placed .construct span
  | .member _ base property computed optional =>
    chain (MemberWriter.of base property computed optional (base.write s "") (base.writeLink s)
      (property.write s "")).read
  | .metaProperty _ owner property => text .load (nameText owner ++ "." ++ nameText property)
  | .importCall span source options => do
    text .load "import"
    op .pushArray
    source.write s ""
    op .append
    Expr.writeAppended s options
    s.placed .call span
  | .unary span o e =>
    if o == .keyword .deleteWord then
      match e.bareWriter? s with
      | some m => m.remove span
      | none =>
        if e.withoutParens matches .identifier _ then op .pushFalse
        else do
          e.write s ""
          op .remove
    else match o.unaryOpcode? with
      | some o => do
        e.write s ""
        op o
      | none => do
        report span (.operator o)
        e.write s ""
        op .void
  | .await _ e => do
    e.write s ""
    op .await
  | .update _ o e before => do
    match ← e.writeReference s (if before then .beforeTarget else .afterTarget) with
    | some t => t.writeUpdate (o == .punct .increment) before
    | none => op .pushUndefined
  | .binary span o left right =>
    if o == .punct .comma then do
      left.write s ""
      op .pop
      right.write s ""
    else match o.shortCircuit? with
      | some decided => do
        left.write s ""
        let stop ← jump decided
        op .pop
        right.write s ""
        patch stop
      | none =>
        match o.binaryOpcode? with
        | some o => do
          left.write s ""
          right.write s ""
          op o
        | none => do
          report span (.operator o)
          left.write s ""
          right.write s ""
          op .add
  | .conditional _ test consequent alternate => do
    test.write s ""
    let otherwise ← jump .jumpFalse
    op .pop
    consequent.write s ""
    let stop ← jump .jump
    patch otherwise
    op .pop
    alternate.write s ""
    patch stop
  | .assign span o target value =>
    if o == .punct .assign && target.isDestructuring then do
      value.write s ""
      pick 1
      target.write s
    else do
      match ← target.writeReference s with
      | none => value.write s ""
      | some t =>
        if o == .punct .assign then do
          value.write s t.use.name
          put t.set
        else match o.binary.shortCircuit? with
          | some decided => t.writeUnless decided (value.write s t.use.name)
          | none => do
            put t.get
            match o.binary.binaryOpcode? with
            | some o => do
              value.write s ""
              op o
              put t.set
            | none => do
              report span (.operator o)
              value.write s ""
              op .add
              put t.set
  | .yield _ argument delegate => do
    Expr.writeOption s "" argument
    if delegate then do
      op (if s.async then .asyncIterator else .iterator)
      let start ← here
      op (if s.async then .awaitNext else .next)
      let done ← jump .jumpTrue
      op .pop
      op .yield
      op .pop
      jumpTo .jump start
      patch done
      op .pop
      sink 1
      op .pop
    else op .yield
  | .function f => Function.write s name f
  | .arrow span params body value async env => do
    let inner := s.inArrow async
    let skip ← jump .jump
    let start ← here
    writePrologue env.scope (Body.hoistedWriters s body)
    Params.write inner params
    (if body.isMissing then Expr.writeValue inner value else Body.write inner body)
    op .giveBack
    op .popScope
    patch skip
    s.functionHead (if async then .pushAsyncLambda else .pushLambda) start span name
    writeClosure env.closure
  | .classExpr c => Class.write s name c

/-- Write a member or a call as a link of a chain. -/
def Expr.writeLink (s : WriteSite) : Expr → Link
  | .member _ base property computed optional =>
    (MemberWriter.of base property computed optional (base.write s "") (base.writeLink s)
      (property.write s "")).read
  | .call span callee arguments optional =>
    s.call span callee optional (callee.calledWriter? s) (callee.write s "") (callee.writeLink s)
      (writeArguments (Expr.writeItems s arguments))
  | _ => fun jumps => return jumps

/-- The member that a call or a tag applies to, and whether it stands there without
parentheses. Parentheses around an optional chain end it, so that no member is
left. -/
def Expr.calledWriter? (s : WriteSite) : Expr → Option (MemberWriter × Bool)
  | .member _ base property computed optional =>
    some (.of base property computed optional (base.write s "") (base.writeLink s)
      (property.write s ""), true)
  | .paren _ (.member _ base property computed optional) =>
    if optional || base.isOptionalChain then none
    else some
      (.of base property computed optional (base.write s "") (base.writeLink s)
        (property.write s ""), false)
  | _ => none

/-- The member that an expression is, whatever parentheses stand around it. -/
def Expr.bareWriter? (s : WriteSite) : Expr → Option MemberWriter
  | .member _ base property computed optional =>
    some (.of base property computed optional (base.write s "") (base.writeLink s)
      (property.write s ""))
  | .paren _ e => e.bareWriter? s
  | _ => none

/-- Write the object and the key of an assignment target. What nothing can be
assigned to is reported. -/
def Expr.writeReference (s : WriteSite) (cause : WriteCause) : Expr → Writing (Option Target)
  | .identifier n => return some (.binding n.text)
  | .paren _ e => e.writeReference s cause
  | .member span base property computed optional =>
    if optional || base.isOptionalChain then do
      report span cause
      return none
    else
      (MemberWriter.of base property computed optional (base.write s "") (base.writeLink s)
        (property.write s "")).reference
  | e => do
    report e.span cause
    return none

/-- Write an expression, or `undefined` in place of a missing one. -/
def Expr.writeOption (s : WriteSite) (name : Text) : Option Expr → Writing Unit
  | none => op .pushUndefined
  | some e => e.write s name

/-- Write what an arrow function gives back without statements of its own. -/
def Expr.writeValue (s : WriteSite) : Option Expr → Writing Unit
  | none => do
    report {} .missingPart
    op .pushUndefined
  | some e => e.write s ""

/-- Append a value that may be missing to the array on top. -/
def Expr.writeAppended (s : WriteSite) : Option Expr → Writing Unit
  | none => return
  | some e => do
    e.write s ""
    op .append

/-- Append values to the array on top. -/
def Expr.writeEach (s : WriteSite) : List Expr → Writing Unit
  | [] => return
  | e :: rest => do
    e.write s ""
    op .append
    Expr.writeEach s rest

/-- Append elements or arguments to the array on top. A missing element is a
hole. -/
def Expr.writeItems (s : WriteSite) : List Expr → Writing Unit
  | [] => return
  | .missing :: rest => do
    put holeCode
    Expr.writeItems s rest
  | .spread _ e :: rest => do
    e.write s ""
    op .spread
    Expr.writeItems s rest
  | e :: rest => do
    e.write s ""
    op .append
    Expr.writeItems s rest

/-- Put a value in place of a missing one on top. -/
def Expr.writeFallback (s : WriteSite) (name : Text) : Option Expr → Writing Unit
  | none => return
  | some e => do
    let skip ← jump .jumpNotUndefined
    op .pop
    e.write s name
    patch skip

/-- Join expressions, and the text after each, to the string on top. -/
def Expr.writeJoined (s : WriteSite) : List TemplateElement → List Expr → Writing Unit
  | _, [] => return
  | [], e :: rest => do
    e.write s ""
    op .concat
    Expr.writeJoined s [] rest
  | q :: quasis, e :: rest => do
    e.write s ""
    op .concat
    Writing.string q.cooked
    op .concat
    Expr.writeJoined s quasis rest

/-- Write a template as a string. -/
def Template.write (s : WriteSite) : Template → Writing Unit
  | ⟨_, [], _⟩ => Writing.string ""
  | ⟨_, q :: quasis, expressions⟩ => do
    Writing.string q.cooked
    Expr.writeJoined s quasis expressions

/-- Write a template as what a tag is called with: the texts as meant, the texts as
written and the values. -/
def Template.writeParts (s : WriteSite) : Template → Writing Unit
  | ⟨_, quasis, expressions⟩ => do
    put (arrayCode (quasis.map fun q => Code.string q.cooked))
    put (arrayCode (quasis.map fun q => Code.string q.raw))
    op .pushArray
    Expr.writeEach s expressions

/-- Put a property into the object on top. -/
def Property.write (s : WriteSite) : Property → Writing Unit
  | .missing => return
  | .keyed _ key computed kind value => do
    key.writeKey computed (key.write s "")
    value.write s (key.keyUse computed).name
    match kind with
    | .value => op .initField
    | _ => do
      pick 3
      op .setClass
      op (methodOpcode false kind)
  | .short _ n => do
    Writing.string (nameText n)
    text .load (nameText n)
    op .initField
  | .spread _ e => do
    e.write s ""
    op .spread

/-- Put properties into the object on top. -/
def Property.writeList (s : WriteSite) : List Property → Writing Unit
  | [] => return
  | p :: rest => do
    p.write s
    Property.writeList s rest

/-- Store the top value into a pattern and drop it. -/
def Pattern.write (s : WriteSite) : Pattern → Writing Unit
  | .target (.identifier n) => do
    text .store n.text
    op .pop
  | .target e => do
    match ← e.writeReference s .destructuringTarget with
    | some t => put t.bind
    | none => op .pop
  | .array _ elements rest => do
    op .iterator
    Element.writeList s elements
    Pattern.writeRest s rest
    op .pop
  | .object _ properties none => do
    PatternProperty.writeList s false properties
    op .pop
  | .object _ properties (some rest) => do
    op .pushArray
    PatternProperty.writeList s true properties
    op .restObject
    rest.write s
    put (Code.drop 2)

/-- Store what is left of the iterator on top. -/
def Pattern.writeRest (s : WriteSite) : Option Pattern → Writing Unit
  | none => return
  | some p => do
    op .rest
    p.write s

/-- Store the exception on top, or drop it. -/
def Pattern.writeParam (s : WriteSite) : Option Pattern → Writing Unit
  | none => op .pop
  | some p => p.write s

/-- Write the object and the key of a pattern that is assigned to. -/
def Pattern.writeReference (s : WriteSite) : Pattern → Writing (Option Target)
  | .target e => e.writeReference s .assignmentTarget
  | .array span _ _ | .object span _ _ => do
    report span .assignmentTarget
    return none

/-- Take the next value of the iterator on top and store it. -/
def Element.write (s : WriteSite) : Element → Writing Unit
  | .hole => do
    op .next
    op .pop
    op .pop
  | .bound _ target fallback => do
    op .next
    op .pop
    Expr.writeFallback s target.use.name fallback
    target.write s

/-- Take values of the iterator on top and store them. -/
def Element.writeList (s : WriteSite) : List Element → Writing Unit
  | [] => return
  | e :: rest => do
    e.write s
    Element.writeList s rest

/-- Store a property of the value on top. Where keys are listed, the value stands
below the list of the keys read so far, which grows by this one. -/
def PatternProperty.write (s : WriteSite) (listed : Bool) : PatternProperty → Writing Unit
  | ⟨_, key, computed, value, fallback, _⟩ => do
    pick (if listed then 2 else 1)
    key.writeKey computed (key.write s "")
    when listed do
      pick 3
      pick 2
      op .append
      op .pop
    op .getField
    Expr.writeFallback s value.use.name fallback
    value.write s

/-- Store properties of the value on top. -/
def PatternProperty.writeList (s : WriteSite) (listed : Bool) : List PatternProperty → Writing Unit
  | [] => return
  | p :: rest => do
    p.write s listed
    PatternProperty.writeList s listed rest

/-- Store the arguments of a call in the parameters. -/
def Params.write (s : WriteSite) : Params → Writing Unit
  | .missing => return
  | .list _ items rest =>
    if items.isEmpty && rest.isNone then return
    else do
      text .load "arguments"
      op .iterator
      Element.writeList s items
      Pattern.writeRest s rest
      op .pop

/-- Write the body of a function, up to the value it gives back. -/
def Body.write (s : WriteSite) : Body → Writing Unit
  | .missing => op .pushUndefined
  | .block _ directives items => do
    put (directives.flatMap Directive.lower)
    Stmt.writeList s items
    op .pushUndefined

/-- The functions declared directly in a body. -/
def Body.hoistedWriters (s : WriteSite) : Body → List HoistedWriter
  | .block _ _ items => Stmt.hoistedWriters s items
  | _ => []

/-- Write a function that is bound to a name, or to none. -/
def Function.write (s : WriteSite) (name : Text) : Function → Writing Unit
  | ⟨span, own, params, body, async, generator, env⟩ => do
    let name := (own.map fun n => Text.ofString n.text).getD name
    let inner := s.inFunction async
    when env.nameScope.isSome (writePrologue env.nameScope [])
    let skip ← jump .jump
    let start ← here
    writePrologue env.scope (Body.hoistedWriters s body)
    Params.write inner params
    Body.write inner body
    op .giveBack
    op .popScope
    patch skip
    s.functionHead (functionOpcode async generator) start span name
    writeClosure env.closure
    when env.nameScope.isSome do
      text .store name
      op .popScope

/-- Write a function that may be missing. -/
def Function.writeOption (s : WriteSite) (name : Text) : Option Function → Writing Unit
  | none => do
    report {} .missingPart
    op .pushUndefined
  | some f => f.write s name

/-- Write a class that is bound to a name, or to none. -/
def Class.write (s : WriteSite) (name : Text) : Class → Writing Unit
  | ⟨span, own, superClass, elements, decorators, env⟩ => do
    let name := (own.map fun n => Text.ofString n.text).getD name
    let inner := s.inFunction false
    let fields (async : Bool) : Writing Unit := when (elements.any ClassElement.onInstance) do
      op .pushThis
      ClassElement.writeWhere { inner with async } ClassElement.onInstance elements
      op .pop
    let derived := superClass.isSome
    let inside := if derived then { inner with fields := some fields } else inner
    let declared := ClassElement.constructorWriter? inner inside elements
    when env.nameScope.isSome (writePrologue env.nameScope [])
    s.writeConstructor span name env declared do
      when (!derived) (fields false)
      when (derived && declared.isNone) do
        text .load "arguments"
        inside.superCall span
        op .pop
    Expr.writeHeritage s superClass
    when (elements.any ClassElement.onPrototype) do
      pick 1
      Writing.string "prototype"
      op .getField
      ClassElement.writeWhere s ClassElement.onPrototype elements
      op .pop
    ClassElement.writeWhere s ClassElement.onClass elements
    Decorator.writeNamed s name decorators
    when env.nameScope.isSome (text .store name)
    when (elements.any ClassElement.onceOnly)
      (s.writeInitializer span env.closure
        (ClassElement.writeWhere inner ClassElement.onceOnly elements))
    when env.nameScope.isSome (op .popScope)

/-- Write what a class extends. -/
def Expr.writeHeritage (s : WriteSite) : Option Expr → Writing Unit
  | none => return
  | some e => do
    e.write s ""
    op .inherit

/-- The constructor of a class, its parameters and its body each at its site. -/
def ClassElement.constructorWriter? (outside inside : WriteSite) :
    List ClassElement → Option ConstructorWriter
  | [] => none
  | .method _ _ _ _ .constructor (some ⟨_, _, params, body, _, _, env⟩) _ :: _ =>
    some {
      head := do
        writePrologue env.scope (Body.hoistedWriters outside body)
        Params.write outside params
      body := Body.write inside body }
  | _ :: rest => ClassElement.constructorWriter? outside inside rest

/-- Make an element of a class on the object on top. -/
def ClassElement.write (s : WriteSite) : ClassElement → Writing Unit
  | .missing => return
  | .method _ key computed _ kind function decorators => do
    key.writeKey computed (key.write s "")
    Function.writeOption s (key.keyUse computed).name function
    pick 3
    op .setClass
    Decorator.writeKind s (methodDecorator kind) decorators
    op (methodOpcode (key.isPrivateKey computed) kind)
  | .field _ key computed _ accessor initializer decorators => do
    key.writeKey computed (key.write s "")
    Expr.writeOption s (key.keyUse computed).name initializer
    Decorator.writeKind s (fieldDecorator accessor) decorators
    op (fieldOpcode (key.isPrivateKey computed) accessor)
  | .staticBlock _ body env => do
    let pushed ← enterScope env.scope (Stmt.hoistedWriters s body)
    Stmt.writeList s body
    leaveScope pushed

/-- Make the selected elements of a class on the object on top. -/
def ClassElement.writeWhere (s : WriteSite) (selected : ClassElement → Bool) :
    List ClassElement → Writing Unit
  | [] => return
  | e :: rest => do
    when (selected e) (e.write s)
    ClassElement.writeWhere s selected rest

/-- Apply the decorators of an element, the last one first. -/
def Decorator.writeKind (s : WriteSite) (kind : Nat) : List Decorator → Writing Unit
  | [] => return
  | ⟨_, e⟩ :: rest => do
    Decorator.writeKind s kind rest
    e.write s ""
    put (Code.count .decorator kind)

/-- Apply the decorators of a class of a name, the last one first. -/
def Decorator.writeNamed (s : WriteSite) (name : Text) : List Decorator → Writing Unit
  | [] => return
  | ⟨_, e⟩ :: rest => do
    Decorator.writeNamed s name rest
    Writing.string name
    sink 1
    e.write s ""
    put (Code.count .decorator classDecorator)
    sink 1
    op .pop

/-- Write a block. -/
def Block.write (s : WriteSite) : Block → Writing Unit
  | ⟨_, body, scope⟩ => do
    let pushed ← enterScope scope (Stmt.hoistedWriters s body)
    Stmt.writeList s body
    leaveScope pushed

/-- Write a declaration of variables. -/
def VarDecl.write (s : WriteSite) : VarDecl → Writing Unit
  | ⟨_, kind, list⟩ => Declarator.writeList s kind list

/-- Write the targets of a declaration of a kind. A `var` without a value stays as
it is. -/
def Declarator.writeList (s : WriteSite) (kind : DeclKind) : List Declarator → Writing Unit
  | [] => return
  | ⟨_, target, initializer⟩ :: rest => do
    when (!(initializer.isNone && kind == .var)) do
      Expr.writeOption s target.use.name initializer
      target.write s
    Declarator.writeList s kind rest

/-- Write the tests of the clauses of a switch, the first of them with a given
number. -/
def CaseClause.writeTests (s : WriteSite) : Int → List CaseClause → Writing SwitchTable
  | _, [] => return {}
  | number, ⟨_, none, _⟩ :: rest => do
    let table ← CaseClause.writeTests s (number + 1) rest
    return ⟨0 :: table.entries, if table.fallback ≥ 0 then table.fallback else number⟩
  | number, ⟨_, some test, _⟩ :: rest => do
    pick 1
    test.write s ""
    op .strictEqual
    let next ← jump .jumpFalse
    op .pop
    let entry ← jump .jump
    patch next
    op .pop
    let table ← CaseClause.writeTests s (number + 1) rest
    return ⟨entry :: table.entries, table.fallback⟩

/-- Write the bodies of the clauses of a switch, and let the entries lead to
them. -/
def CaseClause.writeBodies (s : WriteSite) : List Int → List CaseClause → Writing Unit
  | _, [] => return
  | entries, ⟨_, _, consequent⟩ :: rest => do
    patch (entries.headD 0)
    Stmt.writeList s consequent
    CaseClause.writeBodies s entries.tail rest

/-- The functions declared directly in the clauses of a switch. -/
def CaseClause.hoistedWriters (s : WriteSite) : List CaseClause → List HoistedWriter
  | [] => []
  | ⟨_, _, consequent⟩ :: rest =>
    Stmt.hoistedWriters s consequent ++ CaseClause.hoistedWriters s rest

/-- Write what handles an exception. -/
def CatchClause.write (s : WriteSite) : CatchClause → Writing Unit
  | ⟨_, param, body, scope⟩ => do
    let pushed ← enterScope scope (Stmt.hoistedWriters s body)
    Pattern.writeParam s param
    Stmt.writeList s body
    leaveScope pushed

/-- Write a handler, if there is one, and let its slot lead to it. -/
def CatchClause.writeOption (s : WriteSite) (slot : Int) : Option CatchClause → Writing Unit
  | none => return
  | some c => do
    patch slot
    c.write s
    op .tryEnd

/-- Write a finalizer, if there is one, and let its slot lead to it. -/
def Block.writeFinalizer (s : WriteSite) (slot : Int) : Option Block → Writing Unit
  | none => return
  | some b => do
    let skip ← jump .jump
    patch slot
    b.write s
    op .tryEnd
    patch skip

/-- Write what runs before a loop: a declaration or an expression. -/
def Node.writeStart (s : WriteSite) : Option Node → Writing Unit
  | some (.stmt (.declaration d)) => VarDecl.write s d
  | some (.expr e) => do
    e.write s ""
    op .pop
  | _ => return

/-- Store the value of a turn in the head of a loop. -/
def Node.writeBind (s : WriteSite) : Node → Writing Unit
  | .stmt (.declaration ⟨_, _, [⟨_, target, _⟩]⟩) => target.write s
  | .expr (.identifier n) => do
    text .store n.text
    op .pop
  | .expr (.member span base property computed optional) =>
    if optional || base.isOptionalChain then do
      report span .destructuringTarget
      op .pop
    else do
      match ← (MemberWriter.of base property computed optional (base.write s "") (base.writeLink s)
          (property.write s "")).reference with
      | some t => put t.bind
      | none => op .pop
  | .pattern p => p.write s
  | n => do
    report n.span .loopHead
    op .pop

/-- Write a statement with the labels on it. -/
def Stmt.write (s : WriteSite) (labels : List String) : Stmt → Writing Unit
  | .missing => report {} .missingPart
  | .expression _ e => do
    e.write s ""
    op .save
    op .pop
  | .block b => b.write s
  | .empty _ => return
  | .debugger _ => op .breakpoint
  | .giveBack _ argument => do
    Expr.writeOption s "" argument
    op .giveBack
  | .labelled _ label body =>
    let labels := labels ++ [nameText label]
    if body.takesLabels then body.write s labels
    else do
      let frames ← openFrames .pushBreakLabel labels false
      body.write s []
      closeFrames frames
  | .breakOff _ label => text .breakOff (nameText label)
  | .carryOn _ label => text .carryOn (nameText label)
  | .branch _ test consequent alternate => do
    test.write s ""
    let otherwise ← jump .jumpFalse
    op .pop
    consequent.write s []
    let stop ← jump .jump
    patch otherwise
    op .pop
    Stmt.writeOption s alternate
    patch stop
  | .switch _ discriminant cases scope => do
    let pushed ← enterScope scope (CaseClause.hoistedWriters s cases)
    let breaks ← openFrames .pushBreakLabel labels true
    discriminant.write s ""
    let table ← CaseClause.writeTests s 0 cases
    let stop ← jump .jump
    CaseClause.writeBodies s (table.entriesWith stop) cases
    -- The default clause has taken the place of the end.
    when (table.fallback < 0) (patch stop)
    op .pop
    closeFrames breaks
    leaveScope pushed
  | .raise _ argument => do
    argument.write s ""
    op .raise
  | .guarded _ body handler finalizer => do
    op .tryBegin
    let caught ← reserveIf handler.isSome
    let ended ← reserveIf finalizer.isSome
    body.write s
    op .tryEnd
    let after ← jump .jump
    CatchClause.writeOption s caught handler
    patch after
    Block.writeFinalizer s ended finalizer
  | .whileLoop _ test body => do
    let breaks ← openFrames .pushBreakLabel labels true
    let start ← here
    test.write s ""
    let exit ← jump .jumpFalse
    op .pop
    writeTurn labels (body.write s [])
    jumpTo .jump start
    patch exit
    op .pop
    closeFrames breaks
  | .doWhile _ body test => do
    let breaks ← openFrames .pushBreakLabel labels true
    let start ← here
    writeTurn labels (body.write s [])
    test.write s ""
    let exit ← jump .jumpFalse
    op .pop
    jumpTo .jump start
    patch exit
    op .pop
    closeFrames breaks
  | .forLoop _ init test update body scope => do
    let pushed ← enterScope scope []
    Node.writeStart s init
    let breaks ← openFrames .pushBreakLabel labels true
    let start ← here
    let exit ← Expr.writeTest s test
    writeTurn labels (body.write s [])
    Expr.writeUpdate s update
    jumpTo .jump start
    when (exit ≥ 0) do
      patch exit
      op .pop
    closeFrames breaks
    leaveScope pushed
  | .forIn _ left right body scope => do
    right.write s ""
    op .keys
    op .iterator
    writeEachTurn labels .next scope (left.writeBind s) (body.write s [])
  | .forOf _ left right body await scope => do
    right.write s ""
    op (if await then .asyncIterator else .iterator)
    writeEachTurn labels (if await then .awaitNext else .next) scope (left.writeBind s)
      (body.write s [])
  | .declaration d => d.write s
  | .function _ _ => return
  | .classDecl _ c => do
    c.write s ""
    text .store (nameText c.name)
    op .pop
  | .importDecl _ specifiers source attributes => do
    put (importCode source attributes)
    Node.writeSpecifiers specifiers
    op .pop
  | .exportNamed _ (some declared) _ _ _ => do
    declared.write s []
    put (declared.declaredNames.flatMap fun n : String => Code.text .load n ++
      Code.text .exportName n)
  | .exportNamed _ none specifiers source attributes =>
    put (exportCode specifiers source attributes)
  | .exportDefault span declared => do
    if ← declared.writeDefault s span then text .exportName "default"
  | .exportAll _ exported source attributes => do
    put (importCode source attributes)
    match exported with
    | some n => text .exportName n.text
    | none => op .exportAll

/-- Write the declaration that is the module's default. The answer tells whether
there is a value. -/
def Stmt.writeDefault (s : WriteSite) (span : Span) : Stmt → Writing Bool
  | .function _ f =>
    match f.name with
    | some n => do
      text .load n.text
      return true
    | none => do
      f.write s "default"
      return true
  | .classDecl _ c =>
    match c.name with
    | some n => do
      c.write s ""
      text .store n.text
      op .pop
      text .load n.text
      return true
    | none => do
      c.write s "default"
      return true
  | _ => do
    report span .exportDefault
    return false

/-- Write the module's default: a function, a class or an expression. -/
def Node.writeDefault (s : WriteSite) (span : Span) : Node → Writing Bool
  | .stmt stmt => stmt.writeDefault s span
  | .expr .missing => do
    report span .exportDefault
    return false
  | .expr e => do
    e.write s "default"
    return true
  | _ => do
    report span .exportDefault
    return false

/-- Write a statement that may be missing. -/
def Stmt.writeOption (s : WriteSite) : Option Stmt → Writing Unit
  | none => return
  | some stmt => stmt.write s []

/-- Write the test of a loop, and answer the slot of the jump that leaves the loop,
-1 if there is none. -/
def Expr.writeTest (s : WriteSite) : Option Expr → Writing Int
  | none => return -1
  | some e => do
    e.write s ""
    let exit ← jump .jumpFalse
    op .pop
    return exit

/-- Write what a loop does after each turn. -/
def Expr.writeUpdate (s : WriteSite) : Option Expr → Writing Unit
  | none => return
  | some e => do
    e.write s ""
    op .pop

/-- Write statements one after the other. -/
def Stmt.writeList (s : WriteSite) : List Stmt → Writing Unit
  | [] => return
  | stmt :: rest => do
    stmt.write s []
    Stmt.writeList s rest

/-- The function declared by a statement, also where it is exported. -/
def Stmt.hoistedWriter (s : WriteSite) : Stmt → List HoistedWriter
  | .function span f => [⟨span.offset, nameText f.name, f.write s ""⟩]
  | .exportNamed _ (some declared) _ _ _ => declared.hoistedWriter s
  | .exportDefault _ (.stmt declared) => declared.hoistedWriter s
  | _ => []

/-- The functions declared directly in a list of statements. -/
def Stmt.hoistedWriters (s : WriteSite) : List Stmt → List HoistedWriter
  | [] => []
  | stmt :: rest => stmt.hoistedWriter s ++ Stmt.hoistedWriters s rest

end

/-! ## The constructs whose code depends on what they are made of -/

namespace Expr

variable (s : WriteSite) (name : Text) (span : Span)

theorem write_tagged (tag : Expr) (quasi : Template) :
    (tagged span tag quasi).write s name = (match tag.calledWriter? s with
      | some (m, _) => m.tag s span (quasi.writeParts s)
      | none => do
        tag.write s ""
        quasi.writeParts s
        s.placed .tag span) :=
  rfl

theorem write_unary (o : Kind) (e : Expr) :
    (unary span o e).write s name =
      (if o == .keyword .deleteWord then
        match e.bareWriter? s with
        | some m => m.remove span
        | none =>
          if e.withoutParens matches .identifier _ then op .pushFalse
          else do
            e.write s ""
            op .remove
      else match o.unaryOpcode? with
        | some o => do
          e.write s ""
          op o
        | none => do
          report span (.operator o)
          e.write s ""
          op .void) :=
  rfl

theorem write_binary (o : Kind) (left right : Expr) :
    (binary span o left right).write s name =
      (if o == .punct .comma then do
        left.write s ""
        op .pop
        right.write s ""
      else match o.shortCircuit? with
        | some decided => do
          left.write s ""
          let stop ← jump decided
          op .pop
          right.write s ""
          patch stop
        | none =>
          match o.binaryOpcode? with
          | some o => do
            left.write s ""
            right.write s ""
            op o
          | none => do
            report span (.operator o)
            left.write s ""
            right.write s ""
            op .add) :=
  rfl

theorem write_assign (o : Kind) (target : Pattern) (value : Expr) :
    (assign span o target value).write s name =
      (if o == .punct .assign && target.isDestructuring then do
        value.write s ""
        pick 1
        target.write s
      else do
        match ← target.writeReference s with
        | none => value.write s ""
        | some t =>
          if o == .punct .assign then do
            value.write s t.use.name
            put t.set
          else match o.binary.shortCircuit? with
            | some decided => t.writeUnless decided (value.write s t.use.name)
            | none => do
              put t.get
              match o.binary.binaryOpcode? with
              | some o => do
                value.write s ""
                op o
                put t.set
              | none => do
                report span (.operator o)
                value.write s ""
                op .add
                put t.set) :=
  rfl

theorem write_yield (argument : Option Expr) (delegate : Bool) :
    (yield span argument delegate).write s name = (do
      writeOption s "" argument
      if delegate then do
        op (if s.async then .asyncIterator else .iterator)
        let start ← here
        op (if s.async then .awaitNext else .next)
        let done ← jump .jumpTrue
        op .pop
        op .yield
        op .pop
        jumpTo .jump start
        patch done
        op .pop
        sink 1
        op .pop
      else op .yield) :=
  rfl

theorem write_arrow (params : Params) (body : Body) (value : Option Expr) (async : Bool)
    (env : Env) :
    (arrow span params body value async env).write s name = (do
      let inner := s.inArrow async
      let skip ← jump .jump
      let start ← here
      writePrologue env.scope (body.hoistedWriters s)
      params.write inner
      (if body.isMissing then writeValue inner value else body.write inner)
      op .giveBack
      op .popScope
      patch skip
      s.functionHead (if async then .pushAsyncLambda else .pushLambda) start span name
      writeClosure env.closure) :=
  rfl

end Expr

/-- The test of a loop that has one: the jump that leaves the loop is open behind it. -/
theorem Expr.writeTest_some (s : WriteSite) (e : Expr) :
    Expr.writeTest s (some e) = (do
      e.write s ""
      let exit ← jump .jumpFalse
      op .pop
      return exit) :=
  rfl

namespace CaseClause

variable (s : WriteSite) (span : Span) (number : Int) (consequent : List Stmt)
  (rest : List CaseClause)

theorem writeTests_default :
    writeTests s number (⟨span, none, consequent⟩ :: rest) = (do
      let table ← writeTests s (number + 1) rest
      return ⟨0 :: table.entries, if table.fallback ≥ 0 then table.fallback else number⟩) :=
  rfl

theorem writeTests_test (test : Expr) :
    writeTests s number (⟨span, some test, consequent⟩ :: rest) = (do
      pick 1
      test.write s ""
      op .strictEqual
      let next ← jump .jumpFalse
      op .pop
      let entry ← jump .jump
      patch next
      op .pop
      let table ← writeTests s (number + 1) rest
      return ⟨entry :: table.entries, table.fallback⟩) :=
  rfl

theorem writeBodies_cons (entries : List Int) (test : Option Expr) :
    writeBodies s entries (⟨span, test, consequent⟩ :: rest) = (do
      patch (entries.headD 0)
      Stmt.writeList s consequent
      writeBodies s entries.tail rest) :=
  rfl

end CaseClause

namespace Node

variable (s : WriteSite) (span inner : Span)

theorem writeDefault_function (f : Function) :
    (stmt (.function inner f)).writeDefault s span = match f.name with
      | some n => do
        text .load n.text
        return true
      | none => do
        f.write s "default"
        return true :=
  rfl

theorem writeDefault_classDecl (c : Class) :
    (stmt (.classDecl inner c)).writeDefault s span = match c.name with
      | some n => do
        c.write s ""
        text .store n.text
        op .pop
        text .load n.text
        return true
      | none => do
        c.write s "default"
        return true :=
  rfl

end Node

end EcmaStack
