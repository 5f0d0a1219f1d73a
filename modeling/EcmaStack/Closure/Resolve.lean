import EcmaStack.Closure.Free
import EcmaStack.Tree.Node

/-!
# Resolving a whole program

`Program.resolve` gives every function-like node of a tree the names it captures, innermost
first, whatever the tree said before, and `Program.cleared` takes the names from every one of
them. Both are the same walk, which refills what each node captures once the nodes inside it are
refilled; they differ in how the names are found (`Captures`).

Resolving is for trees that were built or changed by hand: the grammar fills the same lists as
it finishes each node.
-/

namespace EcmaStack

/-- How the names that a function-like node captures are found from its surroundings and its
parts. -/
structure Captures where
  function : Env → Params → Body → Option Expr → List String
  classBody : Env → List ClassElement → List String
  block : Env → List Stmt → List String

/-- Each node captures what is free in it. -/
def Captures.free : Captures :=
  ⟨closureOfFunction, closureOfClass, closureOfBlock⟩

/-- No node captures anything. -/
def Captures.nothing : Captures :=
  ⟨fun _ _ _ _ => [], fun _ _ => [], fun _ _ => []⟩

mutual

/-- Refill every function-like node in an expression. -/
def Expr.refill (how : Captures) : Expr → Expr
  | .template t => .template (t.refill how)
  | .tagged s tag quasi => .tagged s (tag.refill how) (quasi.refill how)
  | .array s elements => .array s (Expr.refillList how elements)
  | .object s properties => .object s (Property.refillList how properties)
  | .spread s e => .spread s (e.refill how)
  | .paren s e => .paren s (e.refill how)
  | .call s callee args optional => .call s (callee.refill how) (Expr.refillList how args) optional
  | .construct s callee args => .construct s (callee.refill how) (Expr.refillList how args)
  | .member s base property computed optional =>
    .member s (base.refill how) (property.refill how) computed optional
  | .importCall s source options =>
    .importCall s (source.refill how) (Expr.refillOption how options)
  | .unary s op e => .unary s op (e.refill how)
  | .await s e => .await s (e.refill how)
  | .update s op e before => .update s op (e.refill how) before
  | .binary s op left right => .binary s op (left.refill how) (right.refill how)
  | .conditional s test consequent alternate =>
    .conditional s (test.refill how) (consequent.refill how) (alternate.refill how)
  | .assign s op target value => .assign s op (target.refill how) (value.refill how)
  | .yield s argument delegate => .yield s (Expr.refillOption how argument) delegate
  | .function f => .function (f.refill how)
  | .arrow s params body value async env =>
    .arrow s (params.refill how) (body.refill how) (Expr.refillOption how value) async
      { env with
        closure := how.function env (params.refill how) (body.refill how)
          (Expr.refillOption how value) }
  | .classExpr c => .classExpr (c.refill how)
  | e => e

/-- Refill every function-like node in a template. -/
def Template.refill (how : Captures) : Template → Template
  | ⟨s, quasis, expressions⟩ => ⟨s, quasis, Expr.refillList how expressions⟩

/-- Refill every function-like node in expressions. -/
def Expr.refillList (how : Captures) : List Expr → List Expr
  | [] => []
  | e :: rest => e.refill how :: Expr.refillList how rest

/-- Refill every function-like node in an expression that may be missing. -/
def Expr.refillOption (how : Captures) : Option Expr → Option Expr
  | none => none
  | some e => some (e.refill how)

/-- Refill every function-like node in a property. -/
def Property.refill (how : Captures) : Property → Property
  | .missing => .missing
  | .keyed s key computed kind value => .keyed s (key.refill how) computed kind (value.refill how)
  | .short s n => .short s n
  | .spread s e => .spread s (e.refill how)

/-- Refill every function-like node in properties. -/
def Property.refillList (how : Captures) : List Property → List Property
  | [] => []
  | x :: rest => x.refill how :: Property.refillList how rest

/-- Refill every function-like node in a pattern. -/
def Pattern.refill (how : Captures) : Pattern → Pattern
  | .target e => .target (e.refill how)
  | .array s elements rest =>
    .array s (Element.refillList how elements) (Pattern.refillOption how rest)
  | .object s properties rest =>
    .object s (PatternProperty.refillList how properties) (Pattern.refillOption how rest)

/-- Refill every function-like node in a pattern that may be missing. -/
def Pattern.refillOption (how : Captures) : Option Pattern → Option Pattern
  | none => none
  | some p => some (p.refill how)

/-- Refill every function-like node in an element. -/
def Element.refill (how : Captures) : Element → Element
  | .hole => .hole
  | .bound s target fallback => .bound s (target.refill how) (Expr.refillOption how fallback)

/-- Refill every function-like node in elements. -/
def Element.refillList (how : Captures) : List Element → List Element
  | [] => []
  | x :: rest => x.refill how :: Element.refillList how rest

/-- Refill every function-like node in a pattern's property. -/
def PatternProperty.refill (how : Captures) : PatternProperty → PatternProperty
  | ⟨s, key, computed, value, fallback, shorthand⟩ =>
    ⟨s, key.refill how, computed, value.refill how, Expr.refillOption how fallback, shorthand⟩

/-- Refill every function-like node in a pattern's properties. -/
def PatternProperty.refillList (how : Captures) : List PatternProperty → List PatternProperty
  | [] => []
  | x :: rest => x.refill how :: PatternProperty.refillList how rest

/-- Refill every function-like node in a parameter list. -/
def Params.refill (how : Captures) : Params → Params
  | .missing => .missing
  | .list s items rest => .list s (Element.refillList how items) (Pattern.refillOption how rest)

/-- Refill every function-like node in a body. -/
def Body.refill (how : Captures) : Body → Body
  | .missing => .missing
  | .block s directives items => .block s directives (Stmt.refillList how items)

/-- Refill a function and every function-like node in it. -/
def Function.refill (how : Captures) : Function → Function
  | ⟨s, name, params, body, async, generator, env⟩ =>
    ⟨s, name, params.refill how, body.refill how, async, generator,
      { env with closure := how.function env (params.refill how) (body.refill how) none }⟩

/-- Refill a function that may be missing and every function-like node in it. -/
def Function.refillOption (how : Captures) : Option Function → Option Function
  | none => none
  | some f => some (f.refill how)

/-- Refill a class and every function-like node in it. -/
def Class.refill (how : Captures) : Class → Class
  | ⟨s, name, superClass, body, decorators, env⟩ =>
    ⟨s, name, Expr.refillOption how superClass, ClassElement.refillList how body,
      Decorator.refillList how decorators,
      { env with closure := how.classBody env (ClassElement.refillList how body) }⟩

/-- Refill every function-like node in a class element. -/
def ClassElement.refill (how : Captures) : ClassElement → ClassElement
  | .missing => .missing
  | .method s key computed static kind function decorators =>
    .method s (key.refill how) computed static kind (Function.refillOption how function)
      (Decorator.refillList how decorators)
  | .field s key computed static accessor initializer decorators =>
    .field s (key.refill how) computed static accessor (Expr.refillOption how initializer)
      (Decorator.refillList how decorators)
  | .staticBlock s body env =>
    .staticBlock s (Stmt.refillList how body)
      { env with closure := how.block env (Stmt.refillList how body) }

/-- Refill every function-like node in class elements. -/
def ClassElement.refillList (how : Captures) : List ClassElement → List ClassElement
  | [] => []
  | x :: rest => x.refill how :: ClassElement.refillList how rest

/-- Refill every function-like node in a decorator. -/
def Decorator.refill (how : Captures) : Decorator → Decorator
  | ⟨s, e⟩ => ⟨s, e.refill how⟩

/-- Refill every function-like node in decorators. -/
def Decorator.refillList (how : Captures) : List Decorator → List Decorator
  | [] => []
  | x :: rest => x.refill how :: Decorator.refillList how rest

/-- Refill every function-like node in a block. -/
def Block.refill (how : Captures) : Block → Block
  | ⟨s, body, scope⟩ => ⟨s, Stmt.refillList how body, scope⟩

/-- Refill every function-like node in a block that may be missing. -/
def Block.refillOption (how : Captures) : Option Block → Option Block
  | none => none
  | some b => some (b.refill how)

/-- Refill every function-like node in a declaration. -/
def VarDecl.refill (how : Captures) : VarDecl → VarDecl
  | ⟨s, kind, list⟩ => ⟨s, kind, Declarator.refillList how list⟩

/-- Refill every function-like node in a declarator. -/
def Declarator.refill (how : Captures) : Declarator → Declarator
  | ⟨s, target, initializer⟩ => ⟨s, target.refill how, Expr.refillOption how initializer⟩

/-- Refill every function-like node in declarators. -/
def Declarator.refillList (how : Captures) : List Declarator → List Declarator
  | [] => []
  | x :: rest => x.refill how :: Declarator.refillList how rest

/-- Refill every function-like node in a clause of a switch. -/
def CaseClause.refill (how : Captures) : CaseClause → CaseClause
  | ⟨s, test, consequent⟩ => ⟨s, Expr.refillOption how test, Stmt.refillList how consequent⟩

/-- Refill every function-like node in the clauses of a switch. -/
def CaseClause.refillList (how : Captures) : List CaseClause → List CaseClause
  | [] => []
  | x :: rest => x.refill how :: CaseClause.refillList how rest

/-- Refill every function-like node in a handler. -/
def CatchClause.refill (how : Captures) : CatchClause → CatchClause
  | ⟨s, param, body, scope⟩ => ⟨s, Pattern.refillOption how param, Stmt.refillList how body, scope⟩

/-- Refill every function-like node in a handler that may be missing. -/
def CatchClause.refillOption (how : Captures) : Option CatchClause → Option CatchClause
  | none => none
  | some c => some (c.refill how)

/-- Refill every function-like node in any node. -/
def Node.refill (how : Captures) : Node → Node
  | .program ⟨s, interpreter, directives, body, module, scope⟩ =>
    .program ⟨s, interpreter, directives, Stmt.refillList how body, module, scope⟩
  | .stmt s => .stmt (s.refill how)
  | .expr e => .expr (e.refill how)
  | .pattern p => .pattern (p.refill how)
  | .property p => .property (p.refill how)
  | .element e => .element (e.refill how)
  | .patternProperty p => .patternProperty (p.refill how)
  | .params p => .params (p.refill how)
  | .body b => .body (b.refill how)
  | .classElement e => .classElement (e.refill how)
  | .decorator d => .decorator (d.refill how)
  | .declarator d => .declarator (d.refill how)
  | .caseClause c => .caseClause (c.refill how)
  | .catchClause c => .catchClause (c.refill how)
  | n => n

/-- Refill every function-like node in nodes. -/
def Node.refillList (how : Captures) : List Node → List Node
  | [] => []
  | n :: rest => n.refill how :: Node.refillList how rest

/-- Refill every function-like node in the head of a loop that may be missing. -/
def Node.refillOption (how : Captures) : Option Node → Option Node
  | none => none
  | some n => some (n.refill how)

/-- Refill every function-like node in a statement. -/
def Stmt.refill (how : Captures) : Stmt → Stmt
  | .missing => .missing
  | .empty s => .empty s
  | .debugger s => .debugger s
  | .breakOff s label => .breakOff s label
  | .carryOn s label => .carryOn s label
  | .expression s e => .expression s (e.refill how)
  | .raise s e => .raise s (e.refill how)
  | .block b => .block (b.refill how)
  | .giveBack s argument => .giveBack s (Expr.refillOption how argument)
  | .labelled s label body => .labelled s label (body.refill how)
  | .branch s test consequent alternate =>
    .branch s (test.refill how) (consequent.refill how) (Stmt.refillOption how alternate)
  | .switch s discriminant cases scope =>
    .switch s (discriminant.refill how) (CaseClause.refillList how cases) scope
  | .guarded s main handler finalizer =>
    .guarded s (main.refill how) (CatchClause.refillOption how handler)
      (Block.refillOption how finalizer)
  | .whileLoop s test body => .whileLoop s (test.refill how) (body.refill how)
  | .doWhile s body test => .doWhile s (body.refill how) (test.refill how)
  | .forLoop s init test update body scope =>
    .forLoop s (Node.refillOption how init) (Expr.refillOption how test)
      (Expr.refillOption how update)
      (body.refill how) scope
  | .forIn s left right body scope =>
    .forIn s (left.refill how) (right.refill how) (body.refill how) scope
  | .forOf s left right body await scope =>
    .forOf s (left.refill how) (right.refill how) (body.refill how) await scope
  | .declaration d => .declaration (d.refill how)
  | .function s f => .function s (f.refill how)
  | .classDecl s c => .classDecl s (c.refill how)
  | .importDecl s specifiers source attributes =>
    .importDecl s (Node.refillList how specifiers) source attributes
  | .exportNamed s declared specifiers source attributes =>
    .exportNamed s (Stmt.refillOption how declared) specifiers source attributes
  | .exportDefault s declared => .exportDefault s (declared.refill how)
  | .exportAll s exported source attributes => .exportAll s exported source attributes

/-- Refill every function-like node in a statement that may be missing. -/
def Stmt.refillOption (how : Captures) : Option Stmt → Option Stmt
  | none => none
  | some s => some (s.refill how)

/-- Refill every function-like node in statements. -/
def Stmt.refillList (how : Captures) : List Stmt → List Stmt
  | [] => []
  | x :: rest => x.refill how :: Stmt.refillList how rest

end

/-- A program with the names that its function-like nodes capture found anew. -/
def Program.refill (how : Captures) (p : Program) : Program :=
  { p with body := Stmt.refillList how p.body }

/-- Resolve every function-like node of a program. -/
def Program.resolve (p : Program) : Program :=
  p.refill .free

/-- A program whose function-like nodes capture nothing. -/
def Program.cleared (p : Program) : Program :=
  p.refill .nothing

namespace Node

/-- What a function-like node knows of its surroundings. -/
def env? : Node → Option Env
  | .expr (.function f) => some f.env
  | .expr (.arrow _ _ _ _ _ env) => some env
  | .expr (.classExpr c) => some c.env
  | .classElement (.staticBlock _ _ env) => some env
  | _ => none

/-- The scope of a node that opens a lexical region and is no function-like node. -/
def scope? : Node → Option Scope
  | .program p => p.scope
  | .stmt (.block b) => b.scope
  | .stmt (.switch _ _ _ scope) | .stmt (.forLoop _ _ _ _ _ scope) | .stmt (.forIn _ _ _ _ scope)
  | .stmt (.forOf _ _ _ _ _ scope) => scope
  | .catchClause c => c.scope
  | _ => none

end Node

/-- The names each function-like node of a program captures, for the nodes in order of the
source. -/
def Program.closures (p : Program) : List (List String) :=
  (Node.program p).walk.filterMap fun n => n.env?.map Env.closure

end EcmaStack
