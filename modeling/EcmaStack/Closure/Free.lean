import EcmaStack.Tree.Basic

/-!
# Free names

The names a piece of a tree refers to and does not bind, in order of the source. A nested
function-like node is not entered: the names it captures stand for it.

A name is looked up from the scope in force where it stands, out to the scope of the function
around it. The scope in force differs from the scope in which nested functions are made in one
place: the decorators of a named class see the class's name, but a function in a decorator is
made outside the scope of that name. `Place` keeps both. The name `arguments` is never free.
-/

namespace EcmaStack

/-- Where a name stands: the chain of scopes it is looked up in, and the chain in which a
function written here is made. -/
structure Place where
  here : List Scope
  home : List Scope

namespace Place

/-- The place directly inside a scope. -/
def inside (s : Scope) (p : Place) : Place :=
  ⟨s :: p.home, s :: p.home⟩

/-- The place inside a scope that may be missing. -/
def enter (s : Option Scope) (p : Place) : Place :=
  match s with
  | some s => p.inside s
  | none => p

/-- A reference to a name: the name itself where it is free, else nothing. -/
def reference (p : Place) (name : String) : List String :=
  if name == "arguments" || Scope.binds name p.here then [] else [name]

/-- A reference to a name that may be missing. -/
def referenceOption (p : Place) (name : Option Name) : List String :=
  name.toList.flatMap fun n => p.reference n.text

/-- The place from which what a function-like node captures is looked up. -/
def outside (p : Place) (env : Env) : Place :=
  match env.nameScope, env.scope with
  | some s, _ => p.inside s
  | none, some _ => ⟨p.home, p.home⟩
  | none, none => p

/-- The names a nested function-like node captures that are free here too. -/
def capture (p : Place) (env : Env) : List String :=
  env.closure.flatMap (p.outside env).reference

/-- The place of a class's decorators. -/
def decorators (p : Place) (env : Env) : Place :=
  match env.nameScope with
  | some s => ⟨s :: p.home, p.home⟩
  | none => p

/-- The place of what a class extends. -/
def heritage (p : Place) (env : Env) : Place :=
  p.enter env.nameScope

end Place

mutual

/-- The free names of an expression. -/
def Expr.free (p : Place) : Expr → List String
  | .identifier n => p.reference n.text
  | .missing | .privateName _ | .nullLiteral _ | .boolean _ _ | .number _ _ _ | .bigint _ _ _
  | .string _ | .regexp _ _ _ _ | .thisRef _ | .superRef _ | .metaProperty _ _ _ => []
  | .template t => Template.free p t
  | .tagged _ tag quasi => tag.free p ++ Template.free p quasi
  | .array _ elements => Expr.freeList p elements
  | .object _ properties => Property.freeList p properties
  | .spread _ e | .paren _ e | .unary _ _ e | .await _ e | .update _ _ e _ => e.free p
  | .call _ callee args _ | .construct _ callee args => callee.free p ++ Expr.freeList p args
  | .member _ base property computed _ => base.free p ++ if computed then property.free p else []
  | .importCall _ source options => source.free p ++ Expr.freeOption p options
  | .binary _ _ left right => left.free p ++ right.free p
  | .conditional _ test consequent alternate => test.free p ++ consequent.free p ++ alternate.free p
  | .assign _ _ target value => target.free p ++ value.free p
  | .yield _ argument _ => Expr.freeOption p argument
  | .function f => Function.free p f
  | .arrow _ _ _ _ _ env => p.capture env
  | .classExpr c => Class.free p c

/-- The free names of a template, which has one text more than expressions. -/
def Template.free (p : Place) : Template → List String
  | ⟨_, _, expressions⟩ => Expr.freeList p expressions

/-- The free names of expressions. -/
def Expr.freeList (p : Place) : List Expr → List String
  | [] => []
  | e :: rest => e.free p ++ Expr.freeList p rest

/-- The free names of an expression that may be missing. -/
def Expr.freeOption (p : Place) : Option Expr → List String
  | none => []
  | some e => e.free p

/-- The free names of a property. -/
def Property.free (p : Place) : Property → List String
  | .missing => []
  | .keyed _ key computed _ value => (if computed then key.free p else []) ++ value.free p
  | .short _ n => p.referenceOption n
  | .spread _ e => e.free p

/-- The free names of properties. -/
def Property.freeList (p : Place) : List Property → List String
  | [] => []
  | x :: rest => x.free p ++ Property.freeList p rest

/-- The free names of a pattern: its targets and defaults. -/
def Pattern.free (p : Place) : Pattern → List String
  | .target e => e.free p
  | .array _ elements rest => Element.freeList p elements ++ Pattern.freeOption p rest
  | .object _ properties rest => PatternProperty.freeList p properties ++ Pattern.freeOption p rest

/-- The free names of a pattern that may be missing. -/
def Pattern.freeOption (p : Place) : Option Pattern → List String
  | none => []
  | some x => x.free p

/-- The free names of an element. -/
def Element.free (p : Place) : Element → List String
  | .hole => []
  | .bound _ target fallback => target.free p ++ Expr.freeOption p fallback

/-- The free names of elements. -/
def Element.freeList (p : Place) : List Element → List String
  | [] => []
  | x :: rest => x.free p ++ Element.freeList p rest

/-- The free names of a pattern's property. -/
def PatternProperty.free (p : Place) : PatternProperty → List String
  | ⟨_, key, computed, value, fallback, _⟩ =>
    (if computed then key.free p else []) ++ value.free p ++ Expr.freeOption p fallback

/-- The free names of a pattern's properties. -/
def PatternProperty.freeList (p : Place) : List PatternProperty → List String
  | [] => []
  | x :: rest => x.free p ++ PatternProperty.freeList p rest

/-- The free names of a nested function. -/
def Function.free (p : Place) : Function → List String
  | ⟨_, _, _, _, _, _, env⟩ => p.capture env

/-- The free names of a nested class: its decorators, what it extends, and what its body
captures. -/
def Class.free (p : Place) : Class → List String
  | ⟨_, _, superClass, _, decorators, env⟩ =>
    Decorator.freeList (p.decorators env) decorators ++
      Expr.freeOption (p.heritage env) superClass ++ p.capture env

/-- The free names of a decorator. -/
def Decorator.free (p : Place) : Decorator → List String
  | ⟨_, e⟩ => e.free p

/-- The free names of decorators. -/
def Decorator.freeList (p : Place) : List Decorator → List String
  | [] => []
  | d :: rest => d.free p ++ Decorator.freeList p rest

/-- The free names of a block. -/
def Block.free (p : Place) : Block → List String
  | ⟨_, body, scope⟩ => Stmt.freeList (p.enter scope) body

/-- The free names of a block that may be missing. -/
def Block.freeOption (p : Place) : Option Block → List String
  | none => []
  | some b => b.free p

/-- The free names of a declaration. -/
def VarDecl.free (p : Place) : VarDecl → List String
  | ⟨_, _, list⟩ => Declarator.freeList p list

/-- The free names of a declarator. -/
def Declarator.free (p : Place) : Declarator → List String
  | ⟨_, target, initializer⟩ => target.free p ++ Expr.freeOption p initializer

/-- The free names of declarators. -/
def Declarator.freeList (p : Place) : List Declarator → List String
  | [] => []
  | d :: rest => d.free p ++ Declarator.freeList p rest

/-- The free names of a clause of a switch. -/
def CaseClause.free (p : Place) : CaseClause → List String
  | ⟨_, test, consequent⟩ => Expr.freeOption p test ++ Stmt.freeList p consequent

/-- The free names of the clauses of a switch. -/
def CaseClause.freeList (p : Place) : List CaseClause → List String
  | [] => []
  | c :: rest => c.free p ++ CaseClause.freeList p rest

/-- The free names of a handler. -/
def CatchClause.free (p : Place) : CatchClause → List String
  | ⟨_, param, body, scope⟩ =>
    Pattern.freeOption (p.enter scope) param ++ Stmt.freeList (p.enter scope) body

/-- The free names of a handler that may be missing. -/
def CatchClause.freeOption (p : Place) : Option CatchClause → List String
  | none => []
  | some c => c.free p

/-- The free names of a node that stands as the head of a loop or as the default of a module. -/
def Node.free (p : Place) : Node → List String
  | .stmt s => s.free p
  | .expr e => e.free p
  | .pattern x => x.free p
  | _ => []

/-- The free names of the head of a loop that may be missing. -/
def Node.freeOption (p : Place) : Option Node → List String
  | none => []
  | some n => n.free p

/-- The free names of a statement. -/
def Stmt.free (p : Place) : Stmt → List String
  | .missing | .empty _ | .debugger _ | .breakOff _ _ | .carryOn _ _ | .importDecl _ _ _ _
  | .exportAll _ _ _ _ => []
  | .expression _ e | .raise _ e => e.free p
  | .block b => b.free p
  | .giveBack _ argument => Expr.freeOption p argument
  | .labelled _ _ body => body.free p
  | .branch _ test consequent alternate =>
    test.free p ++ consequent.free p ++ Stmt.freeOption p alternate
  | .switch _ discriminant cases scope =>
    discriminant.free p ++ CaseClause.freeList (p.enter scope) cases
  | .guarded _ main handler finalizer =>
    main.free p ++ CatchClause.freeOption p handler ++ Block.freeOption p finalizer
  | .whileLoop _ test body => test.free p ++ body.free p
  | .doWhile _ body test => body.free p ++ test.free p
  | .forLoop _ init test update body scope =>
    Node.freeOption (p.enter scope) init ++ Expr.freeOption (p.enter scope) test ++
      Expr.freeOption (p.enter scope) update ++ body.free (p.enter scope)
  | .forIn _ left right body scope | .forOf _ left right body _ scope =>
    left.free (p.enter scope) ++ right.free (p.enter scope) ++ body.free (p.enter scope)
  | .declaration d => d.free p
  | .function _ f => Function.free p f
  | .classDecl _ c => Class.free p c
  | .exportNamed _ declared specifiers _ _ =>
    Stmt.freeOption p declared ++ specifiers.flatMap fun s => p.referenceOption s.inner
  | .exportDefault _ declared => declared.free p

/-- The free names of a statement that may be missing. -/
def Stmt.freeOption (p : Place) : Option Stmt → List String
  | none => []
  | some s => s.free p

/-- The free names of statements. -/
def Stmt.freeList (p : Place) : List Stmt → List String
  | [] => []
  | s :: rest => s.free p ++ Stmt.freeList p rest

end

/-- The free names of a parameter list. -/
def Params.free (p : Place) : Params → List String
  | .missing => []
  | .list _ items rest => Element.freeList p items ++ Pattern.freeOption p rest

/-- The free names of a body. -/
def Body.free (p : Place) : Body → List String
  | .missing => []
  | .block _ _ items => Stmt.freeList p items

/-- The free names of what an arrow function does: its statements, and only without them its
expression. -/
def Body.freeOrValue (p : Place) (body : Body) (value : Option Expr) : List String :=
  if body.isMissing then Expr.freeOption p value else body.free p

/-- The free names of a class element, seen from inside the class. -/
def ClassElement.free (p : Place) : ClassElement → List String
  | .missing => []
  | .method _ key computed _ _ function decorators =>
    Decorator.freeList p decorators ++
      (if computed then key.free p else []) ++ function.toList.flatMap fun f => p.capture f.env
  | .field _ key computed _ _ initializer decorators =>
    Decorator.freeList p decorators ++
      (if computed then key.free p else []) ++ Expr.freeOption p initializer
  | .staticBlock _ _ env => p.capture env

/-- The place right inside a function-like node. -/
def Env.place (env : Env) : Place :=
  Place.enter env.scope ⟨[], []⟩

/-- What a function captures; an arrow function may have an expression in place of statements. -/
def closureOfFunction (env : Env) (params : Params) (body : Body) (value : Option Expr) :
    List String :=
  (params.free env.place ++ body.freeOrValue env.place value).eraseDups

/-- What the body of a class captures. What it extends and its decorators belong to the
surroundings. -/
def closureOfClass (env : Env) (elements : List ClassElement) : List String :=
  (elements.flatMap (ClassElement.free env.place)).eraseDups

/-- What a static block captures. -/
def closureOfBlock (env : Env) (body : List Stmt) : List String :=
  (Stmt.freeList env.place body).eraseDups

end EcmaStack
