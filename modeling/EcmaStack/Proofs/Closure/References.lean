import EcmaStack.Closure.Free

/-!
# References

Every identifier in reference position below a function-like node, at any
depth, with the scopes in force around it: its static scope first, then the
scopes around that one, up to the scope of the node it is seen from. Nested
function-like nodes are entered, and what they capture plays no part.

The scopes in force are those the grammar opened around the text, as in
`Node.inner`: the decorators of a class stand outside of it, what it extends
stands in the scope of its name, and its elements in the scope of its body. A
pattern is told whether it binds: the targets of a declaration, a parameter list
or a handler introduce names, and only their defaults and computed keys refer to
any.

A reference in the decorators of a named class also carries the scope of that
name, which is *not* in force there. Names in decorators are looked up in it all
the same, so a class hides its own name from its decorators; this is the one
place where what is captured falls short of what is unbound.
-/

namespace EcmaStack

/-- A name that is referred to, with the scopes in force at the reference,
innermost first, and the scope that holds the name of the class in whose
decorators the reference stands. -/
structure NameReference where
  name : String
  chain : List Scope
  ahead : Option Scope
  deriving DecidableEq

namespace NameReference

/-- No scope in force at the reference declares the name. -/
def IsUnbound (r : NameReference) : Prop :=
  ∀ s ∈ r.chain, s.declares r.name = false

/-- The reference is no decorator's reference to the name of the decorated
class. -/
def IsApart (r : NameReference) : Prop :=
  ∀ s ∈ r.ahead, s.declares r.name = false

/-- The reference seen from further out. -/
def outward (outer : List Scope) (r : NameReference) : NameReference :=
  { r with chain := r.chain ++ outer }

end NameReference

/-- Where a piece of a tree stands: the scopes in force there, innermost first,
and, directly inside the decorators of a named class, the scope that is about to
be opened for the name. -/
structure Standing where
  chain : List Scope
  ahead : Option Scope

namespace Standing

/-- Where no class is about to be opened. -/
def plain (chain : List Scope) : Standing :=
  ⟨chain, none⟩

/-- Inside a scope that may be missing. -/
def enter (w : Standing) : Option Scope → Standing
  | some s => plain (s :: w.chain)
  | none => w

/-- Inside the decorators of a class. -/
def decorators (w : Standing) (env : Env) : Standing :=
  match env.nameScope with
  | some s => ⟨w.chain, some s⟩
  | none => w

/-- What is referred to by a name that may be missing. -/
def references (w : Standing) (name : Option Name) : List NameReference :=
  name.toList.map fun n => ⟨n.text, w.chain, w.ahead⟩

/-- The references inside a function-like node, seen from around it. -/
def around (w : Standing) (env : Env) (inner : List NameReference) : List NameReference :=
  inner.map (.outward (env.nameScope.toList ++ w.chain))

end Standing

/-- Right inside a function-like node. -/
def Env.standing (env : Env) : Standing :=
  .plain env.scope.toList

mutual

/-- The references in an expression. -/
def Expr.references (w : Standing) : Expr → List NameReference
  | .identifier n => w.references (some n)
  | .missing | .privateName _ | .nullLiteral _ | .boolean _ _ | .number _ _ _ | .bigint _ _ _
  | .string _ | .regexp _ _ _ _ | .thisRef _ | .superRef _ | .metaProperty _ _ _ => []
  | .template t => Template.references w t
  | .tagged _ tag quasi => tag.references w ++ Template.references w quasi
  | .array _ elements => Expr.referencesList w elements
  | .object _ properties => Property.referencesList w properties
  | .spread _ e | .paren _ e | .unary _ _ e | .await _ e | .update _ _ e _ => e.references w
  | .call _ callee args _ | .construct _ callee args =>
    callee.references w ++ Expr.referencesList w args
  | .member _ base property computed _ =>
    base.references w ++ if computed then property.references w else []
  | .importCall _ source options => source.references w ++ Expr.referencesOption w options
  | .binary _ _ left right => left.references w ++ right.references w
  | .conditional _ test consequent alternate =>
    test.references w ++ consequent.references w ++ alternate.references w
  | .assign _ _ target value => target.references w false ++ value.references w
  | .yield _ argument _ => Expr.referencesOption w argument
  | .function f => w.around f.env f.inner
  | .arrow _ params body value _ env =>
    w.around env (params.references env.standing ++
      if body.isMissing then Expr.referencesOption env.standing value
      else body.references env.standing)
  | .classExpr c => Class.references w c

/-- The references in a template. -/
def Template.references (w : Standing) : Template → List NameReference
  | ⟨_, _, expressions⟩ => Expr.referencesList w expressions

/-- The references in expressions. -/
def Expr.referencesList (w : Standing) : List Expr → List NameReference
  | [] => []
  | e :: rest => e.references w ++ Expr.referencesList w rest

/-- The references in an expression that may be missing. -/
def Expr.referencesOption (w : Standing) : Option Expr → List NameReference
  | none => []
  | some e => e.references w

/-- The references in a property. -/
def Property.references (w : Standing) : Property → List NameReference
  | .missing => []
  | .keyed _ key computed _ value =>
    (if computed then key.references w else []) ++ value.references w
  | .short _ n => w.references n
  | .spread _ e => e.references w

/-- The references in properties. -/
def Property.referencesList (w : Standing) : List Property → List NameReference
  | [] => []
  | x :: rest => x.references w ++ Property.referencesList w rest

/-- The references in a pattern. An identifier that is bound is none. -/
def Pattern.references (w : Standing) (binding : Bool) : Pattern → List NameReference
  | .target (.identifier n) => if binding then [] else w.references (some n)
  | .target e => e.references w
  | .array _ elements rest =>
    Element.referencesList w binding elements ++ Pattern.referencesOption w binding rest
  | .object _ properties rest =>
    PatternProperty.referencesList w binding properties ++ Pattern.referencesOption w binding rest

/-- The references in a pattern that may be missing. -/
def Pattern.referencesOption (w : Standing) (binding : Bool) : Option Pattern → List NameReference
  | none => []
  | some x => x.references w binding

/-- The references in an element. -/
def Element.references (w : Standing) (binding : Bool) : Element → List NameReference
  | .hole => []
  | .bound _ target fallback => target.references w binding ++ Expr.referencesOption w fallback

/-- The references in elements. -/
def Element.referencesList (w : Standing) (binding : Bool) : List Element → List NameReference
  | [] => []
  | x :: rest => x.references w binding ++ Element.referencesList w binding rest

/-- The references in a pattern's property. -/
def PatternProperty.references (w : Standing) (binding : Bool) :
    PatternProperty → List NameReference
  | ⟨_, key, computed, value, fallback, _⟩ =>
    (if computed then key.references w else []) ++ value.references w binding ++
      Expr.referencesOption w fallback

/-- The references in a pattern's properties. -/
def PatternProperty.referencesList (w : Standing) (binding : Bool) :
    List PatternProperty → List NameReference
  | [] => []
  | x :: rest => x.references w binding ++ PatternProperty.referencesList w binding rest

/-- The references in a parameter list. -/
def Params.references (w : Standing) : Params → List NameReference
  | .missing => []
  | .list _ items rest =>
    Element.referencesList w true items ++ Pattern.referencesOption w true rest

/-- The references in a body. -/
def Body.references (w : Standing) : Body → List NameReference
  | .missing => []
  | .block _ _ items => Stmt.referencesList w items

/-- The references inside a function, seen from its scope. -/
def Function.inner : Function → List NameReference
  | ⟨_, _, params, body, _, _, env⟩ =>
    params.references env.standing ++ body.references env.standing

/-- The references in a function that may be missing, seen from around it. -/
def Function.referencesOption (w : Standing) : Option Function → List NameReference
  | none => []
  | some f => w.around f.env f.inner

/-- The references in a class. What it extends stands in the scope of its name,
its decorators do not. -/
def Class.references (w : Standing) : Class → List NameReference
  | ⟨_, _, superClass, body, decorators, env⟩ =>
    Decorator.referencesList (w.decorators env) decorators ++
      Expr.referencesOption (w.enter env.nameScope) superClass ++
      w.around env (ClassElement.referencesList env.standing body)

/-- The references in a class element, seen from inside the class. -/
def ClassElement.references (w : Standing) : ClassElement → List NameReference
  | .missing => []
  | .method _ key computed _ _ function decorators =>
    Decorator.referencesList w decorators ++ (if computed then key.references w else []) ++
      Function.referencesOption w function
  | .field _ key computed _ _ initializer decorators =>
    Decorator.referencesList w decorators ++ (if computed then key.references w else []) ++
      Expr.referencesOption w initializer
  | .staticBlock _ body env => w.around env (Stmt.referencesList env.standing body)

/-- The references in class elements. -/
def ClassElement.referencesList (w : Standing) : List ClassElement → List NameReference
  | [] => []
  | x :: rest => x.references w ++ ClassElement.referencesList w rest

/-- The references in a decorator. -/
def Decorator.references (w : Standing) : Decorator → List NameReference
  | ⟨_, e⟩ => e.references w

/-- The references in decorators. -/
def Decorator.referencesList (w : Standing) : List Decorator → List NameReference
  | [] => []
  | d :: rest => d.references w ++ Decorator.referencesList w rest

/-- The references in a block. -/
def Block.references (w : Standing) : Block → List NameReference
  | ⟨_, body, scope⟩ => Stmt.referencesList (w.enter scope) body

/-- The references in a block that may be missing. -/
def Block.referencesOption (w : Standing) : Option Block → List NameReference
  | none => []
  | some b => b.references w

/-- The references in a declaration. -/
def VarDecl.references (w : Standing) : VarDecl → List NameReference
  | ⟨_, _, list⟩ => Declarator.referencesList w list

/-- The references in a declarator. -/
def Declarator.references (w : Standing) : Declarator → List NameReference
  | ⟨_, target, initializer⟩ => target.references w true ++ Expr.referencesOption w initializer

/-- The references in declarators. -/
def Declarator.referencesList (w : Standing) : List Declarator → List NameReference
  | [] => []
  | d :: rest => d.references w ++ Declarator.referencesList w rest

/-- The references in a clause of a switch. -/
def CaseClause.references (w : Standing) : CaseClause → List NameReference
  | ⟨_, test, consequent⟩ => Expr.referencesOption w test ++ Stmt.referencesList w consequent

/-- The references in the clauses of a switch. -/
def CaseClause.referencesList (w : Standing) : List CaseClause → List NameReference
  | [] => []
  | c :: rest => c.references w ++ CaseClause.referencesList w rest

/-- The references in a handler. -/
def CatchClause.references (w : Standing) : CatchClause → List NameReference
  | ⟨_, param, body, scope⟩ =>
    Pattern.referencesOption (w.enter scope) true param ++ Stmt.referencesList (w.enter scope) body

/-- The references in a handler that may be missing. -/
def CatchClause.referencesOption (w : Standing) : Option CatchClause → List NameReference
  | none => []
  | some c => c.references w

/-- The references in a node that stands as the head of a loop or as the default of a module. -/
def Node.references (w : Standing) : Node → List NameReference
  | .stmt s => s.references w
  | .expr e => e.references w
  | .pattern x => x.references w false
  | _ => []

/-- The references in the head of a loop that may be missing. -/
def Node.referencesOption (w : Standing) : Option Node → List NameReference
  | none => []
  | some n => n.references w

/-- The references in a statement. -/
def Stmt.references (w : Standing) : Stmt → List NameReference
  | .missing | .empty _ | .debugger _ | .breakOff _ _ | .carryOn _ _ | .importDecl _ _ _ _
  | .exportAll _ _ _ _ => []
  | .expression _ e | .raise _ e => e.references w
  | .block b => b.references w
  | .giveBack _ argument => Expr.referencesOption w argument
  | .labelled _ _ body => body.references w
  | .branch _ test consequent alternate =>
    test.references w ++ consequent.references w ++ Stmt.referencesOption w alternate
  | .switch _ discriminant cases scope =>
    discriminant.references w ++ CaseClause.referencesList (w.enter scope) cases
  | .guarded _ main handler finalizer =>
    main.references w ++ CatchClause.referencesOption w handler ++
      Block.referencesOption w finalizer
  | .whileLoop _ test body => test.references w ++ body.references w
  | .doWhile _ body test => body.references w ++ test.references w
  | .forLoop _ init test update body scope =>
    Node.referencesOption (w.enter scope) init ++ Expr.referencesOption (w.enter scope) test ++
      Expr.referencesOption (w.enter scope) update ++ body.references (w.enter scope)
  | .forIn _ left right body scope | .forOf _ left right body _ scope =>
    left.references (w.enter scope) ++ right.references (w.enter scope) ++
      body.references (w.enter scope)
  | .declaration d => d.references w
  | .function _ f => w.around f.env f.inner
  | .classDecl _ c => Class.references w c
  | .exportNamed _ declared specifiers _ _ =>
    Stmt.referencesOption w declared ++ specifiers.flatMap fun s => w.references s.inner
  | .exportDefault _ declared => declared.references w

/-- The references in a statement that may be missing. -/
def Stmt.referencesOption (w : Standing) : Option Stmt → List NameReference
  | none => []
  | some s => s.references w

/-- The references in statements. -/
def Stmt.referencesList (w : Standing) : List Stmt → List NameReference
  | [] => []
  | s :: rest => s.references w ++ Stmt.referencesList w rest

end

/-- The references inside a function-like node, seen from its scope: of a function those in its
parameters and its body, of a class those in its elements. -/
def Node.innerReferences : Node → List NameReference
  | .expr (.function f) => f.inner
  | .expr (.arrow _ ps b value _ env) =>
    ps.references env.standing ++ if b.isMissing then Expr.referencesOption env.standing value
      else b.references env.standing
  | .expr (.classExpr c) => ClassElement.referencesList c.env.standing c.body
  | .classElement (.staticBlock _ items env) => Stmt.referencesList env.standing items
  | _ => []

end EcmaStack
