import EcmaStack.Closure.Free
import EcmaStack.Lowering.Access
import EcmaStack.Proofs.Scope.Growth
import EcmaStack.Proofs.Tree.Resolved
import EcmaStack.Tree.Basic

/-!
# Trees as the grammar makes them

A tree is **grammatical** when it is put together as a tree that was read is: each `break` and
`continue` names an exit that is open where it stands, each construct that opens a scope carries
it, with the kind that belongs to the construct, each name that is bound is declared in the
scopes around it, and each function-like node captures what is free in it.

Statements stand in a chain of scopes, innermost first, which ends with the scope of the
function around them: that is as far as names are looked up when a function is closed.
Expressions need no chain, for the only names they bind belong to the functions and classes in
them.
-/

namespace EcmaStack

open Scope (BindsAll)

/-- The scope a function-like node opens, inside the scope of its own name if it has one. -/
structure Env.Opens (env : Env) (scope : Scope) : Prop where
  scope_eq : env.scope = some scope
  kind : scope.kind = .function
  nameKind : ∀ s ∈ env.nameScope, s.kind = .block

/-- A function that was read declares its parameters in its scope and captures what is free in
it. -/
structure Env.Encloses (env : Env) (scope : Scope) (params : Params) (body : Body)
    (value : Option Expr) : Prop
    extends env.Opens scope where
  declares : BindsAll [scope] params.boundNames
  captures : env.closure = closureOfFunction env params body value

mutual

/-- Expressions as the grammar makes them. -/
inductive Expr.Grammatical : Bool → Expr → Prop where
  | atom {calls e} : e.isAtom = true → Expr.Grammatical calls e
  | template {calls t} : (∀ e ∈ t.expressions, Expr.Grammatical calls e) →
    Expr.Grammatical calls (.template t)
  | tagged {calls span tag quasi} : Expr.Grammatical calls tag →
    (∀ e ∈ quasi.expressions, Expr.Grammatical calls e) →
      Expr.Grammatical calls (.tagged span tag quasi)
  | array {calls span elements} : (∀ e ∈ elements, Expr.Grammatical calls e) →
      Expr.Grammatical calls (.array span elements)
  | object {calls span properties} : (∀ p ∈ properties, Property.Grammatical calls p) →
      Expr.Grammatical calls (.object span properties)
  | spread {calls span e} : Expr.Grammatical calls e → Expr.Grammatical calls (.spread span e)
  | paren {calls span e} : Expr.Grammatical calls e → Expr.Grammatical calls (.paren span e)
  | call {calls span callee arguments optional} : (callee.isSuper = true → calls = true) →
      Expr.Grammatical calls callee → (∀ e ∈ arguments, Expr.Grammatical calls e) →
      Expr.Grammatical calls (.call span callee arguments optional)
  | construct {calls span callee arguments} : Expr.Grammatical calls callee →
      (∀ e ∈ arguments, Expr.Grammatical calls e) →
        Expr.Grammatical calls (.construct span callee arguments)
  | member {calls span base property computed optional} : Expr.Grammatical calls base →
      Expr.Grammatical calls property →
        Expr.Grammatical calls (.member span base property computed optional)
  | importCall {calls span source options} : Expr.Grammatical calls source →
      (∀ e ∈ options, Expr.Grammatical calls e) →
        Expr.Grammatical calls (.importCall span source options)
  | unary {calls span op e} : Expr.Grammatical calls e → Expr.Grammatical calls (.unary span op e)
  | await {calls span e} : Expr.Grammatical calls e → Expr.Grammatical calls (.await span e)
  | update {calls span op e before} : Expr.Grammatical calls e →
    Expr.Grammatical calls (.update span op e before)
  | binary {calls span op left right} : Expr.Grammatical calls left → Expr.Grammatical calls right →
      Expr.Grammatical calls (.binary span op left right)
  | conditional {calls span test consequent alternate} : Expr.Grammatical calls test →
      Expr.Grammatical calls consequent → Expr.Grammatical calls alternate →
      Expr.Grammatical calls (.conditional span test consequent alternate)
  | assign {calls span op target value} : Pattern.Grammatical calls target →
    Expr.Grammatical calls value →
      Expr.Grammatical calls (.assign span op target value)
  | yield {calls span argument delegate} : (∀ e ∈ argument, Expr.Grammatical calls e) →
      Expr.Grammatical calls (.yield span argument delegate)
  | function {calls own f} : (own = true → calls = true) → Function.Grammatical own f →
      Expr.Grammatical calls (.function f)
  | arrow {calls span params body value async env scope} : env.Encloses scope params body value →
      Params.Grammatical calls params → Body.Grammatical calls [scope] body →
      (∀ e ∈ value, Expr.Grammatical calls e) →
        Expr.Grammatical calls (.arrow span params body value async env)
  | classExpr {calls c} : Class.Grammatical calls c → Expr.Grammatical calls (.classExpr c)

/-- A property of an object: what it holds is grammatical with the calls of its
surroundings. -/
inductive Property.Grammatical : Bool → Property → Prop where
  | keyed {calls span key computed kind value} : Expr.Grammatical calls key →
    Expr.Grammatical calls value →
      Property.Grammatical calls (.keyed span key computed kind value)
  | short {calls span name} : Property.Grammatical calls (.short span name)
  | spread {calls span e} : Expr.Grammatical calls e → Property.Grammatical calls (.spread span e)

/-- Patterns as the grammar makes them. Whether a pattern binds names or assigns to targets
depends on where it stands. -/
inductive Pattern.Grammatical : Bool → Pattern → Prop where
  | target {calls e} : Expr.Grammatical calls e → Pattern.Grammatical calls (.target e)
  | array {calls span elements rest} : (∀ e ∈ elements, Element.Grammatical calls e) →
      (∀ p ∈ rest, Pattern.Grammatical calls p) →
        Pattern.Grammatical calls (.array span elements rest)
  | object {calls span properties rest} : (∀ p ∈ properties, PatternProperty.Grammatical calls p) →
      (∀ p ∈ rest, Pattern.Grammatical calls p) →
        Pattern.Grammatical calls (.object span properties rest)

/-- An element of an array pattern. -/
inductive Element.Grammatical : Bool → Element → Prop where
  | hole {calls} : Element.Grammatical calls .hole
  | bound {calls span target fallback} : Pattern.Grammatical calls target →
      (∀ e ∈ fallback, Expr.Grammatical calls e) →
        Element.Grammatical calls (.bound span target fallback)

/-- A property of an object pattern, whose key is an expression. -/
inductive PatternProperty.Grammatical : Bool → PatternProperty → Prop where
  | mk {calls span key computed value fallback shorthand} : Expr.Grammatical calls key →
      Pattern.Grammatical calls value → (∀ e ∈ fallback, Expr.Grammatical calls e) →
      PatternProperty.Grammatical calls ⟨span, key, computed, value, fallback, shorthand⟩

/-- The parameters of a function, which are read as an array pattern. -/
inductive Params.Grammatical : Bool → Params → Prop where
  | list {calls span items rest} : (∀ e ∈ items, Element.Grammatical calls e) →
      (∀ p ∈ rest, Pattern.Grammatical calls p) → Params.Grammatical calls (.list span items rest)

/-- Bodies of functions, in the chain of the function's scope. No exits lead into them. -/
inductive Body.Grammatical : Bool → List Scope → Body → Prop where
  | missing {calls chain} : Body.Grammatical calls chain .missing
  | block {calls chain span directives items} :
    (∀ b ∈ items, Stmt.Grammatical calls .none chain b) →
      Body.Grammatical calls chain (.block span directives items)

/-- A function that may call the superclass's constructor or not. Its scope is a
function's, and the body knows no other. -/
inductive Function.Grammatical : Bool → Function → Prop where
  | mk {calls span name params body async generator env scope} :
    env.Encloses scope params body none →
      Params.Grammatical calls params → Body.Grammatical calls [scope] body →
      Function.Grammatical calls ⟨span, name, params, body, async, generator, env⟩

/-- A class. Having a superclass is what lets its constructor call that one's. -/
inductive Class.Grammatical : Bool → Class → Prop where
  | mk {calls span name superClass body decorators env scope} : env.Opens scope →
      env.closure = closureOfClass env body → (∀ e ∈ superClass, Expr.Grammatical calls e) →
      (∀ e ∈ body, ClassElement.Grammatical superClass.isSome e) →
      (∀ d ∈ decorators, Expr.Grammatical calls d.expression) →
      Class.Grammatical calls ⟨span, name, superClass, body, decorators, env⟩

/-- Elements of classes that are derived or not. Only in the constructor of a derived class may
the superclass's constructor be called. -/
inductive ClassElement.Grammatical : Bool → ClassElement → Prop where
  | method {derived calls span key computed static kind function decorators} :
      (calls = true → derived = true ∧ kind = .constructor) → Expr.Grammatical false key →
      (∀ f ∈ function, Function.Grammatical calls f) →
        (∀ d ∈ decorators, Expr.Grammatical false d.expression) →
      ClassElement.Grammatical derived (.method span key computed static kind function decorators)
  | field {derived span key computed static accessor initializer decorators} :
    Expr.Grammatical false key →
      (∀ e ∈ initializer, Expr.Grammatical false e) →
        (∀ d ∈ decorators, Expr.Grammatical false d.expression) →
      ClassElement.Grammatical derived (.field span key computed static accessor initializer
        decorators)
  | staticBlock {derived span body env scope} : env.Opens scope → env.closure =
    closureOfBlock env body →
      (∀ b ∈ body, Stmt.Grammatical false .none [scope] b) →
      ClassElement.Grammatical derived (.staticBlock span body env)

/-- Blocks, with what stands in them inside their scope. -/
inductive Block.Grammatical : Bool → Exits → List Scope → Block → Prop where
  | mk {calls exits chain span body scope} : scope.kind = .block →
      (∀ b ∈ body, Stmt.Grammatical calls exits (scope :: chain) b) →
      Block.Grammatical calls exits chain ⟨span, body, some scope⟩

/-- Declarations of names that the chain binds. -/
inductive VarDecl.Grammatical : Bool → List Scope → VarDecl → Prop where
  | mk {calls chain span kind list} : (∀ d ∈ list, BindsAll chain d.target.boundNames) →
      (∀ d ∈ list, Pattern.Grammatical calls d.target) →
      (∀ d ∈ list, ∀ e ∈ d.initializer, Expr.Grammatical calls e) →
        VarDecl.Grammatical calls chain ⟨span, kind, list⟩

/-- Handlers of exceptions, whose scope holds the parameter and the statements. -/
inductive CatchClause.Grammatical : Bool → Exits → List Scope → CatchClause → Prop where
  | mk {calls exits chain span param body scope} : scope.kind = .block →
      (∀ p ∈ param, BindsAll (scope :: chain) p.boundNames) →
        (∀ p ∈ param, Pattern.Grammatical calls p) →
      (∀ b ∈ body, Stmt.Grammatical calls exits (scope :: chain) b) →
      CatchClause.Grammatical calls exits chain ⟨span, param, body, some scope⟩

/-- Statements whose jumps lead to one of the given exits or to an exit of their own, and whose
names the given chain binds. -/
inductive Stmt.Grammatical : Bool → Exits → List Scope → Stmt → Prop where
  | empty {calls exits chain span} : Stmt.Grammatical calls exits chain (.empty span)
  | debugger {calls exits chain span} : Stmt.Grammatical calls exits chain (.debugger span)
  | expression {calls exits chain span e} : Expr.Grammatical calls e →
      Stmt.Grammatical calls exits chain (.expression span e)
  | block {calls exits chain b} : Block.Grammatical calls exits chain b →
    Stmt.Grammatical calls exits chain (.block b)
  | giveBack {calls exits chain span argument} : (∀ e ∈ argument, Expr.Grammatical calls e) →
      Stmt.Grammatical calls exits chain (.giveBack span argument)
  | labelled {calls exits chain span label body} (loop : Bool) :
    (loop = true → body.isLoop = true) →
      Stmt.Grammatical calls (exits.labelled (nameText label) loop) chain body →
      Stmt.Grammatical calls exits chain (.labelled span label body)
  | breakOff {calls chain span label} {exits : Exits} : nameText label ∈ exits .forBreak →
      Stmt.Grammatical calls exits chain (.breakOff span label)
  | carryOn {calls chain span label} {exits : Exits} : nameText label ∈ exits .forContinue →
      Stmt.Grammatical calls exits chain (.carryOn span label)
  | branch {calls exits chain span test consequent alternate} : Expr.Grammatical calls test →
      Stmt.Grammatical calls exits chain consequent →
        (∀ b ∈ alternate, Stmt.Grammatical calls exits chain b) →
      Stmt.Grammatical calls exits chain (.branch span test consequent alternate)
  | switch {calls exits chain span discriminant cases scope} : scope.kind = .block →
      Expr.Grammatical calls discriminant → (∀ c ∈ cases, ∀ e ∈ c.test, Expr.Grammatical calls e) →
      (∀ c ∈ cases, ∀ b ∈ c.consequent, Stmt.Grammatical calls (exits.switching [])
        (scope :: chain) b) →
      (cases.filter fun c => c.test.isNone).length ≤ 1 →
      Stmt.Grammatical calls exits chain (.switch span discriminant cases (some scope))
  | raise {calls exits chain span e} : Expr.Grammatical calls e →
    Stmt.Grammatical calls exits chain (.raise span e)
  | guarded {calls exits chain span block handler finalizer} :
    Block.Grammatical calls exits chain block →
      (∀ h ∈ handler, CatchClause.Grammatical calls exits chain h) →
      (∀ f ∈ finalizer, Block.Grammatical calls exits chain f) →
      Stmt.Grammatical calls exits chain (.guarded span block handler finalizer)
  | whileLoop {calls exits chain span test body} : Expr.Grammatical calls test →
      Stmt.Grammatical calls (exits.looping []) chain body →
      Stmt.Grammatical calls exits chain (.whileLoop span test body)
  | doWhile {calls exits chain span body test} :
    Stmt.Grammatical calls (exits.looping []) chain body →
      Expr.Grammatical calls test → Stmt.Grammatical calls exits chain (.doWhile span body test)
  | forLoop {calls exits chain span init test update body scope} : scope.kind = .block →
      (∀ n ∈ init, Node.Grammatical calls (scope :: chain) n) →
        (∀ e ∈ test, Expr.Grammatical calls e) →
      (∀ e ∈ update, Expr.Grammatical calls e) →
        Stmt.Grammatical calls (exits.looping []) (scope :: chain) body →
      Stmt.Grammatical calls exits chain (.forLoop span init test update body (some scope))
  | forIn {calls exits chain span left right body scope} : scope.kind = .block →
      Node.Grammatical calls (scope :: chain) left → Expr.Grammatical calls right →
      Stmt.Grammatical calls (exits.looping []) (scope :: chain) body →
      Stmt.Grammatical calls exits chain (.forIn span left right body (some scope))
  | forOf {calls exits chain span left right body await scope} : scope.kind = .block →
      Node.Grammatical calls (scope :: chain) left → Expr.Grammatical calls right →
      Stmt.Grammatical calls (exits.looping []) (scope :: chain) body →
      Stmt.Grammatical calls exits chain (.forOf span left right body await (some scope))
  | declaration {calls exits chain d} : VarDecl.Grammatical calls chain d →
      Stmt.Grammatical calls exits chain (.declaration d)
  | function {calls exits chain span f} : Function.Grammatical false f →
      Stmt.Grammatical calls exits chain (.function span f)
  | classDecl {calls exits chain span c} : Class.Grammatical calls c →
      Stmt.Grammatical calls exits chain (.classDecl span c)
  | importDecl {calls exits chain span source attributes} (specifiers : List ImportSpecifier) :
      Stmt.Grammatical calls exits chain (.importDecl span (specifiers.map .importSpecifier) source
        attributes)
  | exportNames {calls exits chain span specifiers source attributes} :
      Stmt.Grammatical calls exits chain (.exportNamed span none specifiers source attributes)
  | exportAll {calls exits chain span exported source attributes} :
      Stmt.Grammatical calls exits chain (.exportAll span exported source attributes)
  | exportNamed {calls exits chain span declared specifiers source attributes} :
      Stmt.Grammatical calls exits chain declared →
      Stmt.Grammatical calls exits chain (.exportNamed span (some declared) specifiers source
        attributes)
  | exportDefault {calls exits chain span declared} : Node.Grammatical calls chain declared →
      Stmt.Grammatical calls exits chain (.exportDefault span declared)

/-- What stands at the head of a loop, and the default of a module. -/
inductive Node.Grammatical : Bool → List Scope → Node → Prop where
  | declaration {calls chain d} : VarDecl.Grammatical calls chain d →
      Node.Grammatical calls chain (.stmt (.declaration d))
  | function {calls chain span f} : Function.Grammatical false f →
      Node.Grammatical calls chain (.stmt (.function span f))
  | classDecl {calls chain span c} : Class.Grammatical calls c →
    Node.Grammatical calls chain (.stmt (.classDecl span c))
  | expr {calls chain e} : Expr.Grammatical calls e → Node.Grammatical calls chain (.expr e)
  | pattern {calls chain p} : Pattern.Grammatical calls p →
    Node.Grammatical calls chain (.pattern p)

end

/-- A function that stands as an expression calls no superclass's constructor. -/
theorem Function.Grammatical.expr {calls : Bool} {f : Function} (h : f.Grammatical false) :
    Expr.Grammatical calls (.function f) :=
  have hown : false = true → calls = true := nofun
  .function hown h

/-- Programs, whose scope is that of a function and into which no exits lead. -/
inductive Program.Grammatical : Program → Prop where
  | mk {span interpreter directives body module scope} : scope.kind = .function →
      (∀ b ∈ body, Stmt.Grammatical false .none [scope] b) →
      Program.Grammatical ⟨span, interpreter, directives, body, module, some scope⟩

/-! ## Jumps have targets in grammatical trees -/

mutual

/-- What is grammatical is resolved: the calls that are allowed are forgotten. The
induction is on how it was read. -/
theorem Expr.Grammatical.resolved {calls : Bool} {e : Expr} : e.Grammatical calls → e.Resolved
  | .atom h => .atom h
  | .template h => .template fun e he => (h e he).resolved
  | .tagged htag h => .tagged htag.resolved fun e he => (h e he).resolved
  | .array h => .array fun e he => (h e he).resolved
  | .object h => .object fun p hp => (h p hp).resolved
  | .spread h => .spread h.resolved
  | .paren h => .paren h.resolved
  | .call _ hcallee h => .call hcallee.resolved fun e he => (h e he).resolved
  | .construct hcallee h => .construct hcallee.resolved fun e he => (h e he).resolved
  | .member hbase hproperty => .member hbase.resolved hproperty.resolved
  | .importCall hsource h => .importCall hsource.resolved fun e he => (h e he).resolved
  | .unary h => .unary h.resolved
  | .await h => .await h.resolved
  | .update h => .update h.resolved
  | .binary hleft hright => .binary hleft.resolved hright.resolved
  | .conditional htest hyes hno => .conditional htest.resolved hyes.resolved hno.resolved
  | .assign htarget hvalue => .assign htarget.resolved hvalue.resolved
  | .yield h => .yield fun e he => (h e he).resolved
  | .function _ h => .function h.resolved
  | .arrow _ hparams hbody h => .arrow hparams.resolved hbody.resolved fun e he => (h e he).resolved
  | .classExpr h => .classExpr h.resolved

theorem Property.Grammatical.resolved {calls : Bool} {p : Property} :
    p.Grammatical calls → p.Resolved
  | .keyed hkey hvalue => .keyed hkey.resolved hvalue.resolved
  | .short => .short
  | .spread h => .spread h.resolved

theorem Pattern.Grammatical.resolved {calls : Bool} {p : Pattern} : p.Grammatical calls → p.Resolved
  | .target h => .target h.resolved
  | .array helements hrest =>
    .array (fun e he => (helements e he).resolved) fun p hp => (hrest p hp).resolved
  | .object hproperties hrest =>
    .object (fun p hp => (hproperties p hp).resolved) fun p hp => (hrest p hp).resolved

theorem Element.Grammatical.resolved {calls : Bool} {e : Element} : e.Grammatical calls → e.Resolved
  | .hole => .hole
  | .bound htarget h => .bound htarget.resolved fun e he => (h e he).resolved

theorem PatternProperty.Grammatical.resolved {calls : Bool} {p : PatternProperty} :
    p.Grammatical calls → p.Resolved
  | .mk hkey hvalue h => .mk hkey.resolved hvalue.resolved fun e he => (h e he).resolved

theorem Params.Grammatical.resolved {calls : Bool} {p : Params} : p.Grammatical calls → p.Resolved
  | .list hitems hrest =>
    .list (fun e he => (hitems e he).resolved) fun p hp => (hrest p hp).resolved

theorem Body.Grammatical.resolved {calls : Bool} {chain : List Scope} {b : Body} :
    b.Grammatical calls chain → b.Resolved
  | .missing => .missing
  | .block h => .block fun x hx => (h x hx).resolved

theorem Function.Grammatical.resolved {calls : Bool} {f : Function} :
    f.Grammatical calls → f.Resolved
  | .mk _ hparams hbody => .mk hparams.resolved hbody.resolved

theorem Class.Grammatical.resolved {calls : Bool} {c : Class} : c.Grammatical calls → c.Resolved
  | .mk _ _ hsuper hbody hdecorators =>
    .mk (fun e he => (hsuper e he).resolved) (fun e he => (hbody e he).resolved) fun d hd =>
      (hdecorators d hd).resolved

theorem ClassElement.Grammatical.resolved {calls : Bool} {e : ClassElement} :
    e.Grammatical calls → e.Resolved
  | .method _ hkey hfunction hdecorators =>
    .method hkey.resolved (fun f hf => (hfunction f hf).resolved) fun d hd =>
      (hdecorators d hd).resolved
  | .field hkey hinitializer hdecorators =>
    .field hkey.resolved (fun e he => (hinitializer e he).resolved) fun d hd =>
      (hdecorators d hd).resolved
  | .staticBlock _ _ h => .staticBlock fun x hx => (h x hx).resolved

theorem Block.Grammatical.resolved {calls : Bool} {exits : Exits} {chain : List Scope} {b : Block} :
    b.Grammatical calls exits chain → ∀ x ∈ b.body, x.Resolved exits
  | .mk _ h => fun x hx => (h x hx).resolved

theorem VarDecl.Grammatical.resolved {calls : Bool} {chain : List Scope} {d : VarDecl} :
    d.Grammatical calls chain → d.Resolved
  | .mk _ htargets hinitializers =>
    .mk (fun x hx => (htargets x hx).resolved) fun x hx e he => (hinitializers x hx e he).resolved

theorem CatchClause.Grammatical.resolved {calls : Bool} {exits : Exits} {chain : List Scope}
    {c : CatchClause} :
    c.Grammatical calls exits chain → (∀ p ∈ c.param, p.Resolved) ∧ ∀ b ∈ c.body, b.Resolved exits
  | .mk _ _ hparam hbody => ⟨fun p hp => (hparam p hp).resolved, fun b hb => (hbody b hb).resolved⟩

/-- The same for a statement, whose chain of scopes is forgotten and whose exits are kept. -/
theorem Stmt.Grammatical.resolved {calls : Bool} {exits : Exits} {chain : List Scope} {s : Stmt} :
    s.Grammatical calls exits chain → s.Resolved exits
  | .empty | .debugger | .importDecl _ | .exportNames | .exportAll => .atom rfl
  | .expression h => .expression h.resolved
  | .block (.mk _ h) => .block fun x hx => (h x hx).resolved
  | .giveBack h => .giveBack fun e he => (h e he).resolved
  | .labelled loop hloop hbody => .labelled loop hloop hbody.resolved
  | .breakOff h => .breakOff h
  | .carryOn h => .carryOn h
  | .branch htest hyes hno => .branch htest.resolved hyes.resolved fun b hb => (hno b hb).resolved
  | .switch _ hdiscriminant htests hbodies hdefaults =>
    .switch hdiscriminant.resolved (fun c hc e he => (htests c hc e he).resolved)
      (fun c hc b hb => (hbodies c hc b hb).resolved) hdefaults
  | .raise h => .raise h.resolved
  | .guarded hmain hhandler hfinalizer =>
    .guarded hmain.resolved (fun h hh => (hhandler h hh).resolved.1)
      (fun h hh => (hhandler h hh).resolved.2)
      fun f hf => (hfinalizer f hf).resolved
  | .whileLoop htest hbody => .whileLoop htest.resolved hbody.resolved
  | .doWhile hbody htest => .doWhile hbody.resolved htest.resolved
  | .forLoop _ hinit htest hupdate hbody =>
    .forLoop (fun n hn => (hinit n hn).resolved) (fun e he => (htest e he).resolved)
      (fun e he => (hupdate e he).resolved)
      hbody.resolved
  | .forIn _ hleft hright hbody => .forIn hleft.resolved hright.resolved hbody.resolved
  | .forOf _ hleft hright hbody => .forOf hleft.resolved hright.resolved hbody.resolved
  | .declaration h => .declaration h.resolved
  | .function h => .function h.resolved
  | .classDecl h => .classDecl h.resolved
  | .exportNamed h => .exportNamed h.resolved
  | .exportDefault h => .exportDefault h.resolved

theorem Node.Grammatical.resolved {calls : Bool} {chain : List Scope} {n : Node} :
    n.Grammatical calls chain → n.Resolved
  | .declaration h => .declaration h.resolved
  | .function h => .function h.resolved
  | .classDecl h => .classDecl h.resolved
  | .expr h => .expr h.resolved
  | .pattern h => .pattern h.resolved

end

end EcmaStack
