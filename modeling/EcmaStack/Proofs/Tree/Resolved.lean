import EcmaStack.Proofs.Machine.Frames
import EcmaStack.Tree.Basic

/-!
# Trees whose jumps have targets

A tree is **resolved** when each `break` and `continue` in it names an exit that is open where
it stands, and no switch has two default clauses. The exits of a statement are given; a loop, a
switch and a label open more of them for what stands inside, and the body of a function starts
without any. A label is an exit for `continue` where the statement it stands on is a loop.
-/

namespace EcmaStack

/-- Whether an expression has no parts. -/
def Expr.isAtom : Expr → Bool
  | .missing | .identifier _ | .privateName _ | .nullLiteral _ | .boolean _ _ | .number _ _ _
  | .bigint _ _ _ | .string _ | .regexp _ _ _ _ | .thisRef _ | .superRef _ | .metaProperty _ _ _ =>
    true
  | _ => false

/-- Whether a statement has no parts that can hold expressions or statements. -/
def Stmt.isAtom : Stmt → Bool
  | .empty _ | .debugger _ | .importDecl _ _ _ _ | .exportNamed _ none _ _ _ | .exportAll _ _ _ _ =>
    true
  | _ => false

/-- Whether a statement is a loop. -/
def Stmt.isLoop : Stmt → Bool
  | .whileLoop _ _ _ | .doWhile _ _ _ | .forLoop _ _ _ _ _ _ | .forIn _ _ _ _ _
  | .forOf _ _ _ _ _ _ => true
  | _ => false

namespace Exits

/-- The exits inside a loop. -/
def looping (exits : Exits) (labels : List String) : Exits :=
  (exits.more .forBreak (labels ++ [""])).more .forContinue (labels ++ [""])

/-- The exits inside a switch. -/
def switching (exits : Exits) (labels : List String) : Exits :=
  exits.more .forBreak (labels ++ [""])

/-- The exits inside a labelled statement, which may be a loop. -/
def labelled (exits : Exits) (label : String) (loop : Bool) : Exits :=
  (exits.more .forBreak [label]).more .forContinue (if loop then [label] else [])

end Exits

mutual

/-- Expressions whose jumps have targets: those in the functions and classes they hold. -/
inductive Expr.Resolved : Expr → Prop where
  | atom {e} : e.isAtom = true → Expr.Resolved e
  | template {t} : (∀ e ∈ t.expressions, Expr.Resolved e) → Expr.Resolved (.template t)
  | tagged {span tag quasi} : Expr.Resolved tag → (∀ e ∈ quasi.expressions, Expr.Resolved e) →
      Expr.Resolved (.tagged span tag quasi)
  | array {span elements} : (∀ e ∈ elements, Expr.Resolved e) → Expr.Resolved (.array span elements)
  | object {span properties} : (∀ p ∈ properties, Property.Resolved p) →
    Expr.Resolved (.object span properties)
  | spread {span e} : Expr.Resolved e → Expr.Resolved (.spread span e)
  | paren {span e} : Expr.Resolved e → Expr.Resolved (.paren span e)
  | call {span callee arguments optional} : Expr.Resolved callee →
    (∀ e ∈ arguments, Expr.Resolved e) →
      Expr.Resolved (.call span callee arguments optional)
  | construct {span callee arguments} : Expr.Resolved callee → (∀ e ∈ arguments, Expr.Resolved e) →
      Expr.Resolved (.construct span callee arguments)
  | member {span base property computed optional} : Expr.Resolved base → Expr.Resolved property →
      Expr.Resolved (.member span base property computed optional)
  | importCall {span source options} : Expr.Resolved source → (∀ e ∈ options, Expr.Resolved e) →
      Expr.Resolved (.importCall span source options)
  | unary {span op e} : Expr.Resolved e → Expr.Resolved (.unary span op e)
  | await {span e} : Expr.Resolved e → Expr.Resolved (.await span e)
  | update {span op e before} : Expr.Resolved e → Expr.Resolved (.update span op e before)
  | binary {span op left right} : Expr.Resolved left → Expr.Resolved right →
    Expr.Resolved (.binary span op left right)
  | conditional {span test consequent alternate} : Expr.Resolved test → Expr.Resolved consequent →
      Expr.Resolved alternate → Expr.Resolved (.conditional span test consequent alternate)
  | assign {span op target value} : Pattern.Resolved target → Expr.Resolved value →
      Expr.Resolved (.assign span op target value)
  | yield {span argument delegate} : (∀ e ∈ argument, Expr.Resolved e) →
    Expr.Resolved (.yield span argument delegate)
  | function {f} : Function.Resolved f → Expr.Resolved (.function f)
  | arrow {span params body value async env} : Params.Resolved params → Body.Resolved body →
      (∀ e ∈ value, Expr.Resolved e) → Expr.Resolved (.arrow span params body value async env)
  | classExpr {c} : Class.Resolved c → Expr.Resolved (.classExpr c)

/-- A property that names its value. -/
inductive Property.Resolved : Property → Prop where
  | keyed {span key computed kind value} : Expr.Resolved key → Expr.Resolved value →
      Property.Resolved (.keyed span key computed kind value)
  | short {span name} : Property.Resolved (.short span name)
  | spread {span e} : Expr.Resolved e → Property.Resolved (.spread span e)

/-- A pattern: a target, or a list of elements or properties with a rest. -/
inductive Pattern.Resolved : Pattern → Prop where
  | target {e} : Expr.Resolved e → Pattern.Resolved (.target e)
  | array {span elements rest} : (∀ e ∈ elements, Element.Resolved e) →
    (∀ p ∈ rest, Pattern.Resolved p) →
      Pattern.Resolved (.array span elements rest)
  | object {span properties rest} : (∀ p ∈ properties, PatternProperty.Resolved p) →
      (∀ p ∈ rest, Pattern.Resolved p) → Pattern.Resolved (.object span properties rest)

/-- An element of an array pattern, which may be a hole. -/
inductive Element.Resolved : Element → Prop where
  | hole : Element.Resolved .hole
  | bound {span target fallback} : Pattern.Resolved target → (∀ e ∈ fallback, Expr.Resolved e) →
      Element.Resolved (.bound span target fallback)

/-- A property of an object pattern. -/
inductive PatternProperty.Resolved : PatternProperty → Prop where
  | mk {span key computed value fallback shorthand} : Expr.Resolved key → Pattern.Resolved value →
      (∀ e ∈ fallback, Expr.Resolved e) →
        PatternProperty.Resolved ⟨span, key, computed, value, fallback, shorthand⟩

/-- The parameters of a function. A function that was read has them. -/
inductive Params.Resolved : Params → Prop where
  | list {span items rest} : (∀ e ∈ items, Element.Resolved e) → (∀ p ∈ rest, Pattern.Resolved p) →
      Params.Resolved (.list span items rest)

/-- Bodies of functions, into which no exits lead. -/
inductive Body.Resolved : Body → Prop where
  | missing : Body.Resolved .missing
  | block {span directives items} : (∀ b ∈ items, Stmt.Resolved .none b) →
    Body.Resolved (.block span directives items)

/-- A function whose body knows no exit of its surroundings. -/
inductive Function.Resolved : Function → Prop where
  | mk {span name params body async generator env} : Params.Resolved params → Body.Resolved body →
      Function.Resolved ⟨span, name, params, body, async, generator, env⟩

/-- A class, whatever it is derived from. -/
inductive Class.Resolved : Class → Prop where
  | mk {span name superClass body decorators env} : (∀ e ∈ superClass, Expr.Resolved e) →
      (∀ e ∈ body, ClassElement.Resolved e) → (∀ d ∈ decorators, Expr.Resolved d.expression) →
      Class.Resolved ⟨span, name, superClass, body, decorators, env⟩

/-- An element of a class. A static block has no exits either. -/
inductive ClassElement.Resolved : ClassElement → Prop where
  | method {span key computed static kind function decorators} : Expr.Resolved key →
      (∀ f ∈ function, Function.Resolved f) → (∀ d ∈ decorators, Expr.Resolved d.expression) →
      ClassElement.Resolved (.method span key computed static kind function decorators)
  | field {span key computed static accessor initializer decorators} : Expr.Resolved key →
      (∀ e ∈ initializer, Expr.Resolved e) → (∀ d ∈ decorators, Expr.Resolved d.expression) →
      ClassElement.Resolved (.field span key computed static accessor initializer decorators)
  | staticBlock {span body env} : (∀ b ∈ body, Stmt.Resolved .none b) →
      ClassElement.Resolved (.staticBlock span body env)

/-- A declaration with its targets and values. -/
inductive VarDecl.Resolved : VarDecl → Prop where
  | mk {span kind list} : (∀ d ∈ list, Pattern.Resolved d.target) →
      (∀ d ∈ list, ∀ e ∈ d.initializer, Expr.Resolved e) → VarDecl.Resolved ⟨span, kind, list⟩

/-- Statements whose jumps lead to one of the given exits or to an exit of their own. -/
inductive Stmt.Resolved : Exits → Stmt → Prop where
  | atom {exits stmt} : stmt.isAtom = true → Stmt.Resolved exits stmt
  | expression {exits span e} : Expr.Resolved e → Stmt.Resolved exits (.expression span e)
  | block {exits span body scope} : (∀ b ∈ body, Stmt.Resolved exits b) →
    Stmt.Resolved exits (.block ⟨span, body, scope⟩)
  | giveBack {exits span argument} : (∀ e ∈ argument, Expr.Resolved e) →
    Stmt.Resolved exits (.giveBack span argument)
  | labelled {exits span label body} (loop : Bool) : (loop = true → body.isLoop = true) →
      Stmt.Resolved (exits.labelled (nameText label) loop) body →
        Stmt.Resolved exits (.labelled span label body)
  | breakOff {exits : Exits} {span label} : nameText label ∈ exits .forBreak →
      Stmt.Resolved exits (.breakOff span label)
  | carryOn {exits : Exits} {span label} : nameText label ∈ exits .forContinue →
      Stmt.Resolved exits (.carryOn span label)
  | branch {exits span test consequent alternate} : Expr.Resolved test →
    Stmt.Resolved exits consequent →
      (∀ b ∈ alternate, Stmt.Resolved exits b) →
        Stmt.Resolved exits (.branch span test consequent alternate)
  | switch {exits span discriminant cases scope} : Expr.Resolved discriminant →
      (∀ c ∈ cases, ∀ e ∈ c.test, Expr.Resolved e) →
      (∀ c ∈ cases, ∀ b ∈ c.consequent, Stmt.Resolved (exits.switching []) b) →
      (cases.filter fun c => c.test.isNone).length ≤ 1 →
        Stmt.Resolved exits (.switch span discriminant cases scope)
  | raise {exits span e} : Expr.Resolved e → Stmt.Resolved exits (.raise span e)
  | guarded {exits span block handler finalizer} : (∀ b ∈ block.body, Stmt.Resolved exits b) →
      (∀ h ∈ handler, ∀ p ∈ h.param, Pattern.Resolved p) →
        (∀ h ∈ handler, ∀ b ∈ h.body, Stmt.Resolved exits b) →
      (∀ f ∈ finalizer, ∀ b ∈ f.body, Stmt.Resolved exits b) →
        Stmt.Resolved exits (.guarded span block handler finalizer)
  | whileLoop {exits span test body} : Expr.Resolved test → Stmt.Resolved (exits.looping []) body →
      Stmt.Resolved exits (.whileLoop span test body)
  | doWhile {exits span body test} : Stmt.Resolved (exits.looping []) body → Expr.Resolved test →
      Stmt.Resolved exits (.doWhile span body test)
  | forLoop {exits span init test update body scope} : (∀ n ∈ init, Node.Resolved n) →
      (∀ e ∈ test, Expr.Resolved e) → (∀ e ∈ update, Expr.Resolved e) →
        Stmt.Resolved (exits.looping []) body →
      Stmt.Resolved exits (.forLoop span init test update body scope)
  | forIn {exits span left right body scope} : Node.Resolved left → Expr.Resolved right →
      Stmt.Resolved (exits.looping []) body →
        Stmt.Resolved exits (.forIn span left right body scope)
  | forOf {exits span left right body await scope} : Node.Resolved left → Expr.Resolved right →
      Stmt.Resolved (exits.looping []) body →
        Stmt.Resolved exits (.forOf span left right body await scope)
  | declaration {exits d} : VarDecl.Resolved d → Stmt.Resolved exits (.declaration d)
  | function {exits span f} : Function.Resolved f → Stmt.Resolved exits (.function span f)
  | classDecl {exits span c} : Class.Resolved c → Stmt.Resolved exits (.classDecl span c)
  | exportNamed {exits span declared specifiers source attributes} : Stmt.Resolved exits declared →
      Stmt.Resolved exits (.exportNamed span (some declared) specifiers source attributes)
  | exportDefault {exits span declared} : Node.Resolved declared →
    Stmt.Resolved exits (.exportDefault span declared)

/-- What stands at the head of a loop, and the default of a module. -/
inductive Node.Resolved : Node → Prop where
  | declaration {d} : VarDecl.Resolved d → Node.Resolved (.stmt (.declaration d))
  | function {span f} : Function.Resolved f → Node.Resolved (.stmt (.function span f))
  | classDecl {span c} : Class.Resolved c → Node.Resolved (.stmt (.classDecl span c))
  | expr {e} : Expr.Resolved e → Node.Resolved (.expr e)
  | pattern {p} : Pattern.Resolved p → Node.Resolved (.pattern p)

end

end EcmaStack
