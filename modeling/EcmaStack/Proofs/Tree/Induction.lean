import EcmaStack.Proofs.Tree.Grammatical

/-!
# Induction on grammatical trees

A property of the parts of a tree holds of every grammatical tree when it passes from the parts
of each construct to the construct (`TreeProperty.Closed`). What is shown of all grammatical
trees is shown by giving such a property.
-/

namespace EcmaStack

open Scope (BindsAll)

/-- A property of each kind of part of a tree. Like being grammatical, it may depend on whether
a superclass's constructor may be called where the part stands, on the exits that are open there
and on the scopes around it. -/
structure TreeProperty where
  expr : Bool → Expr → Prop
  property : Bool → Property → Prop
  pattern : Bool → Pattern → Prop
  element : Bool → Element → Prop
  patternProperty : Bool → PatternProperty → Prop
  params : Bool → Params → Prop
  body : Bool → List Scope → Body → Prop
  function : Bool → Function → Prop
  classLiteral : Bool → Class → Prop
  classElement : Bool → ClassElement → Prop
  block : Bool → Exits → List Scope → Block → Prop
  varDecl : Bool → List Scope → VarDecl → Prop
  catchClause : Bool → Exits → List Scope → CatchClause → Prop
  stmt : Bool → Exits → List Scope → Stmt → Prop
  node : Bool → List Scope → Node → Prop

namespace TreeProperty

/-- The property passes from parts to expressions. -/
structure ClosedExpr (P : TreeProperty) : Prop where
  atom {calls e} : e.isAtom = true → P.expr calls e
  template {calls t} : (∀ e ∈ t.expressions, P.expr calls e) → P.expr calls (.template t)
  tagged {calls span tag quasi} : P.expr calls tag → (∀ e ∈ quasi.expressions, P.expr calls e) →
    P.expr calls (.tagged span tag quasi)
  array {calls span elements} : (∀ e ∈ elements, P.expr calls e) →
    P.expr calls (.array span elements)
  object {calls span properties} : (∀ p ∈ properties, P.property calls p) →
    P.expr calls (.object span properties)
  spread {calls span e} : P.expr calls e → P.expr calls (.spread span e)
  paren {calls span e} : P.expr calls e → P.expr calls (.paren span e)
  call {calls span callee arguments optional} : (callee.isSuper = true → calls = true) →
    P.expr calls callee →
    (∀ e ∈ arguments, P.expr calls e) → P.expr calls (.call span callee arguments optional)
  construct {calls span callee arguments} : P.expr calls callee →
    (∀ e ∈ arguments, P.expr calls e) →
    P.expr calls (.construct span callee arguments)
  member {calls span base property computed optional} : P.expr calls base → P.expr calls property →
    P.expr calls (.member span base property computed optional)
  importCall {calls span source options} : P.expr calls source → (∀ e ∈ options, P.expr calls e) →
    P.expr calls (.importCall span source options)
  unary {calls span op e} : P.expr calls e → P.expr calls (.unary span op e)
  await {calls span e} : P.expr calls e → P.expr calls (.await span e)
  update {calls span op e before} : P.expr calls e → P.expr calls (.update span op e before)
  binary {calls span op left right} : P.expr calls left → P.expr calls right →
    P.expr calls (.binary span op left right)
  conditional {calls span test consequent alternate} : P.expr calls test → P.expr calls consequent →
    P.expr calls alternate → P.expr calls (.conditional span test consequent alternate)
  assign {calls span op target value} : P.pattern calls target → P.expr calls value →
    P.expr calls (.assign span op target value)
  yield {calls span argument delegate} : (∀ e ∈ argument, P.expr calls e) →
    P.expr calls (.yield span argument delegate)
  function {calls own f} : (own = true → calls = true) → P.function own f →
    P.expr calls (.function f)
  arrow {calls span params body value async env scope} : env.Encloses scope params body value →
    P.params calls params → P.body calls [scope] body → (∀ e ∈ value, P.expr calls e) →
    P.expr calls (.arrow span params body value async env)
  classExpr {calls c} : P.classLiteral calls c → P.expr calls (.classExpr c)

/-- The property passes from parts to properties of objects, patterns and parameters. -/
structure ClosedPattern (P : TreeProperty) : Prop where
  keyed {calls span key computed kind value} : P.expr calls key → P.expr calls value →
    P.property calls (.keyed span key computed kind value)
  short {calls span name} : P.property calls (.short span name)
  spread {calls span e} : P.expr calls e → P.property calls (.spread span e)
  target {calls e} : P.expr calls e → P.pattern calls (.target e)
  array {calls span elements rest} : (∀ e ∈ elements, P.element calls e) →
    (∀ p ∈ rest, P.pattern calls p) →
    P.pattern calls (.array span elements rest)
  object {calls span properties rest} : (∀ p ∈ properties, P.patternProperty calls p) →
    (∀ p ∈ rest, P.pattern calls p) → P.pattern calls (.object span properties rest)
  hole {calls} : P.element calls .hole
  bound {calls span target fallback} : P.pattern calls target → (∀ e ∈ fallback, P.expr calls e) →
    P.element calls (.bound span target fallback)
  patternProperty {calls span key computed value fallback shorthand} : P.expr calls key →
    P.pattern calls value →
    (∀ e ∈ fallback, P.expr calls e) →
      P.patternProperty calls ⟨span, key, computed, value, fallback, shorthand⟩
  params {calls span items rest} : (∀ e ∈ items, P.element calls e) →
    (∀ p ∈ rest, P.pattern calls p) →
    P.params calls (.list span items rest)

/-- The property passes from parts to functions and classes. -/
structure ClosedFunction (P : TreeProperty) : Prop where
  missingBody {calls chain} : P.body calls chain .missing
  body {calls chain span directives items} : (∀ b ∈ items, P.stmt calls .none chain b) →
    P.body calls chain (.block span directives items)
  function {calls span name params body async generator env scope} :
    env.Encloses scope params body none →
    P.params calls params → P.body calls [scope] body →
    P.function calls ⟨span, name, params, body, async, generator, env⟩
  classLiteral {calls span name superClass body decorators env scope} : env.Opens scope →
    env.closure = closureOfClass env body → (∀ e ∈ superClass, P.expr calls e) →
    (∀ e ∈ body, P.classElement superClass.isSome e) →
      (∀ d ∈ decorators, P.expr calls d.expression) →
    P.classLiteral calls ⟨span, name, superClass, body, decorators, env⟩
  method {derived calls span key computed static kind function decorators} :
    (calls = true → derived = true ∧ kind = .constructor) → P.expr false key →
      (∀ f ∈ function, P.function calls f) →
    (∀ d ∈ decorators, P.expr false d.expression) →
    P.classElement derived (.method span key computed static kind function decorators)
  field {derived span key computed static accessor initializer decorators} : P.expr false key →
    (∀ e ∈ initializer, P.expr false e) → (∀ d ∈ decorators, P.expr false d.expression) →
    P.classElement derived (.field span key computed static accessor initializer decorators)
  staticBlock {derived span body env scope} : env.Opens scope → env.closure =
    closureOfBlock env body →
    (∀ b ∈ body, P.stmt false .none [scope] b) → P.classElement derived (.staticBlock span body env)

/-- The property passes from parts to statements. -/
structure ClosedStmt (P : TreeProperty) : Prop where
  body {calls exits chain span body scope} : scope.kind = .block →
    (∀ b ∈ body, P.stmt calls exits (scope :: chain) b) →
      P.block calls exits chain ⟨span, body, some scope⟩
  varDecl {calls chain span kind list} : (∀ d ∈ list, BindsAll chain d.target.boundNames) →
    (∀ d ∈ list, P.pattern calls d.target) → (∀ d ∈ list, ∀ e ∈ d.initializer, P.expr calls e) →
    P.varDecl calls chain ⟨span, kind, list⟩
  catchClause {calls exits chain span param body scope} : scope.kind = .block →
    (∀ p ∈ param, BindsAll (scope :: chain) p.boundNames) → (∀ p ∈ param, P.pattern calls p) →
    (∀ b ∈ body, P.stmt calls exits (scope :: chain) b) →
    P.catchClause calls exits chain ⟨span, param, body, some scope⟩
  empty {calls exits chain span} : P.stmt calls exits chain (.empty span)
  debugger {calls exits chain span} : P.stmt calls exits chain (.debugger span)
  expression {calls exits chain span e} : P.expr calls e →
    P.stmt calls exits chain (.expression span e)
  block {calls exits chain b} : P.block calls exits chain b → P.stmt calls exits chain (.block b)
  giveBack {calls exits chain span argument} : (∀ e ∈ argument, P.expr calls e) →
    P.stmt calls exits chain (.giveBack span argument)
  labelled {calls exits chain span label body} (loop : Bool) : (loop = true → body.isLoop = true) →
    P.stmt calls (exits.labelled (nameText label) loop) chain body →
    P.stmt calls exits chain (.labelled span label body)
  breakOff {calls chain span label} {exits : Exits} : nameText label ∈ exits .forBreak →
    P.stmt calls exits chain (.breakOff span label)
  carryOn {calls chain span label} {exits : Exits} : nameText label ∈ exits .forContinue →
    P.stmt calls exits chain (.carryOn span label)
  branch {calls exits chain span test consequent alternate} : P.expr calls test →
    P.stmt calls exits chain consequent → (∀ b ∈ alternate, P.stmt calls exits chain b) →
    P.stmt calls exits chain (.branch span test consequent alternate)
  switch {calls exits chain span discriminant cases scope} : scope.kind = .block →
    P.expr calls discriminant →
    (∀ c ∈ cases, ∀ e ∈ c.test, P.expr calls e) →
    (∀ c ∈ cases, ∀ b ∈ c.consequent, P.stmt calls (exits.switching []) (scope :: chain) b) →
    (cases.filter fun c => c.test.isNone).length ≤ 1 →
    P.stmt calls exits chain (.switch span discriminant cases (some scope))
  raise {calls exits chain span e} : P.expr calls e → P.stmt calls exits chain (.raise span e)
  guarded {calls exits chain span block handler finalizer} : P.block calls exits chain block →
    (∀ h ∈ handler, P.catchClause calls exits chain h) →
      (∀ f ∈ finalizer, P.block calls exits chain f) →
    P.stmt calls exits chain (.guarded span block handler finalizer)
  whileLoop {calls exits chain span test body} : P.expr calls test →
    P.stmt calls (exits.looping []) chain body →
    P.stmt calls exits chain (.whileLoop span test body)
  doWhile {calls exits chain span body test} : P.stmt calls (exits.looping []) chain body →
    P.expr calls test →
    P.stmt calls exits chain (.doWhile span body test)
  forLoop {calls exits chain span init test update body scope} : scope.kind = .block →
    (∀ n ∈ init, P.node calls (scope :: chain) n) → (∀ e ∈ test, P.expr calls e) →
      (∀ e ∈ update, P.expr calls e) →
    P.stmt calls (exits.looping []) (scope :: chain) body →
    P.stmt calls exits chain (.forLoop span init test update body (some scope))
  forIn {calls exits chain span left right body scope} : scope.kind = .block →
    P.node calls (scope :: chain) left →
    P.expr calls right → P.stmt calls (exits.looping []) (scope :: chain) body →
    P.stmt calls exits chain (.forIn span left right body (some scope))
  forOf {calls exits chain span left right body await scope} : scope.kind = .block →
    P.node calls (scope :: chain) left → P.expr calls right →
      P.stmt calls (exits.looping []) (scope :: chain) body →
    P.stmt calls exits chain (.forOf span left right body await (some scope))
  declaration {calls exits chain d} : P.varDecl calls chain d →
    P.stmt calls exits chain (.declaration d)
  function {calls exits chain span f} : P.function false f →
    P.stmt calls exits chain (.function span f)
  classDecl {calls exits chain span c} : P.classLiteral calls c →
    P.stmt calls exits chain (.classDecl span c)
  importDecl {calls exits chain span source attributes} (specifiers : List ImportSpecifier) :
    P.stmt calls exits chain (.importDecl span (specifiers.map .importSpecifier) source attributes)
  exportNames {calls exits chain span specifiers source attributes} :
    P.stmt calls exits chain (.exportNamed span none specifiers source attributes)
  exportAll {calls exits chain span exported source attributes} :
    P.stmt calls exits chain (.exportAll span exported source attributes)
  exportNamed {calls exits chain span declared specifiers source attributes} :
    P.stmt calls exits chain declared →
    P.stmt calls exits chain (.exportNamed span (some declared) specifiers source attributes)
  exportDefault {calls exits chain span declared} : P.node calls chain declared →
    P.stmt calls exits chain (.exportDefault span declared)
  nodeDeclaration {calls chain d} : P.varDecl calls chain d →
    P.node calls chain (.stmt (.declaration d))
  nodeFunction {calls chain span f} : P.function false f →
    P.node calls chain (.stmt (.function span f))
  nodeClass {calls chain span c} : P.classLiteral calls c →
    P.node calls chain (.stmt (.classDecl span c))
  nodeExpr {calls chain e} : P.expr calls e → P.node calls chain (.expr e)
  nodePattern {calls chain p} : P.pattern calls p → P.node calls chain (.pattern p)

/-- The property passes from parts to every construct. -/
structure Closed (P : TreeProperty) : Prop where
  expr : P.ClosedExpr
  pattern : P.ClosedPattern
  function : P.ClosedFunction
  stmt : P.ClosedStmt

end TreeProperty

variable {P : TreeProperty}

mutual

/-- Claims that are closed under the constructs hold of every grammatical expression. With
the theorems below it is one induction over the whole tree. -/
theorem Expr.Grammatical.holds (hP : P.Closed) {calls : Bool} {e : Expr} :
    e.Grammatical calls → P.expr calls e
  | .atom h => hP.expr.atom h
  | .template h => hP.expr.template fun e he => (h e he).holds hP
  | .tagged htag h => hP.expr.tagged (htag.holds hP) fun e he => (h e he).holds hP
  | .array h => hP.expr.array fun e he => (h e he).holds hP
  | .object h => hP.expr.object fun p hp => (h p hp).holds hP
  | .spread h => hP.expr.spread (h.holds hP)
  | .paren h => hP.expr.paren (h.holds hP)
  | .call hsuper hcallee h => hP.expr.call hsuper (hcallee.holds hP) fun e he => (h e he).holds hP
  | .construct hcallee h => hP.expr.construct (hcallee.holds hP) fun e he => (h e he).holds hP
  | .member hbase hproperty => hP.expr.member (hbase.holds hP) (hproperty.holds hP)
  | .importCall hsource h => hP.expr.importCall (hsource.holds hP) fun e he => (h e he).holds hP
  | .unary h => hP.expr.unary (h.holds hP)
  | .await h => hP.expr.await (h.holds hP)
  | .update h => hP.expr.update (h.holds hP)
  | .binary hleft hright => hP.expr.binary (hleft.holds hP) (hright.holds hP)
  | .conditional htest hyes hno =>
    hP.expr.conditional (htest.holds hP) (hyes.holds hP) (hno.holds hP)
  | .assign htarget hvalue => hP.expr.assign (htarget.holds hP) (hvalue.holds hP)
  | .yield h => hP.expr.yield fun e he => (h e he).holds hP
  | .function hown h => hP.expr.function hown (h.holds hP)
  | .arrow hcloses hparams hbody h =>
    hP.expr.arrow hcloses (hparams.holds hP) (hbody.holds hP) fun e he => (h e he).holds hP
  | .classExpr h => hP.expr.classExpr (h.holds hP)

theorem Property.Grammatical.holds (hP : P.Closed) {calls : Bool} {x : Property} :
    x.Grammatical calls → P.property calls x
  | .keyed hkey hvalue => hP.pattern.keyed (hkey.holds hP) (hvalue.holds hP)
  | .short => hP.pattern.short
  | .spread h => hP.pattern.spread (h.holds hP)

theorem Pattern.Grammatical.holds (hP : P.Closed) {calls : Bool} {x : Pattern} :
    x.Grammatical calls → P.pattern calls x
  | .target h => hP.pattern.target (h.holds hP)
  | .array helements hrest =>
    hP.pattern.array (fun e he => (helements e he).holds hP) fun p hp => (hrest p hp).holds hP
  | .object hproperties hrest =>
    hP.pattern.object (fun p hp => (hproperties p hp).holds hP) fun p hp => (hrest p hp).holds hP

theorem Element.Grammatical.holds (hP : P.Closed) {calls : Bool} {x : Element} :
    x.Grammatical calls → P.element calls x
  | .hole => hP.pattern.hole
  | .bound htarget h => hP.pattern.bound (htarget.holds hP) fun e he => (h e he).holds hP

theorem PatternProperty.Grammatical.holds (hP : P.Closed) {calls : Bool} {x : PatternProperty} :
    x.Grammatical calls → P.patternProperty calls x
  | .mk hkey hvalue h =>
    hP.pattern.patternProperty (hkey.holds hP) (hvalue.holds hP) fun e he => (h e he).holds hP

theorem Params.Grammatical.holds (hP : P.Closed) {calls : Bool} {x : Params} :
    x.Grammatical calls → P.params calls x
  | .list hitems hrest =>
    hP.pattern.params (fun e he => (hitems e he).holds hP) fun p hp => (hrest p hp).holds hP

theorem Body.Grammatical.holds (hP : P.Closed) {calls : Bool} {chain : List Scope} {x : Body} :
    x.Grammatical calls chain → P.body calls chain x
  | .missing => hP.function.missingBody
  | .block h => hP.function.body fun b hb => (h b hb).holds hP

theorem Function.Grammatical.holds (hP : P.Closed) {calls : Bool} {x : Function} :
    x.Grammatical calls → P.function calls x
  | .mk hcloses hparams hbody => hP.function.function hcloses (hparams.holds hP) (hbody.holds hP)

theorem Class.Grammatical.holds (hP : P.Closed) {calls : Bool} {x : Class} :
    x.Grammatical calls → P.classLiteral calls x
  | .mk hopens hcaptures hsuper hbody hdecorators =>
    hP.function.classLiteral hopens hcaptures (fun e he => (hsuper e he).holds hP)
      (fun e he => (hbody e he).holds hP)
      fun d hd => (hdecorators d hd).holds hP

theorem ClassElement.Grammatical.holds (hP : P.Closed) {derived : Bool} {x : ClassElement} :
    x.Grammatical derived → P.classElement derived x
  | .method hcalls hkey hfunction hdecorators =>
    hP.function.method hcalls (hkey.holds hP) (fun f hf => (hfunction f hf).holds hP)
      fun d hd => (hdecorators d hd).holds hP
  | .field hkey hinitializer hdecorators =>
    hP.function.field (hkey.holds hP) (fun e he => (hinitializer e he).holds hP)
      fun d hd => (hdecorators d hd).holds hP
  | .staticBlock hopens hcaptures h =>
    hP.function.staticBlock hopens hcaptures fun b hb => (h b hb).holds hP

theorem Block.Grammatical.holds (hP : P.Closed) {calls : Bool} {exits : Exits} {chain : List Scope}
    {x : Block} :
    x.Grammatical calls exits chain → P.block calls exits chain x
  | .mk hkind h => hP.stmt.body hkind fun b hb => (h b hb).holds hP

theorem VarDecl.Grammatical.holds (hP : P.Closed) {calls : Bool} {chain : List Scope}
    {x : VarDecl} :
    x.Grammatical calls chain → P.varDecl calls chain x
  | .mk hbinds htargets hinitializers =>
    hP.stmt.varDecl hbinds (fun d hd => (htargets d hd).holds hP) fun d hd e he =>
      (hinitializers d hd e he).holds hP

theorem CatchClause.Grammatical.holds (hP : P.Closed) {calls : Bool} {exits : Exits}
    {chain : List Scope} {x : CatchClause} :
    x.Grammatical calls exits chain → P.catchClause calls exits chain x
  | .mk hkind hbinds hparam hbody =>
    hP.stmt.catchClause hkind hbinds (fun p hp => (hparam p hp).holds hP) fun b hb =>
      (hbody b hb).holds hP

/-- They hold of every grammatical statement, with the exits and the scopes it stands in. -/
theorem Stmt.Grammatical.holds (hP : P.Closed) {calls : Bool} {exits : Exits} {chain : List Scope}
    {x : Stmt} :
    x.Grammatical calls exits chain → P.stmt calls exits chain x
  | .empty => hP.stmt.empty
  | .debugger => hP.stmt.debugger
  | .expression h => hP.stmt.expression (h.holds hP)
  | .block h => hP.stmt.block (h.holds hP)
  | .giveBack h => hP.stmt.giveBack fun e he => (h e he).holds hP
  | .labelled loop hloop h => hP.stmt.labelled loop hloop (h.holds hP)
  | .breakOff h => hP.stmt.breakOff h
  | .carryOn h => hP.stmt.carryOn h
  | .branch htest hyes hno =>
    hP.stmt.branch (htest.holds hP) (hyes.holds hP) fun b hb => (hno b hb).holds hP
  | .switch hkind hdiscriminant htests hbodies hdefaults =>
    hP.stmt.switch hkind (hdiscriminant.holds hP) (fun c hc e he => (htests c hc e he).holds hP)
      (fun c hc b hb => (hbodies c hc b hb).holds hP) hdefaults
  | .raise h => hP.stmt.raise (h.holds hP)
  | .guarded hmain hhandler hfinalizer =>
    hP.stmt.guarded (hmain.holds hP) (fun h hh => (hhandler h hh).holds hP) fun f hf =>
      (hfinalizer f hf).holds hP
  | .whileLoop htest hbody => hP.stmt.whileLoop (htest.holds hP) (hbody.holds hP)
  | .doWhile hbody htest => hP.stmt.doWhile (hbody.holds hP) (htest.holds hP)
  | .forLoop hkind hinit htest hupdate hbody =>
    hP.stmt.forLoop hkind (fun n hn => (hinit n hn).holds hP) (fun e he => (htest e he).holds hP)
      (fun e he => (hupdate e he).holds hP) (hbody.holds hP)
  | .forIn hkind hleft hright hbody =>
    hP.stmt.forIn hkind (hleft.holds hP) (hright.holds hP) (hbody.holds hP)
  | .forOf hkind hleft hright hbody =>
    hP.stmt.forOf hkind (hleft.holds hP) (hright.holds hP) (hbody.holds hP)
  | .declaration h => hP.stmt.declaration (h.holds hP)
  | .function h => hP.stmt.function (h.holds hP)
  | .classDecl h => hP.stmt.classDecl (h.holds hP)
  | .importDecl specifiers => hP.stmt.importDecl specifiers
  | .exportNames => hP.stmt.exportNames
  | .exportAll => hP.stmt.exportAll
  | .exportNamed h => hP.stmt.exportNamed (h.holds hP)
  | .exportDefault h => hP.stmt.exportDefault (h.holds hP)

theorem Node.Grammatical.holds (hP : P.Closed) {calls : Bool} {chain : List Scope} {x : Node} :
    x.Grammatical calls chain → P.node calls chain x
  | .declaration h => hP.stmt.nodeDeclaration (h.holds hP)
  | .function h => hP.stmt.nodeFunction (h.holds hP)
  | .classDecl h => hP.stmt.nodeClass (h.holds hP)
  | .expr h => hP.stmt.nodeExpr (h.holds hP)
  | .pattern h => hP.stmt.nodePattern (h.holds hP)

end

end EcmaStack
