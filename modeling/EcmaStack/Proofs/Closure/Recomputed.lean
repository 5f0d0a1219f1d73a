import EcmaStack.Proofs.Closure.Refill
import EcmaStack.Proofs.Grammar.Statements
import EcmaStack.Proofs.Tree.Induction

/-!
# Resolving a program again

The grammar finds what a function-like node captures when it finishes the node, while the scopes
around the node still grow; `Program.resolve` finds it on the finished tree. Both find the same,
because what a node captures is looked up no further out than its own scope, which is complete
when the node is: a grammatical tree in which the captured names are taken away or replaced, and
which is then resolved, is the tree that was read (`Program.Grammatical.resolve_refill`).
-/

namespace EcmaStack

/-! ## Lists and options of parts -/

section Parts

variable {α : Type} {f g : α → α}

/-- Parts that are restored one by one are restored as a list. -/
theorem list_restored {xs : List α} (h : ∀ x ∈ xs, g (f x) = x) : (xs.map f).map g = xs := by
  rw [List.map_map]
  exact (List.map_congr_left h).trans (List.map_id xs)

/-- A part that may be missing is restored if it is there. -/
theorem option_restored {o : Option α} (h : ∀ x ∈ o, g (f x) = x) : (o.map f).map g = o := by
  cases o with
  | none => rfl
  | some x => exact congrArg some (h x rfl)

end Parts

/-! ## What was read is restored

What a node captures is found from its scope and its parts, whatever it was said to capture
before. -/

section Env

variable {env : Env} {before : List String}

/-- The closure of a function is computed from its parts alone, so it is the old one once
these are restored. -/
theorem Env.restored_function {params params' : Params} {body body' : Body}
    {value value' : Option Expr} (h : env.closure = closureOfFunction env params body value)
    (hparams : params' = params) (hbody : body' = body) (hvalue : value' = value) :
    { env with
      closure := Captures.free.function { env with closure := before } params' body' value' } =
        env := by
  rw [hparams, hbody, hvalue]
  exact congrArg (Env.mk env.scope env.nameScope) h.symm

/-- So it is for a class, -/
theorem Env.restored_class {body body' : List ClassElement}
    (h : env.closure = closureOfClass env body) (hbody : body' = body) :
    { env with closure := Captures.free.classBody { env with closure := before } body' } = env := by
  rw [hbody]
  exact congrArg (Env.mk env.scope env.nameScope) h.symm

/-- and for a static block. -/
theorem Env.restored_block {body body' : List Stmt} (h : env.closure = closureOfBlock env body)
    (hbody : body' = body) :
    { env with closure := Captures.free.block { env with closure := before } body' } = env := by
  rw [hbody]
  exact congrArg (Env.mk env.scope env.nameScope) h.symm

end Env

/-- What has no parts has nothing to refill. -/
theorem Expr.refill_atom {how : Captures} {e : Expr} (h : e.isAtom = true) : e.refill how = e := by
  cases e with
  | missing | identifier | privateName | nullLiteral | boolean | number | bigint | string | regexp
  | thisRef | superRef | metaProperty => rfl
  | _ => cases h

section Lists

variable {how : Captures}

theorem Expr.list_restored {es : List Expr} (h : ∀ e ∈ es, (e.refill how).refill .free = e) :
    Expr.refillList .free (Expr.refillList how es) = es := by
  rw [Expr.refillList_eq, Expr.refillList_eq, EcmaStack.list_restored h]

theorem Expr.option_restored {o : Option Expr} (h : ∀ e ∈ o, (e.refill how).refill .free = e) :
    Expr.refillOption .free (Expr.refillOption how o) = o := by
  rw [Expr.refillOption_eq, Expr.refillOption_eq, EcmaStack.option_restored h]

theorem Stmt.list_restored {items : List Stmt} (h : ∀ b ∈ items, (b.refill how).refill .free = b) :
    Stmt.refillList .free (Stmt.refillList how items) = items := by
  rw [Stmt.refillList_eq, Stmt.refillList_eq, EcmaStack.list_restored h]

theorem Pattern.option_restored {o : Option Pattern}
    (h : ∀ p ∈ o, (p.refill how).refill .free = p) :
    Pattern.refillOption .free (Pattern.refillOption how o) = o := by
  rw [Pattern.refillOption_eq, Pattern.refillOption_eq, EcmaStack.option_restored h]

theorem Element.list_restored {items : List Element}
    (h : ∀ x ∈ items, (x.refill how).refill .free = x) :
    Element.refillList .free (Element.refillList how items) = items := by
  rw [Element.refillList_eq, Element.refillList_eq, EcmaStack.list_restored h]

theorem Decorator.list_restored {ds : List Decorator}
    (h : ∀ d ∈ ds, (d.expression.refill how).refill .free = d.expression) :
    Decorator.refillList .free (Decorator.refillList how ds) = ds := by
  rw [Decorator.refillList_eq, Decorator.refillList_eq]
  refine EcmaStack.list_restored fun d hd => ?_
  obtain ⟨span, e⟩ := d
  exact congrArg (Decorator.mk span) (h ⟨span, e⟩ hd)

theorem ClassElement.list_restored {xs : List ClassElement}
    (h : ∀ x ∈ xs, (x.refill how).refill .free = x) :
    ClassElement.refillList .free (ClassElement.refillList how xs) = xs := by
  rw [ClassElement.refillList_eq, ClassElement.refillList_eq, EcmaStack.list_restored h]

theorem Declarator.list_restored {list : List Declarator}
    (htargets : ∀ d ∈ list, (d.target.refill how).refill .free = d.target)
    (hinitializers : ∀ d ∈ list, ∀ e ∈ d.initializer, (e.refill how).refill .free = e) :
    Declarator.refillList .free (Declarator.refillList how list) = list := by
  rw [Declarator.refillList_eq, Declarator.refillList_eq]
  refine EcmaStack.list_restored fun d hd => ?_
  obtain ⟨span, target, initializer⟩ := d
  exact congrArg₂ (Declarator.mk span) (htargets _ hd) (Expr.option_restored (hinitializers _ hd))

theorem CaseClause.list_restored {cases : List CaseClause}
    (htests : ∀ c ∈ cases, ∀ e ∈ c.test, (e.refill how).refill .free = e)
    (hbodies : ∀ c ∈ cases, ∀ b ∈ c.consequent, (b.refill how).refill .free = b) :
    CaseClause.refillList .free (CaseClause.refillList how cases) = cases := by
  rw [CaseClause.refillList_eq, CaseClause.refillList_eq]
  refine EcmaStack.list_restored fun c hc => ?_
  obtain ⟨span, test, consequent⟩ := c
  exact congrArg₂ (CaseClause.mk span) (Expr.option_restored (htests _ hc))
    (Stmt.list_restored (hbodies _ hc))

end Lists

/-- Each part that is refilled somehow and then resolved is what it was. -/
def restored (how : Captures) : TreeProperty where
  expr _ e := (e.refill how).refill .free = e
  property _ x := (x.refill how).refill .free = x
  pattern _ p := (p.refill how).refill .free = p
  element _ x := (x.refill how).refill .free = x
  patternProperty _ x := (x.refill how).refill .free = x
  params _ x := (x.refill how).refill .free = x
  body _ _ b := (b.refill how).refill .free = b
  function _ f := (f.refill how).refill .free = f
  classLiteral _ c := (c.refill how).refill .free = c
  classElement _ x := (x.refill how).refill .free = x
  block _ _ _ b := (b.refill how).refill .free = b
  varDecl _ _ d := (d.refill how).refill .free = d
  catchClause _ _ _ c := (c.refill how).refill .free = c
  stmt _ _ _ s := (s.refill how).refill .free = s
  node _ _ n := (n.refill how).refill .free = n

section Restored

variable {how : Captures}

/-- Expressions are restored with their parts, one case for each construct. -/
theorem restored_expr : (restored how).ClosedExpr where
  atom h := (congrArg (Expr.refill .free) (Expr.refill_atom h)).trans (Expr.refill_atom h)
  template {_ t} h := by
    obtain ⟨span, quasis, expressions⟩ := t
    exact congrArg (fun es => Expr.template ⟨span, quasis, es⟩) (Expr.list_restored h)
  tagged {_ span _ quasi} htag h := by
    obtain ⟨inner, quasis, expressions⟩ := quasi
    exact congrArg₂ (fun tag es => Expr.tagged span tag ⟨inner, quasis, es⟩) htag
      (Expr.list_restored h)
  array h := congrArg (Expr.array _) (Expr.list_restored h)
  object h := by
    refine congrArg (Expr.object _) ?_
    rw [Property.refillList_eq, Property.refillList_eq, list_restored h]
  spread h := congrArg (Expr.spread _) h
  paren h := congrArg (Expr.paren _) h
  call _ hcallee h := congrArg₂ (Expr.call _ · · _) hcallee (Expr.list_restored h)
  construct hcallee h := congrArg₂ (Expr.construct _) hcallee (Expr.list_restored h)
  member hbase hproperty := congrArg₂ (Expr.member _ · · _ _) hbase hproperty
  importCall hsource h := congrArg₂ (Expr.importCall _) hsource (Expr.option_restored h)
  unary h := congrArg (Expr.unary _ _) h
  await h := congrArg (Expr.await _) h
  update h := congrArg (Expr.update _ _ · _) h
  binary hleft hright := congrArg₂ (Expr.binary _ _) hleft hright
  conditional {_ span _ _ _} htest hyes hno := by
    have hparts := congr (congrArg₂ (Expr.conditional span) htest hyes) hno
    exact hparts
  assign htarget hvalue := congrArg₂ (Expr.assign _ _) htarget hvalue
  yield h := congrArg (Expr.yield _ · _) (Expr.option_restored h)
  function _ h := congrArg Expr.function h
  arrow {_ span _ _ _ async _ _} hcloses hparams hbody h := by
    have hvalue := Expr.option_restored h
    have hparts := congr (congrArg₂ (Expr.arrow span) hparams hbody) hvalue
    exact congr (congrFun hparts async) (Env.restored_function hcloses.captures hparams hbody
      hvalue)
  classExpr h := congrArg Expr.classExpr h

theorem restored_pattern : (restored how).ClosedPattern where
  keyed hkey hvalue := congrArg₂ (Property.keyed _ · _ _ ·) hkey hvalue
  short := rfl
  spread h := congrArg (Property.spread _) h
  target h := congrArg Pattern.target h
  array helements hrest :=
    congrArg₂ (Pattern.array _) (Element.list_restored helements) (Pattern.option_restored hrest)
  object hproperties hrest := by
    refine congrArg₂ (Pattern.object _) ?_ (Pattern.option_restored hrest)
    rw [PatternProperty.refillList_eq, PatternProperty.refillList_eq, list_restored hproperties]
  hole := rfl
  bound htarget h := congrArg₂ (Element.bound _) htarget (Expr.option_restored h)
  patternProperty hkey hvalue h :=
    congrFun (congr (congrArg₂ (PatternProperty.mk _ · _ ·) hkey hvalue) (Expr.option_restored h)) _
  params hitems hrest :=
    congrArg₂ (Params.list _) (Element.list_restored hitems) (Pattern.option_restored hrest)

/-- Functions and classes are restored with their closures. -/
theorem restored_function : (restored how).ClosedFunction where
  missingBody := rfl
  body h := congrArg (Body.block _ _) (Stmt.list_restored h)
  function {_ span name _ _ async generator _ _} hcloses hparams hbody := by
    have hparts := congrArg₂ (Function.mk span name) hparams hbody
    refine congr (congrFun (congrFun hparts async) generator) ?_
    exact Env.restored_function hcloses.captures hparams hbody rfl
  classLiteral {_ span name _ _ _ _ _} _ hcaptures hsuper hbody hdecorators := by
    have helements := ClassElement.list_restored hbody
    have hparts := congr (congrArg₂ (Class.mk span name) (Expr.option_restored hsuper) helements)
      (Decorator.list_restored hdecorators)
    exact congr hparts (Env.restored_class hcaptures helements)
  method _ hkey hfunction hdecorators := by
    refine congr (congrArg₂ (ClassElement.method _ · _ _ _ ·) hkey ?_)
      (Decorator.list_restored hdecorators)
    rw [Function.refillOption_eq, Function.refillOption_eq, option_restored hfunction]
  field hkey hinitializer hdecorators :=
    congr (congrArg₂ (ClassElement.field _ · _ _ _ ·) hkey (Expr.option_restored hinitializer))
      (Decorator.list_restored hdecorators)
  staticBlock {_ span _ _ _} _ hcaptures hbody := by
    have hitems := Stmt.list_restored hbody
    exact congrArg₂ (ClassElement.staticBlock span) hitems (Env.restored_block hcaptures hitems)

/-- Statements hold no closure of their own. -/
theorem restored_stmt : (restored how).ClosedStmt where
  body _ h := congrArg (Block.mk _ · _) (Stmt.list_restored h)
  varDecl _ htargets hinitializers :=
    congrArg (VarDecl.mk _ _) (Declarator.list_restored htargets hinitializers)
  catchClause _ _ hparam hbody :=
    congrArg₂ (CatchClause.mk _ · · _) (Pattern.option_restored hparam) (Stmt.list_restored hbody)
  empty := rfl
  debugger := rfl
  breakOff _ := rfl
  carryOn _ := rfl
  exportAll := rfl
  exportNames := rfl
  expression h := congrArg (Stmt.expression _) h
  raise h := congrArg (Stmt.raise _) h
  block h := congrArg Stmt.block h
  giveBack h := congrArg (Stmt.giveBack _) (Expr.option_restored h)
  labelled _ _ h := congrArg (Stmt.labelled _ _) h
  branch htest hyes hno := by
    refine congr (congrArg₂ (Stmt.branch _) htest hyes) ?_
    rw [Stmt.refillOption_eq, Stmt.refillOption_eq, option_restored hno]
  switch _ hdiscriminant htests hbodies _ :=
    congrArg₂ (Stmt.switch _ · · _) hdiscriminant (CaseClause.list_restored htests hbodies)
  guarded hmain hhandler hfinalizer := by
    refine congr (congrArg₂ (Stmt.guarded _) hmain ?_) ?_
    · rw [CatchClause.refillOption_eq, CatchClause.refillOption_eq, option_restored hhandler]
    · rw [Block.refillOption_eq, Block.refillOption_eq, option_restored hfinalizer]
  whileLoop htest hbody := congrArg₂ (Stmt.whileLoop _) htest hbody
  doWhile hbody htest := congrArg₂ (Stmt.doWhile _) hbody htest
  forLoop _ hinit htest hupdate hbody := by
    refine congrFun (congr (congr (congrArg₂ (Stmt.forLoop _) ?_ (Expr.option_restored htest))
      (Expr.option_restored hupdate)) hbody) _
    rw [Node.refillOption_eq, Node.refillOption_eq, option_restored hinit]
  forIn _ hleft hright hbody := congrFun (congr (congrArg₂ (Stmt.forIn _) hleft hright) hbody) _
  forOf _ hleft hright hbody :=
    congrFun (congrFun (congr (congrArg₂ (Stmt.forOf _) hleft hright) hbody) _) _
  declaration h := congrArg Stmt.declaration h
  function h := congrArg (Stmt.function _) h
  classDecl h := congrArg (Stmt.classDecl _) h
  importDecl specifiers := by
    refine congrArg (Stmt.importDecl _ · _ _) ?_
    rw [Node.refillList_eq, Node.refillList_eq]
    refine list_restored fun n hn => ?_
    obtain ⟨x, -, rfl⟩ := List.mem_map.mp hn
    rfl
  exportNamed h := congrArg (fun declared => Stmt.exportNamed _ (some declared) _ _ _) h
  exportDefault h := congrArg (Stmt.exportDefault _) h
  nodeDeclaration h := congrArg (fun d => Node.stmt (.declaration d)) h
  nodeFunction h := congrArg (fun f => Node.stmt (.function _ f)) h
  nodeClass h := congrArg (fun c => Node.stmt (.classDecl _ c)) h
  nodeExpr h := congrArg Node.expr h
  nodePattern h := congrArg Node.pattern h

/-- A grammatical tree that is refilled somehow and then resolved is what it was. -/
theorem restored_closed : (restored how).Closed :=
  ⟨restored_expr, restored_pattern, restored_function, restored_stmt⟩

end Restored

/-- Resolving restores a program as it was read, whatever its function-like nodes were made to
capture. -/
theorem Program.Grammatical.resolve_refill {how : Captures} {p : Program} :
    p.Grammatical → (p.refill how).resolve = p
  | .mk _ h => by
    rw [Program.resolve, Program.refill, Program.refill, Stmt.list_restored fun x hx =>
      (h x hx).holds restored_closed]

/-! ## Programs -/

/-- Clearing what the function-like nodes of a program capture leaves all of them with nothing,
and resolving the cleared program gives each of them the names it captured when it was read, in
their order. -/
theorem resolve_cleared {file : SourceFile} {module : Bool} {compiler : PatternCompiler}
    {program : Program} (hparse : parseFile file module compiler = .ok program) :
    (program.cleared.closures = program.closures.map fun _ => []) ∧ program.cleared.resolve =
      program :=
  ⟨program.closures_cleared, (parseFile_grammatical hparse).resolve_refill⟩

/-- An arrow function that uses a variable of the function around it before it is declared
there, and a method whose default refers to a variable that only its body declares. -/
def lateNames : SourceFile :=
  .ofString "late.js"
    "function f(a) { g(() => a + b + late); var b } class K { m(x = late) { var late; return K } } let late"

theorem resolve_cleared_lateNames :
    ∃ p, parseFile lateNames false = .ok p ∧
      p.closures = [["g", "late"], ["a", "b", "late"], ["K"], ["K"]] ∧
      p.cleared.closures = [[], [], [], []] ∧ p.cleared.resolve = p := by
  have hcheck : (parseFile lateNames false).toOption.map Program.closures =
      some [["g", "late"], ["a", "b", "late"], ["K"], ["K"]] := by
    decide +kernel
  cases hparse : parseFile lateNames false with
  | error e =>
    rw [hparse] at hcheck
    cases hcheck
  | ok p =>
    rw [hparse] at hcheck
    have hclosures := Option.some.inj hcheck
    obtain ⟨hcleared, hresolve⟩ := resolve_cleared hparse
    rw [hclosures] at hcleared
    exact ⟨p, rfl, hclosures, hcleared, hresolve⟩

end EcmaStack
