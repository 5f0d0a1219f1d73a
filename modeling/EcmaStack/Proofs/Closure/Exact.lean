import EcmaStack.Closure.Resolve
import EcmaStack.Proofs.Closure.Agrees
import EcmaStack.Proofs.Grammar.Statements
import EcmaStack.Proofs.Tree.Formed
import EcmaStack.Proofs.Tree.Induction

/-!
# What is captured is what is unbound

The free names of a grammatical tree agree with its references, by induction on
how the tree was put together. A function-like node is closed with what is free
in it at that moment, and from then on only the names it captures are looked at;
that they stand for all the references inside it is `Agrees.capture`. A name that
a pattern binds would count as free if it were not declared, and the grammar has
declared it.

So what a function-like node of a program captures is, without repetition, what
the references inside it leave unbound (`closure_eq_unbound`). One kind of
reference does not count: in `@A class A {}` the decorator is read outside the
scope of the class name, yet the name is looked up in that scope, so the function
around the class does not capture `A`.
-/

namespace EcmaStack

open Scope (BindsAll)

variable {w : Standing} {env : Env} {scope : Scope}

/-! ## Every grammatical tree -/

/-- A function-like node captures what the references inside it leave unbound, each name once. -/
structure Env.Exact (env : Env) (inner : List NameReference) : Prop where
  nodup : env.closure.Nodup
  agrees : Agrees env.closure inner

/-- A closure lists what its parts leave free, each name once. -/
theorem Agrees.exact {names : List String} {inner : List NameReference} (h : Agrees names inner)
    (hclosure : env.closure = names.eraseDups) : env.Exact inner where
  nodup := hclosure ▸ nodup_eraseDups names
  agrees := hclosure ▸ h.eraseDups

/-- A function's closure is exact if its parameters and its body agree with their
references. -/
theorem Env.Encloses.exact {params : Params} {body : Body} {value : Option Expr}
    {r : List NameReference} (h : env.Encloses scope params body value)
    (hparams : Agrees (params.free env.standing.place) (params.references env.standing))
    (hbody : Agrees (body.freeOrValue env.standing.place value) r) :
    env.Exact (params.references env.standing ++ r) :=
  (hparams.append hbody).exact (env.standing_place ▸ h.captures)

/-- A class captures what its elements refer to. -/
theorem Env.exact_elements {elements : List ClassElement}
    (h : ∀ x ∈ elements, Agrees (x.free env.standing.place) (x.references env.standing))
    (hcaptures : env.closure = closureOfClass env elements) :
    env.Exact (ClassElement.referencesList env.standing elements) := by
  refine (ClassElement.list_agrees h).exact (hcaptures.trans ?_)
  rw [env.standing_place, closureOfClass]

/-- A static block captures what its statements refer to. -/
theorem Env.exact_statements {items : List Stmt}
    (h : ∀ b ∈ items, Agrees (b.free env.standing.place) (b.references env.standing))
    (hcaptures : env.closure = closureOfBlock env items) :
    env.Exact (Stmt.referencesList env.standing items) := by
  refine (Stmt.list_agrees h).exact (hcaptures.trans ?_)
  rw [env.standing_place, closureOfBlock]

/-- Where a function was made, its parameters are bound. -/
theorem Env.Encloses.binds {params : Params} {body : Body} {value : Option Expr}
    (h : env.Encloses scope params body value) :
    BindsAll env.standing.place.here params.boundNames := by
  rw [h.standing_eq]
  exact h.declares

/-- The free names of each part agree with its references, wherever it stands. -/
def agreeing : TreeProperty where
  expr _ e := ∀ w : Standing, w.Regular → Agrees (e.free w.place) (e.references w)
  property _ x := ∀ w : Standing, w.Regular → Agrees (x.free w.place) (x.references w)
  pattern _ t := ∀ w : Standing, w.Regular → ∀ binding,
    (binding = true → BindsAll w.place.here t.boundNames) →
      Agrees (t.free w.place) (t.references w binding)
  element _ x := ∀ w : Standing, w.Regular → ∀ binding,
    (binding = true → BindsAll w.place.here (Element.boundNames [x])) →
      Agrees (x.free w.place) (x.references w binding)
  patternProperty _ x := ∀ w : Standing, w.Regular → ∀ binding,
    (binding = true → BindsAll w.place.here x.value.boundNames) →
      Agrees (x.free w.place) (x.references w binding)
  params _ ps := ∀ w : Standing, w.Regular → BindsAll w.place.here ps.boundNames →
    Agrees (ps.free w.place) (ps.references w)
  body _ chain b := Scope.Nested chain →
    Agrees (b.free (Standing.plain chain).place) (b.references (.plain chain))
  function _ f := ∀ w : Standing, w.Regular →
    Agrees (Function.free w.place f) (w.around f.env f.inner)
  classLiteral _ c := ∀ w : Standing, w.Regular →
    Agrees (Class.free w.place c) (Class.references w c)
  classElement _ x := ∀ w : Standing, w.Regular → Agrees (x.free w.place) (x.references w)
  block _ _ chain b := Scope.Nested chain →
    Agrees (b.free (Standing.plain chain).place) (b.references (.plain chain))
  varDecl _ chain d := Scope.Nested chain →
    Agrees (d.free (Standing.plain chain).place) (d.references (.plain chain))
  catchClause _ _ chain c := Scope.Nested chain →
    Agrees (c.free (Standing.plain chain).place) (c.references (.plain chain))
  stmt _ _ chain s := Scope.Nested chain →
    Agrees (s.free (Standing.plain chain).place) (s.references (.plain chain))
  node _ chain n := Scope.Nested chain →
    Agrees (n.free (Standing.plain chain).place) (n.references (.plain chain))

/-- What agrees for the parts of an expression agrees for the expression, one case for
each construct. -/
theorem agreeing_expr : agreeing.ClosedExpr where
  atom h _ hw := Expr.atom_agrees h hw
  template h w hw := Template.agrees fun e he => h e he w hw
  tagged htag h w hw := (htag w hw).append (Template.agrees fun e he => h e he w hw)
  array h w hw := Expr.list_agrees fun e he => h e he w hw
  object h w hw := Property.list_agrees fun x hx => h x hx w hw
  spread h := h
  paren h := h
  call _ hcallee h w hw := (hcallee w hw).append (Expr.list_agrees fun e he => h e he w hw)
  construct hcallee h w hw := (hcallee w hw).append (Expr.list_agrees fun e he => h e he w hw)
  member hbase hproperty w hw := (hbase w hw).append (hproperty w hw).onlyIf
  importCall hsource h w hw := (hsource w hw).append (Expr.option_agrees fun e he => h e he w hw)
  unary h := h
  await h := h
  update h := h
  binary hleft hright w hw := (hleft w hw).append (hright w hw)
  conditional htest hyes hno w hw := ((htest w hw).append (hyes w hw)).append (hno w hw)
  assign htarget hvalue w hw := (htarget w hw false nofun).append (hvalue w hw)
  yield h w hw := Expr.option_agrees fun e he => h e he w hw
  function _ h := h
  classExpr h := h
  arrow hcloses hparams hbody h w hw := by
    have hdoes := Body.orValue_agrees (hcloses.standing_eq ▸ hbody .single) fun e he =>
      h e he _ hcloses.standing_regular
    have hexact := hcloses.exact (hparams _ hcloses.standing_regular hcloses.binds) hdoes
    exact hexact.agrees.capture hcloses.toOpens hw

/-- The same for patterns, whether they bind or assign, -/
theorem agreeing_pattern : agreeing.ClosedPattern where
  keyed hkey hvalue w hw := (hkey w hw).onlyIf.append (hvalue w hw)
  short w hw := Standing.references_agrees hw _
  spread h := h
  target h w hw _ hbound := Pattern.target_agrees (h w hw) hbound
  array helements hrest w hw binding hbound := by
    have hparts (hb : binding = true) := Scope.bindsAll_append.mp (hbound hb)
    have hlisted := Element.list_agrees binding (fun hb => (hparts hb).1) fun x hx =>
      helements x hx w hw binding
    exact hlisted.append (Pattern.option_agrees binding (fun hb => (hparts hb).2) fun x hx =>
      hrest x hx w hw binding)
  object hproperties hrest w hw binding hbound := by
    have hparts (hb : binding = true) := Scope.bindsAll_append.mp (hbound hb)
    have hlisted := PatternProperty.list_agrees binding (fun hb => (hparts hb).1)
      fun x hx => hproperties x hx w hw binding
    exact hlisted.append (Pattern.option_agrees binding (fun hb => (hparts hb).2) fun x hx =>
      hrest x hx w hw binding)
  hole _ _ _ _ := .nil
  bound htarget h w hw binding hbound :=
    (htarget w hw binding fun hb => (Scope.bindsAll_append.mp (hbound hb)).1).append
      (Expr.option_agrees fun e he => h e he w hw)
  patternProperty hkey hvalue h w hw binding hbound :=
    ((hkey w hw).onlyIf.append (hvalue w hw binding hbound)).append
      (Expr.option_agrees fun e he => h e he w hw)
  params hitems hrest w hw hbound := by
    have hparts := Scope.bindsAll_append.mp hbound
    have hlisted := Element.list_agrees true (fun _ => hparts.1) fun x hx => hitems x hx w hw true
    exact hlisted.append (Pattern.option_agrees true (fun _ => hparts.2) fun x hx =>
      hrest x hx w hw true)

/-- for functions and classes, -/
theorem agreeing_function : agreeing.ClosedFunction where
  missingBody _ := .nil
  body h hchain := Stmt.list_agrees fun x hx => h x hx hchain
  function hcloses hparams hbody w hw := by
    have hexact := hcloses.exact (hparams _ hcloses.standing_regular hcloses.binds)
      (Body.orNone_agrees (hcloses.standing_eq ▸ hbody .single))
    exact hexact.agrees.capture hcloses.toOpens hw
  classLiteral hopens hcaptures hsuper hbody hdecorators w hw := by
    have hdecorated := Decorator.list_agrees fun d hd =>
      hdecorators d hd _ (hopens.decorators_regular hw)
    have hextended := Expr.option_agrees fun e he => hsuper e he _ (hopens.heritage_regular hw)
    rw [w.place_decorators] at hdecorated
    rw [w.place_enter] at hextended
    have hexact := Env.exact_elements (fun x hx => hbody x hx _ hopens.standing_regular) hcaptures
    exact (hdecorated.append hextended).append (hexact.agrees.capture hopens hw)
  method _ hkey hfunction hdecorators w hw :=
    ((Decorator.list_agrees fun d hd => hdecorators d hd w hw).append (hkey w hw).onlyIf).append
      (Function.option_agrees fun f hf => hfunction f hf w hw)
  field hkey hinitializer hdecorators w hw :=
    ((Decorator.list_agrees fun d hd => hdecorators d hd w hw).append (hkey w hw).onlyIf).append
      (Expr.option_agrees fun e he => hinitializer e he w hw)
  staticBlock hopens hcaptures hbody w hw := by
    have hexact :=
      Env.exact_statements (fun x hx => hopens.standing_eq ▸ hbody x hx .single) hcaptures
    exact hexact.agrees.capture hopens hw

/-- and for statements. -/
theorem agreeing_stmt : agreeing.ClosedStmt where
  body hkind h hchain := Stmt.list_agrees fun x hx => h x hx (hchain.cons hkind)
  varDecl hbinds htargets hinitializers hchain :=
    Declarator.list_agrees (fun x hx => htargets x hx _ (.plain hchain) true fun _ => hbinds x hx)
      fun x hx e he => hinitializers x hx e he _ (.plain hchain)
  catchClause hkind hbinds hparam hbody hchain := by
    have hinside := hchain.cons hkind
    have hcaught := Pattern.option_agrees true (fun _ => Pattern.bindsAll_option hbinds)
      fun x hx => hparam x hx _ (.plain hinside) true
    exact hcaught.append (Stmt.list_agrees fun x hx => hbody x hx hinside)
  empty _ := .nil
  debugger _ := .nil
  importDecl _ _ := .nil
  exportAll _ := .nil
  breakOff _ _ := .nil
  carryOn _ _ := .nil
  expression h hchain := h _ (.plain hchain)
  raise h hchain := h _ (.plain hchain)
  function h hchain := h _ (.plain hchain)
  classDecl h hchain := h _ (.plain hchain)
  block h := h
  labelled _ _ h := h
  declaration h := h
  exportDefault h := h
  giveBack h hchain := Expr.option_agrees fun e he => h e he _ (.plain hchain)
  branch htest hyes hno hchain :=
    ((htest _ (.plain hchain)).append (hyes hchain)).append
      (Stmt.option_agrees fun b hb => hno b hb hchain)
  switch hkind hdiscriminant htests hbodies _ hchain := by
    have hinside := hchain.cons hkind
    have hclauses := CaseClause.list_agrees (fun c hc e he => htests c hc e he _ (.plain hinside))
      fun c hc b hb => hbodies c hc b hb hinside
    exact (hdiscriminant _ (.plain hchain)).append hclauses
  guarded hmain hhandler hfinalizer hchain :=
    ((hmain hchain).append (CatchClause.option_agrees fun c hc => hhandler c hc hchain)).append
      (Block.option_agrees fun b hb => hfinalizer b hb hchain)
  whileLoop htest hbody hchain := (htest _ (.plain hchain)).append (hbody hchain)
  doWhile hbody htest hchain := (hbody hchain).append (htest _ (.plain hchain))
  forLoop hkind hinit htest hupdate hbody hchain := by
    have hinside := hchain.cons hkind
    have hstarted := Node.option_agrees fun n hn => hinit n hn hinside
    have htested := Expr.option_agrees fun e he => htest e he _ (.plain hinside)
    have hupdated := Expr.option_agrees fun e he => hupdate e he _ (.plain hinside)
    exact ((hstarted.append htested).append hupdated).append (hbody hinside)
  forIn hkind hleft hright hbody hchain := by
    have hinside := hchain.cons hkind
    exact ((hleft hinside).append (hright _ (.plain hinside))).append (hbody hinside)
  forOf hkind hleft hright hbody hchain := by
    have hinside := hchain.cons hkind
    exact ((hleft hinside).append (hright _ (.plain hinside))).append (hbody hinside)
  exportNames hchain := .append .nil (ExportSpecifier.list_agrees (.plain hchain))
  exportNamed h hchain := (h hchain).append (ExportSpecifier.list_agrees (.plain hchain))
  nodeDeclaration h := h
  nodeFunction h hchain := h _ (.plain hchain)
  nodeClass h hchain := h _ (.plain hchain)
  nodeExpr h hchain := h _ (.plain hchain)
  nodePattern h hchain := h _ (.plain hchain) false nofun

/-- The free names of a grammatical tree agree with its references. -/
theorem agreeing_closed : agreeing.Closed :=
  ⟨agreeing_expr, agreeing_pattern, agreeing_function, agreeing_stmt⟩

/-! ## Function-like nodes -/

section

variable {calls : Bool}

theorem Env.Encloses.exact_grammatical {params : Params} {body : Body} {value : Option Expr}
    (h : env.Encloses scope params body value) (hparams : params.Grammatical calls)
    (hbody : body.Grammatical calls [scope]) (hvalue : ∀ e ∈ value, e.Grammatical calls) :
    env.Exact (params.references env.standing ++
      if body.isMissing then Expr.referencesOption env.standing value
      else body.references env.standing) := by
  have hdoes := Body.orValue_agrees (h.standing_eq ▸ hbody.holds agreeing_closed .single)
    fun e he => (hvalue e he).holds agreeing_closed _ h.standing_regular
  exact h.exact (hparams.holds agreeing_closed _ h.standing_regular h.binds) hdoes

/-- The closure of every function that was read is exact, -/
theorem Function.Grammatical.exact {f : Function} (h : f.Grammatical calls) :
    f.env.Exact f.inner := by
  cases h with
  | mk hcloses hparams hbody =>
    exact hcloses.exact (hparams.holds agreeing_closed _ hcloses.standing_regular hcloses.binds)
      (Body.orNone_agrees (hcloses.standing_eq ▸ hbody.holds agreeing_closed .single))

/-- and that of every class. -/
theorem Class.Grammatical.exact {c : Class} (h : c.Grammatical calls) :
    c.env.Exact (ClassElement.referencesList c.env.standing c.body) := by
  cases h with
  | mk hopens hcaptures _ hbody _ =>
    exact Env.exact_elements
      (fun x hx => (hbody x hx).holds agreeing_closed _ hopens.standing_regular) hcaptures

/-- Whatever a formed function-like node captures is exact. -/
theorem Node.Formed.exact {n : Node} (h : n.Formed calls) (henv : n.env? = some env) :
    env.Exact n.innerReferences := by
  obtain ⟨own, -, h⟩ := h
  unfold Node.env? at henv
  split at henv
  · cases henv
    cases h with
    | atom h => cases h
    | function _ h => exact h.exact
  · cases henv
    cases h with
    | atom h => cases h
    | arrow hcloses hparams hbody h => exact hcloses.exact_grammatical hparams hbody h
  · cases henv
    cases h with
    | atom h => cases h
    | classExpr h => exact h.exact
  · cases henv
    obtain ⟨derived, h⟩ := h
    cases h with
    | staticBlock hopens hcaptures hbody =>
      exact Env.exact_statements
        (fun x hx => hopens.standing_eq ▸ (hbody x hx).holds agreeing_closed .single) hcaptures
  · cases henv

end

/-- The names a function-like node of a program captures are distinct. They are
the names, other than `arguments`, of the references inside the node that no
scope declares from where the reference stands out to the scope of the node
itself, where the references of decorators to the decorated class are left out. -/
theorem closure_eq_unbound {file : SourceFile} {module : Bool} {compiler : PatternCompiler}
    {program : Program} (hparse : parseFile file module compiler = .ok program) {n : Node}
    (hn : n ∈ (Node.program program).walk) (henv : n.env? = some env) :
    env.closure.Nodup ∧ ∀ x, x ∈ env.closure ↔
      x ≠ "arguments" ∧ ∃ r ∈ n.innerReferences, r.name = x ∧ r.IsUnbound ∧ r.IsApart := by
  have hformed : (Node.program program).Formed true :=
    Node.Stands.formed (parseFile_grammatical hparse)
  have hexact := (hformed.walk n hn).exact henv
  exact ⟨hexact.nodup, hexact.agrees⟩

/-- Whatever is captured is unbound: at some reference to it inside the node no
scope in force declares it. -/
theorem unbound_of_mem_closure {file : SourceFile} {module : Bool} {compiler : PatternCompiler}
    {program : Program} (hparse : parseFile file module compiler = .ok program) {n : Node}
    (hn : n ∈ (Node.program program).walk) (henv : n.env? = some env) {x : String}
    (hx : x ∈ env.closure) : ∃ r ∈ n.innerReferences, r.name = x ∧ r.IsUnbound := by
  obtain ⟨-, r, hr, hname, hunbound, -⟩ := ((closure_eq_unbound hparse hn henv).2 x).mp hx
  exact ⟨r, hr, hname, hunbound⟩

end EcmaStack
