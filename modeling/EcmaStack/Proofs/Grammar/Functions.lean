import EcmaStack.Proofs.Grammar.Patterns

/-!
# Functions and classes are read grammatical

A function's parameters are declared in its scope before its body is read, so the scope declares
them when it is closed, and then the names the function captures are put down. Nothing is looked
up beyond the scope of a function, so whatever chain it stands in, it is the same tree.
-/

namespace EcmaStack

open Scope (AllGrow BindsAll)

namespace Parse

variable {r : Rules} {e : Surroundings}

/-! ## Functions -/

/-- The statements of a body are read with no exit around them, so no `break` leaves a
function. -/
theorem functionBody_grammatical (h : r.Sound) (hexits : e.region.exits = .none) :
    Yields (functionBody r) e (Body.Grammatical e.calls) := by
  have hitems : Yields (itemsUntil (· == .punct .rightBrace) r.item) e fun chain items =>
      ∀ b ∈ items, b.Grammatical e.calls .none chain := hexits ▸ .itemsUntil (h.item e)
  refine .skip fun start => .skip fun ds => hitems.bindHere fun items => .skip fun _ =>
    .skip fun _ => ?_
  exact .pureHere fun chain hitems => .block hitems

/-- The parameters and the body of a function, in the chain of its scope. -/
private def Function.Parts (calls : Bool) (chain : List Scope) (parts : Params × Body) : Prop :=
  parts.1.Grammatical calls ∧ BindsAll chain parts.1.boundNames ∧ parts.2.Grammatical calls chain

/-- Parameters are declared before the body is read. -/
private theorem parts_grammatical (h : r.Sound) (hexits : e.region.exits = .none) {params : Params}
    (hparams : params.Grammatical e.calls) : Yields (do
      declareParameters params
      return (params, ← functionBody r)) e (Function.Parts e.calls) :=
  Yields.declareAll.bindHere fun _ => (functionBody_grammatical h hexits).bindHere fun _ =>
    .pureHere fun _ hbody hbound => ⟨hparams, hbound, hbody⟩

/-- Parameters and body, in the scope of the function, which is the outermost that they
know. -/
theorem functionRest_grammatical (h : r.Sound) (generator async : Bool) :
    Yields (functionRest r generator async) e fun _ x =>
      ∃ scope, x.2 = some scope ∧ scope.kind = .function ∧ Function.Parts false [scope] x.1 := by
  refine .inFunction (.within ?_)
  exact (parameters_grammatical h).bind fun params hparams =>
    parts_grammatical h (Region.exits_eq_none rfl rfl rfl) hparams

/-- A function may not call the superclass's constructor, wherever it stands. -/
theorem function_grammatical (h : r.Sound) (declaration nameOptional : Bool) :
    Yields (function r declaration nameOptional) e fun _ => Function.Grammatical false := by
  refine .skip fun start => .skip fun async => .skipIf fun _ => .skip fun _ =>
    .skip fun generator => ?_
  refine .skipIf fun _ => .skip fun name => ?_
  dsimp only
  split
  · refine (Yields.inBlockAlone (.skip fun _ => functionRest_grammatical h generator async)).bind
      fun x hx => ?_
    obtain ⟨⟨⟨params, body⟩, scope⟩, nameScope⟩ := x
    obtain ⟨nameScope, rfl, hname, scope, rfl, hkind, hparams, hbound, hbody⟩ := hx
    exact .bind_pure (.skip fun _ => .pure (.mk ⟨⟨rfl, hkind, present hname⟩, hbound, rfl⟩ hparams
      hbody))
  · refine (functionRest_grammatical h generator async).bind fun x hx => ?_
    obtain ⟨⟨params, body⟩, scope⟩ := x
    obtain ⟨scope, rfl, hkind, hparams, hbound, hbody⟩ := hx
    exact .bind_pure (.skip fun _ => .pure (.mk ⟨⟨rfl, hkind, absent⟩, hbound, rfl⟩ hparams hbody))

/-- A method may call it if it is the constructor of a class that has one to call. -/
theorem method_grammatical (h : r.Sound) (start : Nat) (kind : PropertyKind)
    (async generator superCall : Bool) :
    Yields (method r start kind async generator superCall) e fun _ =>
    Function.Grammatical superCall := by
  have hparts :
      Yields (inScope (functionScope generator async) <| within
        (fun outer => outer.method superCall) do
      let paramStart ← offset
      let params ← parameters r
      checkAccessor kind paramStart params
      declareParameters params
      return (params, ← functionBody r)) e fun _ x =>
        ∃ scope, x.2 = some scope ∧ scope.kind = .function ∧
          Function.Parts superCall [scope] x.1 := by
    refine .inFunction (.within ?_)
    exact .skip fun _ => (parameters_grammatical h).bind fun params hparams => .skip fun _ =>
      parts_grammatical h (Region.exits_eq_none rfl rfl rfl) hparams
  refine hparts.bind fun x hx => ?_
  obtain ⟨⟨params, body⟩, scope⟩ := x
  obtain ⟨scope, rfl, hkind, hparams, hbound, hbody⟩ := hx
  exact .skip fun _ => .pure (.mk ⟨⟨rfl, hkind, absent⟩, hbound, rfl⟩ hparams hbody)

theorem arrowParameters_grammatical (h : r.Sound) :
    Yields (arrowParameters r) e fun _ o => ∀ p ∈ o, p.Grammatical e.calls := by
  refine .skip fun _ => .ite (fun _ => ?_) fun _ => .attempt (parameterList_grammatical h true)
  refine .skip fun o => ?_
  cases o with
  | none => exact .pure absent
  | some n =>
    refine .pure (present (.list (extended (.bound (.target (.atom rfl)) absent) ?_) absent))
    rintro _ ⟨⟩

/-- The body of an arrow function is statements or one expression, with the calls of its
surroundings. -/
theorem arrowBody_grammatical (h : r.Sound) (hexits : e.region.exits = .none) :
    Yields (arrowBody r) e fun chain x => x.1.Grammatical e.calls chain ∧
    ∀ v ∈ x.2, v.Grammatical e.calls := by
  refine .skip fun _ => .ite (fun _ => ?_) fun _ => ?_
  · exact (functionBody_grammatical h hexits).bindHere fun body => .pureHere fun _ hbody =>
      ⟨hbody, absent⟩
  · exact (h.assignment e).bind fun v hv => .pureHere fun _ => ⟨.missing, present hv⟩

/-- An arrow function's parameters, its body and its value, in the chain of its scope. -/
private def Arrow.Parts (calls : Bool) (chain : List Scope) (parts : Params × Body × Option Expr) :
    Prop :=
  parts.1.Grammatical calls ∧ BindsAll chain parts.1.boundNames ∧
    parts.2.1.Grammatical calls chain ∧
    ∀ v ∈ parts.2.2, v.Grammatical calls

/-- Parameters, arrow and body of an arrow function, or nothing if the arrow is not there. -/
theorem arrowRest_grammatical (h : r.Sound) :
    Yields (arrowRest r) e fun chain o => ∀ parts ∈ o, Arrow.Parts e.calls chain parts := by
  refine (arrowParameters_grammatical h).bind fun o ho => ?_
  cases o with
  | none => exact .pureHere fun _ => absent
  | some params =>
    refine .skip fun _ => .skip fun _ => .ite (fun _ => .pureHere fun _ => absent) fun _ =>
      .skip fun _ => ?_
    refine Yields.declareAll.bindHere fun _ => ?_
    refine (Yields.within (arrowBody_grammatical h (Region.exits_eq_none rfl rfl rfl))).bindHere
      fun parts => ?_
    exact .pureHere fun _ hparts hbound => present ⟨ho params rfl, hbound, hparts.1, hparts.2⟩

/-- The scope of an arrow function is open before it is known that there is one; where there is
none, it is abandoned. -/
theorem arrowFunction_grammatical (h : r.Sound) :
    Yields (arrowFunction r) e fun _ o => ∀ x ∈ o, x.Grammatical e.calls := by
  refine .skip fun o => ?_
  cases o with
  | none => exact .pure absent
  | some async =>
    refine .skip fun start => .attempt (.skipIf fun _ => ?_)
    refine (Yields.inTrialFunction (arrowRest_grammatical h)).bind fun o ho => ?_
    cases o with
    | none => exact .pure absent
    | some x =>
      obtain ⟨⟨params, body, value⟩, scope⟩ := x
      obtain ⟨scope, rfl, hkind, hparams, hbound, hbody, hvalue⟩ := ho _ rfl
      refine .skip fun _ => .pure (present ?_)
      exact .arrow ⟨⟨rfl, hkind, absent⟩, hbound, rfl⟩ hparams hbody hvalue

/-! ## Classes -/

/-- An argument of a call, which may be spread out. -/
theorem spreadOrAssignment_grammatical (h : r.Sound) :
    Yields (spreadOrAssignment r) e fun _ => Expr.Grammatical e.calls := by
  refine .skip fun _ => .ite (fun _ => ?_) fun _ => h.assignment e
  exact .skip fun start => .skip fun _ => (h.assignment e).bind fun x hx => .skip fun _ =>
    .pure (.spread hx)

theorem arguments_grammatical (h : r.Sound) :
    Yields (arguments r) e fun _ args => ∀ x ∈ args, x.Grammatical e.calls :=
  .skip fun _ => (Yields.within (.commaList (spreadOrAssignment_grammatical h))).bind fun _ hargs =>
    .skip fun _ => .pure hargs

theorem parenthesized_grammatical (h : r.Sound) :
    Yields (parenthesized r) e fun _ => Expr.ReadPlain e.calls :=
  .skip fun _ => (Yields.within (h.expression _)).bind fun _ hx => .skip fun _ => .skip fun _ =>
    .pure ⟨.paren hx, rfl⟩

/-- A decorator is names with dots between them, a call of such names, or any expression
in parentheses. -/
theorem decoratorExpression_grammatical (h : r.Sound) :
    Yields (decoratorExpression r) e fun _ => Expr.Grammatical e.calls := by
  have hdotted (start : Nat) (x : Expr) (hx : x.ReadPlain e.calls) :
      Yields (dottedNames start x) e fun _ => Expr.ReadPlain e.calls := by
    refine .repeating (Expr.ReadPlain e.calls) hx fun y hy => .skip fun _ =>
      .ite (fun _ => ?_) fun _ => .pure hy
    refine .skip fun _ => memberName_grammatical.bind fun property hproperty => .skip fun _ => ?_
    exact .pure ⟨.member hy.1 hproperty, rfl⟩
  refine .skip fun _ => .ite (fun _ => (parenthesized_grammatical h).mono fun _ _ hx => hx.1)
    fun _ => .skip fun start => ?_
  refine identifierReference_grammatical.bind fun x hx => (hdotted start x hx).bind fun y hy => ?_
  refine .skip fun _ => .ite (fun _ => ?_) fun _ => .pure hy.1
  refine (arguments_grammatical h).bind fun args hargs => .skip fun _ =>
    .pure (.call (fun hsuper => ?_) hy.1 hargs)
  cases hy.2.symm.trans hsuper

theorem decorators_grammatical (h : r.Sound) :
    Yields (decorators r) e fun _ ds => ∀ d ∈ ds, d.expression.Grammatical e.calls := by
  refine .collecting (fun d => d.expression.Grammatical e.calls) fun items hitems => .skip fun _ =>
    .ite (fun _ => ?_) fun _ => ?_
  · refine .skip fun start => .skip fun _ => (decoratorExpression_grammatical h).bind fun x hx =>
      .skip fun _ => ?_
    exact .pure (extended hx hitems)
  · exact .pure (reversed hitems)

/-- A static block has a function's scope and no exits. -/
theorem staticBlock_grammatical (h : r.Sound) (derived : Bool) (start : Nat) :
    Yields (staticBlock r start) e fun _ => ClassElement.Grammatical derived := by
  have hexits : e.region.staticBlock.exits = .none := Region.exits_eq_none rfl rfl rfl
  have hbody : Yields (inScope (functionScope false false) <| within Region.staticBlock do
      let _ ← expectPunct .leftBrace
      let items ← itemsUntil (· == .punct .rightBrace) r.item
      next
      return items) e fun _ x =>
        ∃ scope, x.2 = some scope ∧ scope.kind = .function ∧
          ∀ b ∈ x.1, Stmt.Grammatical false .none [scope] b := by
    refine Yields.inFunction (Q := fun chain items => ∀ b ∈ items,
      Stmt.Grammatical false .none chain b) (.within (.skip fun _ => ?_))
    rw [← hexits]
    exact (Yields.itemsUntil (h.item _)).bindHere fun items => .skip fun _ =>
      .pureHere fun _ hitems => hitems
  refine hbody.bind fun x hx => ?_
  obtain ⟨body, scope⟩ := x
  obtain ⟨scope, rfl, hkind, hbody⟩ := hx
  exact .skip fun _ => .pure (.staticBlock ⟨rfl, hkind, absent⟩ rfl hbody)

/-- A method that is a constructor is put down as one. -/
theorem methodKind_constructor (m : Modifiers) (own : Bool) (keyStart : Nat) :
    Yields (methodKind m own keyStart) e fun _ kind => own = true → kind = .constructor := by
  unfold methodKind
  cases own with
  | false => exact .pure fun hown => nomatch hown
  | true =>
    refine .ite (fun hown => nomatch hown) fun _ => ?_
    exact .ite (fun _ => .failAt) fun _ => .ite (fun _ => .failAt) fun _ =>
      .ite (fun _ => .failAt) fun _ => .pure fun _ => rfl

/-- The members of a class stand where no constructor of a superclass may be called. -/
theorem classMember_grammatical (h : r.Sound) (hcalls : e.calls = false) (derived : Bool)
    (start : Nat) {ds : List Decorator} (hds : ∀ d ∈ ds, d.expression.Grammatical false)
    (static : Bool) :
    Yields (classMember r derived start ds static) e fun _ => ClassElement.Grammatical derived := by
  refine .skip fun accessor => .ite_bind (P := fun _ => True) (.pure trivial) (.any _) fun m _ => ?_
  refine .skip fun keyStart => (propertyKey_grammatical h).bind fun o ho => ?_
  cases o with
  | none => exact .unexpected
  | some k =>
    obtain ⟨key, computed⟩ := k
    have hkey : key.Grammatical false := hcalls ▸ ho _ rfl
    refine .skip fun _ => .ite (fun _ => ?_) fun _ => ?_
    · refine (methodKind_constructor _ _ _).bind fun kind hkind => ?_
      refine (method_grammatical h keyStart kind _ _ _).bind fun f hf => .skip fun _ => .pure ?_
      refine .method (fun hown => ?_) hkey (present hf) hds
      have hown := Bool.and_eq_true_iff.mp hown
      exact ⟨hown.2, hkind hown.1⟩
    · refine .skipIf fun _ => .skipIf fun _ => ?_
      exact (Yields.within (h.assignment _)).behind.bind fun o ho => .skip fun _ => .skip fun _ =>
        .pure (.field hkey ho hds)

theorem classElement_grammatical (h : r.Sound) (hcalls : e.calls = false) (derived : Bool) :
    Yields (classElement r derived) e fun _ => ClassElement.Grammatical derived := by
  refine .skip fun start => (decorators_grammatical h).bind fun ds hds => .skip fun _ => ?_
  rw [hcalls] at hds
  refine .ite (fun _ => ?_) fun _ => ?_
  · refine .skip fun _ => .ite (fun _ => ?_) fun _ => .skip fun _ => .ite (fun _ => ?_) fun _ => ?_
    · exact .skipIf fun _ => .skip fun _ => staticBlock_grammatical h derived start
    · exact .skip fun _ => classMember_grammatical h hcalls derived start hds true
    · exact classMember_grammatical h hcalls derived start hds false
  · exact classMember_grammatical h hcalls derived start hds false

/-- The elements of a class, each of which is read with what the class allows. -/
theorem classElements_grammatical (h : r.Sound) (hcalls : e.calls = false) (derived : Bool) :
    Yields (classElements r derived) e fun _ items => ∀ x ∈ items, x.Grammatical derived := by
  refine .collecting (ClassElement.Grammatical derived) fun items hitems => .skip fun _ =>
    .ite (fun _ => ?_) fun _ => ?_
  · exact .pure (reversed hitems)
  · refine .skip fun _ => .ite (fun _ => .skip fun _ => .pure hitems) fun _ => ?_
    refine (classElement_grammatical h hcalls derived).bind fun x hx =>
      .ite (fun _ => .failAt) fun _ => ?_
    exact .pure (extended hx hitems)

/-- What a class extends, and its elements in a scope of their own. -/
private def Class.Parts (calls : Bool) (superClass : Option Expr) (elements : List ClassElement)
    (scope : Option Scope) :
    Prop :=
  (∀ x ∈ superClass, x.Grammatical calls) ∧ (∀ x ∈ elements, x.Grammatical superClass.isSome) ∧
    ∃ inner, scope = some inner ∧ inner.kind = .function

/-- What follows the name of a class. Whether a superclass is named decides what its
constructor may call. -/
theorem classRest_grammatical (h : r.Sound) :
    Yields (classRest r) e fun _ x => Class.Parts e.calls x.1 x.2.1 x.2.2 := by
  refine (h.leftHandSide e).behind.bind fun superClass hsuperClass => ?_
  refine Yields.bind
    (.inFunction (.within (.skip fun _ => (classElements_grammatical h rfl superClass.isSome).bind
    fun items hitems => .skip fun _ => .pure hitems))) fun x hx => ?_
  obtain ⟨elements, scope⟩ := x
  obtain ⟨scope, rfl, hkind, helements⟩ := hx
  exact .pure ⟨hsuperClass, helements, scope, rfl, hkind⟩

theorem classLiteral_grammatical (h : r.Sound) (declaration nameOptional : Bool) :
    Yields (classLiteral r declaration nameOptional) e fun _ => Class.Grammatical e.calls := by
  refine .skip fun start => (decorators_grammatical h).bind fun ds hds => .skip fun _ =>
    .skip fun name => ?_
  dsimp only
  split
  · refine (Yields.inBlockAlone (.skip fun _ => classRest_grammatical h)).bind fun x hx => ?_
    obtain ⟨⟨superClass, elements, scope⟩, nameScope⟩ := x
    obtain ⟨nameScope, rfl, hname, hsuper, helements, scope, rfl, hkind⟩ := hx
    exact .bind_pure (.skip fun _ => .pure
      (.mk ⟨rfl, hkind, present hname⟩ rfl hsuper helements hds))
  · refine (classRest_grammatical h).bind fun x hx => ?_
    obtain ⟨superClass, elements, scope⟩ := x
    obtain ⟨hsuper, helements, scope, rfl, hkind⟩ := hx
    exact .bind_pure (.skip fun _ => .pure (.mk ⟨rfl, hkind, absent⟩ rfl hsuper helements hds))

end Parse

end EcmaStack
