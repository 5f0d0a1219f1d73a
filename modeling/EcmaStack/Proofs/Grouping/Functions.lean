import EcmaStack.Proofs.Grouping.Patterns

/-!
# Functions and classes are read in order

Whatever scopes are opened for functions and classes, the rules for them keep in step, and the
operators in their parameters, bodies and elements are grouped.
-/

namespace EcmaStack.Parse

open Node (Orderly)

variable {r : Rules} {e : Surroundings} {source : Text}

/-! ## Functions -/

/-- The statements of a body are orderly, whatever the function stands in. -/
theorem functionBody_orderly (h : r.Grouping) :
    Delivers (functionBody r) e fun b => Orderly e.source [.body b] := by
  refine .skip fun start => .skip fun ds =>
    (Delivers.itemsUntil (h.item e)).bind fun items hitems => .skip fun _ => ?_
  have hdirectives : Orderly e.source (ds.map .directive) := .map fun _ _ => .leaf rfl rfl
  exact .skip fun _ => .pure ((hdirectives.append (.map hitems)).node rfl rfl)

/-- The parameters and the body of a function. -/
private def Function.PartsOrderly (source : Text) (parts : Params × Body) : Prop :=
  Orderly source [.params parts.1] ∧ Orderly source [.body parts.2]

private theorem Function.PartsOrderly.orderly {f : Function}
    (h : Function.PartsOrderly source (f.params, f.body)) :
    Orderly source [.function f] :=
  (Orderly.append (.maybe fun n _ => name_orderly n) (h.1.pair h.2)).node rfl rfl

theorem functionRest_orderly (h : r.Grouping) (generator async : Bool) :
    Delivers (functionRest r generator async) e fun x => Function.PartsOrderly e.source x.1 := by
  refine .inScope (.within ((parameters_orderly h).bind fun params hparams => .skip fun _ => ?_))
  exact (functionBody_orderly h).bind fun body hbody => .pure ⟨hparams, hbody⟩

theorem function_orderly (h : r.Grouping) (declaration nameOptional : Bool) :
    Delivers (function r declaration nameOptional) e fun f => Orderly e.source [.function f] := by
  refine .skip fun start => .skip fun async => .skipIf fun _ => .skip fun _ =>
    .skip fun generator => ?_
  refine .skipIf fun _ => .skip fun name => ?_
  dsimp only
  split
  · refine (Delivers.inBlock (.skip fun _ => functionRest_orderly h generator async)).bind
      fun x hx => ?_
    obtain ⟨⟨⟨params, body⟩, scope⟩, nameScope⟩ := x
    exact .bind_pure (.skip fun _ => .pure (Function.PartsOrderly.orderly hx))
  · refine (functionRest_orderly h generator async).bind fun x hx => ?_
    obtain ⟨⟨params, body⟩, scope⟩ := x
    exact .bind_pure (.skip fun _ => .pure (Function.PartsOrderly.orderly hx))

theorem method_orderly (h : r.Grouping) (start : Nat) (kind : PropertyKind)
    (async generator superCall : Bool) :
    Delivers (method r start kind async generator superCall) e fun f =>
    Orderly e.source [.function f] := by
  have hparts :
      Delivers (inScope (functionScope generator async) <| within
        (fun outer => outer.method superCall) do
      let paramStart ← offset
      let params ← parameters r
      checkAccessor kind paramStart params
      declareParameters params
      return (params, ← functionBody r)) e fun x => Function.PartsOrderly e.source x.1 := by
    refine .inScope (.within (.skip fun _ => (parameters_orderly h).bind fun params hparams => .skip
      fun _ => ?_))
    exact .skip fun _ => (functionBody_orderly h).bind fun body hbody => .pure ⟨hparams, hbody⟩
  refine hparts.bind fun x hx => ?_
  obtain ⟨⟨params, body⟩, scope⟩ := x
  exact .skip fun _ => .pure (Function.PartsOrderly.orderly hx)

theorem arrowParameters_orderly (h : r.Grouping) :
    Delivers (arrowParameters r) e fun o => ∀ p ∈ o, Orderly e.source [.params p] := by
  refine .skip fun _ => .ite (fun _ => ?_) fun _ => .attempt (parameterList_orderly h true)
  refine .skip fun o => ?_
  cases o with
  | none => exact .pure absent
  | some n =>
    have htarget : Orderly e.source [.pattern (.target (.identifier n))] := .leaf rfl rfl
    have helement : Orderly e.source [.element (.bound n.span (.target (.identifier n)) none)] :=
      htarget.node rfl rfl
    exact .pure (present (helement.node rfl rfl))

/-- The body and the value of an arrow function, of which one is there. -/
theorem arrowBody_orderly (h : r.Grouping) : Delivers (arrowBody r) e fun x =>
    Orderly e.source (x.1.orValue x.2) ∧ (x.1 = .missing ∨ x.2 = none) := by
  refine .skip fun _ => .ite (fun _ => ?_) fun _ => ?_
  · refine (functionBody_orderly h).bind fun body hbody => .pure ⟨?_, .inr rfl⟩
    cases body with
    | missing => exact .nil
    | block => exact hbody
  · exact (h.value e).bind fun v hv => .pure ⟨hv, .inl rfl⟩

/-- An arrow function has a block or a value and never both, so its slots are told by one
of them. -/
theorem arrowRest_orderly (h : r.Grouping) : Delivers (arrowRest r) e fun o => ∀ parts ∈ o,
    Orderly e.source (.params parts.1 :: parts.2.1.orValue parts.2.2) ∧
    (parts.2.1 = .missing ∨ parts.2.2 = none) := by
  refine (arrowParameters_orderly h).bind fun o ho => ?_
  cases o with
  | none => exact .pure absent
  | some params =>
    refine .skip fun _ => .skip fun _ => .ite (fun _ => .pure absent) fun _ => .skip fun _ =>
      .skip fun _ => ?_
    exact (Delivers.within (arrowBody_orderly h)).bind fun parts hparts =>
      .pure (present ⟨(ho params rfl).cons hparts.1, hparts.2⟩)

/-- An arrow function is no operation, so it can only be the last operand of one in
parentheses. -/
theorem arrowFunction_orderly (h : r.Grouping) : Delivers (arrowFunction r) e fun o =>
    ∀ x ∈ o, Orderly e.source [.expr x] ∧ x.operator? = none := by
  refine .skip fun o => ?_
  cases o with
  | none => exact .pure absent
  | some async =>
    refine .skip fun start => .attempt (.skipIf fun _ => ?_)
    refine (Delivers.inTrialScope (arrowRest_orderly h)).bind fun o ho => ?_
    cases o with
    | none => exact .pure absent
    | some x =>
      obtain ⟨⟨params, body, value⟩, scope⟩ := x
      obtain ⟨hparts, hone⟩ := ho _ rfl
      exact .skip fun _ => .pure (present ⟨.close hparts hone, rfl⟩)

/-! ## Classes -/

/-- An argument of a call, which may be spread out. -/
theorem spreadOrAssignment_orderly (h : r.Grouping) :
    Delivers (spreadOrAssignment r) e fun x => Orderly e.source [.expr x] := by
  refine .skip fun _ => .ite (fun _ => ?_) fun _ => h.value e
  exact .skip fun start => .skip fun _ => (h.value e).bind fun x hx => .skip fun _ =>
    .pure (hx.node rfl rfl)

theorem arguments_orderly (h : r.Grouping) :
    Delivers (arguments r) e fun args => ∀ x ∈ args, Orderly e.source [.expr x] :=
  .skip fun _ => (Delivers.within (.commaList (spreadOrAssignment_orderly h))).bind fun _ hargs =>
    .skip fun _ => .pure hargs

theorem parenthesized_orderly (h : r.Grouping) :
    Delivers (parenthesized r) e (Expr.Operand e.source) :=
  .skip fun _ => (Delivers.within (h.expression _)).bind fun _ hx => .skip fun _ => .skip fun _ =>
    .pure (.node hx rfl rfl rfl)

/-- A decorator is made of names and calls, none of which is an operation. -/
theorem decoratorExpression_orderly (h : r.Grouping) :
    Delivers (decoratorExpression r) e fun x => Orderly e.source [.expr x] := by
  have hdotted (start : Nat) (x : Expr) (hx : Orderly e.source [.expr x]) :
      Delivers (dottedNames start x) e fun x => Orderly e.source [.expr x] := by
    refine .repeating (fun x => Orderly e.source [.expr x]) hx fun y hy => .skip fun _ =>
      .ite (fun _ => ?_) fun _ => .pure hy
    refine .skip fun _ => memberName_orderly.bind fun property hproperty => .skip fun _ => .pure ?_
    exact ((hy.pair hproperty).node rfl rfl :
      Orderly e.source [.expr (.member _ y property false false)])
  refine .skip fun _ => .ite (fun _ => (parenthesized_orderly h).mono fun _ hx => hx.orderly)
    fun _ => .skip fun start => ?_
  refine identifierReference_orderly.bind fun x hx =>
    (hdotted start x hx.orderly).bind fun y hy => ?_
  refine .skip fun _ => .ite (fun _ => ?_) fun _ => .pure hy
  exact (arguments_orderly h).bind fun args hargs => .skip fun _ =>
    .pure ((hy.cons (.map hargs)).node rfl rfl)

theorem decorators_orderly (h : r.Grouping) :
    Delivers (decorators r) e fun ds => ∀ d ∈ ds, Orderly e.source [.decorator d] := by
  refine .collecting (Q := fun d => Orderly e.source [.decorator d]) fun items hitems => ?_
  refine .skip fun _ => .ite (fun _ => ?_) fun _ => .pure (reversed hitems)
  refine .skip fun start => .skip fun _ => (decoratorExpression_orderly h).bind fun x hx =>
    .skip fun _ => ?_
  exact .pure (extended (P := fun d => Orderly e.source [.decorator d]) (hx.node rfl rfl) hitems)

theorem staticBlock_orderly (h : r.Grouping) (start : Nat) :
    Delivers (staticBlock r start) e fun x => Orderly e.source [.classElement x] := by
  have hbody : Delivers (inScope (functionScope false false) <| within Region.staticBlock do
      let _ ← expectPunct .leftBrace
      let items ← itemsUntil (· == .punct .rightBrace) r.item
      next
      return items) e fun x => ∀ b ∈ x.1, Orderly e.source [.stmt b] :=
    .inScope (Q := fun items => ∀ b ∈ items, Orderly e.source [.stmt b]) (.within (.skip fun _ =>
      (Delivers.itemsUntil (h.item _)).bind fun items hitems => .skip fun _ => .pure hitems))
  refine hbody.bind fun x hx => ?_
  obtain ⟨body, scope⟩ := x
  exact .skip fun _ => .pure ((Orderly.map hx).node rfl rfl)

/-- What stands in a class before the value of an element. -/
private theorem member_orderly {ds : List Decorator} {key : Expr} {rest : List Node}
    (hds : ∀ d ∈ ds, Orderly source [.decorator d]) (hkey : Orderly source [.expr key])
    (hrest : Orderly source rest) :
    Orderly source (ds.map .decorator ++ .expr key :: rest) :=
  (Orderly.map hds).append (hkey.cons hrest)

/-- The value of a field is an assignment, which the next element ends. -/
theorem classMember_orderly (h : r.Grouping) (derived : Bool) (start : Nat) {ds : List Decorator}
    (hds : ∀ d ∈ ds, Orderly e.source [.decorator d]) (static : Bool) :
    Delivers (classMember r derived start ds static) e fun x =>
    Orderly e.source [.classElement x] := by
  refine .skip fun accessor => .ite_bind (Q := fun _ => True) (.pure trivial) (.any _) fun m _ => ?_
  refine .skip fun keyStart => (propertyKey_orderly h).bind fun o ho => ?_
  cases o with
  | none => exact .unexpected
  | some k =>
    obtain ⟨key, computed⟩ := k
    refine .skip fun _ => .ite (fun _ => ?_) fun _ => ?_
    · refine .skip fun kind => (method_orderly h keyStart kind _ _ _).bind fun f hf =>
        .skip fun _ => .pure ?_
      exact (member_orderly hds (ho _ rfl) (.maybe (present hf))).node rfl rfl
    · refine .skipIf fun _ => .skipIf fun _ => ?_
      refine (Delivers.within (h.value _)).behind.bind fun o' ho' => .skip fun _ => .skip fun _ =>
        .pure ?_
      exact (member_orderly hds (ho _ rfl) (.maybe ho')).node rfl rfl

theorem classElement_orderly (h : r.Grouping) (derived : Bool) :
    Delivers (classElement r derived) e fun x => Orderly e.source [.classElement x] := by
  refine .skip fun start => (decorators_orderly h).bind fun ds hds => .skip fun _ => ?_
  refine .ite (fun _ => ?_) fun _ => classMember_orderly h derived start hds false
  refine .skip fun _ => .ite (fun _ => ?_) fun _ => .skip fun _ => .ite (fun _ => ?_) fun _ => ?_
  · exact .skipIf fun _ => .skip fun _ => staticBlock_orderly h start
  · exact .skip fun _ => classMember_orderly h derived start hds true
  · exact classMember_orderly h derived start hds false

theorem classElements_orderly (h : r.Grouping) (derived : Bool) :
    Delivers (classElements r derived) e fun items =>
    ∀ x ∈ items, Orderly e.source [.classElement x] := by
  refine .collecting (Q := fun x => Orderly e.source [.classElement x]) fun items hitems => ?_
  refine .skip fun _ => .ite (fun _ => .pure (reversed hitems)) fun _ => ?_
  refine .skip fun _ => .ite (fun _ => .skip fun _ => .pure hitems) fun _ => ?_
  refine (classElement_orderly h derived).bind fun x hx => .ite (fun _ => .failAt) fun _ => .pure ?_
  exact extended (P := fun x => Orderly e.source [.classElement x]) hx hitems

/-- What a class extends, and its elements. -/
private def Class.PartsOrderly (source : Text) (superClass : Option Expr)
    (elements : List ClassElement) : Prop :=
  Orderly source (Node.maybe .expr superClass ++ elements.map .classElement)

theorem classRest_orderly (h : r.Grouping) :
    Delivers (classRest r) e fun x => Class.PartsOrderly e.source x.1 x.2.1 := by
  have hsuper : Delivers r.leftHandSide e fun x => Orderly e.source [.expr x] :=
    (h.leftHandSide e).mono fun _ hx => hx.orderly
  refine hsuper.behind.bind fun superClass hsuperClass => ?_
  refine (Delivers.inScope (.within (.skip fun _ => (classElements_orderly h superClass.isSome).bind
    fun items hitems => .skip fun _ => .pure hitems))).bind fun x hx => ?_
  obtain ⟨elements, scope⟩ := x
  exact .pure (.append (.maybe hsuperClass) (.map hx))

/-- A class, by its decorators and its parts. -/
private theorem Class.PartsOrderly.orderly {c : Class}
    (hds : ∀ d ∈ c.decorators, Orderly source [.decorator d])
    (h : Class.PartsOrderly source c.superClass c.body) :
    Orderly source [.expr (.classExpr c)] := by
  have hhead := (Orderly.map hds).append (maybe_name_orderly c.name)
  have hparts := hhead.append h
  rw [← List.append_assoc] at hparts
  exact hparts.node rfl rfl

theorem classLiteral_orderly (h : r.Grouping) (declaration nameOptional : Bool) :
    Delivers (classLiteral r declaration nameOptional) e fun c =>
    Orderly e.source [.expr (.classExpr c)] := by
  refine .skip fun start => (decorators_orderly h).bind fun ds hds => .skip fun _ =>
    .skip fun name => ?_
  dsimp only
  split
  · refine (Delivers.inBlock (.skip fun _ => classRest_orderly h)).bind fun x hx => ?_
    obtain ⟨⟨superClass, elements, scope⟩, nameScope⟩ := x
    exact .bind_pure (.skip fun _ => .pure (Class.PartsOrderly.orderly hds hx))
  · refine (classRest_orderly h).bind fun x hx => ?_
    obtain ⟨superClass, elements, scope⟩ := x
    exact .bind_pure (.skip fun _ => .pure (Class.PartsOrderly.orderly hds hx))

end EcmaStack.Parse
