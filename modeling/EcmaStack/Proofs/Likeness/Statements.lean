import EcmaStack.Proofs.Likeness.Classes

/-!
# Statements at like sites

`Stmt.Alike` says that a statement gives like code at like sites, with whatever labels wait on
it. Every form of statement does so when its parts do. Functions that are declared are lowered
where their scope is opened, and they do not ask what initializes instances there.
-/

namespace EcmaStack

open Code

variable {L : Likeness} {calls : Bool}

/-- A statement gives like code at like sites, and so do the functions it declares, whatever may
be called around them. -/
structure Stmt.Alike (L : Likeness) (calls : Bool) (stmt : Stmt) : Prop where
  lower : ∀ {s s' : CodeSite}, s.Alike L calls s' →
    ∀ labels, Paired L.rel (stmt.lower s labels) (stmt.lower s' labels)
  hoisted : ∀ {around : Bool} {s s' : CodeSite}, s.Alike L around s' →
    List.Forall₂ (Hoisted.Alike L) (stmt.hoisted s) (stmt.hoisted s')

/-- The targets of a declaration and their initializers. -/
structure VarDecl.Alike (L : Likeness) (calls : Bool) (d : VarDecl) : Prop where
  targets : ∀ x ∈ d.list, x.target.Alike L calls
  initializers : ∀ x ∈ d.list, ∀ e ∈ x.initializer, e.Alike L calls

/-- A node gives like code at like sites at the head of a loop, and as the default of a module. -/
structure Node.Alike (L : Likeness) (calls : Bool) (n : Node) : Prop where
  start : ∀ {s s' : CodeSite}, s.Alike L calls s' →
    Paired L.rel (Node.lowerStart s (some n)) (Node.lowerStart s' (some n))
  bind : ∀ {s s' : CodeSite}, s.Alike L calls s' → Paired L.rel (n.lowerBind s) (n.lowerBind s')
  default : ∀ {s s' : CodeSite}, s.Alike L calls s' →
    ∀ span, Paired L.rel (n.lowerDefault s span) (n.lowerDefault s' span)
  hoisted : ∀ {around : Bool} {s s' : CodeSite}, s.Alike L around s' → ∀ span,
    List.Forall₂ (Hoisted.Alike L) (Stmt.hoisted s (.exportDefault span n))
      (Stmt.hoisted s' (.exportDefault span n))

/-! ## Imports, exports and declarations -/

theorem importCode_rel (source : StringLiteral) (attributes : List ImportAttribute) :
    L.rel (importCode source attributes) (importCode source attributes) :=
  L.append (L.plain rfl) (L.flatMap fun _ _ => L.plain rfl)

theorem Node.lowerSpecifiers_paired (specifiers : List Node) :
    Paired L.rel (Node.lowerSpecifiers specifiers) (Node.lowerSpecifiers specifiers) := by
  induction specifiers with
  | nil => exact .ok L.nil
  | cons n rest ih =>
    cases n with
    | importSpecifier i =>
      have hi : L.rel i.lower i.lower := by
        cases i <;> exact L.plain rfl
      exact ih.bind fun _ _ hc => .ok (L.append hi hc)
    | _ => exact .refuse _ _

theorem exportCode_rel (specifiers : List ExportSpecifier) (source : Option StringLiteral)
    (attributes : List ImportAttribute) :
    L.rel (exportCode specifiers source attributes) (exportCode specifiers source attributes) := by
  cases source with
  | none => exact L.flatMap fun _ _ => L.plain rfl
  | some source =>
    have hpass : L.rel
        (specifiers.flatMap fun s => pick 1 ++ string (nameText s.inner) ++ op .getField ++
          text .exportName (nameText s.exported))
        (specifiers.flatMap fun s => pick 1 ++ string (nameText s.inner) ++ op .getField ++
          text .exportName (nameText s.exported)) :=
      L.flatMap fun _ _ => L.plain rfl
    exact L.append (L.append (importCode_rel source attributes) hpass) (L.plain rfl)

theorem VarDecl.Alike.lower {d : VarDecl} (h : d.Alike L calls) {s s' : CodeSite}
    (hs : s.Alike L calls s') :
    Paired L.rel (d.lower s) (d.lower s') := by
  obtain ⟨span, kind, list⟩ := d
  obtain ⟨htargets, hinitializers⟩ := h
  change Paired L.rel (Declarator.lowerList s kind list) (Declarator.lowerList s' kind list)
  induction list with
  | nil => exact .ok L.nil
  | cons x rest ih =>
    obtain ⟨xspan, target, initializer⟩ := x
    have hrest := ih (fun y hy => htargets y (List.mem_cons_of_mem _ hy))
      (fun y hy => hinitializers y (List.mem_cons_of_mem _ hy))
    have htarget : target.Alike L calls := htargets _ List.mem_cons_self
    have hvalue := Expr.lowerOption_paired hs target.use (hinitializers _ List.mem_cons_self)
    -- A `var` without a value is passed over on both sides or on neither.
    refine hvalue.bind fun o o' ho => ?_
    cases ho with
    | none =>
      refine Paired.bind_ite (.ok L.nil) (htarget.lower hs) fun _ _ hc => ?_
      refine hrest.bind fun _ _ hd => .ok (L.append (L.append ?_ hc) hd)
      split
      · exact L.nil
      · exact L.plain rfl
    | some hvalue =>
      refine Paired.bind_ite (.ok L.nil) (htarget.lower hs) fun _ _ hc => ?_
      exact hrest.bind fun _ _ hd => .ok (L.append (L.append hvalue hc) hd)

/-! ## Lists of statements -/

section Lists

variable {s s' : CodeSite}

theorem Stmt.lowerList_paired (hs : s.Alike L calls s') {list : List Stmt}
    (h : ∀ b ∈ list, b.Alike L calls) :
    Paired L.rel (Stmt.lowerList s list) (Stmt.lowerList s' list) := by
  induction list with
  | nil => exact .ok L.nil
  | cons b rest ih =>
    refine ((h b List.mem_cons_self).lower hs []).bind fun _ _ hc => ?_
    exact (ih fun d hd => h d (List.mem_cons_of_mem _ hd)).bind fun _ _ hd => .ok (L.append hc hd)

theorem Stmt.hoistedList_alike {around : Bool} (hs : s.Alike L around s') {list : List Stmt}
    (h : ∀ b ∈ list, b.Alike L calls) :
    List.Forall₂ (Hoisted.Alike L) (Stmt.hoistedList s list) (Stmt.hoistedList s' list) := by
  induction list with
  | nil => exact .nil
  | cons b rest ih =>
    exact List.rel_append ((h b List.mem_cons_self).hoisted hs)
      (ih fun d hd => h d (List.mem_cons_of_mem _ hd))

theorem Block.lower_paired (hs : s.Alike L calls s') {b : Block}
    (h : ∀ x ∈ b.body, x.Alike L calls) :
    Paired L.rel (b.lower s) (b.lower s') := by
  obtain ⟨span, body, scope⟩ := b
  exact inScope_paired scope (Stmt.hoistedList_alike hs h) (Stmt.lowerList_paired hs h)

theorem Stmt.lowerOption_paired (hs : s.Alike L calls s') {o : Option Stmt}
    (h : ∀ b ∈ o, b.Alike L calls) :
    Paired L.rel (Stmt.lowerOption s o) (Stmt.lowerOption s' o) := by
  cases o with
  | none => exact .ok L.nil
  | some b => exact (h b rfl).lower hs []

theorem Block.lowerOption_paired (hs : s.Alike L calls s') {o : Option Block}
    (h : ∀ b ∈ o, ∀ x ∈ b.body, x.Alike L calls) :
    Paired (Option.Rel L.rel) (Block.lowerOption s o) (Block.lowerOption s' o) := by
  cases o with
  | none => exact .ok .none
  | some b => exact (Block.lower_paired hs (h b rfl)).bind fun _ _ hc => .ok (.some hc)

theorem CatchClause.lowerOption_paired (hs : s.Alike L calls s') {handler : Option CatchClause}
    (hparam : ∀ h ∈ handler, ∀ p ∈ h.param, p.Alike L calls)
    (hbody : ∀ h ∈ handler, ∀ b ∈ h.body, b.Alike L calls) :
    Paired (Option.Rel L.rel) (CatchClause.lowerOption s handler)
    (CatchClause.lowerOption s' handler) := by
  cases handler with
  | none => exact .ok .none
  | some clause =>
    obtain ⟨span, param, body, scope⟩ := clause
    have hbody : ∀ b ∈ body, b.Alike L calls := hbody _ rfl
    have hparam : Paired L.rel (Pattern.lowerParam s param) (Pattern.lowerParam s' param) := by
      cases param with
      | none => exact .ok (L.plain rfl)
      | some p => exact (hparam _ rfl p rfl).lower hs
    refine (inScope_paired scope (Stmt.hoistedList_alike hs hbody)
      (hparam.bind fun _ _ hc => ?_)).bind
      fun _ _ hc => .ok (.some hc)
    exact (Stmt.lowerList_paired hs hbody).bind fun _ _ hd => .ok (L.append hc hd)

theorem CaseClause.hoistedList_alike (hs : s.Alike L calls s') {cases : List CaseClause}
    (h : ∀ c ∈ cases, ∀ b ∈ c.consequent, b.Alike L calls) :
    List.Forall₂ (Hoisted.Alike L) (CaseClause.hoistedList s cases)
    (CaseClause.hoistedList s' cases) := by
  induction cases with
  | nil => exact .nil
  | cons c rest ih =>
    obtain ⟨span, test, consequent⟩ := c
    exact List.rel_append (Stmt.hoistedList_alike hs (h _ List.mem_cons_self))
      (ih fun d hd => h d (List.mem_cons_of_mem _ hd))

theorem CaseClause.lowerTests_paired (hs : s.Alike L calls s') {cases : List CaseClause}
    (h : ∀ c ∈ cases, ∀ e ∈ c.test, e.Alike L calls) :
    Paired (List.Forall₂ (Option.Rel L.rel)) (CaseClause.lowerTests s cases)
    (CaseClause.lowerTests s' cases) := by
  induction cases with
  | nil => exact .ok .nil
  | cons c rest ih =>
    obtain ⟨span, test, consequent⟩ := c
    refine (Expr.lowerOption_paired hs .value (h _ List.mem_cons_self)).bind fun _ _ ho => ?_
    exact (ih fun d hd => h d (List.mem_cons_of_mem _ hd)).bind fun _ _ hrest =>
      .ok (.cons ho hrest)

theorem CaseClause.lowerBodies_paired (hs : s.Alike L calls s') {cases : List CaseClause}
    (h : ∀ c ∈ cases, ∀ b ∈ c.consequent, b.Alike L calls) :
    Paired (List.Forall₂ L.rel) (CaseClause.lowerBodies s cases)
    (CaseClause.lowerBodies s' cases) := by
  induction cases with
  | nil => exact .ok .nil
  | cons c rest ih =>
    obtain ⟨span, test, consequent⟩ := c
    refine (Stmt.lowerList_paired hs (h _ List.mem_cons_self)).bind fun _ _ hb => ?_
    exact (ih fun d hd => h d (List.mem_cons_of_mem _ hd)).bind fun _ _ hrest =>
      .ok (.cons hb hrest)

end Lists

theorem Body.Alike.block {span : Span} {directives : List Directive} {items : List Stmt}
    (h : ∀ b ∈ items, b.Alike L calls) : (Body.block span directives items).Alike L calls where
  lower hs := (Stmt.lowerList_paired hs h).bind fun _ _ hc => .ok
    (L.append (L.append (L.flatMap fun _ _ => L.plain rfl) hc) (L.plain rfl))
  hoisted hs := Stmt.hoistedList_alike hs h

theorem Body.Alike.missing : Body.missing.Alike L calls where
  lower _ := .ok (L.plain rfl)
  hoisted _ := .nil

theorem ClassElement.Alike.staticBlock {span : Span} {body : List Stmt} {env : Env}
    (h : ∀ b ∈ body, b.Alike L false) :
    (ClassElement.staticBlock span body env).Alike L where
  lower hs := inScope_paired env.scope (Stmt.hoistedList_alike hs h) (Stmt.lowerList_paired hs h)
  construct _ _ _ hrest := hrest

/-! ## Statements -/

namespace Stmt.Alike

variable {span : Span} {e : Expr} {stmt body : Stmt}

/-- A statement that declares no functions itself. -/
theorem of_lower (hhoisted : ∀ s, stmt.hoisted s = [])
    (hlower : ∀ {s s' : CodeSite}, s.Alike L calls s' →
      ∀ labels, Paired L.rel (stmt.lower s labels) (stmt.lower s' labels)) :
    stmt.Alike L calls where
  lower := hlower
  hoisted {around s s'} _ := by
    rw [hhoisted s, hhoisted s']
    exact .nil

theorem empty : (Stmt.empty span).Alike L calls :=
  of_lower (fun _ => rfl) fun _ _ => .ok L.nil

theorem debugger : (Stmt.debugger span).Alike L calls :=
  of_lower (fun _ => rfl) fun _ _ => .ok (L.plain rfl)

theorem importDecl {specifiers : List Node} {source : StringLiteral}
    {attributes : List ImportAttribute} :
    (Stmt.importDecl span specifiers source attributes).Alike L calls := by
  refine of_lower (fun _ => rfl) fun _ _ => ?_
  refine (Node.lowerSpecifiers_paired (L := L) specifiers).bind fun _ _ hc => .ok ?_
  exact L.append (L.append (importCode_rel source attributes) hc) (L.plain rfl)

theorem exportNames {specifiers : List ExportSpecifier} {source : Option StringLiteral}
    {attributes : List ImportAttribute} :
    (Stmt.exportNamed span none specifiers source attributes).Alike L calls :=
  of_lower (fun _ => rfl) fun _ _ => .ok (exportCode_rel specifiers source attributes)

theorem exportAll {exported : Option Name} {source : StringLiteral}
    {attributes : List ImportAttribute} :
    (Stmt.exportAll span exported source attributes).Alike L calls := by
  refine of_lower (fun _ => rfl) fun _ _ => .ok (L.append (importCode_rel source attributes) ?_)
  cases exported <;> exact L.plain rfl

theorem expression (h : e.Alike L calls) : (Stmt.expression span e).Alike L calls :=
  of_lower (fun _ => rfl) fun hs _ => (h.lower hs .value).bind fun _ _ hc => .ok
    (L.append (L.append hc (L.plain rfl)) (L.plain rfl))

theorem block {b : Block} (h : ∀ x ∈ b.body, x.Alike L calls) : (Stmt.block b).Alike L calls :=
  of_lower (fun _ => rfl) fun hs _ => Block.lower_paired hs h

theorem giveBack {argument : Option Expr} (h : ∀ e ∈ argument, e.Alike L calls) :
    (Stmt.giveBack span argument).Alike L calls :=
  of_lower (fun _ => rfl) fun hs _ => (Expr.lowerOption_paired hs .value h).bind fun _ _ ho => .ok
    (L.append (L.default ho (L.plain rfl)) (L.plain rfl))

theorem raise (h : e.Alike L calls) : (Stmt.raise span e).Alike L calls :=
  of_lower (fun _ => rfl) fun hs _ => (h.lower hs .value).bind fun _ _ hc =>
    .ok (L.append hc (L.plain rfl))

theorem breakOff {label : Option Name} : (Stmt.breakOff span label).Alike L calls :=
  of_lower (fun _ => rfl) fun _ _ => .ok (L.plain rfl)

theorem carryOn {label : Option Name} : (Stmt.carryOn span label).Alike L calls :=
  of_lower (fun _ => rfl) fun _ _ => .ok (L.plain rfl)

theorem labelled {label : Option Name} (hbody : body.Alike L calls) :
    (Stmt.labelled span label body).Alike L calls := by
  refine of_lower (fun _ => rfl) fun hs labels => ?_
  refine Paired.ite (fun _ => hbody.lower hs _) fun _ => ?_
  exact (hbody.lower hs []).bind fun _ _ hc => .ok (L.framed _ Opcode.noConfusion hc)

theorem branch {test : Expr} {consequent : Stmt} {alternate : Option Stmt}
    (htest : test.Alike L calls) (hconsequent : consequent.Alike L calls)
    (halternate : ∀ b ∈ alternate, b.Alike L calls) :
    (Stmt.branch span test consequent alternate).Alike L calls := by
  refine of_lower (fun _ => rfl) fun hs _ => ?_
  refine (htest.lower hs .value).bind fun _ _ hc => ?_
  refine (hconsequent.lower hs []).bind fun _ _ hd => ?_
  exact (Stmt.lowerOption_paired hs halternate).bind fun _ _ hf => .ok (L.choice hc hd hf)

theorem switch {discriminant : Expr} {cases : List CaseClause} {scope : Option Scope}
    (hdiscriminant : discriminant.Alike L calls)
    (htests : ∀ c ∈ cases, ∀ e ∈ c.test, e.Alike L calls)
    (hbodies : ∀ c ∈ cases, ∀ b ∈ c.consequent, b.Alike L calls) :
    (Stmt.switch span discriminant cases scope).Alike L calls := by
  refine of_lower (fun _ => rfl) fun hs labels => ?_
  refine inScope_paired scope (CaseClause.hoistedList_alike hs hbodies) ?_
  refine (hdiscriminant.lower hs .value).bind fun _ _ hc => ?_
  refine (CaseClause.lowerTests_paired hs htests).bind fun _ _ htests => ?_
  refine (CaseClause.lowerBodies_paired hs hbodies).bind fun _ _ hbodies => ?_
  exact (L.switch hc htests hbodies).bind fun _ _ hd => .ok (L.framed _ Opcode.noConfusion hd)

theorem guarded {b : Block} {handler : Option CatchClause} {finalizer : Option Block}
    (hb : ∀ x ∈ b.body, x.Alike L calls) (hparam : ∀ h ∈ handler, ∀ p ∈ h.param, p.Alike L calls)
    (hhandler : ∀ h ∈ handler, ∀ x ∈ h.body, x.Alike L calls)
    (hfinalizer : ∀ f ∈ finalizer, ∀ x ∈ f.body, x.Alike L calls) :
    (Stmt.guarded span b handler finalizer).Alike L calls := by
  refine of_lower (fun _ => rfl) fun hs _ => ?_
  refine (Block.lower_paired hs hb).bind fun _ _ hc => ?_
  refine (CatchClause.lowerOption_paired hs hparam hhandler).bind fun _ _ hd => ?_
  exact (Block.lowerOption_paired hs hfinalizer).bind fun _ _ hf => .ok (L.guarded hc hd hf)

/-! ### Loops -/

private theorem turn_rel (labels : List String) {c c' : Code} (h : L.rel c c') :
    L.rel (turnCode labels c) (turnCode labels c') :=
  L.framed _ Opcode.noConfusion h

private theorem while_rel {t t' c c' : Code} (ht : L.rel t t') (hc : L.rel c c') :
    L.rel (whileCode t c) (whileCode t' c') :=
  L.append (L.repeated Opcode.noConfusion ht hc) (L.plain rfl)

theorem whileLoop {test : Expr} (htest : test.Alike L calls) (hbody : body.Alike L calls) :
    (Stmt.whileLoop span test body).Alike L calls := by
  refine of_lower (fun _ => rfl) fun hs labels => ?_
  refine (htest.lower hs .value).bind fun _ _ hc => ?_
  exact (hbody.lower hs []).bind fun _ _ hd =>
    .ok (L.framed _ Opcode.noConfusion (while_rel hc (turn_rel labels hd)))

theorem doWhile {test : Expr} (hbody : body.Alike L calls) (htest : test.Alike L calls) :
    (Stmt.doWhile span body test).Alike L calls := by
  refine of_lower (fun _ => rfl) fun hs labels => ?_
  refine (hbody.lower hs []).bind fun _ _ hd => ?_
  refine (htest.lower hs .value).bind fun _ _ hc => .ok (L.framed _ Opcode.noConfusion ?_)
  exact L.append (L.repeated Opcode.noConfusion (L.append (turn_rel labels hd) hc) L.nil)
    (L.plain rfl)

theorem forLoop {init : Option Node} {test update : Option Expr} {scope : Option Scope}
    (hinit : ∀ n ∈ init, n.Alike L calls) (htest : ∀ e ∈ test, e.Alike L calls)
    (hupdate : ∀ e ∈ update, e.Alike L calls) (hbody : body.Alike L calls) :
    (Stmt.forLoop span init test update body scope).Alike L calls := by
  refine of_lower (fun _ => rfl) fun {s s'} hs labels => ?_
  have hstart : Paired L.rel (Node.lowerStart s init) (Node.lowerStart s' init) := by
    cases init with
    | none => exact .ok L.nil
    | some n => exact (hinit n rfl).start hs
  refine inScope_paired scope .nil ?_
  refine hstart.bind fun _ _ hc => ?_
  refine (Expr.lowerOption_paired hs .value htest).bind fun _ _ ht => ?_
  refine (hbody.lower hs []).bind fun _ _ hd => ?_
  refine (Expr.lowerOption_paired hs .value hupdate).bind fun u u' hu => .ok ?_
  have hstep : L.rel ((u.map (· ++ op .pop)).getD []) ((u'.map (· ++ op .pop)).getD []) := by
    cases hu with
    | none => exact L.nil
    | some hu => exact L.append hu (L.plain rfl)
  have hturn := L.append (turn_rel labels hd) hstep
  refine L.append hc (L.framed _ Opcode.noConfusion ?_)
  cases ht with
  | none => exact L.forever hturn
  | some ht => exact while_rel ht hturn

/-- A turn of a loop over a collection. -/
private theorem each_paired {s s' : CodeSite} (hs : s.Alike L calls s') {left : Node}
    {scope : Option Scope} {labels : List String} (hleft : left.Alike L calls)
    (hbody : body.Alike L calls) :
    Paired L.rel
      (inScope scope [] do
        let target ← Node.lowerBind s left
        return target ++ turnCode labels (← body.lower s []))
      (inScope scope [] do
        let target ← Node.lowerBind s' left
        return target ++ turnCode labels (← body.lower s' [])) := by
  refine inScope_paired scope .nil ?_
  refine (hleft.bind hs).bind fun _ _ hc => ?_
  exact (hbody.lower hs []).bind fun _ _ hd => .ok (L.append hc (turn_rel labels hd))

private theorem eachCode_rel {advance : Opcode} (hadvance : advance ≠ .setSource) {c c' : Code}
    (hc : L.rel c c') :
    L.rel (eachCode advance c) (eachCode advance c') :=
  L.append (L.repeated Opcode.noConfusion (L.op hadvance) hc) (L.drop 2)

theorem forIn {left : Node} {right : Expr} {scope : Option Scope} (hleft : left.Alike L calls)
    (hright : right.Alike L calls) (hbody : body.Alike L calls) :
    (Stmt.forIn span left right body scope).Alike L calls := by
  refine of_lower (fun _ => rfl) fun hs labels => ?_
  refine (hright.lower hs .value).bind fun _ _ hc => ?_
  refine (each_paired hs hleft hbody).bind fun _ _ hd => .ok ?_
  have hadvance : Opcode.next ≠ .setSource := Opcode.noConfusion
  have hloop :=
    L.framed (o := .pushBreakLabel) (labels ++ [""]) Opcode.noConfusion (eachCode_rel hadvance hd)
  exact L.append (L.append (L.append (L.append hc (L.plain rfl)) (L.plain rfl)) hloop) (L.plain rfl)

theorem forOf {left : Node} {right : Expr} {await : Bool} {scope : Option Scope}
    (hleft : left.Alike L calls) (hright : right.Alike L calls) (hbody : body.Alike L calls) :
    (Stmt.forOf span left right body await scope).Alike L calls := by
  refine of_lower (fun _ => rfl) fun hs labels => ?_
  refine (hright.lower hs .value).bind fun _ _ hc => ?_
  refine (each_paired hs hleft hbody).bind fun _ _ hd => .ok ?_
  have hiterator :
      L.rel (op (if await then .asyncIterator else .iterator))
        (op (if await then .asyncIterator else .iterator)) := by
    cases await <;> exact L.plain rfl
  have hadvance : (if await then Opcode.awaitNext else .next) ≠ .setSource := by
    cases await <;> exact Opcode.noConfusion
  have hloop :=
    L.framed (o := .pushBreakLabel) (labels ++ [""]) Opcode.noConfusion (eachCode_rel hadvance hd)
  exact L.append (L.append (L.append hc hiterator) hloop) (L.plain rfl)

/-! ### Declarations -/

theorem declaration {d : VarDecl} (h : d.Alike L calls) : (Stmt.declaration d).Alike L calls :=
  of_lower (fun _ => rfl) fun hs _ => h.lower hs

theorem function {own : Bool} {f : Function} (h : f.Alike L own) :
    (Stmt.function span f).Alike L calls where
  lower _ _ := .ok L.nil
  hoisted hs := .cons ⟨rfl, rfl, h.lower hs .value⟩ .nil

theorem classDecl {c : Class} (h : c.Alike L calls) : (Stmt.classDecl span c).Alike L calls :=
  of_lower (fun _ => rfl) fun hs _ => (h hs .value).bind fun _ _ hc => .ok
    (L.append (L.append hc (L.plain rfl)) (L.plain rfl))

theorem exportNamed {declared : Stmt} {specifiers : List ExportSpecifier}
    {source : Option StringLiteral} {attributes : List ImportAttribute}
    (h : declared.Alike L calls) :
    (Stmt.exportNamed span (some declared) specifiers source attributes).Alike L calls where
  lower hs _ := (h.lower hs []).bind fun _ _ hc =>
    .ok (L.append hc (L.flatMap fun _ _ => L.plain rfl))
  hoisted hs := h.hoisted hs

theorem exportDefault {declared : Node} (h : declared.Alike L calls) :
    (Stmt.exportDefault span declared).Alike L calls where
  lower hs _ := (h.default hs span).bind fun _ _ hc => .ok (L.append hc (L.plain rfl))
  hoisted hs := h.hoisted hs span

end Stmt.Alike

/-! ## Nodes -/

namespace Node.Alike

theorem expr {e : Expr} (h : e.Alike L calls) : (Node.expr e).Alike L calls where
  start hs := (h.lower hs .value).bind fun _ _ hc => .ok (L.append hc (L.plain rfl))
  bind {s s'} hs := by
    cases e with
    | identifier n => exact .ok (L.plain rfl)
    | member span base property computed optional =>
      have href := h.reference hs .destructuringTarget
      change Paired _ (if optional || base.isOptionalChain then _
        else _) (if optional || base.isOptionalChain then _ else _)
        at href
      refine .ite (fun _ => .refuse span _) fun hchain => ?_
      rw [if_neg hchain, if_neg hchain] at href
      exact href.bind fun _ _ hr => .ok hr.bind
    | _ => exact .refuse _ _
  default hs span := by
    have hvalue := h.lower hs (.named "default")
    cases e with
    | missing => exact .refuse span _
    | _ => exact hvalue
  hoisted _ _ := .nil

theorem pattern {p : Pattern} (h : p.Alike L calls) : (Node.pattern p).Alike L calls where
  start _ := .ok L.nil
  bind hs := h.lower hs
  default _ span := .refuse span _
  hoisted _ _ := .nil

theorem declaration {d : VarDecl} (h : d.Alike L calls) :
    (Node.stmt (.declaration d)).Alike L calls where
  start hs := h.lower hs
  bind hs := by
    obtain ⟨span, kind, list⟩ := d
    match list with
    | [] => exact .refuse _ _
    | [⟨_, target, _⟩] => exact (h.targets _ List.mem_cons_self).lower hs
    | ⟨_, _, _⟩ :: _ :: _ => exact .refuse _ _
  default _ span := .refuse span _
  hoisted _ _ := .nil

theorem function {own : Bool} {span : Span} {f : Function} (h : f.Alike L own) :
    (Node.stmt (.function span f)).Alike L calls where
  start _ := .ok L.nil
  bind _ := .refuse _ _
  default hs _ := by
    rw [Node.lowerDefault_function, Node.lowerDefault_function]
    cases f.name with
    | some n => exact .ok (L.plain rfl)
    | none => exact h.lower hs _
  hoisted hs _ := .cons ⟨rfl, rfl, h.lower hs .value⟩ .nil

theorem classDecl {span : Span} {c : Class} (h : c.Alike L calls) :
    (Node.stmt (.classDecl span c)).Alike L calls where
  start _ := .ok L.nil
  bind _ := .refuse _ _
  default hs _ := by
    rw [Node.lowerDefault_classDecl, Node.lowerDefault_classDecl]
    cases c.name with
    | some n =>
      exact (h hs .value).bind fun _ _ hd => .ok
        (L.append (L.append (L.append hd (L.plain rfl)) (L.plain rfl)) (L.plain rfl))
    | none => exact h hs _
  hoisted _ _ := .nil

end Node.Alike

end EcmaStack
