import EcmaStack.Proofs.Grammar.Functions

/-!
# Expressions are read grammatical

Primary expressions, the chains of members and calls after them, and operators. None of them
binds a name outside the functions and classes in it, so they are grammatical in every chain of
scopes.
-/

namespace EcmaStack.Parse

open Scope (AllGrow Covers)

variable {r : Rules} {e : Surroundings}

/-! ## Primary expressions and chains -/

/-- The values in a template are expressions of the surroundings. -/
theorem templateLiteral_grammatical (h : r.Sound) :
    Yields (templateLiteral r) e fun _ t => ∀ x ∈ t.expressions, x.Grammatical e.calls := by
  refine .skip fun start => ?_
  refine .repeating (fun parts => ∀ x ∈ parts.2, x.Grammatical e.calls) (fun _ hx => nomatch hx)
    fun parts hparts => ?_
  obtain ⟨quasis, expressions⟩ := parts
  refine .skip fun t => .skip fun _ => .ite (fun _ => ?_) fun _ => ?_
  · exact .skip fun _ => .pure (reversed hparts)
  · refine (Yields.within (h.expression _)).bind fun x hx => .skip fun _ =>
      .ite (fun _ => ?_) fun _ => .unexpected
    exact .skip fun _ => .skip fun _ => .skip fun _ => .pure (extended hx hparts)

theorem regExpToken_grammatical (t : Token) (cursor : Cursor) (previousEnd : Nat) :
    Yields (regExpToken t cursor previousEnd) e fun _ => Expr.ReadPlain e.calls :=
  .skip fun _ => .skip fun _ => .skip fun _ => .pure ⟨.atom rfl, rfl⟩

/-- A regular expression has nothing in it that could be ungrammatical: its pattern was
checked when it was read. -/
theorem regExpLiteral_grammatical : Yields regExpLiteral e fun _ => Expr.ReadPlain e.calls := by
  refine .skip fun s => .skip fun here => ?_
  dsimp only
  split
  · exact .failAt
  · refine .ite (fun _ => .unexpected) fun _ => .ite (fun _ => ?_) fun _ =>
      regExpToken_grammatical _ _ _
    split
    · exact regExpToken_grammatical _ _ _
    · exact .skip fun _ => regExpToken_grammatical _ _ _

theorem arrayItems_grammatical (h : r.Sound) :
    Yields (arrayItems r) e fun _ items => ∀ x ∈ items, x.Grammatical e.calls := by
  refine .collecting (Expr.Grammatical e.calls) fun items hitems => .skip fun _ =>
    .ite (fun _ => ?_) fun _ => ?_
  · exact .pure (reversed hitems)
  · refine .skip fun _ => .ite (fun _ => ?_) fun _ => ?_
    · exact .skip fun _ => .pure (extended (.atom rfl) hitems)
    · refine (spreadOrAssignment_grammatical h).bind fun x hx => .skip fun _ =>
        .ite (fun _ => ?_) fun _ => ?_
      · exact .pure (extended hx hitems)
      · exact .skip fun _ => .pure (extended hx hitems)

theorem arrayLiteral_grammatical (h : r.Sound) :
    Yields (arrayLiteral r) e fun _ => Expr.ReadPlain e.calls :=
  .skip fun _ => (Yields.within (arrayItems_grammatical h)).bind fun _ helements =>
    .skip fun _ => .skip fun _ => .pure ⟨.array helements, rfl⟩

/-- A shorthand property stands for its own name. -/
theorem shorthand_grammatical (t : Token) (key : Expr) :
    Yields (shorthand t key) e fun _ => Property.Grammatical e.calls := by
  unfold shorthand
  split
  · refine .ite (fun _ => .unexpected) fun _ => .skip fun _ => .ite (fun _ => .failAt) fun _ => ?_
    exact .skip fun _ => .ite (fun _ => .fail) fun _ => .pure .short
  · exact .unexpected

theorem objectProperty_grammatical (h : r.Sound) :
    Yields (objectProperty r) e fun _ => Property.Grammatical e.calls := by
  refine .skip fun start => .skip fun _ => .ite (fun _ => ?_) fun _ => ?_
  · exact .skip fun _ => (h.assignment e).bind fun x hx => .skip fun _ => .pure (.spread hx)
  · refine .skip fun m => .skip fun t => (propertyKey_grammatical h).bind fun o ho => ?_
    cases o with
    | none => exact .unexpected
    | some k =>
      obtain ⟨key, computed⟩ := k
      have hkey : key.Grammatical e.calls := ho _ rfl
      refine .skipIf fun _ => .skip fun _ => .ite (fun _ => ?_) fun _ => ?_
      · exact (method_grammatical h _ _ _ _ _).bind fun f hf => .skip fun _ =>
          .pure (.keyed hkey hf.expr)
      · refine .skip fun _ => .ite (fun _ => ?_) fun _ => shorthand_grammatical t key
        exact .skip fun _ => (h.assignment e).bind fun x hx => .skip fun _ => .pure (.keyed hkey hx)

theorem objectLiteral_grammatical (h : r.Sound) :
    Yields (objectLiteral r) e fun _ => Expr.ReadPlain e.calls := by
  refine .skip fun start => (Yields.within (.commaList (objectProperty_grammatical h))).bind
    fun ps hps => ?_
  exact .skip fun _ => .skip fun _ => .pure ⟨.object hps, rfl⟩

/-- An expression that was read up to a state. Where no superclass's constructor may be called,
it is a bare `super` only before a property. -/
private def Operand (calls : Bool) (t : ParseState) (x : Expr) : Prop :=
  x.Grammatical calls ∧
    (x.isSuper = true → calls = true ∨ t.token.kind = .punct .dot ∨
      t.token.kind = .punct .leftBracket)

/-- What is no `super` is an operand wherever it stands. -/
private theorem Operand.of_plain {calls : Bool} {t : ParseState} {x : Expr}
    (h : x.ReadPlain calls) : Operand calls t x :=
  ⟨h.1, fun hsuper => nomatch h.2.symm.trans hsuper⟩

/-- `super` is read where it is a call or a member: what follows decides, and the region
says whether a call is allowed. -/
private theorem superReference_operand {s t : ParseState} {x : Expr}
    (heq : superReference e s = .ok (x, t)) :
    AllGrow s.scopes t.scopes ∧ Operand e.calls t x := by
  obtain ⟨start, u, hstart, heq⟩ := bind_ok heq
  have hgrow : AllGrow s.scopes u.scopes := (Yields.any (expectWord .superWord) s start u hstart).1
  obtain ⟨k, _, hkind, heq⟩ := bind_ok heq
  cases hkind
  have hrest {allowed : Bool} (heq : (do
        if allowed then return Expr.superRef (← spanFrom start)
        failAt start .superOutside : Parse Expr) e u = .ok (x, t))
      (hallowed : allowed = true → e.calls = true ∨ u.token.kind = .punct .dot ∨
        u.token.kind = .punct .leftBracket) :
      AllGrow s.scopes t.scopes ∧ Operand e.calls t x := by
    cases allowed with
    | false => cases heq
    | true =>
      cases heq
      exact ⟨hgrow, .atom rfl, fun _ => hallowed rfl⟩
  generalize hk : u.token.kind = k at heq
  dsimp only at heq
  split at heq
  · exact hrest heq fun hcalls => Or.inl hcalls
  · exact hrest heq fun _ => Or.inr (Or.inl hk)
  · exact hrest heq fun _ => Or.inr (Or.inr hk)
  · cases heq

/-- The source of an import, and the options if there are any. -/
theorem importArguments_grammatical (h : r.Sound) :
    Yields (importArguments r) e fun _ x =>
      x.1.Grammatical e.calls ∧ ∀ o ∈ x.2, o.Grammatical e.calls := by
  refine (h.assignment _).bind fun source hsource => .skip fun _ => .ite (fun _ => ?_) fun _ => ?_
  · refine .skip fun _ => .skip fun _ => .ite (fun _ => .pure ⟨hsource, absent⟩) fun _ => ?_
    refine (h.assignment _).bind fun options hoptions => .skip fun _ => ?_
    exact .skipIf fun _ => .pure ⟨hsource, present hoptions⟩
  · exact .pure ⟨hsource, absent⟩

theorem importExpression_grammatical (h : r.Sound) :
    Yields (importExpression r) e fun _ => Expr.ReadPlain e.calls := by
  refine .skip fun start => .skip fun _ => .ite (fun _ => ?_) fun _ => ?_
  · refine .skip fun _ => .skip fun _ => .skipIf fun _ => .skip fun _ => .skipIf fun _ => ?_
    exact .skip fun _ => .skip fun _ => .skip fun _ => .pure ⟨.atom rfl, rfl⟩
  · refine .skip fun _ => (Yields.within (importArguments_grammatical h)).bind fun x hx =>
      .skip fun _ => .skip fun _ => ?_
    exact .pure ⟨.importCall hx.1 hx.2, rfl⟩

theorem identifierOrFunction_grammatical (h : r.Sound) :
    Yields (identifierOrFunction r) e fun _ => Expr.ReadPlain e.calls := by
  refine .skip fun _ => .ite (fun _ => ?_) fun _ => identifierReference_grammatical
  refine .skip fun t => .ite (fun _ => ?_) fun _ => identifierReference_grammatical
  exact (function_grammatical h false false).bind fun f hf => .pure ⟨hf.expr, rfl⟩

/-- A primary expression. Only `super` depends on what comes next, so the token behind it
is part of what is known. -/
theorem primary_operand (h : r.Sound) {s t : ParseState} {x : Expr}
    (heq : primary r e s = .ok (x, t)) :
    AllGrow s.scopes t.scopes ∧ Operand e.calls t x := by
  have hplain {p : Parse Expr} (hp : Yields p e fun _ => Expr.ReadPlain e.calls)
      (heq : p e s = .ok (x, t)) :
      AllGrow s.scopes t.scopes ∧ Operand e.calls t x :=
    (hp s x t heq).imp_right fun hx => .of_plain (hx t.scopes (.refl t.scopes))
  obtain ⟨here, _, hhere, heq⟩ := bind_ok heq
  generalize here.kind = k at heq
  cases hhere
  split at heq
  · exact hplain (identifierOrFunction_grammatical h) heq
  · exact hplain (.skip fun _ => .pure ⟨.atom rfl, rfl⟩) heq
  · exact superReference_operand heq
  · exact hplain (.skip fun _ => .pure ⟨.atom rfl, rfl⟩) heq
  · exact hplain (.skip fun _ => .pure ⟨.atom rfl, rfl⟩) heq
  · exact hplain (.skip fun _ => .pure ⟨.atom rfl, rfl⟩) heq
  · exact hplain (.skip fun _ => numberLiteral_grammatical _) heq
  · exact hplain (.skip fun _ => numberLiteral_grammatical _) heq
  · exact hplain (.skip fun _ => .skip fun _ => .pure ⟨.atom rfl, rfl⟩) heq
  · exact hplain ((templateLiteral_grammatical h).bind fun q hq => .pure ⟨.template hq, rfl⟩) heq
  · exact hplain ((templateLiteral_grammatical h).bind fun q hq => .pure ⟨.template hq, rfl⟩) heq
  · exact hplain regExpLiteral_grammatical heq
  · exact hplain regExpLiteral_grammatical heq
  · exact hplain (arrayLiteral_grammatical h) heq
  · exact hplain (objectLiteral_grammatical h) heq
  · exact hplain (parenthesized_grammatical h) heq
  · exact hplain ((function_grammatical h false false).bind fun f hf => .pure ⟨hf.expr, rfl⟩) heq
  · exact hplain ((classLiteral_grammatical h false true).bind fun c hc => .pure ⟨.classExpr hc,
      rfl⟩) heq
  · exact hplain ((classLiteral_grammatical h false true).bind fun c hc => .pure ⟨.classExpr hc,
      rfl⟩) heq
  · exact hplain (importExpression_grammatical h) heq
  · refine hplain (.skip fun _ => .skip fun _ => .ite (fun _ => ?_) fun _ => .unexpected) heq
    exact .skip fun _ => .pure ⟨.atom rfl, rfl⟩
  · exact hplain .unexpected heq

theorem bracketKey_grammatical (h : r.Sound) :
    Yields (bracketKey r) e fun _ => Expr.Grammatical e.calls :=
  .skip fun _ => (Yields.within (h.expression _)).bind fun _ hx => .skip fun _ => .pure hx

/-- An optional link makes no tagged template, and a template behind it is an error. -/
theorem optionalLink_grammatical (h : r.Sound) (start : Nat) {left : Expr}
    (hleft : left.Grammatical e.calls) (hsuper : left.isSuper = true → e.calls = true) :
    Yields (optionalLink r start left) e fun _ => Expr.ReadPlain e.calls := by
  refine .skip fun k => ?_
  split
  · exact (arguments_grammatical h).bind fun args hargs => .skip fun _ =>
      .pure ⟨.call hsuper hleft hargs, rfl⟩
  · exact (bracketKey_grammatical h).bind fun key hkey => .skip fun _ =>
      .pure ⟨.member hleft hkey, rfl⟩
  · exact .fail
  · exact .fail
  · exact memberName_grammatical.bind fun key hkey => .skip fun _ => .pure ⟨.member hleft hkey, rfl⟩

/-- A link of a chain is no bare `super`, so only the first link has to look at what follows. -/
private theorem chain_grammatical (h : r.Sound) {left : Expr} (allowCall : Bool) {s t : ParseState}
    {x : Expr} (hleft : Operand e.calls s left) (heq : chain r left allowCall e s = .ok (x, t)) :
    AllGrow s.scopes t.scopes ∧ x.Grammatical e.calls := by
  refine (Yields.repeatingAt (R := fun _ x => x.Grammatical e.calls)
    (fun s x => Operand e.calls s x.1) ?_ hleft heq).imp_right
    fun hx => hx t.scopes (.refl t.scopes)
  -- One turn of the loop. What was read so far is an operand, which may be `super` only in front
  -- of a member or a call.
  intro ⟨left, optional⟩ s turn t ⟨hleft, hsuper⟩ heq
  obtain ⟨k, _, hkind, heq⟩ := bind_ok heq
  cases hkind
  have hlink {p : Parse (Turn (Expr × Bool) Expr)} (hp : Yields p e fun _ =>
        Turn.Holds (fun y => y.1.ReadPlain e.calls) fun y =>
        y.Grammatical e.calls) (heq : p e s = .ok (turn, t)) :
      AllGrow s.scopes t.scopes ∧ ∀ chain, Covers t.scopes chain →
        Turn.Holds (fun y => Operand e.calls t y.1) (fun y => y.Grammatical e.calls) turn := by
    refine (hp s turn t heq).imp_right fun hturn chain hchain => ?_
    cases turn with
    | again y => exact .of_plain (hturn chain hchain)
    | done y => exact hturn chain hchain
  have hcalls {k : Kind} (hk : s.token.kind = k) (hdot : k ≠ .punct .dot)
      (hbracket : k ≠ .punct .leftBracket)
      (hleft : left.isSuper = true) : e.calls = true := by
    rcases hsuper hleft with hcalls | hkind | hkind
    · exact hcalls
    · exact absurd (hk.symm.trans hkind) hdot
    · exact absurd (hk.symm.trans hkind) hbracket
  have hdone : Turn.Holds (fun y : Expr × Bool => y.1.ReadPlain e.calls)
      (fun y => y.Grammatical e.calls) (.done left) :=
    hleft
  -- The links by their first token; what is none of them ends the chain.
  generalize hk : s.token.kind = k at heq
  split at heq
  · refine hlink (.skip fun _ => memberName_grammatical.bind fun key hkey => .skip fun _ => ?_) heq
    exact .pure (show Expr.ReadPlain _ _ from ⟨.member hleft hkey, rfl⟩)
  · refine hlink ((bracketKey_grammatical h).bind fun key hkey => .skip fun _ => ?_) heq
    exact .pure (show Expr.ReadPlain _ _ from ⟨.member hleft hkey, rfl⟩)
  · refine hlink (.skipIf fun _ => .skip fun _ => ?_) heq
    exact (optionalLink_grammatical h _ hleft (hcalls hk (by decide) (by decide))).bind fun y hy =>
      .pure (show Expr.ReadPlain _ _ from hy)
  · refine hlink (.ite (fun _ => .pure hdone) fun _ => ?_) heq
    refine (arguments_grammatical h).bind fun args hargs => .skip fun _ => ?_
    exact .pure (show Expr.ReadPlain _ _ from ⟨.call (hcalls hk (by decide) (by decide)) hleft
      hargs, rfl⟩)
  · refine hlink (.skipIf fun _ => (templateLiteral_grammatical h).bind fun q hq => .skip fun _ =>
      ?_) heq
    exact .pure (show Expr.ReadPlain _ _ from ⟨.tagged hleft hq, rfl⟩)
  · refine hlink (.skipIf fun _ => (templateLiteral_grammatical h).bind fun q hq => .skip fun _ =>
      ?_) heq
    exact .pure (show Expr.ReadPlain _ _ from ⟨.tagged hleft hq, rfl⟩)
  · exact hlink (.pure hdone) heq

/-- A chain after an operand. -/
private theorem operand_chain_grammatical (h : r.Sound) {p : Parse Expr} (allowCall : Bool)
    (hp : ∀ s x t, p e s = .ok (x, t) → AllGrow s.scopes t.scopes ∧ Operand e.calls t x) :
    Yields (p >>= fun x => chain r x allowCall) e fun _ => Expr.Grammatical e.calls := by
  intro s x u heq
  obtain ⟨left, t, hread, heq⟩ := bind_ok heq
  obtain ⟨hst, hleft⟩ := hp s left t hread
  obtain ⟨htu, hx⟩ := chain_grammatical h allowCall hleft heq
  exact ⟨hst.trans htu, fun _ _ => hx⟩

/-- What `new` constructs is an operand, which may be `super` before a member. -/
private theorem construct_operand (h : r.Sound) {s t : ParseState} {x : Expr}
    (heq : r.construct e s = .ok (x, t)) :
    AllGrow s.scopes t.scopes ∧ Operand e.calls t x :=
  (h.construct e s x t heq).imp_right fun hx => .of_plain (hx t.scopes (.refl t.scopes))

theorem newExpression_grammatical (h : r.Sound) :
    Yields (newExpression r) e fun _ => Expr.ReadPlain e.calls := by
  have hconstructed (s : ParseState) (x : Expr) (t : ParseState)
      (heq : constructed r e s = .ok (x, t)) :
      AllGrow s.scopes t.scopes ∧ Operand e.calls t x := by
    obtain ⟨k, _, hkind, heq⟩ := bind_ok heq
    cases hkind
    generalize s.token.kind = k at heq
    split at heq
    · exact construct_operand h heq
    · cases heq
    · exact primary_operand h heq
  refine .skip fun start => .skip fun _ => .ite (fun _ => ?_) fun _ => ?_
  · refine .skip fun _ => .skip fun _ => .skipIf fun _ => .skip fun _ => .skipIf fun _ => ?_
    exact .skip fun _ => .skip fun _ => .skip fun _ => .pure ⟨.atom rfl, rfl⟩
  · have hrest (callee : Expr) (hcallee : callee.Grammatical e.calls) : Yields (do
        let args ← if ← atPunct .leftParen then arguments r else pure []
        return Expr.construct (← spanFrom start) callee args) e fun _ =>
          Expr.ReadPlain e.calls := by
      refine .skip fun _ => .ite (fun _ => ?_) fun _ => ?_
      · exact (arguments_grammatical h).bind fun args hargs => .skip fun _ =>
          .pure ⟨.construct hcallee hargs, rfl⟩
      · exact .bind_pure (.skip fun _ => .pure
          ⟨.construct hcallee fun _ hx => absurd hx List.not_mem_nil, rfl⟩)
    intro s x u heq
    obtain ⟨left, t, hread, heq⟩ := bind_ok heq
    obtain ⟨callee, t', hchain, heq⟩ := bind_ok heq
    obtain ⟨hst, hleft⟩ := hconstructed s left t hread
    obtain ⟨htt', hcallee⟩ := chain_grammatical h false hleft hchain
    exact (hrest callee hcallee t' x u heq).imp_left fun htu => (hst.trans htt').trans htu

/-- A chain of members and calls around an operand. -/
theorem leftHandSide_grammatical (h : r.Sound) :
    Yields (leftHandSide r) e fun _ => Expr.Grammatical e.calls := by
  refine .skip fun _ => .ite (fun _ => ?_) fun _ => ?_
  · exact operand_chain_grammatical h true fun _ _ _ => construct_operand h
  · exact operand_chain_grammatical h true fun _ _ _ => primary_operand h

/-! ## Operators -/

theorem updateExpression_grammatical (h : r.Sound) :
    Yields (updateExpression r) e fun _ => Expr.Grammatical e.calls := by
  refine (h.leftHandSide e).bind fun operand hoperand => .skip fun t =>
    .ite (fun _ => .pure hoperand) fun _ => ?_
  split
  · exact .failAt
  · next target htarget =>
    exact .skip fun _ => .skip fun _ => .pure (.update (simpleTarget?_grammatical hoperand htarget))

/-- A unary operator, an `await` where the region has it, or a power's left operand. -/
theorem unaryExpression_grammatical (h : r.Sound) :
    Yields (unaryExpression r) e fun _ => Expr.Grammatical e.calls := by
  refine .skip fun t => .ite (fun _ => ?_) fun _ => .ite (fun _ => ?_) fun _ => ?_
  · refine .skip fun _ => (h.unary e).bind fun operand hoperand => .skipIf fun _ => ?_
    exact .skip fun _ => .pure (.unary hoperand)
  · refine .skip fun _ => (h.unary e).bind fun operand hoperand => ?_
    split
    · exact .failAt
    · next target htarget =>
        exact .skip fun _ => .pure (.update (simpleTarget?_grammatical hoperand htarget))
  · refine .skip fun _ => .skip fun _ => .ite (fun _ => ?_) fun _ => updateExpression_grammatical h
    exact .skip fun _ => (h.unary e).bind fun x hx => .skip fun _ => .pure (.await hx)

/-- Operands and operators of one tier and above, by induction on how many are joined. -/
theorem binaryExpression_grammatical (h : r.Sound) (least : Nat) :
    Yields (binaryExpression r least) e fun _ => Expr.Grammatical e.calls := by
  refine (h.unary e).bind fun first hfirst =>
    .repeating (Expr.Grammatical e.calls) hfirst fun left hleft => ?_
  refine .skip fun t => .skip fun _ => .ite (fun _ => .pure hleft) fun _ => .skipIf fun _ =>
    .skip fun _ => ?_
  refine (h.binary e _).bind fun right hright => .skipIf fun _ => ?_
  exact .pure (Expr.Grammatical.binary hleft hright)

theorem conditional_grammatical (h : r.Sound) :
    Yields (conditional r) e fun _ => Expr.Grammatical e.calls := by
  refine (h.binary e loosest).bind fun test htest => .skip fun _ => .ite (fun _ => ?_) fun _ =>
    .pure htest
  refine .skip fun _ => (Yields.within (h.assignment _)).bind fun yes hyes => .skip fun _ => ?_
  exact (h.assignment e).bind fun no hno => .pure (.conditional htest hyes hno)

theorem yieldExpression_grammatical (h : r.Sound) :
    Yields (yieldExpression r) e fun _ => Expr.Grammatical e.calls := by
  refine .skip fun start => .skip fun _ => .skip fun t => .ite (fun _ => ?_) fun _ => ?_
  · exact .skip fun _ => .pure (.yield absent)
  · refine .ite (fun _ => ?_) fun _ => .ite (fun _ => ?_) fun _ => .skip fun _ =>
      .pure (.yield absent)
    · exact .skip fun _ => (h.assignment e).bind fun x hx => .skip fun _ =>
        .pure (.yield (present hx))
    · exact (h.assignment e).bind fun x hx => .skip fun _ => .pure (.yield (present hx))

/-- A target is a pattern or what a pattern can be made of. There may be none, and then
nothing is claimed. -/
theorem assignmentTarget_grammatical (h : r.Sound) :
    Yields (assignmentTarget r) e fun _ o => ∀ p ∈ o, p.Grammatical e.calls := by
  refine .skip fun k => ?_
  split
  · exact bindingTarget_grammatical
  · exact arrayPattern_grammatical h false
  · exact objectPattern_grammatical h false
  · exact .pure absent

/-- An assignment to a pattern that takes its value apart. -/
theorem patternAssignment_grammatical (h : r.Sound) :
    Yields (patternAssignment r) e fun _ o => ∀ x ∈ o, x.Grammatical e.calls := by
  refine .skip fun start => .attempt ((assignmentTarget_grammatical h).bind fun o ho => ?_)
  cases o with
  | none => exact .pure absent
  | some target =>
    refine .skip fun op => .ite (fun _ => .pure absent) fun _ => .skip fun _ => ?_
    exact (h.assignment e).bind fun x hx => .skip fun _ =>
      .pure (present (.assign (ho target rfl) hx))

theorem plainAssignment_grammatical (h : r.Sound) :
    Yields (plainAssignment r) e fun _ => Expr.Grammatical e.calls := by
  refine (conditional_grammatical h).bind fun left hleft => .skip fun op =>
    .ite (fun _ => .pure hleft) fun _ => ?_
  split
  · exact .failAt
  · next target htarget =>
    refine .skip fun _ => (h.assignment e).bind fun x hx => ?_
    refine (asPattern_grammatical (simpleTarget?_grammatical hleft htarget)).bind fun p hp => ?_
    exact .pure (.assign hp hx)

/-- Arrow functions come first, then assignments to patterns, and what is left is an
ordinary expression. -/
theorem assignmentExpression_grammatical (h : r.Sound) :
    Yields (assignmentExpression r) e fun _ => Expr.Grammatical e.calls := by
  refine .skip fun _ => .skip fun _ => .ite (fun _ => yieldExpression_grammatical h) fun _ => ?_
  refine (arrowFunction_grammatical h).bind fun arrow harrow => ?_
  cases arrow with
  | some x => exact .pure (harrow x rfl)
  | none =>
    refine (patternAssignment_grammatical h).bind fun pattern hpattern => ?_
    cases pattern with
    | some x => exact .pure (hpattern x rfl)
    | none => exact plainAssignment_grammatical h

theorem commaExpression_grammatical (h : r.Sound) :
    Yields (commaExpression r) e fun _ => Expr.Grammatical e.calls := by
  refine (h.assignment e).bind fun left hleft => .skip fun _ => .ite (fun _ => ?_) fun _ =>
    .pure hleft
  exact .skip fun _ => (h.expression e).bind fun right hright => .pure (.binary hleft hright)

end EcmaStack.Parse
