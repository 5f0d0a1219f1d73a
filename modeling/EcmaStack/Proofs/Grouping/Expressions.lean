import EcmaStack.Proofs.Grouping.Functions

/-!
# Expressions are read in order

Primary expressions and the chains of members and calls after them may stand on either side of
any operator. A template and a regular expression are read again from a token in hand; they are
out of step only until they go on to the next token.
-/

namespace EcmaStack

open Node (Orderly)
open ParseState (Onward)
open Scope (frames)

/-! ## Out of step -/

/-- From a state to a later one in the same scopes, which may be out of step. -/
structure ParseState.Strays (source : Text) (s t : ParseState) : Prop where
  ready : t.Ready source
  frames : frames t.scopes = frames s.scopes
  fresh : s.fresh ≤ t.fresh

namespace ParseState

variable {source : Text} {s t u : ParseState}

/-- What goes on within the scopes strays from nothing that was in step. -/
theorem Onward.strays (h : Onward source s t) (hs : s.InStep source) : Strays source s t :=
  ⟨(h.inStep hs).ready, h.frames, h.fresh⟩

/-- Tokens that were read take a parser from a state out of step to another. -/
theorem Strays.pass (h : Strays source s t) (hread : Stretch source false t u []) :
    Strays source s u :=
  ⟨hread.ready, hread.sameFrames.trans h.frames, Nat.le_trans h.fresh hread.scopes.fresh⟩

/-- The next token brings a parser back in step. -/
theorem Strays.next {e : Surroundings} (h : Strays e.source s t) :
    Parse.Holds Parse.next e t fun _ u => Onward e.source s u := by
  intro a u hnext
  obtain ⟨place, hplace, hstands⟩ := h.ready.placed.stands
  obtain ⟨hu, hscopes, hfresh⟩ :=
    Parse.next_scanned hstands.stop (hplace.trans hstands.reaches) hnext
  exact ⟨hu, hscopes ▸ h.frames, hfresh ▸ h.fresh⟩

end ParseState

open ParseState (Strays)

namespace Parse

variable {r : Rules} {e : Surroundings} {source : Text}

/-! ## Literals -/

/-- The slots of a template are orderly if its values are. -/
theorem Template.slots_orderly {qs : List TemplateElement} {es : List Expr}
    (h : ∀ x ∈ es, Orderly source [.expr x]) :
    Orderly source (Template.slots qs es) := by
  have hquasi (q : TemplateElement) : Orderly source [.templateElement q] := .leaf rfl rfl
  induction qs generalizing es with
  | nil => exact .nil
  | cons q qs ih =>
    cases es with
    | nil => exact (hquasi q).cons (ih h)
    | cons x es =>
      have hrest : ∀ y ∈ es, Orderly source [.expr y] := fun y hy => h y (List.mem_cons_of_mem x hy)
      exact (hquasi q).cons ((h x List.mem_cons_self).cons (ih hrest))

/-- Between the pieces of a template the closing brace is read again, and before each expression
a text is read. -/
theorem templateLiteral_orderly (h : r.Grouping) :
    Delivers (templateLiteral r) e fun t => Orderly e.source [.expr (.template t)] := by
  intro s hs
  refine .known rfl (.repeating (fun parts t => Strays e.source s t ∧
    parts.2.length ≤ parts.1.length ∧
      ∀ x ∈ parts.2, Orderly e.source [.expr x])
    ⟨(Onward.refl hs.scanned).strays hs, Nat.le_refl 0, fun _ hx => nomatch hx⟩ fun parts t ⟨ht,
      hcount, hparts⟩ => ?_)
  obtain ⟨quasis, expressions⟩ := parts
  refine .known rfl (.bind ht.next fun _ u hu => .ite (fun _ => .known rfl (.pure ⟨hu, ?_⟩))
    fun _ => ?_)
  · refine .close (Template.slots_orderly (reversed hparts)) ?_
    show expressions.reverse.length ≤ (_ :: quasis).reverse.length
    rw [List.length_reverse, List.length_reverse]
    exact Nat.le_succ_of_le hcount
  refine .bind (Delivers.within (h.expression _) u (hu.inStep hs)) fun x v ⟨hv, hx⟩ => .known rfl ?_
  refine .ite (fun _ => .known rfl (.known rfl ?_)) fun _ => .unexpected
  have hstrays := (hu.trans hv).strays hs
  refine .bind (rescan_passage (fun _ _ => readTemplateContinuation_gives) hstrays.ready rfl)
    fun _ w ⟨hw, _⟩ => ?_
  exact .pure ⟨hstrays.pass hw, Nat.succ_le_succ hcount,
    extended (P := fun x => Orderly e.source [.expr x]) hx hparts⟩

/-- The token in hand is read again, so what comes into hand stands in step like it. -/
theorem regExpToken_orderly {t : Token} {cursor : Cursor} {s : ParseState} (hs : s.InStep e.source)
    (heq : rescanRegExp e.source s.token = (t, cursor)) :
    Holds (regExpToken t cursor s.previousEnd) e s fun x u =>
      Onward e.source s u ∧ x.Operand e.source := by
  refine .bind (rescan_passage (fun _ _ => readRegExp_gives) hs.ready heq) fun _ u hu => ?_
  obtain ⟨hu, -⟩ := hu
  refine .bind (((Onward.refl hs.scanned).strays hs).pass hu).next fun _ v hv => ?_
  have hliteral :
      Delivers (do return Expr.regexp (tokenSpan t) (← literal t) t.value t.raw.toString) e
      (Expr.Operand e.source) := .skip fun _ => .pure (.leaf rfl rfl rfl)
  exact (hliteral v (hv.inStep hs)).mono fun _ _ hx => ⟨hv.trans hx.1, hx.2⟩

/-- A slash is read again as a regular expression. -/
theorem regExpLiteral_orderly : Delivers regExpLiteral e (Expr.Operand e.source) := by
  intro s hs
  refine .known rfl (.known rfl ?_)
  rcases heq : rescanRegExp e.source s.token with ⟨t, cursor⟩
  dsimp only
  split
  · exact .failAt
  · refine .ite (fun _ => .unexpected) fun _ => .ite (fun _ => ?_) fun _ =>
      regExpToken_orderly hs heq
    split
    · exact regExpToken_orderly hs heq
    · exact .bind (P := fun _ _ => False) .failAt fun _ _ => False.elim

theorem arrayItems_orderly (h : r.Grouping) :
    Delivers (arrayItems r) e fun items => ∀ x ∈ items, Orderly e.source [.expr x] := by
  refine .collecting (Q := fun x => Orderly e.source [.expr x]) fun items hitems => .skip
    fun _ => ?_
  refine .ite (fun _ => .pure (reversed hitems)) fun _ => .skip fun _ =>
    .ite (fun _ => ?_) fun _ => ?_
  · exact .skip fun _ =>
      .pure (extended (P := fun x => Orderly e.source [.expr x]) (.leaf rfl rfl) hitems)
  · refine (spreadOrAssignment_orderly h).bind fun x hx => .skip fun _ => ?_
    have hmore : ∀ y ∈ x :: items, Orderly e.source [.expr y] := extended hx hitems
    exact .ite (fun _ => .pure hmore) fun _ => .skip fun _ => .pure hmore

theorem arrayLiteral_orderly (h : r.Grouping) :
    Delivers (arrayLiteral r) e (Expr.Operand e.source) :=
  .skip fun _ => (Delivers.within (arrayItems_orderly h)).bind fun _ hitems => .skip fun _ =>
    .skip fun _ => .pure (.node (.map hitems) rfl rfl rfl)

theorem shorthand_orderly (t : Token) (key : Expr) :
    Delivers (shorthand t key) e fun p => Orderly e.source [.property p] := by
  unfold shorthand
  split
  · refine .ite (fun _ => .unexpected) fun _ => .skip fun _ => .ite (fun _ => .failAt) fun _ => ?_
    exact .skip fun _ => .ite (fun _ => .fail) fun _ => .pure ((maybe_name_orderly _).node rfl rfl)
  · exact .unexpected

/-- A property holds operands in the places where the grammar asks for an assignment. -/
theorem objectProperty_orderly (h : r.Grouping) :
    Delivers (objectProperty r) e fun p => Orderly e.source [.property p] := by
  refine .skip fun start => .skip fun _ => .ite (fun _ => ?_) fun _ => ?_
  · exact .skip fun _ => (h.value e).bind fun x hx => .skip fun _ => .pure (hx.node rfl rfl)
  · refine .skip fun m => .skip fun t => (propertyKey_orderly h).bind fun o ho => ?_
    cases o with
    | none => exact .unexpected
    | some k =>
      obtain ⟨key, computed⟩ := k
      have hkey : Orderly e.source [.expr key] := ho _ rfl
      refine .skipIf fun _ => .skip fun _ => .ite (fun _ => ?_) fun _ => ?_
      · exact (method_orderly h _ _ _ _ _).bind fun f hf => .skip fun _ =>
          .pure ((hkey.pair hf).node rfl rfl)
      · refine .skip fun _ => .ite (fun _ => ?_) fun _ => shorthand_orderly t key
        exact .skip fun _ => (h.value e).bind fun x hx => .skip fun _ =>
          .pure ((hkey.pair hx).node rfl rfl)

theorem objectLiteral_orderly (h : r.Grouping) :
    Delivers (objectLiteral r) e (Expr.Operand e.source) := by
  refine .skip fun start =>
    (Delivers.within (.commaList (objectProperty_orderly h))).bind fun ps hps => ?_
  exact .skip fun _ => .skip fun _ => .pure (.node (.map hps) rfl rfl rfl)

/-! ## Primary expressions -/

theorem superReference_orderly : Delivers superReference e (Expr.Operand e.source) := by
  refine .skip fun start => .skip fun k => ?_
  have hrest (allowed : Bool) : Delivers (do
      if allowed then return Expr.superRef (← spanFrom start)
      failAt start .superOutside : Parse Expr) e (Expr.Operand e.source) :=
    .ite (fun _ => .skip fun _ => .pure (.leaf rfl rfl rfl)) fun _ => .failAt
  dsimp only
  split
  · exact .skip fun here => .bind_pure (hrest _)
  · exact .skip fun here => .bind_pure (hrest _)
  · exact .skip fun here => .bind_pure (hrest _)
  · exact .bind_pure (hrest false)

theorem metaProperty_orderly {span : Span} {owner property : Option Name} :
    (Expr.metaProperty span owner property).Operand source :=
  .node ((maybe_name_orderly owner).append (maybe_name_orderly property)) rfl rfl rfl

theorem importArguments_orderly (h : r.Grouping) :
    Delivers (importArguments r) e fun x =>
      Orderly e.source [.expr x.1] ∧ ∀ o ∈ x.2, Orderly e.source [.expr o] := by
  refine (h.value _).bind fun source hsource => .skip fun _ => .ite (fun _ => ?_) fun _ => ?_
  · refine .skip fun _ => .skip fun _ => .ite (fun _ => .pure ⟨hsource, absent⟩) fun _ => ?_
    refine (h.value _).bind fun options hoptions => .skip fun _ => ?_
    exact .skipIf fun _ => .pure ⟨hsource, present hoptions⟩
  · exact .pure ⟨hsource, absent⟩

theorem importExpression_orderly (h : r.Grouping) :
    Delivers (importExpression r) e (Expr.Operand e.source) := by
  refine .skip fun start => .skip fun _ => .ite (fun _ => ?_) fun _ => ?_
  · refine .skip fun _ => .skip fun _ => .skipIf fun _ => .skip fun _ => .skipIf fun _ => ?_
    exact .skip fun _ => .skip fun _ => .skip fun _ => .pure metaProperty_orderly
  · refine .skip fun _ => (Delivers.within (importArguments_orderly h)).bind fun x hx =>
      .skip fun _ => .skip fun _ => .pure ?_
    exact .node (hx.1.cons (.maybe hx.2)) rfl rfl rfl

/-- A function as an operand. -/
private theorem operand_of_function {f : Function} (h : Orderly source [.function f]) :
    (Expr.function f).Operand source :=
  ⟨h, rfl, rfl⟩

theorem identifierOrFunction_orderly (h : r.Grouping) :
    Delivers (identifierOrFunction r) e (Expr.Operand e.source) := by
  refine .skip fun _ => .ite (fun _ => ?_) fun _ => identifierReference_orderly
  refine .skip fun t => .ite (fun _ => ?_) fun _ => identifierReference_orderly
  exact (function_orderly h false false).bind fun f hf => .pure (operand_of_function hf)

/-- A primary expression is an operand: it is no operation itself, except within
parentheses. -/
theorem primary_orderly (h : r.Grouping) : Delivers (primary r) e (Expr.Operand e.source) := by
  have hclass : Delivers (do return Expr.classExpr (← classLiteral r false true)) e
      (Expr.Operand e.source) :=
    (classLiteral_orderly h false true).bind fun c hc => .pure ⟨hc, rfl, rfl⟩
  have htemplate :
      Delivers (do return Expr.template (← templateLiteral r)) e (Expr.Operand e.source) :=
    (templateLiteral_orderly h).bind fun q hq => .pure ⟨hq, rfl, rfl⟩
  refine .skip fun t => ?_
  split
  · exact identifierOrFunction_orderly h
  · exact .skip fun _ => .pure (.leaf rfl rfl rfl)
  · exact superReference_orderly
  · exact .skip fun _ => .pure (.leaf rfl rfl rfl)
  · exact .skip fun _ => .pure (.leaf rfl rfl rfl)
  · exact .skip fun _ => .pure (.leaf rfl rfl rfl)
  · exact .skip fun _ => numberLiteral_orderly _
  · exact .skip fun _ => numberLiteral_orderly _
  · exact .skip fun _ => .skip fun _ => .pure (.leaf rfl rfl rfl)
  · exact htemplate
  · exact htemplate
  · exact regExpLiteral_orderly
  · exact regExpLiteral_orderly
  · exact arrayLiteral_orderly h
  · exact objectLiteral_orderly h
  · exact parenthesized_orderly h
  · exact (function_orderly h false false).bind fun f hf => .pure (operand_of_function hf)
  · exact hclass
  · exact hclass
  · exact importExpression_orderly h
  · refine .skip fun _ => .skip fun _ => .ite (fun _ => ?_) fun _ => .unexpected
    exact .skip fun _ => .pure (.leaf rfl rfl rfl)
  · exact .unexpected

/-! ## Chains -/

theorem bracketKey_orderly (h : r.Grouping) :
    Delivers (bracketKey r) e fun x => Orderly e.source [.expr x] :=
  .skip fun _ => (Delivers.within (h.expression _)).bind fun _ hx => .skip fun _ => .pure hx

theorem optionalLink_orderly (h : r.Grouping) (start : Nat) {left : Expr}
    (hleft : Orderly e.source [.expr left]) :
    Delivers (optionalLink r start left) e (Expr.Operand e.source) := by
  refine .skip fun k => ?_
  split
  · exact (arguments_orderly h).bind fun args hargs => .skip fun _ =>
      .pure (.node (hleft.cons (.map hargs)) rfl rfl rfl)
  · exact (bracketKey_orderly h).bind fun key hkey => .skip fun _ =>
      .pure (.node (hleft.pair hkey) rfl rfl rfl)
  · exact .fail
  · exact .fail
  · exact memberName_orderly.bind fun key hkey => .skip fun _ =>
      .pure (.node (hleft.pair hkey) rfl rfl rfl)

/-- What is joined to an operand by members and calls is an operand. -/
theorem chain_orderly (h : r.Grouping) {left : Expr} (allowCall : Bool)
    (hleft : left.Operand e.source) :
    Delivers (chain r left allowCall) e (Expr.Operand e.source) := by
  refine .repeating (fun x : Expr × Bool => x.1.Operand e.source) hleft fun x hx =>
    .skip fun k => ?_
  obtain ⟨y, optional⟩ := x
  have hy : Orderly e.source [.expr y] := hx.orderly
  have hmember (span : Span) {key : Expr} (computed : Bool) (hkey : Orderly e.source [.expr key]) :
      (Expr.member span y key computed false).Operand e.source := .node (hy.pair hkey) rfl rfl rfl
  have htagged : Delivers (do
      if optional then fail .optionalTemplate
      let quasi ← templateLiteral r
      return Turn.again (.tagged (← spanFrom left.span.offset) y quasi, optional)) e
        (Turn.Holds (fun x : Expr × Bool => x.1.Operand e.source) (Expr.Operand e.source)) := by
    refine .skipIf fun _ => (templateLiteral_orderly h).bind fun q hq => .skip fun _ => .pure ?_
    exact (.node (hy.pair hq) rfl rfl rfl : (Expr.tagged _ y q).Operand e.source)
  split
  · exact .skip fun _ => memberName_orderly.bind fun key hkey => .skip fun span =>
      .pure (hmember span false hkey)
  · exact (bracketKey_orderly h).bind fun key hkey => .skip fun span =>
      .pure (hmember span true hkey)
  · refine .skipIf fun _ => .skip fun _ => (optionalLink_orderly h _ hy).bind fun z hz => .pure ?_
    exact (show z.Operand e.source from hz)
  · refine .ite (fun _ => .pure (show y.Operand e.source from hx)) fun _ => ?_
    refine (arguments_orderly h).bind fun args hargs => .skip fun span => .pure ?_
    exact (.node (hy.cons (.map hargs)) rfl rfl rfl : (Expr.call span y args false).Operand
      e.source)
  · exact htagged
  · exact htagged
  · exact .pure (show y.Operand e.source from hx)

theorem newExpression_orderly (h : r.Grouping) :
    Delivers (newExpression r) e (Expr.Operand e.source) := by
  have hconstructed : Delivers (constructed r) e (Expr.Operand e.source) := by
    refine .skip fun k => ?_
    split
    · exact h.construct e
    · exact .fail
    · exact primary_orderly h
  refine .skip fun start => .skip fun _ => .ite (fun _ => ?_) fun _ => ?_
  · refine .skip fun _ => .skip fun _ => .skipIf fun _ => .skip fun _ => .skipIf fun _ => ?_
    exact .skip fun _ => .skip fun _ => .skip fun _ => .pure metaProperty_orderly
  · refine hconstructed.bind fun x hx => (chain_orderly h false hx).bind fun callee hcallee =>
      .skip fun _ => ?_
    refine .ite (fun _ => ?_) fun _ => ?_
    · refine (arguments_orderly h).bind fun args hargs => .skip fun _ => .pure ?_
      exact .node (hcallee.orderly.cons (.map hargs)) rfl rfl rfl
    · exact .bind_pure (.skip fun _ => .pure (.node hcallee.orderly rfl rfl rfl))

/-- So the left side of every operation is one. -/
theorem leftHandSide_orderly (h : r.Grouping) :
    Delivers (leftHandSide r) e (Expr.Operand e.source) := by
  refine .skip fun _ => .ite (fun _ => ?_) fun _ => ?_
  · exact (h.construct e).bind fun x hx => chain_orderly h true hx
  · exact (primary_orderly h).bind fun x hx => chain_orderly h true hx

end Parse

end EcmaStack
