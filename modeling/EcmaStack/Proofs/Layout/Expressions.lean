import EcmaStack.Proofs.Layout.Classes

/-!
# The extent of expressions
-/

namespace EcmaStack

open Scope (frames)

/-- Texts and expressions in turn go on where there are as many of each. -/
theorem Template.slots_append {qs more : List TemplateElement} {es rest : List Expr}
    (h : es.length = qs.length) :
    Template.slots (qs ++ more) (es ++ rest) = Template.slots qs es ++
    Template.slots more rest := by
  induction qs generalizing es with
  | nil =>
    rw [List.length_eq_zero_iff.mp h]
    rfl
  | cons q qs ih =>
    cases es with
    | nil => cases h
    | cons x es =>
      exact congrArg (fun slots => .templateElement q :: .expr x :: slots) (ih (Nat.succ.inj h))

namespace Parse

variable {r : Rules} {e : Surroundings}

/-! ## Primary expressions -/

/-- What has been read of a template: as many texts as expressions, and the token in hand goes
on with it. -/
private structure Template.SoFar (source : Text) (s t : ParseState)
    (x : List TemplateElement × List Expr) : Prop where
  stretch : Stretch source false s t (Template.slots x.1.reverse x.2.reverse)
  inTurn : x.2.length = x.1.length
  goesOn : t.token.kind ≠ .eof

/-- A template covers its parts. The texts between the values are read by the scanner,
from the brace at which a value ends. -/
theorem templateLiteral_extent (h : r.Charted) {s : ParseState} (hs : s.Ready e.source)
    (hkind : s.token.kind ≠ .eof) :
    Holds (templateLiteral r) e s fun q t => Extent e.source s t (.expr (.template q)) := by
  refine .known rfl (.repeating (fun x t => Template.SoFar e.source s t x) ⟨.start hs, rfl, hkind⟩
    fun x t ht => ?_)
  obtain ⟨quasis, expressions⟩ := x
  refine .known rfl (ht.stretch.ready.take ht.goesOn fun u _ hleaf => ?_)
  have hquasi := hleaf (.templateElement ⟨tokenSpan t.token, t.token.raw, t.token.value⟩)
    ⟨rfl, rfl, fun _ => rfl, fun _ _ => rfl, trivial, id⟩ rfl
  have hlength : expressions.reverse.length = quasis.reverse.length := by
    simpa using ht.inTurn
  have hu := ht.stretch.andThen hquasi.stretch
  refine .ite (fun _ => .span (.pure (hu.node hs ?_ rfl rfl))) fun _ => ?_
  · show Template.slots (_ :: _).reverse _ = _
    rw [List.reverse_cons, ← List.append_nil expressions.reverse, Template.slots_append hlength,
      List.append_nil]
    rfl
  · refine hu.whole (.within (h.expression _)) fun x v hv _ =>
      .known rfl (.ite (fun hbrace => ?_) fun _ => .unexpected)
    refine .known rfl (.known rfl ?_)
    rcases heq : rescanTemplate e.source v.token with ⟨again, cursor⟩
    refine .bind (rescan_passage (fun _ _ => readTemplateContinuation_gives) hv.ready heq)
      fun _ w hw => .pure ?_
    obtain ⟨hw, rfl, _, hgoesOn⟩ := hw
    refine ⟨?_, congrArg Nat.succ ht.inTurn, hgoesOn fun hend => ?_⟩
    · rw [List.reverse_cons, List.reverse_cons, Template.slots_append hlength]
      have hboth := (hv.trans hw).weaken
      rwa [List.append_nil, List.append_assoc] at hboth
    · rw [hend] at hbrace
      cases hbrace

/-- A regular expression is read again from its slash, so it is longer than the token that
was seen there. -/
theorem regExpToken_extent {t : Token} {cursor : Cursor} {s : ParseState} (hs : s.Ready e.source)
    (heq : rescanRegExp e.source s.token = (t, cursor)) (hkind : t.kind = .regexp) :
    Holds (regExpToken t cursor s.previousEnd) e s fun x u => Extent e.source s u (.expr x) := by
  refine .bind (rescan_passage (fun _ _ => readRegExp_gives) hs heq) fun _ u hu => ?_
  obtain ⟨hu, rfl, hstart, _⟩ := hu
  refine hu.ready.take (by rw [hkind]; decide) fun v _ hleaf =>
    .bind (literal_still _) fun raw w hw => .pure ?_
  have hnode :=
    hleaf (.expr (.regexp (tokenSpan u.token) raw u.token.value u.token.raw.toString))
      (Node.atom_leaf rfl rfl) rfl
  exact hw ▸ ⟨hu.andThen hnode.stretch, hstart ▸ hnode.span⟩

theorem regExpLiteral_whole : Whole regExpLiteral e .expr := by
  intro s hs
  refine .known rfl (.known rfl ?_)
  rcases heq : rescanRegExp e.source s.token with ⟨t, cursor⟩
  dsimp only
  split
  · exact .failAt
  · refine .ite (fun _ => .unexpected) fun hkind => ?_
    have hrest := regExpToken_extent hs heq (by simpa using hkind)
    refine .ite (fun _ => ?_) fun _ => hrest
    split
    · exact hrest
    · exact .bind (P := fun _ _ => False) .failAt fun _ _ => False.elim

/-- The elements of an array lie one behind the other; a hole takes its comma and has no extent. -/
theorem arrayItems_gathers (h : r.Charted) :
    Gathers (arrayItems r) e false fun elements => elements.map .expr := by
  intro s hs
  refine .repeating (fun items t => Stretch e.source false s t (items.reverse.map .expr))
    (.start hs) fun items t ht => ?_
  refine .look fun _ => .ite (fun _ => .pure ht) fun _ => .look fun _ =>
    .ite (fun _ => ht.skip fun _ u hu => .pure ?_) fun _ => ?_
  · exact (hu.missing (n := .expr .missing) rfl).more
  · refine ht.whole (spreadOrAssignment_whole h) fun x u hu _ => .look fun _ =>
      .ite (fun _ => .pure hu.weaken.more) fun _ => ?_
    exact hu.skip fun _ v hv => .pure hv.weaken.more

theorem arrayLiteral_whole (h : r.Charted) : Whole (arrayLiteral r) e .expr := by
  intro s hs
  refine (Stretch.start hs).punct fun t ht =>
    ht.gather (.within (arrayItems_gathers h)) fun elements u hu => hu.skip fun _ v hv => ?_
  exact .span (.pure (hv.node hs rfl rfl rfl))

/-- A name that is both key and value is the whole property. -/
theorem shorthand_stretch {keyToken : Token} {key : Expr} {s₀ s : ParseState}
    (hkey : Stretch e.source true s₀ s ([] ++ [Node.expr key])) :
    Holds (shorthand keyToken key) e s fun p t => Stretch e.source true s₀ t [.property p] := by
  unfold shorthand
  split
  · refine .ite (fun _ => .unexpected) fun _ => .look fun _ => .ite (fun _ => .failAt) fun _ =>
      .look fun _ => ?_
    exact .ite (fun _ => .fail) fun _ => .pure (hkey.wrap rfl rfl rfl rfl)
  · exact .unexpected

/-- A property lies between the brace or comma before it and the one behind it. -/
theorem objectProperty_gathers (h : r.Charted) :
    Gathers (objectProperty r) e true fun p => [.property p] := by
  intro s hs
  refine .known rfl (.look fun _ => .ite (fun _ => ?_) fun _ => ?_)
  · refine (Stretch.start hs).skip fun _ t ht => ht.whole (h.assignment e) fun x u hu _ =>
      .span (.pure ?_)
    exact (hu.node hs rfl rfl rfl).stretch
  · refine (Stretch.start hs).skip fun m t ht => .known rfl ?_
    refine .either (propertyKey_finds h t ht.ready) (fun k u hu => ?_) fun _ => .unexpected
    obtain ⟨key, computed⟩ := k
    have hkey := ht.andThen hu
    refine hu.skipIf fun _ v hv => .look fun _ => .ite (fun _ => ?_) fun _ => .look fun _ =>
      .ite (fun _ => ?_) fun _ => ?_
    · refine .bind (method_read h _ _ _ _ _ hv.ready) fun f w ⟨hparts, hspan, hscopes⟩ =>
        .span (.pure ?_)
      exact (((ht.andThen hv).closeFrom hparts hspan ht.onward hv.onward hscopes id).node hs rfl rfl
        rfl).stretch
    · refine (ht.andThen hv).skip fun _ w hw => hw.whole (h.assignment e) fun x y hy _ =>
        .span (.pure ?_)
      exact (hy.node hs rfl rfl rfl).stretch
    · exact shorthand_stretch (ht.andThen hv)

theorem objectLiteral_whole (h : r.Charted) : Whole (objectLiteral r) e .expr := by
  intro s hs
  refine (Stretch.start hs).punct fun t ht =>
    ht.gather (.within (.commaList (objectProperty_gathers h))) fun ps u hu => ?_
  exact hu.skip fun _ v hv => .span (.pure (hv.node hs rfl rfl rfl))

/-- `super` is one token. What may follow it is looked at and not taken. -/
theorem superReference_whole : Whole superReference e .expr := by
  intro s hs
  refine (Stretch.start hs).word fun t ht => .look fun k => ?_
  have hrest (allowed : Bool) :
      Holds (if allowed then do return Expr.superRef (← spanFrom s.token.start)
      else failAt s.token.start .superOutside) e t fun x u => Extent e.source s u (.expr x) :=
    .ite (fun _ => .span (.pure (ht.node hs rfl rfl rfl))) fun _ => .failAt
  dsimp only
  split
  · exact .look fun _ => hrest _
  · exact .look fun _ => hrest _
  · exact .look fun _ => hrest _
  · exact .known rfl (hrest _)

/-- A word that means something only in places is an identifier. -/
theorem kind_of_isPlain {t : Token} {name : String} (h : isPlain t name = true) :
    t.kind = .identifier := by
  simp only [isPlain, Bool.and_eq_true, beq_iff_eq] at h
  exact h.1.1

/-- A reserved word, which is wide enough for the name it stands for, and the name after the
point. -/
theorem metaProperty_extent {k : Keyword} {owner property : Name} {s t : ParseState}
    (hs : s.Ready e.source) (hkind : s.token.kind = .keyword k)
    (howner : owner.span = ⟨s.token.start, (s.token.start + k.spelling.length : Nat)⟩)
    (ht : Stretch e.source true s t []) (hword : s.token.stop ≤ t.previousEnd)
    (hname : t.token.kind = .identifier) (hproperty : property.span = tokenSpan t.token) :
    Holds (do
      next
      return Expr.metaProperty (← spanFrom s.token.start) (some owner) (some property)) e t
      fun x u => Extent e.source s u (.expr x) := by
  have hwide := keyword_wide hs hkind
  have hlength : 0 < k.spelling.length := by cases k <;> decide
  have hfirst : Stretch e.source true s t [.name owner] :=
    ht.leaf (Node.name_leaf owner) howner (Nat.le_refl _) (by omega) (by omega)
  refine ht.ready.take (by rw [hname]; decide) fun u _ hleaf => .span (.pure ?_)
  exact (hfirst.andThen (hleaf _ (Node.name_leaf property) hproperty).stretch).node hs rfl rfl rfl

/-- The source of an import comes before its options. -/
theorem importArguments_gathers (h : r.Charted) :
    Gathers (importArguments r) e true fun x => .expr x.1 :: Node.maybe .expr x.2 := by
  intro s hs
  refine (Stretch.start hs).whole (h.assignment e) fun source t ht _ => .look fun _ =>
    .ite (fun _ => ?_) fun _ => .pure ht
  refine ht.skip fun _ u hu => .look fun _ => .ite (fun _ => .pure hu) fun _ => ?_
  refine hu.whole (h.assignment e) fun options v hv _ => .look fun _ => ?_
  exact hv.skipIf fun _ w hw => .pure hw

theorem importExpression_whole (h : r.Charted) : Whole (importExpression r) e .expr := by
  intro s hs
  refine Passage.expect (Stretch.start hs) (by decide) fun t hkind hended ht => .look fun _ =>
    .ite (fun _ => ?_) fun _ => ?_
  · refine .bind (next_passage ht.ready) fun _ u ⟨hu, _⟩ =>
      .known rfl (.failIf (fun _ => .unexpected) fun hmeta => ?_)
    have hname : u.token.kind = .identifier := kind_of_isPlain (by simpa using hmeta)
    refine .look fun _ => .failIf (fun _ => .failAt) fun _ => .known rfl ?_
    exact metaProperty_extent hs hkind rfl (Stretch.trans ht hu) (hended ▸ hu.ended) hname rfl
  · refine Stretch.skip ht fun _ u hu =>
      hu.gather (.within (importArguments_gathers h)) fun x v hv => hv.skip fun _ w hw => ?_
    exact .span (.pure (hw.node hs rfl rfl rfl))

theorem identifierOrFunction_whole (h : r.Charted) : Whole (identifierOrFunction r) e .expr := by
  intro s hs
  refine .look fun _ => .ite (fun _ => .look fun t => .ite (fun _ => ?_) fun _ => ?_) fun _ =>
    identifierReference_whole s hs
  · exact .bind (function_whole h false s hs) fun f t ht => .pure ht
  · exact identifierReference_whole s hs

/-- A primary expression, whichever token it begins with. -/
theorem primary_whole (h : r.Charted) : Whole (primary r) e .expr := by
  intro s hs
  have hnumber (hkind : s.token.kind ≠ .eof) : Holds (do
      next
      numberLiteral s.token) e s fun x t => Extent e.source s t (.expr x) := by
    refine hs.take hkind fun t _ hleaf => (numberLiteral_leaf s.token).mono fun x u hx => ?_
    exact hx.1 ▸ hleaf _ hx.2.1 hx.2.2
  have htemplate (hkind : s.token.kind ≠ .eof) :
      Holds (do return Expr.template (← templateLiteral r)) e s fun x t =>
      Extent e.source s t (.expr x) :=
    .bind (templateLiteral_extent h hs hkind) fun q t ht => .pure ht
  have hclass : Holds (do return Expr.classExpr (← classLiteral r false true)) e s fun x t =>
      Extent e.source s t (.expr x) :=
    .bind (classLiteral_whole h false true s hs) fun c t ht => .pure ht
  refine .known rfl ?_
  split
  · exact identifierOrFunction_whole h s hs
  · next hkind =>
      exact hs.take (by rw [hkind]; decide) fun t _ hleaf =>
        .pure (hleaf _ (Node.atom_leaf rfl rfl) rfl)
  · exact superReference_whole s hs
  · next hkind =>
      exact hs.take (by rw [hkind]; decide) fun t _ hleaf =>
        .pure (hleaf _ (Node.atom_leaf rfl rfl) rfl)
  · next hkind =>
      exact hs.take (by rw [hkind]; decide) fun t _ hleaf =>
        .pure (hleaf _ (Node.atom_leaf rfl rfl) rfl)
  · next hkind =>
      exact hs.take (by rw [hkind]; decide) fun t _ hleaf =>
        .pure (hleaf _ (Node.atom_leaf rfl rfl) rfl)
  · next hkind => exact hnumber (by rw [hkind]; decide)
  · next hkind => exact hnumber (by rw [hkind]; decide)
  · next hkind =>
    refine hs.take (by rw [hkind]; decide) fun t _ hleaf =>
      .bind (stringLiteral_leaf s.token) fun l u hl => ?_
    exact .pure (hl.1 ▸ hleaf _ hl.2.1 hl.2.2)
  · next hkind => exact htemplate (by rw [hkind]; decide)
  · next hkind => exact htemplate (by rw [hkind]; decide)
  · exact regExpLiteral_whole s hs
  · exact regExpLiteral_whole s hs
  · exact arrayLiteral_whole h s hs
  · exact objectLiteral_whole h s hs
  · exact parenthesized_whole h s hs
  · exact .bind (function_whole h false s hs) fun f t ht => .pure ht
  · exact hclass
  · exact hclass
  · exact importExpression_whole h s hs
  · next hkind =>
    refine .look fun _ => .look fun _ => .ite (fun _ => ?_) fun _ => .unexpected
    exact hs.take (by rw [hkind]; decide) fun t _ hleaf =>
      .pure (hleaf _ (Node.atom_leaf rfl rfl) rfl)
  · exact .unexpected

/-! ## Chains -/

/-- The key of a member in brackets, which takes no token more than the brackets. -/
theorem bracketKey_gathers (h : r.Charted) : Gathers (bracketKey r) e true fun x => [.expr x] := by
  intro s hs
  refine (Stretch.start hs).skip fun _ t ht =>
    ht.whole (.within (h.expression _)) fun key u hu _ => ?_
  exact hu.skip fun _ v hv => .pure hv

/-- The link after `?.` goes on from the expression before it. -/
theorem optionalLink_extent (h : r.Charted) {left : Expr} {s₀ s : ParseState}
    (hs₀ : s₀.Ready e.source) (hleft : Stretch e.source true s₀ s [.expr left]) :
    Holds (optionalLink r s₀.token.start left) e s fun x t => Extent e.source s₀ t (.expr x) := by
  refine .look fun k => ?_
  split
  · exact hleft.gather (arguments_gathers h) fun args t ht =>
      .span (.pure (ht.node hs₀ rfl rfl rfl))
  · exact hleft.gather (bracketKey_gathers h) fun key t ht =>
      .span (.pure (ht.node hs₀ rfl rfl rfl))
  · exact .fail
  · exact .fail
  · exact hleft.whole memberName_whole fun key t ht _ => .span (.pure (ht.node hs₀ rfl rfl rfl))

/-- A chain goes on from the expression it starts with. -/
theorem chain_extent (h : r.Charted) {left : Expr} (allowCall : Bool) {s₀ s : ParseState}
    (hs₀ : s₀.Ready e.source) (hleft : Extent e.source s₀ s (.expr left)) :
    Holds (chain r left allowCall) e s fun x t => Extent e.source s₀ t (.expr x) := by
  have hstart : left.span.offset = s₀.token.start := hleft.offset
  unfold chain
  rw [hstart]
  -- The loop's invariant: what was read so far reaches from the start of the chain to here.
  refine .repeating (fun x t => Extent e.source s₀ t (.expr x.1)) hleft fun x t ht => ?_
  obtain ⟨y, optional⟩ := x
  have hy : Stretch e.source true s₀ t [.expr y] := ht.stretch
  have htagged (hkind : t.token.kind ≠ .eof) : Holds (do
      if optional then fail .optionalTemplate
      let quasi ← templateLiteral r
      return Turn.again (.tagged (← spanFrom s₀.token.start) y quasi, optional)) e t fun turn u =>
        Turn.Holds (fun x : Expr × Bool => Extent e.source s₀ u (.expr x.1))
          (fun x => Extent e.source s₀ u (.expr x)) turn := by
    refine .failIf (fun _ => .fail) fun _ => .bind (templateLiteral_extent h ht.stretch.ready hkind)
      fun q u hq => ?_
    exact .span (.pure ((hy.andThen hq.stretch).node hs₀ rfl rfl rfl))
  refine .known rfl ?_
  split
  · refine hy.skip fun _ u hu => hu.whole memberName_whole fun key v hv _ => .span (.pure ?_)
    exact (hv.node hs₀ rfl rfl rfl : Extent e.source s₀ v (.expr (.member _ y key false false)))
  · refine hy.gather (bracketKey_gathers h) fun key u hu => .span (.pure ?_)
    exact (hu.node hs₀ rfl rfl rfl : Extent e.source s₀ u (.expr (.member _ y key true false)))
  · refine .failIf (fun _ => .fail) fun _ => hy.skip fun _ u hu =>
      .bind (optionalLink_extent h hs₀ hu) fun z v hz => ?_
    exact .pure (show Turn.Holds _ _ _ from hz)
  · refine .ite (fun _ => .pure (show Turn.Holds _ _ _ from ht)) fun _ => ?_
    refine hy.gather (arguments_gathers h) fun args u hu => .span (.pure ?_)
    exact (hu.node hs₀ rfl rfl rfl : Extent e.source s₀ u (.expr (.call _ y args false)))
  · next hkind => exact htagged (by rw [hkind]; decide)
  · next hkind => exact htagged (by rw [hkind]; decide)
  · exact .pure (show Turn.Holds _ _ _ from ht)

theorem constructed_whole (h : r.Charted) : Whole (constructed r) e .expr := by
  intro s hs
  refine .look fun k => ?_
  split
  · exact h.construct e s hs
  · exact .fail
  · exact primary_whole h s hs

theorem newExpression_whole (h : r.Charted) : Whole (newExpression r) e .expr := by
  intro s hs
  refine Passage.expect (Stretch.start hs) (by decide) fun t hkind hended ht => .look fun _ =>
    .ite (fun _ => ?_) fun _ => ?_
  · refine .bind (next_passage ht.ready) fun _ u ⟨hu, _⟩ =>
      .known rfl (.failIf (fun _ => .unexpected) fun htarget => ?_)
    have hname : u.token.kind = .identifier := kind_of_isPlain (by simpa using htarget)
    refine .look fun _ => .failIf (fun _ => .failAt) fun _ => .known rfl ?_
    exact metaProperty_extent hs hkind rfl (Stretch.trans ht hu) (hended ▸ hu.ended) hname rfl
  · refine .bind (constructed_whole h t ht.ready) fun x u hx =>
      .bind (chain_extent h false ht.ready hx)
      fun callee v hv => ?_
    have hcallee := Stretch.trans ht hv.stretch
    refine .look fun _ => .ite (fun _ => ?_) fun _ =>
      .known rfl (.span (.pure (hcallee.node hs rfl rfl rfl)))
    exact hcallee.gather (arguments_gathers h) fun args w hw =>
      .span (.pure (hw.node hs rfl rfl rfl))

/-- A chain starts where its first operand does, however far it goes. -/
theorem leftHandSide_whole (h : r.Charted) : Whole (leftHandSide r) e .expr := by
  intro s hs
  refine .look fun _ => .ite (fun _ => ?_) fun _ => ?_
  · exact .bind (h.construct e s hs) fun x t hx => chain_extent h true hs hx
  · exact .bind (primary_whole h s hs) fun x t hx => chain_extent h true hs hx

/-! ## Operators -/

/-- The range of two expressions and what is between them. -/
theorem join_span {left right : Expr} {source : Text} {s t u : ParseState} {first : Nat}
    (hleft : Extent source s t (.expr left)) (hright : right.span = ⟨first, u.previousEnd⟩) :
    join left right = ⟨s.token.start, u.previousEnd⟩ := by
  have hspan : left.span = ⟨s.token.start, t.previousEnd⟩ := hleft.span
  rw [join, hspan, hright]

/-- An update covers its target and the operator, which may stand on either side. -/
theorem updateExpression_whole (h : r.Charted) : Whole (updateExpression r) e .expr := by
  intro s hs
  refine .bind (h.leftHandSide e s hs) fun operand t hx =>
    .known rfl (.ite (fun _ => .pure hx) fun _ => ?_)
  split
  · exact .failAt
  · next target htarget =>
    have hread : Stretch e.source true s t ([] ++ [Node.expr operand]) := hx.stretch
    have hstart : operand.span.offset = s.token.start := hx.offset
    rw [hstart]
    exact (simpleTarget_stretch hread htarget).1.skip fun _ u hu =>
      .span (.pure (hu.node hs rfl rfl rfl))

theorem unaryExpression_whole (h : r.Charted) : Whole (unaryExpression r) e .expr := by
  intro s hs
  refine .known rfl (.ite (fun _ => ?_) fun _ => .ite (fun _ => ?_) fun _ => ?_)
  · refine (Stretch.start hs).skip fun _ t ht => ht.whole (h.unary e) fun operand u hu _ => ?_
    exact hu.skipIf fun _ v hv => .span (.pure (hv.node hs rfl rfl rfl))
  · refine (Stretch.start hs).skip fun _ t ht => ht.whole (h.unary e) fun operand u hu _ => ?_
    split
    · exact .failAt
    · next target htarget =>
        exact .span (.pure ((simpleTarget_stretch hu htarget).1.node hs rfl rfl rfl))
  · refine .look fun _ => .look fun _ => .ite (fun _ => ?_) fun _ => updateExpression_whole h s hs
    refine (Stretch.start hs).skip fun _ t ht => ht.whole (h.unary e) fun argument u hu _ => ?_
    exact .span (.pure (hu.node hs rfl rfl rfl))

/-- A chain of operators: each operation covers its operands, the first of which it
started with. -/
theorem binaryExpression_whole (h : r.Charted) (least : Nat) :
    Whole (binaryExpression r least) e .expr := by
  intro s hs
  refine .bind (h.unary e s hs) fun first t hfirst => ?_
  refine .repeating (fun x u => Extent e.source s u (.expr x)) hfirst fun left u hleft => ?_
  refine .known rfl (.look fun _ => .ite (fun _ => .pure hleft) fun _ => hleft.stretch.skipIf
    fun _ v hv => hv.skip
    fun _ w hw => ?_)
  refine hw.whole (h.binary e _) fun right x hx hright => .failIf (fun _ => .failAt) fun _ =>
    .pure ?_
  exact (hx.node hs rfl (join_span hleft hright) rfl : Extent e.source s x
    (.expr (.binary _ _ left right)))

theorem conditional_whole (h : r.Charted) : Whole (conditional r) e .expr := by
  intro s hs
  refine .bind (h.binary e loosest s hs) fun test t htest => .look fun _ =>
    .ite (fun _ => ?_) fun _ => .pure htest
  refine htest.stretch.skip fun _ u hu =>
    hu.whole (.within (h.assignment _)) fun consequent v hv _ => hv.skip
    fun _ w hw => ?_
  exact hw.whole (h.assignment e) fun alternate x hx hspan =>
    .pure (hx.node hs rfl (join_span htest hspan) rfl)

/-- A `yield` ends where its operand does, or at the keyword if it has none. -/
theorem yieldExpression_extent (h : r.Charted) {s : ParseState} (hs : s.Ready e.source)
    (hkind : s.token.kind ≠ .eof) :
    Holds (yieldExpression r) e s fun x t => Extent e.source s t (.expr x) := by
  refine .known rfl ((Stretch.start hs).next hkind fun t ht _ => .look fun _ => ?_)
  have hnone : Holds (do return Expr.yield (← spanFrom s.token.start) none false) e t fun x u =>
      Extent e.source s u (.expr x) :=
    .span (.pure (ht.node hs rfl rfl rfl))
  refine .ite (fun _ => hnone) fun _ => .ite (fun _ => ?_) fun _ =>
    .ite (fun _ => ?_) fun _ => hnone
  · refine ht.skip fun _ u hu => hu.whole (h.assignment e) fun argument v hv _ => ?_
    exact .span (.pure (hv.node hs rfl rfl rfl))
  · exact ht.whole (h.assignment e) fun argument v hv _ => .span (.pure (hv.node hs rfl rfl rfl))

/-- A target that is found covers what was read. An attempt that finds none has read
nothing. -/
theorem assignmentTarget_finds (h : r.Charted) :
    Finds (assignmentTarget r) e true fun p => [.pattern p] := by
  intro s hs
  refine .look fun k => ?_
  split
  · exact bindingTarget_finds.patterns s hs
  · exact (arrayPattern_finds h false).patterns s hs
  · exact (objectPattern_finds h false).patterns s hs
  · exact .missed

/-- An assignment to a pattern, if the pattern and the sign behind it are there. -/
theorem patternAssignment_finds (h : r.Charted) : FindsWhole (patternAssignment r) e .expr := by
  intro s hs
  refine .known rfl (.attempt ((Stretch.start hs).find (assignmentTarget_finds h)
    (fun target t ht => ?_) fun _ => .missed))
  refine .look fun op => .ite (fun _ => .missed) fun _ => ht.skip fun _ u hu => ?_
  exact hu.whole (h.assignment e) fun value v hv _ => .span (.found (hv.node hs rfl rfl rfl))

/-- An assignment covers its target and its value; without a sign it is an expression. -/
theorem plainAssignment_whole (h : r.Charted) : Whole (plainAssignment r) e .expr := by
  intro s hs
  refine .bind (conditional_whole h s hs) fun left t hleft => .look fun op =>
    .ite (fun _ => .pure hleft) fun _ => ?_
  split
  · exact .failAt
  · next target htarget =>
    have hread : Stretch e.source true s t ([] ++ [Node.expr left]) := hleft.stretch
    refine (simpleTarget_stretch hread htarget).2.skip fun _ u hu =>
      hu.whole (h.assignment e) fun value v hv hspan => ?_
    refine .bind (asPattern_still target) fun p w hp => ?_
    obtain ⟨rfl, rfl⟩ := hp
    exact .pure (hv.node hs rfl (join_span hleft hspan) rfl)

/-- Whichever of the attempts is the one that matches, it covers the whole. -/
theorem assignmentExpression_whole (h : r.Charted) : Whole (assignmentExpression r) e .expr := by
  have hconfined := h.confined
  intro s hs
  refine .known rfl (.look fun _ => .ite (fun hyield => ?_) fun _ => ?_)
  · have hname : s.token.kind = .identifier := kind_of_isPlain (Bool.and_eq_true_iff.mp hyield).1
    exact yieldExpression_extent h hs (by rw [hname]; decide)
  · refine .orElse (arrowFunction_finds h s hs) (fun t => still_of_miss .arrowFunction)
      (fun x t hx => .pure hx) ?_
    refine .orElse (patternAssignment_finds h s hs) (fun t =>
      still_of_miss (p := patternAssignment r) (.look fun start => .attempt _))
      (fun x t hx => .pure hx) ?_
    exact plainAssignment_whole h s hs

theorem commaExpression_whole (h : r.Charted) : Whole (commaExpression r) e .expr := by
  intro s hs
  refine .bind (h.assignment e s hs) fun left t hleft => .look fun _ => .ite (fun _ => ?_) fun _ =>
    .pure hleft
  refine hleft.stretch.skip fun _ u hu => hu.whole (h.expression e) fun right v hv hspan => ?_
  exact .pure (hv.node hs rfl (join_span hleft hspan) rfl)

end Parse

end EcmaStack
