import EcmaStack.Proofs.Readback.Expressions

/-!
# Assignments read back

An assignment expression is first tried as an arrow function and as an assignment to a pattern.
Of the parentheses around a formula a parameter list may be read, but no arrow follows them, so
the trial misses and reading starts again (`arrowFunction_gives`). An assignment to a name is
one to a pattern; what is left is read as operators and as assignments to members. With comma
sequences the goals inside an expression are complete (`rulesWith_restore`).
-/

namespace EcmaStack

open EcmaStack.Expr (Formula Shown Echoes)

variable {r : Rules} {e : Surroundings} {s : ParseState} {x y : Expr} {b : Bool} {l : Lexeme}
    {ls rest : List Lexeme}

namespace Parse

/-! ## Trials -/

/-- Where a formula begins, a name at most can be bound. -/
theorem patternTarget_gives (hs : s.At e.source (l :: ls)) (hl : l.Opens) :
    Gives (patternTarget r true) e s fun o t => o = none ∨
    (l.kind = .identifier ∧ t.At e.source ls) := by
  have hkind := hs.token.kind
  refine .known rfl ?_
  split
  · next h => exact absurd (hkind.symm.trans h) (hl.kind_ne rfl)
  · next h => exact absurd (hkind.symm.trans h) (hl.kind_ne rfl)
  · refine .pos rfl (.bind (Q := fun o t => o = none ∨ (l.kind = .identifier ∧ t.At e.source ls))
      ?_ ?_)
    · by_cases hname : l.kind = .identifier
      · obtain ⟨text, rfl, htext⟩ := hl.name_of_kind hname
        exact (bindingIdentifier_gives htext hs).mono fun _ _ h => .inr ⟨rfl, h.2⟩
      · refine .known rfl (.look fun _ => .pos ?_ (.pure (.inl rfl)))
        rw [hkind, bne_iff_ne.mpr hname]
        rfl
    · rintro o t (rfl | ht)
      · exact .pure (.inl rfl)
      · exact .pure (.inr ht)

/-- What a formula in parentheses begins with, up to a comma. -/
theorem first_element (hx : Formula x) (more : List Lexeme) :
    ∃ b y after, Formula y ∧ (b = false → Tier.assign ≤ y.tier) ∧ (firstKind after).grip <
      Tier.assign ∧
      x.lexemes ++ .punct .rightParen :: more = wrapped b y.lexemes ++ after ∧
      (after = .punct .rightParen :: more ∨
        ∃ z, Formula z ∧ after = .punct .comma :: (z.lexemes ++ .punct .rightParen :: more)) := by
  by_cases htier : Tier.assign ≤ x.tier
  · exact ⟨false, x, _, hx, fun _ => htier, firstKind_lt (by decide), rfl, .inl rfl⟩
  · obtain ⟨span, left, right, rfl, hleft, hright⟩ := hx.sequence htier
    exact ⟨_, left, _, hleft, Expr.leftLeast_of_not_apart, firstKind_lt (by decide),
      Expr.sequence_lexemes hright _,
      .inr ⟨right, hright, rfl⟩⟩

/-- A name with an optional default is read up to the end of a formula, or it stops at no place
where a parameter ends. -/
theorem patternElement_gives (hr : r.Restore) (hx : Formula x)
    (hb : b = false → Tier.assign ≤ x.tier) (hs : s.At e.source (wrapped b x.lexemes ++ rest))
    (hgrip : (firstKind rest).grip < Tier.assign) :
    Gives (patternElement r true) e s fun o t => o = none ∨ t.At e.source rest ∨
      (t.token.kind ≠ .punct .rightParen ∧ t.token.kind ≠ .punct .comma) := by
  obtain ⟨l, ls, heq, hl, hopens, -⟩ := hs.opens hx
  refine .known rfl (.bind (hr.target hl hopens) ?_)
  rintro o t (rfl | ⟨hname, ht⟩)
  · exact .pure (.inl rfl)
  cases o with
  | none => exact .pure (.inl rfl)
  | some target =>
    refine .bind (Q := fun _ u => u.At e.source rest ∨
      (u.token.kind ≠ .punct .rightParen ∧ u.token.kind ≠ .punct .comma)) ?_ fun _ u hu =>
      .look fun _ => .pure (.inr hu)
    obtain ⟨text, rfl, -⟩ := hopens.name_of_kind hname
    obtain ⟨rfl, own, hown, rfl⟩ := hx.head_name heq
    rcases hx.second (hb rfl) hown with ⟨rfl, -⟩ | ⟨span, op, n, value, rfl, -⟩ | ⟨m, more, rfl, hm,
      hplain⟩
    · refine .denies (fun h => ?_) (.neg nofun (.pure (.inl ht)))
      rw [← show t.token.kind = firstKind rest from ht.kind, h] at hgrip
      exact absurd hgrip (by decide)
    · obtain ⟨-, rfl⟩ := List.cons.inj hown
      cases hx with
      | assign hop htarget hx hvalue =>
        by_cases hassign : op = .punct .assign
        · subst hassign
          refine .asks ht.kind (.pos rfl (.bind (.next ht) fun _ u hu => ?_))
          refine .bind (.within (hr.assignment rfl hvalue Expr.le_tier hu hgrip)) fun _ v hv => ?_
          exact .pure (.inl hv.2)
        · refine .denies (ht.kind.trans_ne hassign) (.neg nofun (.pure (.inr ?_)))
          rw [show t.token.kind = op from ht.kind]
          constructor <;> rintro rfl <;> exact absurd hop (by decide)
    · refine .denies (fun h => ?_) (.neg nofun (.pure (.inr ?_)))
      · rw [← ht.token.kind, h] at hplain
        cases hplain
      · rw [ht.token.kind]
        exact ⟨fun h => absurd (h ▸ hm) (by decide), fun h => absurd (h ▸ hm) (by decide)⟩

/-- Of a formula in parentheses a parameter list may be read, but no further than to the
parenthesis at the end. -/
theorem parameterItems_gives (hr : r.Restore) (hx : Formula x)
    (hs : s.At e.source (x.lexemes ++ .punct .rightParen :: rest)) :
    Gives (parameterItems r true) e s fun o t => o = none ∨
    t.At e.source (.punct .rightParen :: rest) := by
  refine .keeping (fun _ t => t.At e.source (.punct .rightParen :: rest) ∨
    ∃ x, Formula x ∧ t.At e.source (x.lexemes ++ .punct .rightParen :: rest)) (.inr ⟨x, hx, hs⟩) ?_
  rintro items t (ht | ⟨x, hx, ht⟩)
  · exact .asks ht.kind (.pos rfl (.pure (.inr ht)))
  · obtain ⟨b, y, after, hy, hb, hgrip, heq, hafter⟩ := first_element hx rest
    rw [heq] at ht
    obtain ⟨l, ls, -, hl, hopens, -⟩ := ht.opens hy
    refine .denies (hl.kind.trans_ne (hopens.kind_ne rfl)) (.neg nofun ?_)
    refine .denies (hl.kind.trans_ne (hopens.kind_ne rfl)) (.neg nofun ?_)
    refine .bind (patternElement_gives hr hy hb ht hgrip) fun o u hu => ?_
    cases o with
    | none => exact .pure (.inl rfl)
    | some element =>
      rcases hu.resolve_left nofun with hu | ⟨hclose, hcomma⟩
      · rcases hafter with rfl | ⟨z, hz, rfl⟩
        · exact .asks hu.kind (.pos rfl (.pure (.inl hu)))
        · refine .denies (hu.kind.trans_ne nofun) (.neg nofun (.asks hu.kind (.pos rfl ?_)))
          exact .bind (.next hu) fun _ v hv => .pure (.inr ⟨z, hz, hv⟩)
      · exact .denies hclose (.neg nofun (.denies hcomma (.neg nofun (.pure (.inl rfl)))))

/-- The parentheses around a formula are no parameters of an arrow function: no arrow follows
them. -/
theorem arrowRest_misses (hr : r.Restore) (hx : Formula x)
    (hs : s.At e.source (wrapped true x.lexemes ++ rest)) :
    Gives (arrowRest r) e s fun o _ => o = none := by
  rw [wrapped_true] at hs
  refine .bind (Q := fun o t => o = none ∨ t.token.kind ≠ .punct .arrow) ?_ ?_
  · refine .denies (hs.kind.trans_ne nofun)
      (.neg nofun (.attempt (.asks hs.kind (.pos rfl (.look fun _ => ?_)))))
    refine .bind (.next hs) fun _ t ht =>
      .bind (.within (parameterItems_gives hr hx ht)) fun o u hu => ?_
    cases o with
    | none => exact .pure ⟨fun _ => .inl rfl, nofun⟩
    | some items =>
      refine .bind (.next (hu.resolve_left nofun)) fun _ v hv => .look fun _ =>
        .pure ⟨nofun, fun _ _ => .inr ?_⟩
      exact hv.no_arrow
  · rintro o t ht
    cases o with
    | none => exact .pure rfl
    | some params =>
      exact .denies (ht.resolve_left nofun) (.look fun _ => .pos rfl (.pure rfl))

/-- No arrow function is found where a formula stands. -/
theorem arrowFunction_gives (hr : r.Restore) (hx : Formula x)
    (hs : s.At e.source (wrapped b x.lexemes ++ rest)) :
    Gives (arrowFunction r) e s fun o t => o = none ∧
    t.At e.source (wrapped b x.lexemes ++ rest) := by
  obtain ⟨l, ls, heq, hl, hopens, -⟩ := hs.opens hx
  -- The attempt looks at two tokens: a name without an arrow is given up, a parenthesis is tried.
  refine .bind (Q := fun o t => t = s ∧
    (o = none ∨ o = some false ∧ l.kind = .punct .leftParen)) ?_ ?_
  · refine .notContextual hl hopens (by decide) (.neg nofun ?_)
    by_cases hname : l.kind = .identifier
    · refine .asks (hl.kind.trans hname) (.pos rfl (.known rfl (.pure ⟨rfl, .inl (if_neg ?_)⟩)))
      exact mt beq_iff_eq.mp hl.no_arrow_ahead
    · refine .denies (hl.kind.trans_ne hname) (.neg nofun ?_)
      by_cases hgroup : l.kind = .punct .leftParen
      · exact .asks (hl.kind.trans hgroup) (.pure ⟨rfl, .inr ⟨rfl, hgroup⟩⟩)
      · exact .denies (hl.kind.trans_ne hgroup) (.pure ⟨rfl, .inl rfl⟩)
  · rintro _ _ ⟨rfl, rfl | ⟨rfl, hgroup⟩⟩
    · exact .pure ⟨rfl, hs⟩
    -- What stands in parentheses here is a formula, be it the whole or its first operand, and no
    -- arrow follows it.
    · obtain ⟨y, more, hy, hmore⟩ : ∃ y more, Formula y ∧
          wrapped b x.lexemes ++ rest = wrapped true y.lexemes ++ more := by
        cases b with
        | true => exact ⟨x, rest, hx, rfl⟩
        | false =>
          obtain ⟨m, ms, hm, -, -⟩ := hx.opens_plain
          rw [wrapped_false, hm] at heq
          obtain ⟨rfl, -⟩ := List.cons.inj heq
          obtain ⟨y, more, hy, hmore⟩ := hx.group hm hgroup
          exact ⟨y, more ++ rest, hy, by rw [wrapped_false, hmore, List.append_assoc]⟩
      have hgrouped := hs
      rw [hmore] at hgrouped
      refine .look fun _ =>
        .attempt (.bind (.misses_inTrialScope (arrowRest_misses hr hy (hgrouped.congr rfl rfl))) ?_)
      rintro _ t rfl
      exact .pure ⟨fun _ => ⟨rfl, hs.congr rfl rfl⟩, nofun⟩

/-! ## Assignments -/

/-- Whether an expression assigns to a name. -/
def assignsName : Expr → Bool
  | .assign _ _ (.target (.identifier _)) _ => true
  | _ => false

/-- No assignment to a pattern is found where another formula stands. -/
theorem patternAssignment_misses (hx : Formula x)
    (hb : b = false → Tier.assign ≤ x.tier ∧ assignsName x = false)
    (hs : s.At e.source (wrapped b x.lexemes ++ rest))
    (hgrip : (firstKind rest).grip < Tier.assign) :
    Gives (patternAssignment r) e s fun o t => o = none ∧
    t.At e.source (wrapped b x.lexemes ++ rest) := by
  obtain ⟨l, ls, heq, hl, hopens, -⟩ := hs.opens hx
  refine .look fun start => .attempt ?_
  by_cases hname : l.kind = .identifier
  · obtain ⟨text, rfl, htext⟩ := hopens.name_of_kind hname
    obtain ⟨rfl, own, hown, rfl⟩ := hx.head_name heq
    have hplain : (firstKind (own ++ rest)).isAssignment = false := by
      rcases hx.second (hb rfl).1 hown with ⟨rfl, -⟩ | ⟨span, op, n, value, rfl, -⟩ | ⟨k, more, rfl,
        -, hk⟩
      · exact Kind.isAssignment_eq_false hgrip
      · cases (hb rfl).2
      · exact hk
    refine .bind (Q := fun o t => (∃ n : Name, o = some (.target (.identifier n))) ∧
      t.At e.source (own ++ rest))
      (.known rfl ?_) ?_
    · rw [show s.token.kind = .identifier from hl.token.kind]
      refine .bind (bindingIdentifier_gives htext hl) ?_
      rintro _ t ⟨⟨n, rfl, -⟩, ht⟩
      exact .pure ⟨⟨n, rfl⟩, ht⟩
    · rintro _ t ⟨⟨n, rfl⟩, ht⟩
      refine .known rfl (.pos ?_ (.pure ⟨fun _ => ⟨rfl, hs.congr rfl rfl⟩, nofun⟩))
      rw [mayAssign, ht.kind, hplain]
      rfl
  · refine .bind (Q := fun o t => o = none) (.known rfl ?_) ?_
    · have hkind := hl.token.kind
      split
      · next h => exact absurd (hkind.symm.trans h) hname
      · next h => exact absurd (hkind.symm.trans h) (hopens.kind_ne rfl)
      · next h => exact absurd (hkind.symm.trans h) (hopens.kind_ne rfl)
      · exact .pure rfl
    · rintro _ t rfl
      exact .pure ⟨fun _ => ⟨rfl, hs.congr rfl rfl⟩, nofun⟩

/-- An assignment to a name is one to a pattern. -/
theorem patternAssignment_assigns (hr : r.Restore) (hin : e.region.allowIn = true) (span : Span)
    {op : Kind} {n : Name} {value : Expr} (hop : op.isAssignment = true) (hn : IsVariable n.text)
    (hvalue : Formula value)
    (hs : s.At e.source ((Expr.assign span op (.target (.identifier n)) value).lexemes ++ rest))
    (hgrip : (firstKind rest).grip < Tier.assign) :
    Gives (patternAssignment r) e s fun o t =>
      (∃ y, o = some y ∧ Shown false (.assign span op (.target (.identifier n)) value) y) ∧
      t.At e.source rest := by
  refine .look fun start =>
    .attempt (.bind (Q := fun o t => (∃ m : Name, o = some (.target (.identifier m)) ∧
    m.text = n.text) ∧
    t.At e.source (.op op :: (wrapped (value.tier < Tier.assign) value.lexemes ++ rest)))
    (.known rfl ?_) ?_)
  · rw [show s.token.kind = .identifier from hs.token.kind]
    refine .bind (bindingIdentifier_gives hn hs) ?_
    rintro _ t ⟨⟨m, rfl, hm⟩, ht⟩
    exact .pure ⟨⟨m, rfl, hm⟩, ht⟩
  · rintro _ t ⟨⟨m, rfl, hm⟩, ht⟩
    have hkind : t.token.kind = op := ht.token.kind
    refine .known rfl (.neg ?_ (.bind (.next ht) fun _ u hu => ?_))
    · rw [mayAssign, hkind, hop]
      exact Bool.false_ne_true
    · refine .bind (hr.assignment hin hvalue Expr.le_tier hu hgrip) fun value' v hv =>
        .look fun span => .pure ⟨nofun, ?_⟩
      intro _ h
      cases h
      exact ⟨⟨_, rfl, hkind ▸ .assign (.name hm) hv.1.echoes, rfl⟩, hv.2⟩

/-- What is neither an assignment to a name nor a comma sequence. -/
theorem plainAssignment_gives (hr : r.Restore) (hin : e.region.allowIn = true) (hx : Formula x)
    (hb : b = false → Tier.assign ≤ x.tier ∧ assignsName x = false)
    (hs : s.At e.source (wrapped b x.lexemes ++ rest))
    (hgrip : (firstKind rest).grip < Tier.assign) :
    Gives (plainAssignment r) e s fun y t => Shown b x y ∧ t.At e.source rest := by
  -- What is read as a conditional expression and not followed by an assignment operator is the
  -- whole.
  have whole (h : Gives (conditional r) e s fun y t => Shown b x y ∧ t.At e.source rest) :
      Gives (plainAssignment r) e s fun y t => Shown b x y ∧ t.At e.source rest := by
    refine .bind h fun y t hy => .known rfl (.pos ?_ (.pure hy))
    rw [hy.2.kind, Kind.isAssignment_eq_false hgrip]
    rfl
  have operand (hb : b = false → Tier.logicalOr ≤ x.tier) :
      Gives (plainAssignment r) e s fun y t => Shown b x y ∧ t.At e.source rest := by
    refine whole (conditional_operand hr hin hx hb hs (Nat.lt_succ_of_lt hgrip) fun hquestion => ?_)
    rw [hquestion] at hgrip
    exact absurd hgrip (by decide)
  cases b with
  | true => exact operand nofun
  | false =>
    cases hx with
    | conditional htest hyes hno => exact whole (conditional_gives hr hin htest hyes hno hs hgrip)
    | @assign span op x value hop htarget hx hvalue =>
      -- The target is read as an operand first and then taken for a target, which it is.
      have hcall := Expr.call_le_of_isTarget htarget
      rw [wrapped_false, Expr.assign_lexemes] at hs
      refine .bind (conditional_operand (b := false) hr hin hx
        (fun _ => Nat.le_trans (by decide) hcall) hs ?_ ?_) ?_
      · exact firstKind_lt (lt_of_eq_of_lt (Kind.grip_of_assignment hop) (by decide))
      · rintro rfl
        exact absurd hop (by decide)
      · rintro y t ⟨hy, ht⟩
        have hkind : t.token.kind = op := ht.token.kind
        obtain ⟨htarget, hpattern⟩ := hx.shown_target htarget hy
        refine .known rfl (.neg ?_ ?_)
        · rw [hkind, hop]
          exact Bool.false_ne_true
        · rw [htarget]
          refine .bind (.next ht) fun _ u hu =>
            .bind (hr.assignment hin hvalue Expr.le_tier hu hgrip) fun z v hz => ?_
          rw [hpattern]
          exact .pure ⟨⟨hkind ▸ .assign hy.echoes hz.1.echoes, rfl⟩, hz.2⟩
    | @binary span op left right hop =>
      exact operand fun h => Kind.logicalOr_le_of_assign_le hop (hb h).1
    | @update span op x before =>
      exact operand fun _ => by cases before <;> exact Nat.le_of_ble_eq_true rfl
    | _ => exact operand fun _ => Nat.le_of_ble_eq_true rfl

/-- An assignment expression. -/
theorem assignmentExpression_restores (hr : r.Restore) :
    Restores (assignmentExpression r) Tier.assign := by
  intro e s x b rest hin hx hb hs hgrip
  obtain ⟨l, ls, -, hl, hopens, -⟩ := hs.opens hx
  refine .notContextual hl hopens (by decide)
    (.look fun _ => .neg nofun (.bind (arrowFunction_gives hr hx hs) ?_))
  rintro _ t ⟨rfl, ht⟩
  by_cases hname : b = false ∧ assignsName x = true
  · obtain ⟨rfl, hname⟩ := hname
    unfold assignsName at hname
    split at hname
    · next span op n value =>
      cases hx with
      | assign hop htarget hx hvalue =>
        cases hx with
        | name hn =>
          refine .bind (patternAssignment_assigns hr hin span hop hn hvalue ht hgrip) ?_
          rintro _ u ⟨⟨y, rfl, hy⟩, hu⟩
          exact .pure ⟨hy, hu⟩
    · cases hname
  · have hb (h : b = false) : Tier.assign ≤ x.tier ∧ assignsName x = false :=
      ⟨hb h, Bool.eq_false_iff.mpr fun hx => hname ⟨h, hx⟩⟩
    refine .bind (patternAssignment_misses hx hb ht hgrip) ?_
    rintro _ u ⟨rfl, hu⟩
    exact plainAssignment_gives hr hin hx hb hu hgrip

/-! ## Comma sequences and goals -/

/-- A comma sequence. -/
theorem commaExpression_restores (hr : r.Restore) : Restores (commaExpression r) Tier.comma := by
  intro e s x b rest hin hx hb hs hgrip
  by_cases htier : b = false → Tier.assign ≤ x.tier
  · refine .bind (hr.assignment hin hx htier hs (Nat.lt_succ_of_lt hgrip)) fun y t hy =>
      .denies (fun hcomma => ?_) ?_
    · rw [← hy.2.kind, hcomma] at hgrip
      exact absurd hgrip (by decide)
    · exact .neg nofun (.pure hy)
  · obtain ⟨rfl, hlow⟩ := Classical.not_imp.mp htier
    obtain ⟨span, left, right, rfl, hleft, hright⟩ := hx.sequence hlow
    rw [wrapped_false, Expr.sequence_lexemes hright] at hs
    refine .bind (hr.assignment hin hleft Expr.leftLeast_of_not_apart hs (firstKind_lt (by decide)))
      fun y t hy => ?_
    refine .asks hy.2.kind (.pos rfl (.bind (.next hy.2) fun _ u hu => ?_))
    refine .bind (hr.expression (b := false) hin hright (fun _ => hright.comma_le) hu hgrip)
      fun z v hz => ?_
    exact .pure ⟨⟨.binary hy.1.echoes hz.1.echoes, rfl⟩, hz.2⟩

/-- The goals inside an expression are answered by what has been printed. -/
theorem rulesWith_restore (fuel : Nat) : (rulesWith fuel).Restore := by
  induction fuel with
  | zero =>
    have hfail (least : Nat) : Restores (fail (.breakdown .exhausted)) least :=
      fun _ _ _ _ _ => .internal
    exact ⟨hfail _, hfail _, fun _ _ _ => hfail _, hfail _, hfail _, fun _ _ => .internal⟩
  | succ fuel ih =>
    exact ⟨commaExpression_restores ih, assignmentExpression_restores ih,
      fun _ => binaryExpression_restores ih,
      unaryExpression_restores ih, leftHandSide_restores ih, patternTarget_gives⟩

end Parse

end EcmaStack
