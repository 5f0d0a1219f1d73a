import EcmaStack.Proofs.Grouping.Expressions

/-!
# Precedence climbing

The loop over operators keeps that the operand read so far is an operator whose right operand
has stopped at the token in hand (`Climbs`): nothing that binds tighter can follow it. So
whatever operator follows groups as its tier demands, and exponentiation, which asks for its own
tier on the right, follows no operator at all.
-/

namespace EcmaStack

open Node (Orderly)
open ParseState (Onward)

/-! ## Tiers -/

/-- No operator binds as tightly as exponentiation. -/
theorem Kind.eq_power {k : Kind} (h : (Kind.punct .power).binaryPrecedence ≤ k.binaryPrecedence) :
    k = .punct .power := by
  change 13 ≤ k.binaryPrecedence at h
  unfold Kind.binaryPrecedence at h
  split at h
  · next p => cases p <;> first | rfl | exact absurd h (by decide)
  all_goals exact absurd h (by decide)

namespace Parse

variable {r : Rules} {e : Surroundings} {source : Text} {s t u : ParseState}

/-- How tightly the operators of a right operand have to bind. -/
def rightTier (op : Kind) : Nat :=
  if op == .punct .power then op.binaryPrecedence else op.binaryPrecedence + 1

/-- A power takes a power as its right operand, so it groups to the right. -/
theorem rightTier_power {op : Kind} (h : op = .punct .power) : rightTier op = op.binaryPrecedence :=
  if_pos (beq_iff_eq.mpr h)

/-- Every other operator wants a tighter one there, so it groups to the left. -/
theorem rightTier_of_ne {op : Kind} (h : op ≠ .punct .power) :
    rightTier op = op.binaryPrecedence + 1 :=
  if_neg (mt beq_iff_eq.mp h)

/-- Whether an expression outside parentheses is one of some operations. -/
theorem hasOperator_iff {ops : List Punct} {x : Expr} :
    hasOperator ops x = true ↔ ∃ p ∈ ops, x.operator? = some (.punct p) := by
  unfold hasOperator
  split
  · next p _ _ => simp [Expr.operator?]
  · next hother =>
    refine ⟨nofun, ?_⟩
    rintro ⟨p, -, hop⟩
    cases x with
    | binary span op left right =>
      cases hop
      exact absurd rfl (hother span p left right)
    | _ => cases hop

/-- Where joining two operands does not mix `??` with `&&` or `||`, neither operand clashes with
the operator. -/
theorem clashes_of_mixesCoalesce {op o : Kind} {left right : Expr}
    (h : mixesCoalesce op left right = false) (ho : o ∈ left.operator? ∨ o ∈ right.operator?) :
    op.clashes o = false := by
  rw [Bool.eq_false_iff]
  intro hclash
  have hnone (ops : List Punct) {p : Punct} (hp : p ∈ ops) (hop : o = .punct p)
      (hmixed : (hasOperator ops left || hasOperator ops right) = false) : False := by
    obtain ⟨hl, hr⟩ := Bool.or_eq_false_iff.mp hmixed
    subst hop
    rcases ho with ho | ho
    · exact Bool.eq_false_iff.mp hl (hasOperator_iff.mpr ⟨p, hp, ho⟩)
    · exact Bool.eq_false_iff.mp hr (hasOperator_iff.mpr ⟨p, hp, ho⟩)
  unfold Kind.clashes at hclash
  split at hclash
  · exact hnone [.logicalAnd, .logicalOr] (by decide) rfl h
  · exact hnone [.logicalAnd, .logicalOr] (by decide) rfl h
  · exact hnone [.coalesce] (by decide) rfl h
  · exact hnone [.coalesce] (by decide) rfl h
  · cases hclash

/-! ## One operator -/

/-- An operand was read up to a state: what follows it there binds no tighter than the operand's
own operator, and so belongs to none of its operands. -/
structure Climbs (e : Surroundings) (least : Nat) (s : ParseState) (x : Expr) (t : ParseState) :
    Prop where
  onward : Onward e.source s t
  extent : Extent e.source s t (.expr x)
  tier : x.Tier e.source least
  stopped : ∀ o ∈ x.operator?, Stops e (rightTier o) t

/-- The operator is the token in hand where its left operand was read, and its right operand
starts at the next token. -/
theorem followedBy {a : Unit} {left right : Expr} {stop : Int}
    (hleft : Extent e.source s t (.expr left)) (ht : t.InStep e.source)
    (hkind : t.token.kind ≠ .eof) (hnext : next e t = .ok (a, u))
    (hright : right.span = ⟨u.token.start, stop⟩) :
    left.FollowedBy e.source t.token.kind right := by
  obtain ⟨htu, -⟩ := Delivers.any next t ht a u hnext
  have hbehind := (htu.inStep ht).ready.behind
  obtain ⟨-, rfl⟩ := hold_ok (show hold _ _ _ e t = .ok (a, u) from hnext)
  have hspan : left.span = ⟨s.token.start, t.previousEnd⟩ := hleft.span
  exact ⟨t.previousEnd, t.token, t.cursor, congrArg Span.stop hspan, ht.scanned.scan_eq, rfl,
    congrArg Span.start hright,
    ht.ready.behind, token_filled ht.ready hkind, hbehind⟩

/-- An operator that follows an operand binds no tighter than the operand's own operator, and is
no exponentiation. -/
theorem Climbs.precedence {least : Nat} {x : Expr} (h : Climbs e least s x t) {o : Kind}
    (ho : o ∈ x.operator?) (hop : t.token.kind.binaryPrecedence ≠ 0)
    (hin : ¬(t.token.kind = .keyword .inWord ∧ e.region.allowIn = false)) :
    t.token.kind.binaryPrecedence ≤ o.binaryPrecedence ∧ t.token.kind ≠ .punct .power := by
  have hbelow : t.token.kind.binaryPrecedence < rightTier o := by
    rcases h.stopped o ho with hnone | hbelow | hhidden
    · exact absurd hnone hop
    · exact hbelow
    · exact absurd hhidden hin
  by_cases hsame : o = .punct .power
  · rw [rightTier_power hsame] at hbelow
    refine ⟨Nat.le_of_lt hbelow, fun hpower => ?_⟩
    rw [hpower, hsame] at hbelow
    exact Nat.lt_irrefl _ hbelow
  · rw [rightTier_of_ne hsame] at hbelow
    refine ⟨Nat.le_of_lt_succ hbelow, fun hpower => hsame (Kind.eq_power ?_)⟩
    rw [← hpower]
    exact Nat.le_of_lt_succ hbelow

/-- An operand, the operator after it and an operand of its tier are grouped. -/
theorem Climbs.operation {least : Nat} {left right : Expr} {stop : Int} {a : Unit}
    (h : Climbs e least s left t) (ht : t.InStep e.source) (hop : t.token.kind.binaryPrecedence ≠ 0)
    (hin : ¬(t.token.kind = .keyword .inWord ∧ e.region.allowIn = false))
    (hbase : ¬(t.token.kind = .punct .power ∧ isBareUnary left = true))
    (hnext : next e t = .ok (a, u)) (hright : right.Tier e.source (rightTier t.token.kind))
    (hspan : right.span = ⟨u.token.start, stop⟩)
    (hmixed : mixesCoalesce t.token.kind left right = false) :
    Operation e.source (join left right) t.token.kind left right where
  operator := Or.inr (Nat.pos_of_ne_zero hop)
  leftTier _ _ o ho := (h.precedence ho hop hin).1
  rightTier _ hpower o ho := by
    have hle := hright.operator o ho
    rw [rightTier_of_ne hpower] at hle
    exact hle
  base hpower := by
    refine ⟨Option.eq_none_iff_forall_not_mem.mpr fun o ho => (h.precedence ho hop hin).2 hpower,
      ?_⟩
    exact Bool.eq_false_iff.mpr fun hbare => hbase ⟨hpower, hbare⟩
  exponent hpower o ho := by
    have hle := hright.operator o ho
    rw [rightTier_power hpower, hpower] at hle
    exact Kind.eq_power hle
  sequence hcomma := by
    rw [hcomma] at hop
    exact absurd rfl hop
  unmixed o ho := clashes_of_mixesCoalesce hmixed ho
  tight _ := ⟨h.tier.tight, hright.tight⟩
  between := followedBy h.extent ht (fun hend => hop (hend ▸ rfl)) hnext hspan
  extent := rfl

/-! ## Sequences of operators -/

/-- Operators are read one after another until none goes on that binds as tightly as asked for. -/
theorem binaryExpression_climbs (h : r.Grouping) (least : Nat) (hs : s.InStep e.source) :
    Holds (binaryExpression r least) e s fun x t => Climbs e least s x t ∧ Stops e least t := by
  refine .bind ((h.unary e s hs).and (h.charted.unary e s hs.ready)) fun first t ⟨⟨hst, hfirst⟩,
    hextent⟩ => ?_
  have hstopped : ∀ o ∈ first.operator?, Stops e (rightTier o) t := by
    rw [hfirst.operator]
    nofun
  -- The loop's invariant: what was read so far is orderly, and no operator looser than is asked
  -- for is its outermost one.
  refine .repeating (Climbs e least s) ⟨hst, hextent, hfirst.tier least, hstopped⟩
    fun left t hleft => ?_
  refine .known rfl (.known rfl (.ite (fun hstop => .pure ?_) fun hgo => .failIf (fun _ => .fail)
    fun hbase => ?_))
  · have hstops : Stops e least t := by simpa [Stops, or_assoc] using hstop
    exact ⟨hleft, hstops⟩
  have ht := hleft.onward.inStep hs
  refine .bind (Holds.answer.and (Delivers.any next t ht)) fun a u ⟨hnext, htu, _⟩ => ?_
  have hu := htu.inStep ht
  refine .bind (((h.binary e _ u hu).and (h.stops e _ u hu)).and (h.charted.binary e _ u hu.ready))
    fun right v ⟨⟨⟨huv, hright⟩, hstops⟩, hextent⟩ => ?_
  refine .failIf (fun _ => .failAt) fun hmixed => .pure ?_
  -- The operator binds at least as tightly as is asked for, and the one behind the right operand
  -- less tightly than it.
  obtain ⟨hnone, hleast, hin⟩ : t.token.kind.binaryPrecedence ≠ 0 ∧ least ≤
      t.token.kind.binaryPrecedence ∧
      ¬(t.token.kind = .keyword .inWord ∧ e.region.allowIn = false) := by
    simpa [and_assoc] using hgo
  have hoperation := hleft.operation ht hnone hin (by simpa using hbase) hnext hright hextent.span
    (by simpa using hmixed)
  have hread := Stretch.pass hleft.extent.stretch (Passes.passes e t ht.ready a u hnext)
  show Climbs e least s (.binary (join left right) t.token.kind left right) v
  exact {
    onward := (hleft.onward.trans htu).trans huv
    extent := (Stretch.andThen hread hextent.stretch).node hs.ready rfl
      (join_span hleft.extent hextent.span) rfl
    tier := {
      orderly := .close (hleft.tier.orderly.pair hright.orderly) hoperation
      operator := present hleast
      tight := by
        show (t.token.kind == .punct .comma) = false
        exact beq_eq_false_iff_ne.mpr fun hcomma => hnone (hcomma ▸ rfl) }
    stopped := present hstops }

/-- What is read from a tier on is an operation of that tier or above, or an operand. By
induction on the turns: what was read so far is the left operand of the next. -/
theorem binaryExpression_orderly (h : r.Grouping) (least : Nat) :
    Delivers (binaryExpression r least) e (Expr.Tier e.source least) :=
  fun _ hs => (binaryExpression_climbs h least hs).mono fun _ _ ⟨hx, _⟩ => ⟨hx.onward, hx.tier⟩

/-! ## Around sequences of operators -/

theorem updateExpression_orderly (h : r.Grouping) :
    Delivers (updateExpression r) e (Expr.Operand e.source) := by
  refine (h.leftHandSide e).bind fun operand hoperand => .skip fun t =>
    .ite (fun _ => .pure hoperand) fun _ => ?_
  split
  · exact .failAt
  · next target htarget =>
    exact .skip fun _ => .skip fun _ =>
      .pure (.node (simpleTarget?_orderly hoperand.orderly htarget) rfl rfl rfl)

/-- A unary operator binds tighter than every binary one but the power, which refuses it
as its left operand. -/
theorem unaryExpression_orderly (h : r.Grouping) :
    Delivers (unaryExpression r) e (Expr.Operand e.source) := by
  refine .skip fun t => .ite (fun _ => ?_) fun _ => .ite (fun _ => ?_) fun _ => ?_
  · refine .skip fun _ => (h.unary e).bind fun operand hoperand => .skipIf fun _ => ?_
    exact .skip fun _ => .pure (.node hoperand.orderly rfl rfl rfl)
  · refine .skip fun _ => (h.unary e).bind fun operand hoperand => ?_
    split
    · exact .failAt
    · next target htarget =>
      exact .skip fun _ =>
        .pure (.node (simpleTarget?_orderly hoperand.orderly htarget) rfl rfl rfl)
  · refine .skip fun _ => .skip fun _ => .ite (fun _ => ?_) fun _ => updateExpression_orderly h
    exact .skip fun _ => (h.unary e).bind fun x hx => .skip fun _ =>
      .pure (.node hx.orderly rfl rfl rfl)

/-- A conditional is a single expression, and so are its three parts. -/
theorem conditional_orderly (h : r.Grouping) :
    Delivers (conditional r) e (Expr.Single e.source) := by
  refine (h.binary e loosest).bind fun test htest => .skip fun _ => .ite (fun _ => ?_) fun _ => ?_
  · refine .skip fun _ => (Delivers.within (h.value _)).bind fun yes hyes => .skip fun _ => ?_
    exact (h.value e).bind fun no hno => .pure (.node (htest.orderly.cons (hyes.pair hno)) rfl rfl)
  · exact .pure (.of_tier htest (by decide))

theorem yieldExpression_orderly (h : r.Grouping) :
    Delivers (yieldExpression r) e (Expr.Single e.source) := by
  refine .skip fun start => .skip fun _ => .skip fun t => .ite (fun _ => ?_) fun _ => ?_
  · exact .skip fun _ => .pure (.node .nil rfl rfl)
  · refine .ite (fun _ => ?_) fun _ => .ite (fun _ => ?_) fun _ => .skip fun _ =>
      .pure (.node .nil rfl rfl)
    · exact .skip fun _ => (h.value e).bind fun x hx => .skip fun _ => .pure (.node hx rfl rfl)
    · exact (h.value e).bind fun x hx => .skip fun _ => .pure (.node hx rfl rfl)

theorem assignmentTarget_orderly (h : r.Grouping) :
    Delivers (assignmentTarget r) e fun o => ∀ p ∈ o, Orderly e.source [.pattern p] := by
  refine .skip fun k => ?_
  split
  · exact bindingTarget_orderly
  · exact arrayPattern_orderly h false
  · exact objectPattern_orderly h false
  · exact .pure absent

theorem patternAssignment_orderly (h : r.Grouping) :
    Delivers (patternAssignment r) e fun o => ∀ x ∈ o, x.Single e.source := by
  refine .skip fun start => .attempt ((assignmentTarget_orderly h).bind fun o ho => ?_)
  cases o with
  | none => exact .pure absent
  | some target =>
    refine .skip fun op => .ite (fun _ => .pure absent) fun _ => .skip fun _ => ?_
    exact (h.value e).bind fun x hx => .skip fun _ =>
      .pure (present (.node ((ho target rfl).pair hx) rfl rfl))

theorem plainAssignment_orderly (h : r.Grouping) :
    Delivers (plainAssignment r) e (Expr.Single e.source) := by
  refine (conditional_orderly h).bind fun left hleft => .skip fun op =>
    .ite (fun _ => .pure hleft) fun _ => ?_
  split
  · exact .failAt
  · next target htarget =>
    refine .skip fun _ => (h.value e).bind fun x hx => ?_
    refine (asPattern_orderly (simpleTarget?_orderly hleft.orderly htarget)).bind fun p hp => ?_
    exact .pure (.node (hp.pair hx) rfl rfl)

/-- An assignment is a single expression whichever way it is read. -/
theorem assignmentExpression_orderly (h : r.Grouping) :
    Delivers (assignmentExpression r) e (Expr.Single e.source) := by
  refine .skip fun _ => .skip fun _ => .ite (fun _ => yieldExpression_orderly h) fun _ => ?_
  refine (arrowFunction_orderly h).bind fun arrow harrow => ?_
  cases arrow with
  | some x =>
    obtain ⟨hx, hop⟩ := harrow x rfl
    exact .pure ⟨hx, fun hsequence => nomatch hop.symm.trans hsequence⟩
  | none =>
    refine (patternAssignment_orderly h).bind fun pattern hpattern => ?_
    cases pattern with
    | some x => exact .pure (hpattern x rfl)
    | none => exact plainAssignment_orderly h

/-- A comma joins an assignment to the sequence after it. -/
theorem sequence_operation {left right : Expr} {stop : Int} {a : Unit}
    (hleft : left.Single e.source) (hextent : Extent e.source s t (.expr left))
    (ht : t.InStep e.source) (hkind : t.token.kind = .punct .comma) (hnext : next e t = .ok (a, u))
    (hspan : right.span = ⟨u.token.start, stop⟩) :
    Operation e.source (join left right) (.punct .comma) left right where
  operator := Or.inl rfl
  leftTier hop := absurd rfl hop
  rightTier hop := absurd rfl hop
  base := nofun
  exponent := nofun
  sequence _ := hleft.sequence
  unmixed _ _ := rfl
  tight hop := absurd rfl hop
  between := hkind ▸ followedBy hextent ht (by rw [hkind]; nofun) hnext hspan
  extent := rfl

/-- A comma joins single expressions from the left. -/
theorem commaExpression_orderly (h : r.Grouping) :
    Delivers (commaExpression r) e fun x => Orderly e.source [.expr x] := by
  intro s hs
  refine .bind ((h.assignment e s hs).and (h.charted.assignment e s hs.ready))
    fun left t ⟨⟨hst, hleft⟩, hextent⟩ => ?_
  refine .known rfl (.ite (fun hkind => ?_) fun _ => .pure ⟨hst, hleft.orderly⟩)
  have ht := hst.inStep hs
  refine .bind (Holds.answer.and (Delivers.any next t ht)) fun a u ⟨hnext, htu, _⟩ => ?_
  have hu := htu.inStep ht
  refine .bind ((h.expression e u hu).and (h.charted.expression e u hu.ready))
    fun right v ⟨⟨huv, hright⟩, hspan⟩ => .pure ?_
  have hoperation := sequence_operation hleft hextent ht (by simpa using hkind) hnext hspan.span
  exact ⟨(hst.trans htu).trans huv, .close (hleft.orderly.pair hright) hoperation⟩

end Parse

end EcmaStack
