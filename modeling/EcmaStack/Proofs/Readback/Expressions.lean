import EcmaStack.Proofs.Readback.Laws
import EcmaStack.Proofs.Readback.Openings

/-!
# Operands and operators read back

What binds tightest are numbers, names, expressions in parentheses, and the members and calls
that follow them. A rule `Restores` a tier if it reads every formula that binds so tightly, up
to a lexeme with a lesser grip, and answers the formula again. The rules for operands do, given
that the goals inside them do (`Rules.Restore`), and so do those for operators before and after
an operand and between operands.

Members and calls are read in a loop, the innermost first, while a formula has the innermost
deepest inside. So what is read of a formula is stated with what is still to come of the loop
(`primary_links`). The loop over operators reads the operands of a tree from the innermost left
one on, so there too what is still to come is part of the statement (`Climbs`). The tier that
the printer calls for on either side of an operator is the one at which that loop reads there.
-/

namespace EcmaStack

section

open EcmaStack.Expr (Formula Shown Echoes)

variable {r : Rules} {e : Surroundings} {s : ParseState} {x y : Expr} {b : Bool} {l : Lexeme}
    {ls rest : List Lexeme}
  {text : String}

/-! ## Names -/

namespace ParseState.At

/-- A name that is not the word in question is not taken for it. -/
theorem isPlain_eq_false (hs : s.At e.source (l :: ls)) {word : String}
    (h : l.kind = .identifier → l.text ≠ word) :
    Parse.isPlain s.token word = false := by
  rw [Bool.eq_false_iff]
  intro hplain
  obtain ⟨hkind, hname⟩ := Bool.and_eq_true_iff.mp hplain
  have hkind := hs.token.kind.symm.trans (beq_iff_eq.mp (Bool.and_eq_true_iff.mp hkind).1)
  exact h hkind ((hs.token.name hkind).symm.trans (beq_iff_eq.mp hname))

/-- At a formula, the token in hand is the lexeme that it begins with. -/
theorem opens (hs : s.At e.source (wrapped b x.lexemes ++ rest)) (hx : Formula x) : ∃ l ls,
    wrapped b x.lexemes ++ rest = l :: ls ∧ s.At e.source (l :: ls) ∧ l.Opens ∧
      (b = true ∨ Tier.update ≤ x.tier → l.isPrefix = false) := by
  obtain ⟨l, ls, hls, hopens, hleading⟩ := hx.opens b
  rw [hls] at hs ⊢
  exact ⟨l, ls ++ rest, rfl, hs, hopens, hleading⟩

end ParseState.At

/-- No formula starts with a name that the parser gives a meaning of its own. -/
theorem Lexeme.Opens.ne_word (h : l.Opens) {word : String}
    (hword : word ∈ ["NaN", "Infinity", "async", "await", "yield"]) (hl : l.kind = .identifier) :
    l.text ≠ word := by
  obtain ⟨text, rfl, htext⟩ := h.name_of_kind hl
  rintro rfl
  exact htext.plain hword

namespace Parse

/-- So where a formula is read the tests for such words come out false. -/
theorem Gives.notContextual {α : Type} {f : Bool → Parse α} {R : α → ParseState → Prop}
    (hs : s.At e.source (l :: ls)) (hl : l.Opens) {word : String}
    (hword : word ∈ ["NaN", "Infinity", "async", "await", "yield"]) (hf : Gives (f false) e s R) :
    Gives (atContextual word >>= f) e s R := by
  refine known (a := false) ?_ hf
  rw [← hs.isPlain_eq_false (hl.ne_word hword)]
  rfl

/-- A variable's name is reserved nowhere. -/
theorem isReservedHere_eq (htext : IsVariable text) : isReservedHere text e s = .ok (false, s) := by
  have hyield : (text == "yield") = false :=
    beq_eq_false_iff_ne.mpr fun h => htext.plain (by rw [h]; decide)
  have hawait : (text == "await") = false :=
    beq_eq_false_iff_ne.mpr fun h => htext.plain (by rw [h]; decide)
  show Except.ok ((text == "yield" && Scope.inGenerator s.scopes) ||
    (text == "await" && Scope.inAsync s.scopes), s) = _
  rw [hyield, hawait]
  rfl

/-- A variable can be bound. -/
theorem bindingIdentifier_gives (htext : IsVariable text)
    (hs : s.At e.source (.name text :: rest)) :
    Gives bindingIdentifier e s fun o t => (∃ n : Name, o = some n ∧ n.text = text) ∧
    t.At e.source rest := by
  have hkind : s.token.kind = .identifier := hs.token.kind
  have hname : s.token.name = text := hs.token.name rfl
  refine .known rfl (.known (a := false) ?_ (.neg ?_ (.bind (.next hs) fun _ t ht => ?_)))
  · rw [hname]
    exact isReservedHere_eq htext
  · rw [hkind, hs.token.escaped]
    exact Bool.false_ne_true
  · exact .pure ⟨⟨_, rfl, hname⟩, ht⟩

/-- A variable is referred to. -/
theorem identifierReference_gives {n : Name} (hn : IsVariable n.text)
    (hs : s.At e.source (.name n.text :: rest)) :
    Gives identifierReference e s fun y t => Shown false (.identifier n) y ∧
    t.At e.source rest := by
  have hkind : s.token.kind = .identifier := hs.token.kind
  have hname : s.token.name = n.text := hs.token.name rfl
  refine .known rfl
    (.neg ?_ (.neg ?_ (.known (a := false) ?_ (.neg nofun (.bind (.next hs) fun _ t ht => ?_)))))
  · rw [hkind]
    decide
  · rw [hs.token.escaped]
    exact Bool.false_ne_true
  · rw [hname]
    exact isReservedHere_eq hn
  · split
    · next h => exact absurd (by rw [← hname, h]; decide) hn.plain
    · next h => exact absurd (by rw [← hname, h]; decide) hn.plain
    · exact .pure ⟨⟨.name hname, rfl⟩, ht⟩

/-- The literal of a number that has been read. -/
theorem numberLiteral_gives {t : Token} {span : Span} {raw : String} {value : Binary64}
    (hnumeral : IsNumeral raw value) (ht : (Lexeme.number raw).Matches e.source t)
    (hs : s.At e.source rest) :
    Gives (numberLiteral t) e s fun y t => Shown false (.number span raw value) y ∧
    t.At e.source rest := by
  have hkind : t.kind = .number := ht.kind
  refine .bind (Q := fun given u => given.toString = raw ∧ u = s) ?_ ?_
  · refine .known rfl ?_
    dsimp only
    split
    · exact .pure ⟨ht.written, rfl⟩
    · exact .internalAt
  · rintro _ _ ⟨rfl, rfl⟩
    refine .neg (by rw [hkind]; decide) ?_
    rw [hnumeral.value]
    exact .pure ⟨⟨.number, rfl⟩, hs⟩

/-- The name after a point. -/
theorem memberName_gives {n : Name} (hs : s.At e.source (.name n.text :: rest)) :
    Gives memberName e s fun y t => Echoes (.identifier n) y ∧ t.At e.source rest := by
  have hkind : s.token.kind = .identifier := hs.token.kind
  refine .known rfl (.neg ?_ (.pos ?_ (.bind (.next hs) fun _ t ht => ?_)))
  · rw [hkind]
    decide
  · rw [hkind]
    rfl
  · exact .pure ⟨.name (hs.token.name rfl), ht⟩

/-! ## What goals give -/

/-- The rule reads every formula that binds as tightly as the tier, up to a lexeme with a lesser
grip. -/
def Restores (p : Parse Expr) (least : Nat) : Prop :=
  ∀ {e : Surroundings} {s : ParseState} {x : Expr} {b : Bool} {rest : List Lexeme},
    e.region.allowIn = true →
    Formula x → (b = false → least ≤ x.tier) → s.At e.source (wrapped b x.lexemes ++ rest) →
    (firstKind rest).grip < least → Gives p e s fun y t => Shown b x y ∧ t.At e.source rest

end Parse

/-- Goals for expressions are answered by what has been printed, and the goal for a target by a
name at most. -/
structure Rules.Restore (r : Rules) : Prop where
  expression : Parse.Restores r.expression Tier.comma
  assignment : Parse.Restores r.assignment Tier.assign
  binary : ∀ least, Tier.logicalOr ≤ least → least < Tier.unary →
    Parse.Restores (r.binary least) least
  unary : Parse.Restores r.unary Tier.unary
  leftHandSide : Parse.Restores r.leftHandSide Tier.call
  target : ∀ {e : Surroundings} {s : ParseState} {l : Lexeme} {ls : List Lexeme}, s.At e.source
    (l :: ls) → l.Opens →
    Parse.Gives (r.target true) e s fun o t => o = none ∨ (l.kind = .identifier ∧ t.At e.source ls)

namespace Parse

/-! ## Parentheses and arguments -/

/-- An expression in parentheses. -/
theorem parenthesized_gives (hr : r.Restore) (hx : Formula x)
    (hs : s.At e.source (wrapped true x.lexemes ++ rest)) :
    Gives (parenthesized r) e s fun y t => Shown true x y ∧ t.At e.source rest := by
  rw [wrapped_true] at hs
  refine .bind (.expect hs rfl) fun _ t ht => .bind (Q := fun y u => Shown false x y ∧
    u.At e.source (.punct .rightParen :: rest)) (.within ?_) ?_
  · exact hr.expression rfl hx (fun _ => hx.comma_le) ht (firstKind_lt (by decide))
  · rintro y u ⟨hy, hu⟩
    exact .bind (.expect hu rfl) fun _ v hv => .look fun _ => .pure ⟨⟨.paren hy.echoes, rfl⟩, hv⟩

/-- The arguments of a call. -/
theorem commaList_gives {item : Parse Expr} (hitem : Restores item Tier.assign) {args : List Expr}
    (hargs : ∀ x ∈ args, Formula x) (hin : e.region.allowIn = true)
    (hs : s.At e.source (Expr.argumentLexemes args ++ .punct .rightParen :: rest)) :
    Gives (commaList .rightParen item) e s fun ys t => List.Forall₂ Echoes args ys ∧
      t.At e.source (.punct .rightParen :: rest) := by
  -- The loop's invariant: the items read so far echo the first arguments, and the lexemes of the
  -- others are left.
  refine .keeping (fun items t => ∃ done todo, args = done ++ todo ∧
    List.Forall₂ Echoes done items.reverse ∧
    t.At e.source (Expr.argumentLexemes todo ++ .punct .rightParen :: rest)) ⟨[], args, rfl, .nil,
      hs⟩ ?_
  rintro items t ⟨done, todo, rfl, hdone, ht⟩
  cases todo with
  | nil => exact .asks ht.kind (.pos rfl (.pure ⟨by rwa [List.append_nil], ht⟩))
  | cons x todo =>
    have hx := hargs x (List.mem_append_right _ List.mem_cons_self)
    have hmore {y : Expr} (hy : Echoes x y) :
        List.Forall₂ Echoes (done ++ [x]) (y :: items).reverse := by
      rw [List.reverse_cons]
      exact List.rel_append hdone (.cons hy .nil)
    have hread : ∃ after, Expr.argumentLexemes (x :: todo) ++ .punct .rightParen :: rest =
        wrapped (x.tier < Tier.assign) x.lexemes ++ after ∧ (firstKind after).grip < Tier.assign ∧
        ((todo = [] ∧ after = .punct .rightParen :: rest) ∨
          after = .punct .comma :: (Expr.argumentLexemes todo ++ .punct .rightParen :: rest)) := by
      cases todo with
      | nil => exact ⟨_, rfl, firstKind_lt (by decide), .inl ⟨rfl, rfl⟩⟩
      | cons y todo => exact ⟨_, List.append_assoc _ (_ :: _) _, firstKind_lt (by decide), .inr rfl⟩
    obtain ⟨after, heq, hgrip, hafter⟩ := hread
    rw [heq] at ht
    obtain ⟨l, ls, -, hl, hopens, -⟩ := ht.opens hx
    refine .denies (hl.kind.trans_ne (hopens.kind_ne rfl))
      (.neg nofun (.bind (hitem hin hx Expr.le_tier ht hgrip) ?_))
    rintro y u ⟨hy, hu⟩
    rcases hafter with ⟨rfl, rfl⟩ | rfl
    · refine .asks hu.kind (.pure ⟨done ++ [x], [], (List.append_nil _).symm, hmore hy.echoes, hu⟩)
    · refine .denies (hu.kind.trans_ne nofun) (.bind (.expect hu rfl) fun _ v hv => ?_)
      exact .pure ⟨done ++ [x], todo, (List.append_assoc done [x] todo).symm, hmore hy.echoes, hv⟩

/-- No formula starts with the dots of a spread. -/
theorem spreadOrAssignment_restores (hr : r.Restore) :
    Restores (spreadOrAssignment r) Tier.assign := by
  intro e s x b rest hin hx hb hs hgrip
  obtain ⟨l, ls, -, hl, hopens, -⟩ := hs.opens hx
  exact .denies (hl.kind.trans_ne (hopens.kind_ne rfl))
    (.neg nofun (hr.assignment hin hx hb hs hgrip))

/-- Arguments are read one by one, each as a formula that reaches to its comma or to the
parenthesis. -/
theorem arguments_gives (hr : r.Restore) {args : List Expr} (hargs : ∀ x ∈ args, Formula x)
    (hs :
      s.At e.source
      (.punct .leftParen :: (Expr.argumentLexemes args ++ .punct .rightParen :: rest))) :
    Gives (arguments r) e s fun ys t => List.Forall₂ Echoes args ys ∧ t.At e.source rest := by
  refine .bind (.expect hs rfl) fun _ t ht =>
    .bind (.within (commaList_gives (spreadOrAssignment_restores hr) hargs rfl ht)) ?_
  rintro ys u ⟨hys, hu⟩
  exact .bind (.next hu) fun _ v hv => .pure ⟨hys, hv⟩

/-! ## Members and calls -/

/-- What one turn of a chain reads. -/
structure Links (e : Surroundings) (step : Expr × Bool → Parse (Turn (Expr × Bool) Expr)) :
    Prop where
  dot : ∀ {s : ParseState} {n : Name} {rest : List Lexeme} (y : Expr),
    s.At e.source (.punct .dot :: .name n.text :: rest) →
    Gives (step (y, false)) e s fun turn t => ∃ span key, turn =
      .again (.member span y key false false, false) ∧
      Echoes (.identifier n) key ∧ t.At e.source rest
  bracket : ∀ {s : ParseState} {key : Expr} {rest : List Lexeme} (y : Expr), Formula key →
    s.At e.source (.punct .leftBracket :: (key.lexemes ++ .punct .rightBracket :: rest)) →
    Gives (step (y, false)) e s fun turn t => ∃ span key', turn =
      .again (.member span y key' true false, false) ∧
      Echoes key key' ∧ t.At e.source rest
  call : ∀ {s : ParseState} {args : List Expr} {rest : List Lexeme} (y : Expr),
    (∀ x ∈ args, Formula x) →
    s.At e.source (.punct .leftParen :: (Expr.argumentLexemes args ++ .punct .rightParen :: rest)) →
    Gives (step (y, false)) e s fun turn t => ∃ span args', turn =
      .again (.call span y args' false, false) ∧
      List.Forall₂ Echoes args args' ∧ t.At e.source rest
  stop : ∀ {s : ParseState} (y : Expr), s.token.kind.grip < Tier.call →
    Gives (step (y, false)) e s fun turn t => turn = .done y ∧ t = s

/-- What holds of the loop over a chain's links holds of the chain. -/
theorem chain_gives (hr : r.Restore) {Q : Expr → ParseState → Prop}
    (h : ∀ step, Links e step → ∀ fuel, Gives (repeatFrom step fuel (y, false)) e s Q) :
    Gives (chain r y true) e s Q := by
  refine .repeating (h _ ⟨?dot, ?bracket, ?call, ?stop⟩)
  case dot =>
    intro s n rest y hs
    refine .known rfl ?_
    rw [show s.token.kind = .punct .dot from hs.token.kind]
    refine .bind (.next hs) fun _ t ht => .bind (memberName_gives ht) fun key u hu =>
      .look fun span => ?_
    exact .pure ⟨span, key, rfl, hu⟩
  case bracket =>
    intro s key rest y hkey hs
    refine .known rfl ?_
    rw [show s.token.kind = .punct .leftBracket from hs.token.kind]
    refine .bind (Q := fun key' t => Echoes key key' ∧ t.At e.source rest) ?_
      fun key' u hu => .look fun span => .pure ⟨span, key', rfl, hu⟩
    refine .bind (.next hs) fun _ t ht => .bind (Q := fun key' t => Shown false key key' ∧
      t.At e.source (.punct .rightBracket :: rest)) (.within ?_) ?_
    · exact hr.expression rfl hkey (fun _ => hkey.comma_le) ht (firstKind_lt (by decide))
    · rintro key' u ⟨hkey', hu⟩
      exact .bind (.expect hu rfl) fun _ v hv => .pure ⟨hkey'.echoes, hv⟩
  case call =>
    intro s args rest y hargs hs
    refine .known rfl ?_
    rw [show s.token.kind = .punct .leftParen from hs.token.kind]
    refine .neg nofun (.bind (arguments_gives hr hargs hs) fun args' t ht => .look fun span => ?_)
    exact .pure ⟨span, args', rfl, ht⟩
  -- What grips no tighter than a call is none of the tokens that go on a chain.
  case stop =>
    intro s y hgrip
    refine .known rfl ?_
    split
    case h_7 => exact .pure ⟨rfl, rfl⟩
    all_goals
      rename_i hkind
      rw [hkind] at hgrip
      exact absurd hgrip (by decide)

/-- Where a primary expression has been read, the turns of a chain go on from the whole operand
that begins with it. -/
def Continues (r : Rules) (e : Surroundings) (s : ParseState) (b : Bool) (x : Expr)
    (rest : List Lexeme) : Prop :=
  Gives (primary r) e s fun y t => ∀ step, Links e step → ∀ Q : Expr → ParseState → Prop,
    (∀ z u, Shown b x z → u.At e.source rest →
      ∀ fuel, Gives (repeatFrom step fuel (z, false)) e u Q) →
    ∀ fuel, Gives (repeatFrom step fuel (y, false)) e t Q

/-- A primary expression is the start of a chain without links. -/
theorem Continues.of_gives (h : Gives (primary r) e s fun y t => Shown b x y ∧ t.At e.source rest) :
    Continues r e s b x rest :=
  h.mono fun y t hy _ _ _ hQ => hQ y t hy.1 hy.2

/-- An operand in parentheses is a primary expression itself. -/
theorem Continues.wrapped (hr : r.Restore) (hx : Formula x)
    (hs : s.At e.source (wrapped b x.lexemes ++ rest))
    (h : b = false → s.At e.source (x.lexemes ++ rest) → Continues r e s false x rest) :
    Continues r e s b x rest := by
  cases b with
  | false => exact h rfl hs
  | true =>
    refine .of_gives (.known rfl ?_)
    rw [show s.token.kind = .punct .leftParen from hs.token.kind]
    exact parenthesized_gives hr hx hs

/-- A formula at least as tight as a call is read as a chain: its start first, then link
by link. -/
theorem continues_of_call_le (hr : r.Restore) (hx : Formula x) (htier : Tier.call ≤ x.tier)
    (hs : s.At e.source (x.lexemes ++ rest)) : Continues r e s false x rest := by
  induction hx generalizing rest s with
  | @number span raw value hnumeral =>
    refine .of_gives (.known rfl ?_)
    rw [show s.token.kind = .number from hs.token.kind]
    exact .bind (.next hs) fun _ t ht => numberLiteral_gives hnumeral hs.token ht
  | @name n hn =>
    refine .of_gives (.known rfl ?_)
    rw [show s.token.kind = .identifier from hs.token.kind]
    exact .notContextual hs (.name hn) (by decide) (.neg nofun (identifierReference_gives hn hs))
  | @dotted span base n hbase hn ih =>
    rw [Expr.dotted_lexemes] at hs
    refine (Continues.wrapped hr hbase hs fun hb h =>
      ih (Expr.le_tier (Bool.or_eq_false_iff.mp hb).2) h).mono ?_
    refine fun y t hy step hstep Q hQ => hy step hstep Q fun z u hz hu =>
      .turns ((hstep.dot z hu).mono ?_)
    rintro _ v ⟨span, key, rfl, hkey, hv⟩
    exact hQ _ v ⟨.member hz.echoes hkey, rfl⟩ hv
  | @computed span base key hbase hkey ih =>
    rw [Expr.computed_lexemes] at hs
    refine (Continues.wrapped hr hbase hs fun hb h => ih (Expr.le_tier hb) h).mono ?_
    refine fun y t hy step hstep Q hQ => hy step hstep Q fun z u hz hu =>
      .turns ((hstep.bracket z hkey hu).mono ?_)
    rintro _ v ⟨span, key, rfl, hkey, hv⟩
    exact hQ _ v ⟨.member hz.echoes hkey, rfl⟩ hv
  | @call span callee args hcallee hargs ih =>
    rw [Expr.call_lexemes] at hs
    refine (Continues.wrapped hr hcallee hs fun hb h => ih (Expr.le_tier hb) h).mono ?_
    refine fun y t hy step hstep Q hQ => hy step hstep Q fun z u hz hu =>
      .turns ((hstep.call z hargs hu).mono ?_)
    rintro _ v ⟨span, args', rfl, hargs', hv⟩
    exact hQ _ v ⟨.call hz.echoes hargs', rfl⟩ hv
  | @update span op x before =>
    cases before <;> simp [Expr.tier, Tier.call, Tier.unary, Tier.update] at htier
  | @binary span op =>
    exact absurd (Nat.le_trans (by decide) htier) (Nat.not_le_of_lt op.precedence_lt)
  | _ => simp [Expr.tier, Tier.call, Tier.unary, Tier.assign] at htier

/-- A left-hand side expression. -/
theorem leftHandSide_restores (hr : r.Restore) : Restores (leftHandSide r) Tier.call := by
  intro e s x b rest hin hx hb hs hgrip
  obtain ⟨l, ls, -, hl, hopens, -⟩ := hs.opens hx
  refine .denies (hl.kind.trans_ne (hopens.kind_ne rfl)) (.neg nofun ?_)
  refine .bind (Continues.wrapped hr hx hs fun h => continues_of_call_le hr hx (hb h)) fun y t hy =>
    chain_gives hr fun step hstep => ?_
  refine hy step hstep _ fun z u hz hu => .turns ((hstep.stop z (hu.kind ▸ hgrip)).mono ?_)
  rintro _ _ ⟨rfl, rfl⟩
  exact ⟨hz, hu⟩

end Parse

end

/-! ## Operators -/

section

open EcmaStack.Expr (Formula Shown Echoes)

variable {r : Rules} {e : Surroundings} {s : ParseState} {x y : Expr} {b : Bool} {l : Lexeme}
    {ls rest : List Lexeme}
  {least : Nat}

namespace Parse

/-! ## Before and after an operand -/

/-- The operators of updates are no unary operators, -/
theorem isUnaryOperator_eq_false {op : Kind} (h : isUpdateOperator op = true) :
    isUnaryOperator op = false := by
  rcases Bool.or_eq_true_iff.mp h with h | h <;> rw [beq_iff_eq.mp h] <;> rfl

/-- and what binds looser than a unary operator does not end an operand. -/
theorem isUpdateOperator_eq_false {op : Kind} (h : op.grip < Tier.unary) :
    isUpdateOperator op = false := by
  rw [Bool.eq_false_iff]
  intro hop
  rw [Kind.grip_of_update hop] at h
  exact absurd h (by decide)

/-- An operand without operators before it. -/
theorem unaryExpression_operand {Q : Expr → ParseState → Prop} (hs : s.At e.source (l :: ls))
    (hl : l.Opens) (hleading : l.isPrefix = false) (h : Gives (updateExpression r) e s Q) :
    Gives (unaryExpression r) e s Q := by
  obtain ⟨hunary, hupdate⟩ := Bool.or_eq_false_iff.mp hleading
  refine .known rfl
    (.neg ?_ (.neg ?_ (.notContextual hs hl (by decide) (.look fun _ => .neg nofun h))))
  · rw [hs.token.kind, hunary]
    exact Bool.false_ne_true
  · rw [hs.token.kind, hupdate]
    exact Bool.false_ne_true

/-- An operand without operators on either side. -/
theorem updateExpression_operand (hr : r.Restore) (hin : e.region.allowIn = true) (hx : Formula x)
    (hb : b = false → Tier.call ≤ x.tier) (hs : s.At e.source (wrapped b x.lexemes ++ rest))
    (hgrip : (firstKind rest).grip < Tier.unary) :
    Gives (updateExpression r) e s fun y t => Shown b x y ∧ t.At e.source rest := by
  refine .bind (hr.leftHandSide hin hx hb hs (Nat.lt_of_lt_of_le hgrip (by decide))) fun y t hy =>
    .known rfl (.pos ?_ ?_)
  · rw [hy.2.kind, isUpdateOperator_eq_false hgrip]
    rfl
  · exact .pure hy

/-- A unary expression. -/
theorem unaryExpression_restores (hr : r.Restore) : Restores (unaryExpression r) Tier.unary := by
  intro e s x b rest hin hx hb hs hgrip
  obtain ⟨l, ls, -, hl, hopens, hleading⟩ := hs.opens hx
  -- What is neither a unary nor an update expression is read as the operand of one.
  have operand (hb : b = false → Tier.call ≤ x.tier) :
      Gives (unaryExpression r) e s fun y t => Shown b x y ∧ t.At e.source rest := by
    refine unaryExpression_operand hl hopens (hleading ?_)
      (updateExpression_operand hr hin hx hb hs hgrip)
    cases b with
    | true => exact .inl rfl
    | false => exact .inr (Nat.le_trans (by decide) (hb rfl))
  cases b with
  | true => exact operand nofun
  | false =>
    cases hx with
    | @unary span op x hop hx =>
      have hkind : s.token.kind = op := hs.token.kind
      refine .known rfl (.pos (by rw [hkind]; exact hop) (.bind (.next hs) fun _ t ht => ?_))
      refine .bind (hr.unary hin hx Expr.le_tier ht hgrip) fun y u hy =>
        .neg ?_ (.look fun span => ?_)
      · rw [hy.1.echoes.not_privateMember, Bool.and_false]
        exact Bool.false_ne_true
      · exact .pure ⟨⟨hkind ▸ .unary hy.1.echoes, rfl⟩, hy.2⟩
    | @update span op x before hop htarget hx =>
      -- The target of an update is never wrapped, as it is at least as tight as a call.
      have hcall := Expr.call_le_of_isTarget htarget
      cases before with
      | true =>
        have hkind : s.token.kind = op := hs.token.kind
        refine .known rfl
          (.neg ?_ (.pos (by rw [hkind]; exact hop) (.bind (.next hs) fun _ t ht => ?_)))
        · rw [hkind, isUnaryOperator_eq_false hop]
          exact Bool.false_ne_true
        · rw [decide_eq_false (Nat.not_lt_of_le (Nat.le_trans (by decide) hcall))] at ht
          refine .bind (hr.unary hin hx (fun _ => Nat.le_trans (by decide) hcall) ht hgrip)
            fun y u hy => ?_
          rw [(hx.shown_target htarget hy.1).1]
          exact .look fun span => .pure ⟨⟨hkind ▸ .update hy.1.echoes, rfl⟩, hy.2⟩
      | false =>
        rw [wrapped_false, Expr.after_lexemes, decide_eq_false (Nat.not_lt_of_le hcall)] at hs
        refine unaryExpression_operand hl hopens (hleading (.inr (Nat.le_refl _))) ?_
        refine .bind (hr.leftHandSide hin hx (fun _ => hcall) hs ?_) fun y t hy => ?_
        · exact firstKind_lt (lt_of_eq_of_lt (Kind.grip_of_update hop) (by decide))
        · have hkind : t.token.kind = op := hy.2.token.kind
          refine .known rfl (.neg ?_ ?_)
          · rw [hkind, hop, hy.2.token.newline]
            exact Bool.false_ne_true
          · rw [(hx.shown_target htarget hy.1).1]
            exact .bind (.next hy.2) fun _ u hu => .look fun span =>
              .pure ⟨⟨hkind ▸ .update hy.1.echoes, rfl⟩, hu⟩
    | @binary span op => exact absurd (hb rfl) (Nat.not_le_of_lt op.precedence_lt)
    | conditional | assign => exact absurd (hb rfl) (Nat.not_le_of_lt (Nat.le_of_ble_eq_true rfl))
    | _ => exact operand fun _ => Nat.le_of_ble_eq_true rfl

/-! ## Between operands -/

/-- Reading and printing agree on what mixes `??` with other logical operators. -/
theorem mixesCoalesce_eq (op : Kind) (left right : Expr) :
    mixesCoalesce op left right = (left.mixesCoalesce op || right.mixesCoalesce op) := by
  have hlogical (x : Expr) : hasOperator [.logicalAnd, .logicalOr] x =
      x.mixesCoalesce (.punct .coalesce) := by
    cases x with
    | binary span op => cases op with
      | punct p => cases p <;> rfl
      | _ => rfl
    | _ => rfl
  have hcoalesce (x : Expr) {op : Kind} (h : op = .punct .logicalAnd ∨ op = .punct .logicalOr) :
      hasOperator [.coalesce] x = x.mixesCoalesce op := by
    rcases h with rfl | rfl <;> cases x with
    | binary span op => cases op with
      | punct p => cases p <;> rfl
      | _ => rfl
    | _ => rfl
  unfold mixesCoalesce
  split
  · rw [hlogical, hlogical]
  · rw [hcoalesce left (.inl rfl), hcoalesce right (.inl rfl)]
  · rw [hcoalesce left (.inr rfl), hcoalesce right (.inr rfl)]
  · next hfirst hsecond hthird =>
    have hnone (x : Expr) : x.mixesCoalesce op = false := by
      have hcoalesce : (op == .punct .coalesce) = false := beq_eq_false_iff_ne.mpr hfirst
      have hlogical : op.isLogical = false := by
        unfold Kind.isLogical
        split
        · exact absurd rfl hsecond
        · exact absurd rfl hthird
        · rfl
      cases x with
      | binary => rw [Expr.mixesCoalesce, hcoalesce, hlogical]; rfl
      | _ => rfl
    rw [hnone, hnone]
    rfl

/-- Operands that are set apart as the printer does are never mixed up with `??`. -/
theorem mixesCoalesce_apart {op : Kind} {left left' right right' : Expr}
    (hleft : Shown (left.apartLeft op) left left')
    (hright : Shown (right.apartRight op) right right') :
    mixesCoalesce op left' right' = false := by
  rw [mixesCoalesce_eq, hleft.mixesCoalesce, hright.mixesCoalesce, Expr.apartLeft, Expr.apartRight]
  cases left.mixesCoalesce op <;> cases right.mixesCoalesce op <;> simp

/-- What one turn of the loop over operators reads. -/
structure Operates (e : Surroundings) (least : Nat) (step : Expr → Parse (Turn Expr Expr)) :
    Prop where
  operator : ∀ {s : ParseState} {op : Kind} {left left' right : Expr} {rest : List Lexeme}, 0 <
    op.binaryPrecedence →
    least ≤ op.precedence → Shown (left.apartLeft op) left left' → Formula right →
    s.At e.source (.op op :: (wrapped (right.apartRight op) right.lexemes ++ rest)) →
    (firstKind rest).grip < Expr.rightLeast op →
    Gives (step left') e s fun turn t => ∃ span right', turn =
      .again (.binary span op left' right') ∧
      Echoes right right' ∧ t.At e.source rest
  stop : ∀ {s : ParseState} (y : Expr), s.token.kind.grip < least →
    Gives (step y) e s fun turn t => turn = .done y ∧ t = s

/-- What holds of the loop over operators, once the first operand is read, holds of the
whole expression. -/
theorem binaryExpression_gives (hr : r.Restore) (hin : e.region.allowIn = true)
    {Q : Expr → ParseState → Prop} (h : Gives r.unary e s fun y t => ∀ step, Operates e least step →
      ∀ fuel, Gives (repeatFrom step fuel y) e t Q) :
    Gives (binaryExpression r least) e s Q := by
  refine .bind h fun y t hy => .repeating (hy _ ⟨?operator, ?stop⟩)
  -- The operator is taken: it grips tightly enough, and its operands were wrapped where the parser
  -- would refuse them bare.
  case operator =>
    intro s op left left' right rest hop hle hleft hright hs hgrip
    have hkind : s.token.kind = op := hs.token.kind
    have hpositive : (op.binaryPrecedence == 0) = false :=
      beq_eq_false_iff_ne.mpr (Nat.ne_of_gt hop)
    have hbounds := Expr.rightLeast_bounds hop
    rw [Kind.precedence_of_binary hop] at hle
    refine .known rfl (.known rfl (.neg ?_ (.neg ?_ (.bind (.next hs) fun _ t ht => ?_))))
    · rw [hkind, hpositive, decide_eq_false (Nat.not_lt_of_le hle), hin, Bool.not_true,
        Bool.and_false]
      exact Bool.false_ne_true
    · rw [hkind, hleft.isBareUnary, Expr.apartLeft]
      cases (op == .punct .power) <;> cases left.isUnary <;> simp
    · rw [hkind, ← Expr.rightLeast_eq]
      refine .bind (hr.binary _ ?_ ?_ hin hright ?_ ht hgrip) fun right' u hu => .neg ?_ ?_
      · exact Nat.le_trans (Kind.logicalOr_le_of_binary hop)
          (Kind.precedence_of_binary hop ▸ hbounds.1)
      · exact hbounds.2
      · exact Expr.rightLeast_of_not_apart
      · rw [mixesCoalesce_apart hleft hu.1]
        exact Bool.false_ne_true
      · exact .pure ⟨_, right', rfl, hu.1.echoes, hu.2⟩
  -- What follows grips less tightly than is asked for.
  case stop =>
    intro s y hgrip
    refine .known rfl (.look fun _ => .pos ?_ (.pure ⟨rfl, rfl⟩))
    rcases Nat.eq_zero_or_pos s.token.kind.binaryPrecedence with hzero | hpos
    · rw [hzero]
      rfl
    · rw [Kind.grip_of_binary hpos, Kind.precedence_of_binary hpos] at hgrip
      rw [decide_eq_true hgrip, Bool.or_true]
      rfl

/-- Where a unary expression has been read, the turns of the loop over operators go on from the
whole operand that begins with it. -/
def Ascends (r : Rules) (e : Surroundings) (s : ParseState) (least : Nat) (b : Bool) (x : Expr)
    (rest : List Lexeme) :
    Prop :=
  Gives r.unary e s fun y t => ∀ step, Operates e least step → ∀ Q : Expr → ParseState → Prop,
    (∀ z u, Shown b x z → u.At e.source rest → ∀ fuel, Gives (repeatFrom step fuel z) e u Q) →
    ∀ fuel, Gives (repeatFrom step fuel y) e t Q

/-- The tier that is called for where an operand ends. -/
def endTier : Expr → Nat
  | .binary _ op _ _ => Expr.rightLeast op
  | _ => Tier.unary

/-- To the left of an operator, an operand ends before the operator. -/
theorem precedence_lt_endTier {op : Kind} (hop : 0 < op.binaryPrecedence) (hx : Formula x)
    (h : x.apartLeft op = false) : op.precedence < endTier x := by
  have hle := Expr.leftLeast_of_not_apart h
  cases hx with
  | @binary span inner left right hinner =>
    change _ ≤ inner.precedence at hle
    change _ < Expr.rightLeast inner
    have hop :=
      Nat.le_trans (Kind.logicalOr_le_of_binary hop)
        (Nat.le_of_eq (Kind.precedence_of_binary hop).symm)
    have hinner := Kind.binary_of_logicalOr_le hinner
      (Nat.le_trans hop (Nat.le_trans (Expr.precedence_le_leftLeast op) hle))
    rw [Expr.rightLeast_eq, ← Kind.precedence_of_binary hinner]
    split
    · next hpower =>
      rw [beq_iff_eq.mp hpower] at hle ⊢
      exact Kind.precedence_lt_power fun h => absurd (h ▸ hle) (by decide)
    · exact Nat.lt_succ_of_le (Nat.le_trans (Expr.precedence_le_leftLeast op) hle)
  | _ => exact op.precedence_lt

/-- The climb: an operand is read, then every operator that grips at least as tightly as
is asked for. -/
theorem ascends (hr : r.Restore) (hin : e.region.allowIn = true) (hleast : Tier.logicalOr ≤ least)
    (hx : Formula x) (hb : b = false → least ≤ x.tier)
    (hs : s.At e.source (wrapped b x.lexemes ++ rest)) (hgrip : (firstKind rest).grip < Tier.unary)
    (hend : b = false → (firstKind rest).grip < endTier x) :
    Ascends r e s least b x rest := by
  -- By induction along the first operands, as the parser climbs them: what is no binary expression
  -- is read as one operand.
  have operand {x : Expr} {b : Bool} {rest : List Lexeme} {s : ParseState} (hx : Formula x)
      (hb : b = false → Tier.unary ≤ x.tier) (hs : s.At e.source (wrapped b x.lexemes ++ rest))
      (hgrip : (firstKind rest).grip < Tier.unary) : Ascends r e s least b x rest :=
    (hr.unary hin hx hb hs hgrip).mono fun y t hy _ _ _ hQ => hQ y t hy.1 hy.2
  induction hx generalizing b rest s with
  | @binary span op left right hop hleft hright ih =>
    cases b with
    | true => exact operand (.binary hop hleft hright) nofun hs hgrip
    | false =>
      have hop := Kind.binary_of_logicalOr_le hop (Nat.le_trans hleast (hb rfl))
      rw [wrapped_false, Expr.binary_lexemes] at hs
      refine (ih (fun h => ?_) hs ?_ fun h => ?_).mono fun y t hy step hstep Q hQ => ?_
      · exact Nat.le_trans (hb rfl) (Nat.le_trans (Expr.precedence_le_leftLeast op)
          (Expr.leftLeast_of_not_apart h))
      · exact firstKind_lt (lt_of_eq_of_lt (Kind.grip_of_binary hop) op.precedence_lt)
      · exact firstKind_lt (lt_of_eq_of_lt (Kind.grip_of_binary hop)
          (precedence_lt_endTier hop hleft h))
      · refine hy step hstep Q fun z u hz hu =>
          .turns ((hstep.operator hop (hb rfl) hz hright hu (hend rfl)).mono ?_)
        rintro _ v ⟨span, right', rfl, hright', hv⟩
        exact hQ _ v ⟨.binary hz.echoes hright', rfl⟩ hv
  | @conditional span test yes no htest hyes hno =>
    refine operand (.conditional htest hyes hno) (fun h => ?_) hs hgrip
    exact absurd (Nat.le_trans hleast (hb h)) (Nat.not_le_of_lt (Nat.le_of_ble_eq_true rfl))
  | @assign span op x value hop htarget hx hvalue =>
    refine operand (.assign hop htarget hx hvalue) (fun h => ?_) hs hgrip
    exact absurd (Nat.le_trans hleast (hb h)) (Nat.not_le_of_lt (Nat.le_of_ble_eq_true rfl))
  | @update span op x before hop htarget hx =>
    refine operand (.update hop htarget hx) (fun _ => ?_) hs hgrip
    cases before <;> exact Nat.le_of_ble_eq_true rfl
  | _ => exact operand (by constructor <;> assumption) (fun _ => Nat.le_of_ble_eq_true rfl) hs hgrip

/-- Operators that bind at least as tightly as asked for. -/
theorem binaryExpression_restores (hr : r.Restore) (hleast : Tier.logicalOr ≤ least)
    (hlt : least < Tier.unary) :
    Restores (binaryExpression r least) least := by
  intro e s x b rest hin hx hb hs hgrip
  have hend (h : b = false) : (firstKind rest).grip < endTier x := by
    refine Nat.lt_of_lt_of_le hgrip ?_
    cases hx with
    | binary hop =>
      have hop := Kind.binary_of_logicalOr_le hop (Nat.le_trans hleast (hb h))
      exact Nat.le_trans (hb h) (Expr.rightLeast_bounds hop).1
    | _ => exact Nat.le_of_lt hlt
  refine binaryExpression_gives hr hin
    ((ascends hr hin hleast hx hb hs (Nat.lt_trans hgrip hlt) hend).mono ?_)
  refine fun y t hy step hstep => hy step hstep _ fun z u hz hu =>
    .turns ((hstep.stop z (hu.kind ▸ hgrip)).mono ?_)
  rintro _ _ ⟨rfl, rfl⟩
  exact ⟨hz, hu⟩

/-! ## Conditionals -/

/-- What is no conditional expression is read as an operand of one. -/
theorem conditional_operand (hr : r.Restore) (hin : e.region.allowIn = true) (hx : Formula x)
    (hb : b = false → Tier.logicalOr ≤ x.tier) (hs : s.At e.source (wrapped b x.lexemes ++ rest))
    (hgrip : (firstKind rest).grip < Tier.logicalOr) (hrest : firstKind rest ≠ .punct .question) :
    Gives (conditional r) e s fun y t => Shown b x y ∧ t.At e.source rest := by
  refine .bind (hr.binary _ (Nat.le_refl _) (by decide) hin hx hb hs hgrip) fun y t hy => ?_
  exact .denies (hy.2.kind.trans_ne hrest) (.neg nofun (.pure hy))

/-- A conditional expression. -/
theorem conditional_gives (hr : r.Restore) (hin : e.region.allowIn = true) {span : Span}
    {test yes no : Expr} (htest : Formula test) (hyes : Formula yes) (hno : Formula no)
    (hs : s.At e.source ((Expr.conditional span test yes no).lexemes ++ rest))
    (hgrip : (firstKind rest).grip < Tier.assign) :
    Gives (conditional r) e s fun y t => Shown false (.conditional span test yes no) y ∧
    t.At e.source rest := by
  rw [Expr.conditional_lexemes] at hs
  refine .bind (hr.binary _ (Nat.le_refl _) (by decide) hin htest Expr.le_tier hs
    (firstKind_lt (by decide)))
    fun test' t ht => .asks ht.2.kind (.pos rfl (.bind (.next ht.2) fun _ u hu => ?_))
  refine .bind (.within (hr.assignment rfl hyes Expr.le_tier hu (firstKind_lt (by decide))))
    fun yes' v hv => ?_
  refine .bind (.expect hv.2 rfl) fun _ w hw =>
    .bind (hr.assignment hin hno Expr.le_tier hw hgrip) fun no' z hz => ?_
  exact .pure ⟨⟨.conditional ht.1.echoes hv.1.echoes hz.1.echoes, rfl⟩, hz.2⟩

end Parse

end

end EcmaStack
