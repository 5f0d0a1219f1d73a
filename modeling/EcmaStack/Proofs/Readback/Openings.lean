import EcmaStack.Proofs.Readback.Formula

/-!
# How formulas begin

Every formula that is neither a leaf nor an operator before its operand starts with a smaller
formula, which is printed first, and a lexeme that goes on with it (`Formula.spine`). So the
first lexeme is a leaf, a parenthesis or an operator (`Formula.opens`), and after a name at the
head something comes that grips as tightly as the formula binds (`Formula.after_name`).
-/

namespace EcmaStack

/-! ## Grips -/

namespace Kind

variable {op : Kind}

/-- The operators by their tiers: how tightly each grips is told by the table of
precedences. -/
theorem grip_of_binary (h : 0 < op.binaryPrecedence) : op.grip = op.precedence := by
  cases op with
  | punct p => cases p <;> first | rfl | exact absurd h (by decide)
  | keyword k => rfl
  | _ => exact absurd h (Nat.lt_irrefl 0)

theorem precedence_of_binary (h : 0 < op.binaryPrecedence) :
    op.precedence = op.binaryPrecedence := by
  cases op with
  | punct p => cases p <;> first | rfl | exact absurd h (by decide)
  | keyword k => rfl
  | _ => exact absurd h (Nat.lt_irrefl 0)

theorem logicalOr_le_of_binary (h : 0 < op.binaryPrecedence) :
    Tier.logicalOr ≤ op.binaryPrecedence := by
  cases op with
  | punct p => cases p <;> first | exact absurd h (by decide) | decide
  | keyword k => cases k <;> first | exact absurd h (by decide) | decide
  | _ => exact absurd h (Nat.lt_irrefl 0)

/-- Between an assignment and the loosest binary operator lies no operator but the
conditional. -/
theorem logicalOr_le_of_assign_le (hop : op = .punct .comma ∨ 0 < op.binaryPrecedence)
    (h : Tier.assign ≤ op.precedence) : Tier.logicalOr ≤ op.precedence := by
  rcases hop with rfl | hop
  · exact absurd h (by decide)
  · exact Nat.le_trans (logicalOr_le_of_binary hop) (Nat.le_of_eq (precedence_of_binary hop).symm)

theorem binary_of_logicalOr_le (hop : op = .punct .comma ∨ 0 < op.binaryPrecedence)
    (h : Tier.logicalOr ≤ op.precedence) : 0 < op.binaryPrecedence := by
  refine hop.resolve_left ?_
  rintro rfl
  exact absurd h (by decide)

/-- No binary operator is as tight as a unary one, -/
theorem precedence_lt (op : Kind) : op.precedence < Tier.unary := by
  cases op with
  | punct p => cases p <;> decide
  | keyword k => cases k <;> decide
  | _ => exact (by decide : 0 < Tier.unary)

/-- and the power operator is the tightest of them. -/
theorem precedence_lt_power {op : Kind} (h : op ≠ .punct .power) :
    op.precedence < (Kind.punct .power).precedence := by
  cases op with
  | punct p => cases p <;> first | decide | exact absurd rfl h
  | keyword k => cases k <;> decide
  | _ => exact (by decide : 0 < (Kind.punct .power).precedence)

theorem grip_of_assignment (h : op.isAssignment = true) : op.grip = Tier.assign := by
  cases op with
  | punct p => cases p <;> first | rfl | exact absurd h (by decide)
  | _ => exact absurd h Bool.false_ne_true

theorem isAssignment_eq_false (h : op.grip < Tier.assign) : op.isAssignment = false := by
  rw [Bool.eq_false_iff]
  intro hassign
  rw [grip_of_assignment hassign] at h
  exact absurd h (by decide)

theorem grip_of_update (h : Parse.isUpdateOperator op = true) : op.grip = Tier.update := by
  rcases Bool.or_eq_true_iff.mp h with h | h <;> rw [beq_iff_eq.mp h] <;> rfl

end Kind

namespace Expr

variable {x y : Expr} {b : Bool} {l : Lexeme} {ls more : List Lexeme}

/-- What is not wrapped is at least as tight as its place asks for. -/
theorem le_tier {least : Nat} (h : decide (x.tier < least) = false) : least ≤ x.tier :=
  Nat.le_of_not_lt (of_decide_eq_false h)

theorem call_le_of_isTarget (h : x.isTarget = true) : Tier.call ≤ x.tier := by
  cases x with
  | identifier n => exact (by decide : Tier.call ≤ Tier.primary)
  | member span base key computed optional => exact (by decide : Tier.call ≤ Tier.member)
  | _ => exact absurd h Bool.false_ne_true

/-- A formula that is the operand of an operator between operands binds as tightly as the
operator calls for. -/
theorem leftLeast_of_not_apart {op : Kind} (h : x.apartLeft op = false) :
    leftLeast op ≤ x.tier := by
  simp only [apartLeft, Bool.or_eq_false_iff, decide_eq_false_iff_not] at h
  omega

/-- A left operand may be as tight as its operator, -/
theorem precedence_le_leftLeast (op : Kind) : op.precedence ≤ leftLeast op := by
  unfold leftLeast
  split
  · decide
  · decide
  · exact Nat.le_refl _

theorem rightLeast_of_not_apart {op : Kind} (h : x.apartRight op = false) :
    rightLeast op ≤ x.tier := by
  simp only [apartRight, Bool.or_eq_false_iff, decide_eq_false_iff_not] at h
  omega

/-- and a right one has to be tighter, unless the operator groups to the right. -/
theorem rightLeast_eq (op : Kind) :
    rightLeast op = if op == .punct .power then op.binaryPrecedence
    else op.binaryPrecedence + 1 := by
  cases op with
  | punct p => cases p <;> rfl
  | _ => rfl

theorem rightLeast_bounds {op : Kind} (h : 0 < op.binaryPrecedence) :
    op.precedence ≤ rightLeast op ∧ rightLeast op < Tier.unary := by
  cases op with
  | punct p => cases p <;> first | exact absurd h (by decide) | decide
  | keyword k => cases k <;> first | exact absurd h (by decide) | decide
  | _ => exact absurd h (Nat.lt_irrefl 0)

/-! ## The first operand -/

/-- Induction on what is printed first. -/
theorem Formula.spine {P : Expr → Prop} (hx : Formula x)
    (number : ∀ span raw value, IsNumeral raw value → P (.number span raw value))
    (name : ∀ n, IsVariable n.text → P (.identifier n))
    (operator : ∀ x op ls, x.tier ≤ Tier.unary →
      (Parse.isUnaryOperator op || Parse.isUpdateOperator op) = true →
      x.lexemes = .op op :: ls → P x)
    (followed : ∀ x y b l more, Formula y → P y → (b = false → min x.tier Tier.call ≤ y.tier) →
      min x.tier Tier.call ≤ l.kind.grip → x.lexemes = wrapped b y.lexemes ++ l :: more → P x) :
      P x := by
  induction hx with
  -- Each kind either starts a formula or follows one that starts it; in that case the part in
  -- front is at least as tight as its place asks for.
  | number h => exact number _ _ _ h
  | name h => exact name _ h
  | unary hop hx => exact operator _ _ _ (Nat.le_refl _) (by rw [hop]; rfl) rfl
  | @update span op x before hop htarget hx ih =>
    cases before with
    | true => exact operator _ _ _ (Nat.le_refl _) (by rw [hop, Bool.or_true]) rfl
    | false =>
      have hle := call_le_of_isTarget htarget
      refine followed _ x _ (.op op) [] hx ih (fun _ => Nat.le_trans (Nat.min_le_right _ _) hle)
        ?_ rfl
      exact Nat.le_trans (Nat.min_le_left _ _) (Nat.le_of_eq (Kind.grip_of_update hop).symm)
  | @binary span op left right hop hleft hright ih =>
    refine followed _ left (left.apartLeft op) (.op op) _ hleft ih (fun h => ?_) ?_ rfl
    · have hleast := leftLeast_of_not_apart h
      have hop := precedence_le_leftLeast op
      exact Nat.le_trans (Nat.min_le_left _ _) (Nat.le_trans hop hleast)
    · refine Nat.le_trans (Nat.min_le_left _ _) (Nat.le_of_eq ?_)
      rcases hop with rfl | hop
      · rfl
      · exact (Kind.grip_of_binary hop).symm
  | @conditional span test yes no htest hyes hno ih =>
    refine followed _ test (test.tier < Tier.logicalOr) (.punct .question) _ htest ih (fun h => ?_)
      (Nat.min_le_left _ _) rfl
    have hle := le_tier h
    exact Nat.le_trans (Nat.min_le_left _ _) (Nat.le_of_succ_le hle)
  | @assign span op x value hop htarget hx hvalue ih =>
    have hle := call_le_of_isTarget htarget
    refine followed _ x false (.op op) _ hx ih (fun _ => Nat.le_trans (Nat.min_le_right _ _) hle)
      ?_ rfl
    exact Nat.le_trans (Nat.min_le_left _ _) (Nat.le_of_eq (Kind.grip_of_assignment hop).symm)
  | @dotted span base n hbase hn ih =>
    refine followed _ base _ (.punct .dot) _ hbase ih (fun h => ?_) (Nat.min_le_right _ _) rfl
    have hle := le_tier (Bool.or_eq_false_iff.mp h).2
    exact Nat.le_trans (Nat.min_le_right _ _) hle
  | @computed span base key hbase hkey ih =>
    refine followed _ base _ (.punct .leftBracket) _ hbase ih (fun h => ?_)
      (Nat.min_le_right _ _) rfl
    have hle := le_tier (Bool.or_eq_false_iff.mp h).2
    exact Nat.le_trans (Nat.min_le_right _ _) hle
  | @call span callee args hcallee hargs ih =>
    refine followed _ callee (callee.tier < Tier.call) (.punct .leftParen)
      (argumentLexemes args ++ [.punct .rightParen]) hcallee ih (fun h => ?_)
        (Nat.min_le_right _ _) ?_
    · have hle := le_tier h
      exact Nat.le_trans (Nat.min_le_right _ _) hle
    · exact List.append_assoc _ _ _

/-! ## The first lexeme -/

end Expr

/-- A formula may begin with the lexeme. -/
inductive Lexeme.Opens : Lexeme → Prop where
  | number (raw : String) : Opens (.number raw)
  | name {text : String} (h : IsVariable text) : Opens (.name text)
  | group : Opens (.punct .leftParen)
  | operator {op : Kind} (h : (Parse.isUnaryOperator op || Parse.isUpdateOperator op) = true) :
    Opens (.op op)

/-- Whether a formula may begin with a token of this kind. -/
def Kind.opens : Kind → Bool
  | .number | .identifier | .punct .leftParen => true
  | k => Parse.isUnaryOperator k || Parse.isUpdateOperator k

/-- A kind that opens no formula is not the kind of the first lexeme of one. -/
theorem Lexeme.Opens.kind_ne {l : Lexeme} (h : l.Opens) {k : Kind} (hk : k.opens = false) :
    l.kind ≠ k := by
  rintro rfl
  cases h with
  | @operator op hop =>
    change op.opens = false at hk
    unfold Kind.opens at hk
    split at hk
    · cases hk
    · cases hk
    · cases hk
    · rw [hop] at hk
      cases hk
  | _ => cases hk

/-- A name that opens a formula is a variable. -/
theorem Lexeme.Opens.name_of_kind {l : Lexeme} (h : l.Opens) (hkind : l.kind = .identifier) :
    ∃ text, l = .name text ∧ IsVariable text := by
  cases h with
  | name htext => exact ⟨_, rfl, htext⟩
  | @operator op hop =>
    rw [show op = .identifier from hkind] at hop
    exact absurd hop (by decide)
  | _ => cases hkind

/-- Whether a lexeme is an operator that may stand before its operand. -/
def Lexeme.isPrefix (l : Lexeme) : Bool :=
  Parse.isUnaryOperator l.kind || Parse.isUpdateOperator l.kind

namespace Expr

variable {x y : Expr} {b : Bool} {l : Lexeme} {ls more : List Lexeme}

/-- Every formula is a comma sequence at least. -/
theorem Formula.comma_le (hx : Formula x) : Tier.comma ≤ x.tier := by
  cases hx with
  | @update span op x before => cases before <;> exact Nat.succ_pos _
  | @binary span op left right hop =>
    rcases hop with rfl | hop
    · exact Nat.le_refl _
    · exact Nat.le_trans hop (Nat.le_of_eq (Kind.precedence_of_binary hop).symm)
  | _ => exact Nat.succ_pos _

/-- A formula that is no assignment expression is a comma sequence. -/
theorem Formula.sequence (hx : Formula x) (h : ¬Tier.assign ≤ x.tier) :
    ∃ span left right, x = .binary span (.punct .comma) left right ∧ Formula left ∧
    Formula right := by
  cases hx with
  | @update span op x before => cases before <;> exact absurd (Nat.le_of_ble_eq_true rfl) h
  | @binary span op left right hop hleft hright =>
    rcases hop with rfl | hop
    · exact ⟨span, left, right, rfl, hleft, hright⟩
    · have hle :=
        Nat.le_trans (Kind.logicalOr_le_of_binary hop)
          (Nat.le_of_eq (Kind.precedence_of_binary hop).symm)
      exact absurd (Nat.le_of_succ_le hle) h
  | _ => exact absurd (Nat.le_of_ble_eq_true rfl) h

/-- What is printed of a comma sequence: to the right of the comma nothing is set apart. -/
theorem sequence_lexemes {span : Span} {left right : Expr} (hright : Formula right)
    (rest : List Lexeme) :
    (binary span (.punct .comma) left right).lexemes ++ rest =
      wrapped (left.apartLeft (.punct .comma)) left.lexemes ++
      .punct .comma :: (right.lexemes ++ rest) := by
  have hmixes : right.mixesCoalesce (.punct .comma) = false := by
    cases right <;> rfl
  have hapart : right.apartRight (.punct .comma) = false := by
    rw [apartRight, hmixes]
    exact decide_eq_false (Nat.not_lt_of_le hright.comma_le)
  rw [binary_lexemes, hapart]
  rfl

/-- How a formula starts, by induction on it: only one below the updates starts with an
operator in front. -/
theorem Formula.opens_plain (hx : Formula x) :
    ∃ l ls, x.lexemes = l :: ls ∧ l.Opens ∧ (Tier.update ≤ x.tier → l.isPrefix = false) := by
  refine hx.spine (P := fun x => ∃ l ls, x.lexemes = l :: ls ∧ l.Opens ∧
    (Tier.update ≤ x.tier → l.isPrefix = false))
    ?_ ?_ ?_ ?_
  · exact fun _ raw _ _ => ⟨.number raw, [], rfl, .number raw, fun _ => rfl⟩
  · exact fun n h => ⟨.name n.text, [], rfl, .name h, fun _ => rfl⟩
  · exact fun x op ls htier hop heq =>
      ⟨.op op, ls, heq, .operator hop, fun hle => absurd (Nat.le_trans hle htier) (by decide)⟩
  · rintro x y b l more - ⟨m, ms, hy, hm, hleading⟩ htier - heq
    cases b with
    | true => exact ⟨_, _, heq, .group, fun _ => rfl⟩
    | false =>
      rw [wrapped, if_neg nofun, hy] at heq
      exact ⟨m, _, heq, hm, fun hle => hleading (Nat.le_trans (Nat.le_min.mpr ⟨hle, by decide⟩)
        (htier rfl))⟩

/-- The lexeme that a formula begins with, in parentheses or not. -/
theorem Formula.opens (hx : Formula x) (b : Bool) :
    ∃ l ls, wrapped b x.lexemes = l :: ls ∧ l.Opens ∧
    (b = true ∨ Tier.update ≤ x.tier → l.isPrefix = false) := by
  cases b with
  | true => exact ⟨_, _, rfl, .group, fun _ => rfl⟩
  | false =>
    obtain ⟨l, ls, hls, hopens, hleading⟩ := hx.opens_plain
    exact ⟨l, ls, hls, hopens, fun h => hleading (h.resolve_left nofun)⟩

/-- A name comes first where a formula without parentheses begins with it. -/
theorem Formula.head_name (hy : Formula y) {text : String}
    (h : wrapped b y.lexemes ++ more = .name text :: ls) :
    b = false ∧ ∃ own, y.lexemes = .name text :: own ∧ ls = own ++ more := by
  cases b with
  | true => exact absurd (congrArg Lexeme.kind (List.cons.inj h).1) nofun
  | false =>
    obtain ⟨m, own, hm, -, -⟩ := hy.opens_plain
    rw [wrapped_false, hm] at h
    obtain ⟨rfl, rfl⟩ := List.cons.inj h
    exact ⟨rfl, own, hm, rfl⟩

/-- A name at the head of a formula is all of it, or what comes next binds it to the rest. -/
theorem Formula.after_name (hx : Formula x) {text : String} (h : x.lexemes = .name text :: ls) :
    (ls = [] ∧ ∃ n, x = .identifier n ∧ n.text = text) ∨
      ∃ l more, ls = l :: more ∧ min x.tier Tier.call ≤ l.kind.grip := by
  revert text ls
  refine hx.spine (P := fun x => ∀ {ls : List Lexeme} {text : String},
    x.lexemes = .name text :: ls →
    (ls = [] ∧ ∃ n, x = .identifier n ∧ n.text = text) ∨
      ∃ l more, ls = l :: more ∧ min x.tier Tier.call ≤ l.kind.grip) ?_ ?_ ?_ ?_
  · exact fun _ _ _ _ _ _ h => absurd (congrArg Lexeme.kind (List.cons.inj h).1) nofun
  · rintro n - ls text h
    obtain ⟨hname, rfl⟩ := List.cons.inj h
    exact .inl ⟨rfl, n, rfl, congrArg Lexeme.text hname⟩
  · rintro x op ls - hop heq more text h
    rw [heq] at h
    have hkind : op = .identifier := congrArg Lexeme.kind (List.cons.inj h).1
    rw [hkind] at hop
    exact absurd hop (by decide)
  · rintro x y b l more hy ih htier hgrip heq ls text h
    rw [heq] at h
    obtain ⟨rfl, own, hown, rfl⟩ := hy.head_name h
    refine .inr ?_
    rcases ih hown with ⟨rfl, -⟩ | ⟨k, ks, rfl, hk⟩
    · exact ⟨l, more, rfl, hgrip⟩
    · exact ⟨k, _, rfl, Nat.le_trans (Nat.le_min.mpr ⟨htier rfl, Nat.min_le_right _ _⟩) hk⟩

/-- What comes after a name at the head of a formula that is no comma sequence. -/
theorem Formula.second (hx : Formula x) (hle : Tier.assign ≤ x.tier) {text : String}
    (h : x.lexemes = .name text :: ls) :
    (ls = [] ∧ ∃ n, x = .identifier n ∧ n.text = text) ∨
      (∃ span op n value, x = .assign span op (.target (.identifier n)) value ∧ n.text = text) ∨
      ∃ l more, ls = l :: more ∧ Tier.assign ≤ l.kind.grip ∧ l.kind.isAssignment = false := by
  -- An operator at least as tight as the loosest binary one is no assignment.
  have hfar {l : Lexeme} {n : Nat} (hn : Tier.logicalOr ≤ n) (hl : min n Tier.call ≤ l.kind.grip) :
      Tier.assign ≤ l.kind.grip ∧ l.kind.isAssignment = false := by
    have hl : Tier.logicalOr ≤ l.kind.grip := Nat.le_trans (Nat.le_min.mpr ⟨hn, by decide⟩) hl
    refine ⟨Nat.le_of_succ_le hl, Bool.eq_false_iff.mpr fun hassign => ?_⟩
    rw [Kind.grip_of_assignment hassign] at hl
    exact absurd hl (by decide)
  -- Only conditionals and assignments are looser; of those the first operand is looked at.
  have htight (htier : Tier.logicalOr ≤ x.tier) :
      (ls = [] ∧ ∃ n, x = .identifier n ∧ n.text = text) ∨
      ∃ l more, ls = l :: more ∧ Tier.assign ≤ l.kind.grip ∧ l.kind.isAssignment = false := by
    rcases hx.after_name h with hname | ⟨l, more, rfl, hl⟩
    · exact .inl hname
    · exact .inr ⟨l, more, rfl, hfar htier hl⟩
  cases hx with
  | @conditional span test yes no htest =>
    obtain ⟨hb, own, hown, rfl⟩ := htest.head_name h
    rcases htest.after_name hown with ⟨rfl, -⟩ | ⟨l, more, rfl, hl⟩
    · exact .inr (.inr ⟨_, _, rfl, Nat.le_refl _, rfl⟩)
    · exact .inr (.inr ⟨l, _, rfl, hfar (le_tier hb) hl⟩)
  | @assign span op x value hop htarget hx =>
    obtain ⟨-, own, hown, rfl⟩ := hx.head_name (b := false) h
    rcases hx.after_name hown with ⟨rfl, n, rfl, hn⟩ | ⟨l, more, rfl, hl⟩
    · exact .inr (.inl ⟨span, op, n, value, rfl, hn⟩)
    · exact .inr
        (.inr ⟨l, _, rfl, hfar (Nat.le_trans (by decide) (call_le_of_isTarget htarget)) hl⟩)
  | @binary span op left right hop =>
    exact (htight (Kind.logicalOr_le_of_assign_le hop hle)).imp id .inr
  | @update span op x before =>
    cases before <;> exact (htight (Nat.le_of_ble_eq_true rfl)).imp id .inr
  | _ => exact (htight (Nat.le_of_ble_eq_true rfl)).imp id .inr

/-- Where a formula begins with a parenthesis, a formula stands in the parentheses. -/
theorem Formula.group (hx : Formula x) (h : x.lexemes = l :: ls) (hl : l.kind = .punct .leftParen) :
    ∃ y more, Formula y ∧ x.lexemes = wrapped true y.lexemes ++ more := by
  revert l ls
  refine hx.spine (P := fun x => ∀ {l : Lexeme} {ls : List Lexeme}, x.lexemes = l :: ls →
    l.kind = .punct .leftParen →
    ∃ y more, Formula y ∧ x.lexemes = wrapped true y.lexemes ++ more) ?_ ?_ ?_ ?_
  · rintro _ _ _ - l ls h hl
    cases h
    cases hl
  · rintro _ - l ls h hl
    cases h
    cases hl
  · rintro x op more - hop heq l ls h hl
    rw [heq] at h
    cases h
    rw [show op = .punct .leftParen from hl] at hop
    exact absurd hop (by decide)
  · rintro x y b k more hy ih - - heq l ls h hl
    cases b with
    | true => exact ⟨y, k :: more, hy, heq⟩
    | false =>
      obtain ⟨m, ms, hm, -, -⟩ := hy.opens_plain
      rw [heq, wrapped_false, hm] at h
      obtain ⟨rfl, -⟩ := List.cons.inj h
      obtain ⟨z, rest, hz, hgroup⟩ := ih hm hl
      exact ⟨z, rest ++ k :: more, hz, by rw [heq, wrapped_false, hgroup, List.append_assoc]⟩

/-! ## All lexemes -/

/-- None of the lexemes is an arrow. -/
def NoArrow (ls : List Lexeme) : Prop :=
  ∀ l ∈ ls, l.kind ≠ .punct .arrow

/-- No formula has an arrow among its lexemes. -/
theorem NoArrow.nil : NoArrow [] :=
  nofun

theorem NoArrow.cons (hl : l.kind ≠ .punct .arrow) (h : NoArrow ls) : NoArrow (l :: ls) :=
  List.forall_mem_cons.mpr ⟨hl, h⟩

theorem NoArrow.append (h : NoArrow ls) (hmore : NoArrow more) : NoArrow (ls ++ more) :=
  List.forall_mem_append.mpr ⟨h, hmore⟩

theorem NoArrow.wrapped (h : NoArrow ls) : NoArrow (wrapped b ls) := by
  cases b with
  | true => exact .cons nofun (h.append (.cons nofun .nil))
  | false => exact h

theorem argumentLexemes_noArrow {args : List Expr} (h : ∀ x ∈ args, NoArrow x.lexemes) :
    NoArrow (argumentLexemes args) := by
  induction args with
  | nil => exact .nil
  | cons x args ih =>
    have hx := (h x List.mem_cons_self).wrapped (b := x.tier < Tier.assign)
    cases args with
    | nil => exact hx
    | cons y args => exact hx.append (.cons nofun (ih fun z hz => h z (List.mem_cons_of_mem x hz)))

/-- No formula is printed with an arrow. -/
theorem Formula.noArrow (hx : Formula x) : NoArrow x.lexemes := by
  have hoperator {op : Kind} (h : op ≠ .punct .arrow) : (Lexeme.op op).kind ≠ .punct .arrow := h
  induction hx with
  | number | name => exact .cons nofun .nil
  | unary hop hx ih => exact .cons (hoperator (by rintro rfl; cases hop)) ih.wrapped
  | @update span op x before hop htarget hx ih =>
    have hplain : (Lexeme.op op).kind ≠ .punct .arrow := hoperator (by rintro rfl; cases hop)
    cases before with
    | true => exact .cons hplain ih.wrapped
    | false => exact ih.wrapped.append (.cons hplain .nil)
  | binary hop hleft hright ihleft ihright =>
    refine ihleft.wrapped.append (.cons (hoperator ?_) ihright.wrapped)
    rintro rfl
    exact absurd hop (by decide)
  | conditional htest hyes hno ihtest ihyes ihno =>
    exact ihtest.wrapped.append (.cons nofun (ihyes.wrapped.append (.cons nofun ihno.wrapped)))
  | assign hop htarget hx hvalue ihx ihvalue =>
    exact ihx.append (.cons (hoperator (by rintro rfl; cases hop)) ihvalue.wrapped)
  | dotted hbase hn ih => exact ih.wrapped.append (.cons nofun (.cons nofun .nil))
  | computed hbase hkey ihbase ihkey =>
    exact ihbase.wrapped.append (.cons nofun (ihkey.append (.cons nofun .nil)))
  | @call _ callee args hcallee hargs ihcallee ihargs =>
    change NoArrow (wrapped _ callee.lexemes ++ .punct .leftParen :: argumentLexemes args ++
      [.punct .rightParen])
    rw [List.append_assoc]
    exact ihcallee.wrapped.append (.cons nofun ((argumentLexemes_noArrow ihargs).append
      (.cons nofun .nil)))

end Expr

end EcmaStack
