import EcmaStack.Proofs.Readback.Numerals
import EcmaStack.Proofs.Readback.Openings

/-!
# What is printed is spelled
-/

namespace EcmaStack

open Text
open EcmaStack.Expr (Formula)

/-! ## What ends a word or a number -/

section

variable {x : Expr} {cs more : List Char} {y : Char} {ls ms : List Lexeme} {op : Kind} {depth : Nat}
    {b : Bool}

/-- The characters that are printed right after an operand. -/
def stopMarks : List Char :=
  " )],;([.+-".toList

/-- A mark that cannot go on a name ends it, -/
theorem Ends.cons (h : y ∈ stopMarks) : Ends (y :: cs) := by
  have hall : (stopMarks.all fun y => !isIdentifierPart y && y != '\\') = true := by decide
  obtain ⟨hpart, hne⟩ := Bool.and_eq_true_iff.mp (List.all_eq_true.mp hall y h)
  rintro _ ⟨⟩
  exact ⟨(Bool.not_eq_true' _).mp hpart, bne_iff_ne.mp hne⟩

/-- Where a text follows, an expression that is printed comes to its end: a point after a number
would be part of it. -/
structure Expr.Stops (x : Expr) (more : List Char) : Prop where
  ends : Ends more
  point : '.' ∈ more.head? → Tier.call ≤ x.tier ∧ x.takesPoint = false

/-- and ends any formula, unless it is the point that a number would take. -/
theorem Expr.Stops.cons (h : y ∈ stopMarks) (hpoint : y ≠ '.') : x.Stops (y :: more) :=
  ⟨.cons h, fun hy => absurd (Option.some.inj hy) hpoint⟩

/-! ## Operators -/

/-- Whether a token of this kind is always written the same way. -/
def Kind.isFixed : Kind → Bool
  | .punct _ | .keyword _ => true
  | _ => false

/-- Every keyword is spelled like a name and read as itself. -/
theorem Keyword.spelling_word (k : Keyword) :
    isIdentifierName k.spelling.toList = true ∧ nameKind false k.spelling = .keyword k := by
  cases k <;> decide

/-- No punctuator runs into a blank, -/
theorem Punct.runsInto_blank (p : Punct) : p.runsInto ' ' = false := by
  cases p <;> rfl

/-- An operator before a space is scanned. -/
theorem Lexeme.scans_op (h : op.isFixed = true) : (Lexeme.op op).Scans (' ' :: cs) := by
  cases op with
  | punct p =>
    refine scans_punct ?_
    rintro _ ⟨⟩
    exact p.runsInto_blank
  | keyword k =>
    obtain ⟨hname, hkind⟩ := k.spelling_word
    have hscans : (⟨nameKind false k.spelling, k.spelling⟩ : Lexeme).Scans (' ' :: cs) :=
      scans_word hname (.cons (by decide))
    rwa [hkind] at hscans
  | _ => cases h

/-- Punctuators that are the start of no other token. -/
def closedMarks : List Punct :=
  [.semicolon, .comma, .leftParen, .rightParen, .leftBracket, .rightBracket, .increment, .decrement]

/-- and these run into nothing at all. -/
theorem continuations_of_mem_closedMarks :
    ∀ p ∈ closedMarks, p.continuations = [] ∧ p ≠ .slash ∧ p ≠ .dot ∧
    p ≠ .optionalDot := by
  decide

/-- A punctuator that is the start of no other token is scanned before any text. -/
theorem Lexeme.scans_closed {p : Punct} (h : p ∈ closedMarks) : (Lexeme.punct p).Scans cs := by
  refine scans_punct fun y _ => ?_
  obtain ⟨hnone, hslash, hdot, hoptional⟩ := continuations_of_mem_closedMarks p h
  rw [Punct.runsInto, hnone, beq_eq_false_iff_ne.mpr hslash, beq_eq_false_iff_ne.mpr hdot,
    beq_eq_false_iff_ne.mpr hoptional]
  rfl

/-- An operator and the blank behind it. -/
theorem Spelled.operator (hop : op.isFixed = true) (h : Spelled cs ls) :
    Spelled (op.describe.toList ++ ' ' :: cs) (.op op :: ls) :=
  .cons (l := .op op) (Lexeme.scans_op hop) h.blank

/-- An operator with space around it. -/
theorem Spelled.spaced (op : Kind) (hop : op.isFixed = true) (h : Spelled cs ls) :
    Spelled (op.spaced.toList ++ cs) (.op op :: ls) := by
  unfold Kind.spaced
  split
  · next hcomma =>
    cases beq_iff_eq.mp hcomma
    show Spelled (',' :: ' ' :: cs) _
    exact .cons (l := .punct .comma) (Lexeme.scans_closed (by decide)) h.blank
  · have hspelled := (Spelled.operator hop h).blank
    simpa [String.toList_append] using hspelled

namespace Expr

/-! ## The text -/

variable {e base key callee test yes no left right value : Expr} {span : Span} {n : Name}
    {args : List Expr}

/-- The printer's rule for operands is that of the lexemes: on the left side, -/
theorem asLeft_eq (x : Expr) (op : Kind) (text : String) :
    x.asLeft op text = parenthesizedIf (x.apartLeft op) text := by
  unfold asLeft apartLeft
  split
  · next h => rw [h, Bool.true_or]
  · next h =>
    rw [Bool.eq_false_iff.mpr h, Bool.false_or]
    cases op with
    | punct p => cases p <;> rfl
    | _ => rfl

/-- and on the right. -/
theorem asRight_eq (x : Expr) (op : Kind) (text : String) :
    x.asRight op text = parenthesizedIf (x.apartRight op) text := by
  unfold asRight apartRight
  split
  · next h => rw [h, Bool.true_or]
  · next h =>
    rw [Bool.eq_false_iff.mpr h, Bool.false_or]
    cases op with
    | punct p => cases p <;> rfl
    | _ => rfl

/-- The text of an expression, in parentheses or not. -/
def text (b : Bool) (depth : Nat) (e : Expr) : List Char :=
  (parenthesizedIf b (e.print depth)).toList

/-- The text of a formula without parentheses around it -/
theorem text_false : e.text false depth = (e.print depth).toList :=
  rfl

/-- and with them. -/
theorem text_true : e.text true depth = '(' :: ((e.print depth).toList ++ [')']) := by
  rw [text, parenthesizedIf, if_pos rfl, String.toList_append, String.toList_append]
  rfl

/-- A numeral is printed as it was written. -/
theorem printNumber_eq {raw : String} {value : Binary64} (h : IsNumeral raw value) :
    printNumber raw value = raw := by
  obtain ⟨y, word, hword, -⟩ := h.head
  rw [printNumber, rawOr]
  split
  · next hempty =>
    rw [String.isEmpty_iff.mp hempty] at hword
    cases hword
  · rfl

theorem print_number {raw : String} {value : Binary64} (h : IsNumeral raw value) :
    (number span raw value).print depth = raw :=
  printNumber_eq h

/-- What is printed for a formula, kind by kind: a blank keeps two signs apart that would
be read as one. -/
theorem print_unary : ((unary span op e).print depth).toList =
    op.describe.toList ++
    ((if op.describe.utf8ByteSize > 2 || e.fusesAfter op then " " else "").toList ++
      e.text (e.tier < Tier.unary) depth) := by
  change (op.describe ++ (if op.describe.utf8ByteSize > 2 || e.fusesAfter op then " " else "") ++
    e.atTier Tier.unary (e.print depth)).toList = _
  simp only [String.toList_append, List.append_assoc]
  rfl

theorem print_before :
    ((update span op e true).print depth).toList = op.describe.toList ++
    e.text (e.tier < Tier.unary) depth := by
  change (op.describe ++ e.atTier Tier.unary (e.print depth)).toList = _
  rw [String.toList_append]
  rfl

theorem print_after :
    ((update span op e false).print depth).toList = e.text (e.tier < Tier.call) depth ++
    op.describe.toList := by
  change (e.atTier Tier.call (e.print depth) ++ op.describe).toList = _
  rw [String.toList_append]
  rfl

/-- An operator stands between blanks. -/
theorem print_binary : ((binary span op left right).print depth).toList =
    left.text (left.apartLeft op) depth ++
    (op.spaced.toList ++ right.text (right.apartRight op) depth) := by
  change (left.asLeft op (left.print depth) ++ op.spaced ++
    right.asRight op (right.print depth)).toList = _
  rw [asLeft_eq, asRight_eq, String.toList_append, String.toList_append, List.append_assoc]
  rfl

theorem print_conditional : ((conditional span test yes no).print depth).toList =
    test.text (test.tier < Tier.logicalOr) depth ++ ((Kind.punct .question).spaced.toList ++
      (yes.text (yes.tier < Tier.assign) depth ++ ((Kind.punct .colon).spaced.toList ++
        no.text (no.tier < Tier.assign) depth))) := by
  change (test.atTier Tier.logicalOr (test.print depth) ++ " ? " ++
    yes.atTier Tier.assign (yes.print depth) ++ " : " ++
    no.atTier Tier.assign (no.print depth)).toList = _
  simp only [String.toList_append, List.append_assoc]
  rfl

theorem print_assign : ((assign span op (.target e) value).print depth).toList =
    (e.print depth).toList ++
    (' ' :: (op.describe.toList ++ ' ' :: value.text (value.tier < Tier.assign) depth)) := by
  change (e.print depth ++ " " ++ op.describe ++ " " ++
    value.atTier Tier.assign (value.print depth)).toList = _
  simp only [String.toList_append, List.append_assoc]
  rfl

/-- A number before the point is put in parentheses unless its text shows that the point
is none of its own. -/
theorem print_dotted : ((member span base (.identifier n) false false).print depth).toList =
    base.text (base.takesPoint || base.tier < Tier.call) depth ++ '.' :: n.text.toList := by
  change ((if base.takesPoint && !false then "(" ++ base.print depth ++ ")"
    else base.atTier Tier.call (base.print depth)) ++
    ("." ++ n.text)).toList = _
  simp only [Bool.not_false, Bool.and_true, String.toList_append]
  cases base.takesPoint <;> rfl

theorem print_computed (hkey : Tier.comma ≤ key.tier) :
    ((member span base key true false).print depth).toList =
    base.text (base.tier < Tier.call) depth ++ '[' :: ((key.print depth).toList ++ [']']) := by
  change ((if base.takesPoint && !true then "(" ++ base.print depth ++ ")"
    else base.atTier Tier.call (base.print depth)) ++
    ("" ++ "[" ++ key.atTier Tier.comma (key.print depth) ++ "]")).toList = _
  simp only [Bool.not_true, Bool.and_false, Bool.false_eq_true, if_false, String.toList_append,
    List.append_assoc, atTier, decide_eq_false (Nat.not_lt_of_le hkey)]
  rfl

theorem print_call : ((call span callee args false).print depth).toList =
    callee.text (callee.tier < Tier.call) depth ++
    '(' :: ((listed (Expr.printList depth args)).toList ++ [')']) := by
  change (callee.atTier Tier.call (callee.print depth) ++ "" ++ "(" ++
    listed (Expr.printList depth args) ++ ")").toList = _
  simp only [String.toList_append, List.append_assoc]
  rfl

/-! ## How the text begins -/

/-- Whether an expression may begin with a character that is part of no operator. -/
def beginsOperand (y : Char) : Bool :=
  isIdentifierStart y || isDecimalDigit y || y == '.' || y == '('

/-- A text begins with an operand, or with an operator if the expression binds no tighter than
these. -/
inductive Begins (x : Expr) : List Char → Prop where
  | operand {y : Char} {rest : List Char} (h : beginsOperand y = true) : Begins x (y :: rest)
  | operator {op : Kind} {rest : List Char}
    (hop : (Parse.isUnaryOperator op || Parse.isUpdateOperator op) = true)
      (hle : x.tier ≤ Tier.unary) : Begins x (op.describe.toList ++ rest)

/-- An operand that is printed first passes its own beginning on. -/
theorem Begins.first (he : e.Begins (e.print depth).toList)
    (hle : b = false → e.tier ≤ Tier.unary → x.tier ≤ Tier.unary) :
    x.Begins (e.text b depth ++ more) := by
  cases b with
  | true =>
    rw [text_true]
    exact .operand (by decide)
  | false =>
    rw [text_false]
    generalize (e.print depth).toList = cs at he
    cases he with
    | operand h => exact .operand h
    | operator hop htier =>
      rw [List.append_assoc]
      exact .operator hop (hle rfl htier)

/-- What the text of a formula begins with, by induction on it. -/
theorem Formula.begins (hx : Formula x) (depth : Nat) : x.Begins (x.print depth).toList := by
  induction hx with
  | @number span raw value h =>
    rw [print_number h]
    -- A numeral begins with a digit or a point, and both begin an operand.
    obtain ⟨y, word, hword, hy⟩ := h.head
    rw [hword]
    refine .operand ?_
    rcases hy with rfl | hy
    · decide
    · rw [beginsOperand, hy, Bool.or_true]
      rfl
  | @name n h =>
    have hname := h.identifier
    change Begins _ n.text.toList
    cases hword : n.text.toList with
    | nil =>
      rw [hword] at hname
      cases hname
    | cons y word =>
      rw [hword] at hname
      refine .operand ?_
      rw [beginsOperand, (Bool.and_eq_true_iff.mp hname).1]
      rfl
  | unary hop hx ih =>
    rw [print_unary]
    exact .operator (by rw [hop]; rfl) (Nat.le_refl _)
  | @update span op x before hop htarget hx ih =>
    cases before with
    | true =>
      rw [print_before]
      exact .operator (by rw [hop, Bool.or_true]) (Nat.le_refl _)
    | false =>
      rw [print_after]
      -- What stands in front is the first operand; a formula at least as tight as a unary one has
      -- one that begins like it.
      exact ih.first fun _ hle =>
        absurd (Nat.le_trans (call_le_of_isTarget htarget) hle) (by decide)
  | @binary span op left right hop hleft hright ih =>
    rw [print_binary]
    exact ih.first fun _ _ => Nat.le_of_lt op.precedence_lt
  | conditional htest hyes hno ih =>
    rw [print_conditional]
    exact ih.first fun _ _ => (by decide : Tier.assign ≤ Tier.unary)
  | assign hop htarget hx hvalue ih =>
    rw [print_assign, ← text_false]
    exact ih.first fun _ _ => (by decide : Tier.assign ≤ Tier.unary)
  | dotted hbase hn ih =>
    rw [print_dotted]
    refine ih.first fun hb hle => ?_
    have hcall := le_tier (Bool.or_eq_false_iff.mp hb).2
    exact absurd (Nat.le_trans hcall hle) (by decide)
  | computed hbase hkey ih =>
    rw [print_computed hkey.comma_le]
    exact ih.first fun hb hle => absurd (Nat.le_trans (le_tier hb) hle) (by decide)
  | call hcallee hargs ih =>
    rw [print_call]
    exact ih.first fun hb hle => absurd (Nat.le_trans (le_tier hb) hle) (by decide)

private def signs : List Punct :=
  [.plus, .minus, .bang, .tilde]

/-- The signs that start an operand, listed so that facts about them can be decided. -/
private theorem mem_signs {p : Punct} (h : Parse.isUnaryOperator (.punct p) = true) :
    p ∈ signs := by
  cases p <;> first | decide | cases h

/-- The operators that an expression may begin with. -/
def leadingOperators : List Kind :=
  [.punct .plus, .punct .minus, .punct .bang, .punct .tilde, .punct .increment, .punct .decrement,
    .keyword .typeofWord, .keyword .voidWord, .keyword .deleteWord]

theorem mem_leadingOperators (h : (Parse.isUnaryOperator op || Parse.isUpdateOperator op) = true) :
    op ∈ leadingOperators := by
  cases op with
  | punct q => cases q <;> first | decide | cases h
  | keyword k => cases k <;> first | decide | cases h
  | _ => cases h

/-- An operator before its operand does not run into one that is printed right after it. -/
theorem runsInto_of_fusesWith {p : Punct} (hp : Parse.isUnaryOperator (.punct p) = true)
    (hop : (Parse.isUnaryOperator op || Parse.isUpdateOperator op) = true)
    (hfuse : (Kind.punct p).fusesWith op = false) :
    ∃ y rest, op.describe.toList = y :: rest ∧ p.runsInto y = false := by
  have hall : ∀ p ∈ signs, ∀ q ∈ leadingOperators, (Kind.punct p).fusesWith q = false →
      (q.describe.toList.head?.any fun y => !p.runsInto y) = true := by decide
  have hhead := hall p (mem_signs hp) op (mem_leadingOperators hop) hfuse
  cases hword : op.describe.toList with
  | nil =>
    rw [hword] at hhead
    cases hhead
  | cons y rest =>
    rw [hword] at hhead
    exact ⟨y, rest, rfl, (Bool.not_eq_true' _).mp hhead⟩

/-- Nor into what else an operand begins with. -/
theorem runsInto_of_beginsOperand {p : Punct} (hp : Parse.isUnaryOperator (.punct p) = true)
    (hy : beginsOperand y = true) :
    p.runsInto y = false := by
  have hall : ∀ p ∈ signs, (p.continuations.all fun z => !beginsOperand z) = true ∧ (p == .slash) =
      false ∧
      (p == .dot || p == .optionalDot) = false := by decide
  obtain ⟨hnone, hslash, hdot⟩ := hall p (mem_signs hp)
  have hno : p.continuations.contains y = false := by
    refine Bool.eq_false_iff.mpr fun h => ?_
    have hy' := List.all_eq_true.mp hnone y (List.contains_iff_mem.mp h)
    rw [hy] at hy'
    cases hy'
  rw [Punct.runsInto, hno, hslash, hdot]
  rfl

/-- An operator does not run into its operand where no space is printed between them. -/
theorem Formula.runsInto (he : Formula e) {p : Punct}
    (hop : Parse.isUnaryOperator (.punct p) = true) (hfuse : e.fusesAfter (.punct p) = false) :
    ∀ y ∈ (e.text (e.tier < Tier.unary) depth ++ more).head?, p.runsInto y = false := by
  cases hb : decide (e.tier < Tier.unary) with
  | true =>
    rw [text_true]
    rintro _ ⟨⟩
    exact runsInto_of_beginsOperand hop (by decide)
  | false =>
    rw [text_false]
    have hsign {q : Kind} {rest : List Char}
        (hq : (Parse.isUnaryOperator q || Parse.isUpdateOperator q) = true)
        (hfuse : (Kind.punct p).fusesWith q = false) : ∀ y ∈ (q.describe.toList ++ rest).head?,
          p.runsInto y = false := by
      obtain ⟨y, tail, hq, hruns⟩ := runsInto_of_fusesWith hop hq hfuse
      rw [hq]
      rintro _ ⟨⟩
      exact hruns
    have hoperand (hne : e.tier ≠ Tier.unary) : ∀ y ∈ ((e.print depth).toList ++ more).head?,
        p.runsInto y = false := by
      have hbegins := he.begins depth
      generalize (e.print depth).toList = cs at hbegins
      cases hbegins with
      | operand h =>
        rintro _ ⟨⟩
        exact runsInto_of_beginsOperand hop h
      | operator _ hle => exact absurd (Nat.le_antisymm hle (le_tier hb)) hne
    cases he with
    | @unary span q x hq =>
      rw [print_unary, List.append_assoc]
      exact hsign (by rw [hq]; rfl) hfuse
    | @update span q x before hq =>
      cases before with
      | true =>
        rw [print_before, List.append_assoc]
        exact hsign (by rw [hq, Bool.or_true]) hfuse
      | false => exact hoperand (Nat.ne_of_beq_eq_false rfl)
    | @binary span q left right => exact hoperand (Nat.ne_of_lt q.precedence_lt)
    | _ => exact hoperand (Nat.ne_of_beq_eq_false rfl)

/-! ## Formulas -/

/-- A text after which an expression may end is spelled together with it. -/
def Printed (depth : Nat) (x : Expr) : Prop :=
  ∀ {more : List Char} {ms : List Lexeme}, Spelled more ms → x.Stops more →
    Spelled ((x.print depth).toList ++ more) (x.lexemes ++ ms)

/-- A formula in parentheses is spelled whatever follows. -/
theorem Printed.text (hx : x.Printed depth) (h : Spelled more ms)
    (hstops : b = false → x.Stops more) :
    Spelled (x.text b depth ++ more) (wrapped b x.lexemes ++ ms) := by
  cases b with
  | false => exact hx h (hstops rfl)
  | true =>
    have hright : Spelled (')' :: more) (.punct .rightParen :: ms) :=
      .cons (l := .punct .rightParen) (Lexeme.scans_closed (by decide)) h
    have hinner := hx hright (.cons (by decide) (by decide))
    rw [text_true, wrapped_true, List.cons_append, List.append_assoc]
    exact .cons (l := .punct .leftParen) (Lexeme.scans_closed (by decide)) hinner

/-- Where a tree ends, its last operand does, if no point may follow. -/
theorem Stops.last (h : x.Stops more) (hx : x.tier < Tier.call) : e.Stops more :=
  ⟨h.ends, fun hpoint => absurd (h.point hpoint).1 (Nat.not_le_of_lt hx)⟩

theorem Stops.spaced : e.Stops (op.spaced.toList ++ more) := by
  unfold Kind.spaced
  split
  · exact .cons (by decide) (by decide)
  · rw [String.toList_append, String.toList_append]
    exact .cons (by decide) (by decide)

/-- A number that takes no point shows it by one of its marks. -/
theorem mem_pointMarks {raw : String} {value : Binary64} (h : IsNumeral raw value)
    (htakes : (number span raw value).takesPoint = false) :
    ∃ y ∈ raw.toList, y ∈ pointMarks := by
  rw [takesPoint, printNumber_eq h, Bool.not_eq_false', List.any_eq_true] at htakes
  obtain ⟨y, hy, hmark⟩ := htakes
  exact ⟨y, hy, List.contains_iff_mem.mp hmark⟩

/-- A name is no reserved word. -/
theorem nameKind_of_isVariable {text : String} (h : IsVariable text) :
    nameKind false text = .identifier := by
  have hunreserved := h.unreserved
  rw [isReserved] at hunreserved
  rw [nameKind, if_neg Bool.false_ne_true]
  split
  · next k hk =>
    rw [hk] at hunreserved
    cases hunreserved
  · rfl

/-- Names after a point are scanned. -/
theorem spelled_property {text : String} (h : IsVariable text) (hmore : Spelled more ms)
    (hends : Ends more) :
    Spelled ('.' :: (text.toList ++ more)) (.punct .dot :: .name text :: ms) := by
  have hscans := Lexeme.scans_word h.identifier hends
  rw [nameKind_of_isVariable h] at hscans
  refine Spelled.cons (l := .punct .dot) (Lexeme.scans_punct fun y hy => ?_)
    (Spelled.cons (l := .name text) hscans hmore)
  have hname := h.identifier
  cases hword : text.toList with
  | nil =>
    rw [hword] at hname
    cases hname
  | cons z word =>
    change y ∈ (text.toList ++ more).head? at hy
    rw [hword] at hname hy
    cases hy
    have hz := (Bool.and_eq_true_iff.mp hname).1
    have hnone : ((Punct.continuations .dot).all fun x => !isIdentifierStart x) = true := by decide
    have hno : (Punct.continuations .dot).contains y = false := by
      refine Bool.eq_false_iff.mpr fun h => ?_
      have hy := List.all_eq_true.mp hnone y (List.contains_iff_mem.mp h)
      rw [hz] at hy
      cases hy
    rw [Punct.runsInto, hno, isDecimalDigit_of_isIdentifierStart hz]
    rfl

/-- Arguments between commas and blanks. -/
theorem spelled_arguments (h : ∀ x ∈ args, x.Printed depth) (hmore : Spelled (')' :: more) ms) :
    Spelled ((listed (Expr.printList depth args)).toList ++ ')' :: more) (argumentLexemes args ++
      ms) := by
  induction args with
  | nil => exact hmore
  | cons x args ih =>
    have hx : x.Printed depth := h x List.mem_cons_self
    cases args with
    | nil => exact hx.text (b := x.tier < Tier.assign) hmore fun _ => .cons (by decide) (by decide)
    | cons y args =>
      have hrest := (ih fun z hz => h z (List.mem_cons_of_mem x hz)).spaced (.punct .comma) rfl
      have hwhole := hx.text (b := x.tier < Tier.assign) hrest fun _ => .spaced
      have hprint : (listed (Expr.printList depth (x :: y :: args))).toList =
          x.text (x.tier < Tier.assign) depth ++
          ((Kind.punct .comma).spaced.toList ++
            (listed (Expr.printList depth (y :: args))).toList) := by
        rw [listed, Expr.printList, Expr.printList, String.intercalate_cons_cons,
          String.toList_append, String.toList_append, List.append_assoc]
        rfl
      rw [hprint, List.append_assoc, List.append_assoc,
        show argumentLexemes (x :: y :: args) =
          wrapped (x.tier < Tier.assign) x.lexemes ++
          .punct .comma :: argumentLexemes (y :: args) from rfl, List.append_assoc]
      exact hwhole

/-- Words that are operators are longer than signs. -/
theorem two_lt_of_isUnaryOperator {k : Keyword} (h : Parse.isUnaryOperator (.keyword k) = true) :
    2 < (Kind.keyword k).describe.utf8ByteSize := by
  cases k <;> cases h <;> decide

/-- The text of a formula spells its lexemes, by induction on the formula. -/
theorem Formula.printed (hx : Formula x) (depth : Nat) : x.Printed depth := by
  induction hx with
  | @number span raw value h =>
    intro more ms hmore hstops
    rw [print_number h]
    have hscans := Lexeme.scans_number h hstops.ends fun hpoint =>
      mem_pointMarks h (hstops.point hpoint).2
    exact Spelled.cons (l := .number raw) hscans hmore
  | @name n h =>
    intro more ms hmore hstops
    have hscans := Lexeme.scans_word h.identifier hstops.ends
    rw [nameKind_of_isVariable h] at hscans
    exact Spelled.cons (l := .name n.text) hscans hmore
  | @unary span op x hop hx ih =>
    intro more ms hmore hstops
    have hoperand := ih.text (b := x.tier < Tier.unary) hmore fun _ =>
      hstops.last (by decide : Tier.unary < Tier.call)
    rw [print_unary, List.append_assoc, List.append_assoc]
    split
    -- Words, and signs in front of a sign they would run into, stand before a blank.
    · exact Spelled.operator
        (by unfold Parse.isUnaryOperator at hop; split at hop <;> first | rfl | cases hop) hoperand
    · next hspace =>
      -- Without the blank the operator is a sign, and the operand's text does not go on with it.
      rw [Bool.or_eq_true, not_or] at hspace
      rw [show "".toList = [] from rfl, List.nil_append]
      cases op with
      | punct p =>
        have hfuse : x.fusesAfter (.punct p) = false := Bool.eq_false_iff.mpr hspace.2
        exact Spelled.cons (l := .op (.punct p)) (Lexeme.scans_punct (hx.runsInto hop hfuse))
          hoperand
      | keyword k => exact absurd (decide_eq_true (two_lt_of_isUnaryOperator hop)) hspace.1
      | _ => cases hop
  | @update span op x before hop htarget hx ih =>
    intro more ms hmore hstops
    -- Both operators of updates are closed marks, which the scanner reads whatever follows.
    have hclosed {cs : List Char} : (Lexeme.op op).Scans cs := by
      rcases Bool.or_eq_true_iff.mp hop with h | h <;> rw [beq_iff_eq.mp h] <;>
        exact Lexeme.scans_closed (by decide)
    cases before with
    | true =>
      have hoperand := ih.text (b := x.tier < Tier.unary) hmore fun _ =>
        hstops.last (by decide : Tier.unary < Tier.call)
      rw [print_before, List.append_assoc]
      exact Spelled.cons (l := .op op) hclosed hoperand
    | false =>
      have hright : Spelled (op.describe.toList ++ more) (.op op :: ms) :=
        .cons (l := .op op) hclosed hmore
      have hoperand := ih.text (b := x.tier < Tier.call) hright fun _ => by
        rcases Bool.or_eq_true_iff.mp hop with h | h <;> rw [beq_iff_eq.mp h] <;> exact .cons
          (by decide) (by decide)
      rw [print_after, List.append_assoc, after_lexemes]
      exact hoperand
  | @binary span op left right hop hleft hright ihleft ihright =>
    intro more ms hmore hstops
    have hfixed : op.isFixed = true := by
      cases op with
      | punct p | keyword k => rfl
      | _ => exact hop.elim nofun fun h => absurd h (Nat.lt_irrefl 0)
    -- From right to left: what a text stops at is the text behind it, which has to be spelled
    -- first.
    have hsecond := ihright.text (b := right.apartRight op) hmore fun _ =>
      hstops.last (Nat.lt_of_lt_of_le op.precedence_lt (by decide))
    have hwhole := ihleft.text (b := left.apartLeft op) (hsecond.spaced op hfixed) fun _ => .spaced
    rw [print_binary, binary_lexemes]
    simpa only [List.append_assoc, List.cons_append] using hwhole
  | @conditional span test yes no htest hyes hno ihtest ihyes ihno =>
    intro more ms hmore hstops
    have halternate := ihno.text (b := no.tier < Tier.assign) hmore fun _ =>
      hstops.last (by decide : Tier.assign < Tier.call)
    have hconsequent :=
      ihyes.text (b := yes.tier < Tier.assign) (halternate.spaced (.punct .colon) rfl) fun _ =>
        .spaced
    have hwhole :=
      ihtest.text (b := test.tier < Tier.logicalOr) (hconsequent.spaced (.punct .question) rfl)
        fun _ => .spaced
    rw [print_conditional, conditional_lexemes]
    simpa only [List.append_assoc] using hwhole
  | @assign span op x value hop htarget hx hvalue ihx ihvalue =>
    intro more ms hmore hstops
    have hfixed : op.isFixed = true := by
      cases op with
      | punct p => rfl
      | _ => cases hop
    have hsource := ihvalue.text (b := value.tier < Tier.assign) hmore fun _ =>
      hstops.last (by decide : Tier.assign < Tier.call)
    have hwhole := ihx (hsource.operator hfixed).blank (.cons (by decide) (by decide))
    rw [print_assign, assign_lexemes]
    simpa only [List.append_assoc, List.cons_append] using hwhole
  | @dotted span base n hbase hn ih =>
    intro more ms hmore hstops
    have hwhole :=
      ih.text (b := base.takesPoint || base.tier < Tier.call)
        (spelled_property hn hmore hstops.ends) fun hb => ?_
    · rw [print_dotted, dotted_lexemes]
      simpa only [name_lexemes, List.append_assoc, List.cons_append, List.nil_append] using hwhole
    -- Only a base that takes no point may stand bare before one.
    · obtain ⟨htakes, htier⟩ := Bool.or_eq_false_iff.mp hb
      exact ⟨.cons (by decide), fun _ => ⟨le_tier htier, htakes⟩⟩
  | @computed span base key hbase hkey ihbase ihkey =>
    intro more ms hmore hstops
    have hright : Spelled (']' :: more) (.punct .rightBracket :: ms) :=
      .cons (l := .punct .rightBracket) (Lexeme.scans_closed (by decide)) hmore
    have hinner : Spelled ('[' :: ((key.print depth).toList ++ ']' :: more))
        (.punct .leftBracket :: (key.lexemes ++ .punct .rightBracket :: ms)) :=
      .cons (l := .punct .leftBracket) (Lexeme.scans_closed (by decide))
        (ihkey hright (.cons (by decide) (by decide)))
    have hwhole := ihbase.text (b := base.tier < Tier.call) hinner fun _ =>
      .cons (by decide) (by decide)
    rw [print_computed hkey.comma_le, computed_lexemes]
    simpa only [List.append_assoc, List.cons_append, List.nil_append] using hwhole
  | @call span callee args hcallee hargs ihcallee ihargs =>
    intro more ms hmore hstops
    have hright : Spelled (')' :: more) (.punct .rightParen :: ms) :=
      .cons (l := .punct .rightParen) (Lexeme.scans_closed (by decide)) hmore
    have hinner : Spelled ('(' :: ((listed (Expr.printList depth args)).toList ++ ')' :: more))
        (.punct .leftParen :: (argumentLexemes args ++ .punct .rightParen :: ms)) :=
      .cons (l := .punct .leftParen) (Lexeme.scans_closed (by decide))
        (spelled_arguments ihargs hright)
    have hwhole := ihcallee.text (b := callee.tier < Tier.call) hinner fun _ =>
      .cons (by decide) (by decide)
    rw [print_call, call_lexemes]
    simpa only [List.append_assoc, List.cons_append, List.nil_append] using hwhole

end Expr

end

end EcmaStack
