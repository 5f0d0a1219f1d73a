import EcmaStack.Grammar.Operators
import EcmaStack.Printer.Source
import Mathlib.Data.List.Forall2

/-!
# Formulas

A **formula** is a tree of operators, members and calls over numbers and variables, with no
parentheses of its own: those it is printed with are the printer's. What it is printed as, less
the spaces, is a list of **lexemes** (`Expr.lexemes`), and a tree **echoes** a formula when it
is the same but for its ranges and for parentheses.

How far an expression reaches is told by the lexeme after it. Each kind of token has a **grip**,
the tier up to which it goes on with the expression before it; an expression that is asked for
at a tier ends before a lexeme with a lesser grip.
-/

namespace EcmaStack

open Text

/-! ## Leaves -/

/-- A name that is a variable wherever an expression may stand: an identifier that is not
reserved, and no word that is a number or means something else in some places. -/
structure IsVariable (text : String) : Prop where
  identifier : isIdentifierName text.toList = true
  unreserved : isReserved text = false
  plain : text ∉ ["NaN", "Infinity", "async", "await", "yield"]

/-- How a number is written: all of it is read as one number, which has the value. -/
structure IsNumeral (raw : String) (value : Binary64) : Prop where
  whole : ∃ t n, readNumber (.ofText (Text.ofString raw)) = some (t, ⟨[], n⟩) ∧ t.kind = .number
  value : numberValue? raw = some value

/-! ## Formulas and what is the same -/

namespace Expr

/-- Whether an expression is in parentheses. -/
def isParen : Expr → Bool
  | .paren _ _ => true
  | _ => false

/-- Whether something can be assigned to an expression. -/
def isTarget : Expr → Bool
  | .identifier _ | .member _ _ _ _ _ => true
  | _ => false

/-- Operators, members and calls over numbers and variables. -/
inductive Formula : Expr → Prop where
  | number {span : Span} {raw : String} {value : Binary64} (h : IsNumeral raw value) :
    Formula (.number span raw value)
  | name {n : Name} (h : IsVariable n.text) : Formula (.identifier n)
  | unary {span : Span} {op : Kind} {x : Expr} (hop : Parse.isUnaryOperator op = true)
    (hx : Formula x) :
      Formula (.unary span op x)
  | update {span : Span} {op : Kind} {x : Expr} {before : Bool}
    (hop : Parse.isUpdateOperator op = true)
      (htarget : x.isTarget = true) (hx : Formula x) : Formula (.update span op x before)
  | binary {span : Span} {op : Kind} {left right : Expr} (hop : op = .punct .comma ∨
    0 < op.binaryPrecedence)
      (hleft : Formula left) (hright : Formula right) : Formula (.binary span op left right)
  | conditional {span : Span} {test yes no : Expr} (htest : Formula test) (hyes : Formula yes)
    (hno : Formula no) :
      Formula (.conditional span test yes no)
  | assign {span : Span} {op : Kind} {x value : Expr} (hop : op.isAssignment = true)
    (htarget : x.isTarget = true)
      (hx : Formula x) (hvalue : Formula value) : Formula (.assign span op (.target x) value)
  | dotted {span : Span} {base : Expr} {n : Name} (hbase : Formula base) (hn : IsVariable n.text) :
      Formula (.member span base (.identifier n) false false)
  | computed {span : Span} {base key : Expr} (hbase : Formula base) (hkey : Formula key) :
      Formula (.member span base key true false)
  | call {span : Span} {callee : Expr} {args : List Expr} (hcallee : Formula callee)
    (hargs : ∀ x ∈ args, Formula x) :
      Formula (.call span callee args false)

/-- The second expression is the first one but for ranges and parentheses. -/
inductive Echoes : Expr → Expr → Prop where
  | paren {span : Span} {x y : Expr} (h : Echoes x y) : Echoes x (.paren span y)
  | number {span span' : Span} {raw : String} {value : Binary64} :
    Echoes (.number span raw value) (.number span' raw value)
  | name {n m : Name} (h : m.text = n.text) : Echoes (.identifier n) (.identifier m)
  | unary {span span' : Span} {op : Kind} {x y : Expr} (h : Echoes x y) :
    Echoes (.unary span op x) (.unary span' op y)
  | update {span span' : Span} {op : Kind} {x y : Expr} {before : Bool} (h : Echoes x y) :
      Echoes (.update span op x before) (.update span' op y before)
  | binary {span span' : Span} {op : Kind} {left left' right right' : Expr}
    (hleft : Echoes left left')
      (hright : Echoes right right') :
        Echoes (.binary span op left right) (.binary span' op left' right')
  | conditional {span span' : Span} {test test' yes yes' no no' : Expr} (htest : Echoes test test')
    (hyes : Echoes yes yes')
      (hno : Echoes no no') :
        Echoes (.conditional span test yes no) (.conditional span' test' yes' no')
  | assign {span span' : Span} {op : Kind} {x y value value' : Expr} (hx : Echoes x y)
    (hvalue : Echoes value value') :
      Echoes (.assign span op (.target x) value) (.assign span' op (.target y) value')
  | member {span span' : Span} {base base' key key' : Expr} {computed optional : Bool}
    (hbase : Echoes base base')
      (hkey : Echoes key key') : Echoes (.member span base key computed optional)
        (.member span' base' key' computed optional)
  | call {span span' : Span} {callee callee' : Expr} {args args' : List Expr} {optional : Bool}
      (hcallee : Echoes callee callee') (hargs : List.Forall₂ Echoes args args') :
      Echoes (.call span callee args optional) (.call span' callee' args' optional)

/-- What a formula is read back as that was printed in parentheses, or without. -/
structure Shown (b : Bool) (x y : Expr) : Prop where
  echoes : Echoes x y
  paren : y.isParen = b

section Echoes

variable {x y : Expr} {b : Bool}

/-- What reads like a formula is none of the expressions that the parser refuses in
places. -/
theorem Echoes.not_private (h : Echoes x y) : y.isPrivateName = false := by
  cases h <;> rfl

theorem Echoes.not_privateMember (h : Echoes x y) : Parse.isPrivateMember y = false := by
  cases h with
  | member hbase hkey => exact hkey.not_private
  | _ => rfl

/-- Parentheses hide what is inside them from the check on mixed operators, -/
theorem Shown.mixesCoalesce (h : Shown b x y) (op : Kind) :
    y.mixesCoalesce op = (!b && x.mixesCoalesce op) := by
  obtain ⟨hechoes, rfl⟩ := h
  cases hechoes <;> rfl

/-- and from the check on what is raised to a power. -/
theorem Shown.isBareUnary (h : Shown b x y) : Parse.isBareUnary y = (!b && x.isUnary) := by
  obtain ⟨hechoes, rfl⟩ := h
  cases hechoes <;> rfl

/-- No optional chain is read back: formulas have no optional links. -/
theorem Formula.not_optional (hx : Formula x) (h : Echoes x y) : y.isOptionalChain = false := by
  induction hx generalizing y with
  | dotted hbase hn ih =>
    cases h with
    | paren => rfl
    | member hbase => exact (Bool.false_or _).trans (ih hbase)
  | computed hbase hkey ih =>
    cases h with
    | paren => rfl
    | member hbase => exact (Bool.false_or _).trans (ih hbase)
  | call hcallee hargs ih =>
    cases h with
    | paren => rfl
    | call hcallee => exact (Bool.false_or _).trans (ih hcallee)
  | _ => cases h <;> rfl

/-- What can be assigned to can still be assigned to when it is read back. -/
theorem Formula.shown_target (hx : Formula x) (htarget : x.isTarget = true) (h : Shown false x y) :
    y.simpleTarget? = some y ∧ Parse.asPattern y = pure (.target y) := by
  obtain ⟨hechoes, hparen⟩ := h
  have hoptional := hx.not_optional hechoes
  cases hechoes with
  | paren => cases hparen
  | name => exact ⟨rfl, rfl⟩
  | member => exact ⟨if_neg (Bool.eq_false_iff.mp hoptional), rfl⟩
  | _ => cases htarget

end Echoes

end Expr

/-! ## Lexemes -/

/-- A token as it is written. -/
structure Lexeme where
  kind : Kind
  text : String

namespace Lexeme

/-- An operator or another fixed token. -/
def op (k : Kind) : Lexeme :=
  ⟨k, k.describe⟩

/-- A punctuator. -/
abbrev punct (p : Punct) : Lexeme :=
  op (.punct p)

/-- An identifier. -/
def name (text : String) : Lexeme :=
  ⟨.identifier, text⟩

/-- A number. -/
def number (raw : String) : Lexeme :=
  ⟨.number, raw⟩

end Lexeme

/-- Lexemes in parentheses, if these are needed. -/
def wrapped (needed : Bool) (ls : List Lexeme) : List Lexeme :=
  if needed then .punct .leftParen :: ls ++ [.punct .rightParen] else ls

theorem wrapped_true (ls rest : List Lexeme) :
    wrapped true ls ++ rest = .punct .leftParen :: (ls ++ .punct .rightParen :: rest) :=
  congrArg (List.cons _) (List.append_assoc ls [_] rest)

theorem wrapped_false (ls : List Lexeme) : wrapped false ls = ls :=
  rfl

namespace Expr

/-- The tier that is called for to the left of an operator. -/
def leftLeast : Kind → Nat
  | .punct .power => (Kind.punct .power).precedence + 1
  | .punct .comma => Tier.assign
  | op => op.precedence

/-- The tier that is called for to the right of an operator. -/
def rightLeast : Kind → Nat
  | .punct .power => (Kind.punct .power).precedence
  | .punct .comma => Tier.comma
  | op => op.precedence + 1

/-- Whether a left operand is set in parentheses. -/
def apartLeft (op : Kind) (x : Expr) : Bool :=
  x.mixesCoalesce op || (op == .punct .power && x.isUnary) || decide (x.tier < leftLeast op)

/-- Whether a right operand is set in parentheses. -/
def apartRight (op : Kind) (x : Expr) : Bool :=
  x.mixesCoalesce op || decide (x.tier < rightLeast op)

mutual

/-- What a formula is printed as, less the spaces. -/
def lexemes : Expr → List Lexeme
  | .identifier n => [.name n.text]
  | .number _ raw _ => [.number raw]
  | .unary _ op x => .op op :: wrapped (x.tier < Tier.unary) x.lexemes
  | .update _ op x before =>
    if before then .op op :: wrapped (x.tier < Tier.unary) x.lexemes
    else wrapped (x.tier < Tier.call) x.lexemes ++ [.op op]
  | .binary _ op left right =>
    wrapped (left.apartLeft op) left.lexemes ++
      .op op :: wrapped (right.apartRight op) right.lexemes
  | .conditional _ test yes no =>
    wrapped (test.tier < Tier.logicalOr) test.lexemes ++ .punct .question ::
      (wrapped (yes.tier < Tier.assign) yes.lexemes ++
        .punct .colon :: wrapped (no.tier < Tier.assign) no.lexemes)
  | .assign _ op (.target x) value =>
    x.lexemes ++ .op op :: wrapped (value.tier < Tier.assign) value.lexemes
  | .member _ base key computed _ =>
    wrapped ((base.takesPoint && !computed) || decide (base.tier < Tier.call)) base.lexemes ++
      if computed then .punct .leftBracket :: key.lexemes ++ [.punct .rightBracket]
      else .punct .dot :: key.lexemes
  | .call _ callee args _ =>
    wrapped (callee.tier < Tier.call) callee.lexemes ++ .punct .leftParen :: argumentLexemes args ++
      [.punct .rightParen]
  | _ => []

/-- What the arguments of a call are printed as, less the spaces. -/
def argumentLexemes : List Expr → List Lexeme
  | [] => []
  | [x] => wrapped (x.tier < Tier.assign) x.lexemes
  | x :: rest => wrapped (x.tier < Tier.assign) x.lexemes ++ .punct .comma :: argumentLexemes rest

end

section Lexemes

variable {span : Span} {x base key callee test yes no left right value : Expr} {op : Kind}
    {args : List Expr}
  {optional : Bool} {rest : List Lexeme}

/-- The lexemes of a formula, kind by kind, in front of those that follow it. -/
theorem name_lexemes {n : Name} : (identifier n).lexemes = [.name n.text] :=
  rfl

theorem after_lexemes : (update span op x false).lexemes ++ rest =
    wrapped (x.tier < Tier.call) x.lexemes ++ .op op :: rest :=
  List.append_assoc _ _ _

/-- Each operand is wrapped where its operator asks for it. -/
theorem binary_lexemes : (binary span op left right).lexemes ++ rest =
    wrapped (left.apartLeft op) left.lexemes ++
    .op op :: (wrapped (right.apartRight op) right.lexemes ++ rest) :=
  List.append_assoc _ _ _

theorem assign_lexemes : (assign span op (.target x) value).lexemes ++ rest =
    x.lexemes ++ .op op :: (wrapped (value.tier < Tier.assign) value.lexemes ++ rest) :=
  List.append_assoc _ _ _

/-- A number before the point is wrapped, as the point would be read as its own. -/
theorem dotted_lexemes : (member span base key false optional).lexemes ++ rest =
    wrapped (base.takesPoint || decide (base.tier < Tier.call)) base.lexemes ++
    .punct .dot :: (key.lexemes ++ rest) := by
  change wrapped ((base.takesPoint && true) || _) base.lexemes ++ .punct .dot :: key.lexemes ++
    rest = _
  rw [Bool.and_true, List.append_assoc, List.cons_append]

theorem computed_lexemes : (member span base key true optional).lexemes ++ rest =
    wrapped (base.tier < Tier.call) base.lexemes ++
      .punct .leftBracket :: (key.lexemes ++ .punct .rightBracket :: rest) := by
  change wrapped ((base.takesPoint && false) || _) base.lexemes ++
    (.punct .leftBracket :: key.lexemes ++ [.punct .rightBracket]) ++ rest = _
  rw [Bool.and_false, Bool.false_or, List.append_assoc, List.append_assoc]
  rfl

theorem call_lexemes : (call span callee args optional).lexemes ++ rest =
    wrapped (callee.tier < Tier.call) callee.lexemes ++
      .punct .leftParen :: (argumentLexemes args ++ .punct .rightParen :: rest) := by
  change wrapped _ callee.lexemes ++ .punct .leftParen :: argumentLexemes args ++
    [.punct .rightParen] ++ rest = _
  rw [List.append_assoc, List.append_assoc, List.cons_append]
  rfl

theorem conditional_lexemes : (conditional span test yes no).lexemes ++ rest =
    wrapped (test.tier < Tier.logicalOr) test.lexemes ++ .punct .question ::
      (wrapped (yes.tier < Tier.assign) yes.lexemes ++ .punct .colon ::
        (wrapped (no.tier < Tier.assign) no.lexemes ++ rest)) := by
  change wrapped _ test.lexemes ++
    .punct .question :: (wrapped _ yes.lexemes ++ .punct .colon :: wrapped _ no.lexemes) ++ rest = _
  rw [List.append_assoc, List.cons_append, List.append_assoc, List.cons_append]

end Lexemes

end Expr

/-! ## Grips -/

/-- The tier up to which a token of this kind goes on with the expression before it; zero if
with none. -/
def Kind.grip : Kind → Nat
  | .punct .dot | .punct .leftBracket | .punct .leftParen | .punct .optionalDot | .template
  | .templateHead => Tier.call
  | .punct .increment | .punct .decrement => Tier.update
  | .punct .question => Tier.assign
  | k => if k.isAssignment then Tier.assign else k.precedence

/-- The kind of the first token, which is the end of the source if there is no lexeme. -/
def firstKind : List Lexeme → Kind
  | [] => .eof
  | l :: _ => l.kind

/-- What follows grips as the first of it does. -/
theorem firstKind_lt {l : Lexeme} {rest : List Lexeme} {least : Nat} (h : l.kind.grip < least) :
    (firstKind (l :: rest)).grip < least :=
  h

end EcmaStack
