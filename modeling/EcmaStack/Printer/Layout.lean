import EcmaStack.Number.Layout
import EcmaStack.Text.Quoted
import EcmaStack.Tree.Basic

/-!
# The layout of printed source

What the printed form of a tree is put together from: lines and their indentation, lists with
separators, quoted strings, and the tier at which an expression binds, which decides where
parentheses are needed.
-/

namespace EcmaStack

/-! ## Tiers -/

namespace Tier

/-- The tier of a sequence of expressions. -/
abbrev comma : Nat := 1

/-- The tier of assignments, conditionals, arrows and `yield`. -/
abbrev assign : Nat := 2

/-- The loosest tier of a binary operator. -/
abbrev logicalOr : Nat := 3

/-- The tier of operators before their operand. -/
abbrev unary : Nat := 14

/-- The tier of operators after their operand. -/
abbrev update : Nat := 15

/-- The tier of calls and tagged templates. -/
abbrev call : Nat := 17

/-- The tier of member accesses and of `new` with arguments. -/
abbrev member : Nat := 18

/-- The tier of what needs no parentheses anywhere. -/
abbrev primary : Nat := 19

end Tier

/-- The tier at which an expression is printed. -/
def Expr.tier : Expr → Nat
  | .binary _ op _ _ => op.precedence
  | .assign _ _ _ _ | .conditional _ _ _ _ | .arrow _ _ _ _ _ _ | .yield _ _ _ => Tier.assign
  | .unary _ _ _ | .await _ _ => Tier.unary
  | .update _ _ _ before => if before then Tier.unary else Tier.update
  | .call _ _ _ _ | .tagged _ _ _ => Tier.call
  | .construct _ _ _ | .member _ _ _ _ _ | .metaProperty _ _ _ | .importCall _ _ _ => Tier.member
  | _ => Tier.primary

/-- Whether the printed form of an expression, at the start of a statement, would be read as a
declaration or a block. -/
def Expr.startsLikeStatement : Expr → Bool
  | .function _ | .classExpr _ | .object _ _ => true
  | .member _ e _ _ _ | .call _ e _ _ | .tagged _ e _ | .binary _ _ e _ | .conditional _ e _ _ =>
    e.startsLikeStatement
  | .update _ _ e before => !before && e.startsLikeStatement
  | .assign _ _ (.object _ _ _) _ => true
  | .assign _ _ (.target e) _ => e.startsLikeStatement
  | _ => false

/-! ## Lines -/

/-- The start of a new line at a depth of nesting. -/
def newLine (depth : Nat) : String :=
  "\n" ++ String.ofList (List.replicate (4 * depth) ' ')

/-- Lines one level deeper than their surroundings, each after a line break. -/
def indented (depth : Nat) (lines : List String) : String :=
  String.join (lines.map (newLine (depth + 1) ++ ·))

/-- Lines between braces, which stand on one line when there are none. -/
def braced (depth : Nat) (lines : List String) : String :=
  "\x7b" ++ indented depth lines ++ (if lines.isEmpty then "" else newLine depth) ++ "\x7d"

/-! ## Lists and parentheses -/

/-- Texts with a separator after each but the last. A hole always has its separator, and so has
the last text when something else follows. -/
def separated (more : Bool) : List (Option String) → String
  | [] => ""
  | [some s] => if more then s ++ ", " else s
  | x :: rest => x.getD "" ++ ", " ++ separated more rest

/-- Texts with a comma between any two. -/
def listed (texts : List String) : String :=
  ", ".intercalate texts

/-- Texts with a comma after each but the last, for lines of their own. -/
def commaEnded : List String → List String
  | [] => []
  | [s] => [s]
  | s :: rest => (s ++ ",") :: commaEnded rest

/-- A text between parentheses, or as it is. -/
def parenthesizedIf (needed : Bool) (text : String) : String :=
  if needed then "(" ++ text ++ ")" else text

/-- The printed form of an expression where at least a tier is called for. -/
def Expr.atTier (e : Expr) (least : Nat) (text : String) : String :=
  parenthesizedIf (e.tier < least) text

/-- Texts of a template with the printed expressions between them. -/
def woven : List TemplateElement → List String → String
  | [], _ => ""
  | q :: quasis, [] => q.raw.toString ++ woven quasis []
  | q :: quasis, e :: rest => q.raw.toString ++ "$\x7b" ++ e ++ "\x7d" ++ woven quasis rest

/-! ## Operators -/

/-- Whether an operator is a sign or doubles it. -/
def Kind.isPlus : Kind → Bool
  | .punct .plus | .punct .increment => true
  | _ => false

/-- Whether an operator is the minus sign or doubles it. -/
def Kind.isMinus : Kind → Bool
  | .punct .minus | .punct .decrement => true
  | _ => false

/-- Whether two operators printed one after the other would run together into another one. -/
def Kind.fusesWith (outer inner : Kind) : Bool :=
  outer.isPlus && inner.isPlus || outer.isMinus && inner.isMinus

/-- Whether an expression starts with an operator that would run together with one before it. -/
def Expr.fusesAfter (op : Kind) : Expr → Bool
  | .unary _ inner _ => op.fusesWith inner
  | .update _ inner _ before => before && op.fusesWith inner
  | _ => false

/-- Whether an operator is one of the two plain logical operators. -/
def Kind.isLogical : Kind → Bool
  | .punct .logicalAnd | .punct .logicalOr => true
  | _ => false

/-- Whether an operand must be set apart because it mixes `??` with another logical operator. -/
def Expr.mixesCoalesce (op : Kind) : Expr → Bool
  | .binary _ inner _ _ =>
    (op == .punct .coalesce && inner.isLogical) || (op.isLogical && inner == .punct .coalesce)
  | _ => false

/-- Whether an expression is an operator before its operand, which may not stand to the left of
`**`. -/
def Expr.isUnary : Expr → Bool
  | .unary _ _ _ | .await _ _ => true
  | _ => false

/-- The printed form of a left operand. -/
def Expr.asLeft (e : Expr) (op : Kind) (text : String) : String :=
  if e.mixesCoalesce op || (op == .punct .power && e.isUnary) then parenthesizedIf true text
  else match op with
    | .punct .power => e.atTier (op.precedence + 1) text
    | .punct .comma => e.atTier Tier.assign text
    | _ => e.atTier op.precedence text

/-- The printed form of a right operand. -/
def Expr.asRight (e : Expr) (op : Kind) (text : String) : String :=
  if e.mixesCoalesce op then parenthesizedIf true text
  else match op with
    | .punct .power => e.atTier op.precedence text
    | .punct .comma => e.atTier Tier.comma text
    | _ => e.atTier (op.precedence + 1) text

/-- An operator with the space around it. -/
def Kind.spaced (op : Kind) : String :=
  if op == .punct .comma then ", " else " " ++ op.describe ++ " "

/-! ## Literals -/

/-- One character of a quoted string. -/
def quoteChar (c : Char) : List Char :=
  match c with
  | '\x22' => ['\\', '\x22']
  | '\\' => ['\\', '\\']
  | '\n' => ['\\', 'n']
  | '\r' => ['\\', 'r']
  | '\t' => ['\\', 't']
  | '\u2028' => '\\' :: 'u' :: Text.hexDigits 4 0x2028
  | '\u2029' => '\\' :: 'u' :: Text.hexDigits 4 0x2029
  | c => if c.toNat < 0x20 then '\\' :: 'x' :: Text.hexDigits 2 c.toNat else [c]

/-- A string literal with the given value. -/
def quoteString (s : String) : String :=
  String.ofList ('\x22' :: s.toList.flatMap quoteChar ++ ['\x22'])

/-- A literal as it was written, or the text that stands in for one that was not. -/
def rawOr (raw : String) (text : String) : String :=
  if raw.isEmpty then text else raw

/-- A string literal. -/
def StringLiteral.print (l : StringLiteral) : String :=
  rawOr l.raw.toString (quoteString l.value.toString)

/-- A number literal. -/
def printNumber (raw : String) (value : Binary64) : String :=
  rawOr raw (NumberLayout.listing.write value)

/-- Whether an expression is a number after which a point would be read as part of it. -/
def Expr.takesPoint : Expr → Bool
  | .number _ raw value => !(printNumber raw value).toList.any (".eExXoObBn".toList.contains ·)
  | _ => false

end EcmaStack
