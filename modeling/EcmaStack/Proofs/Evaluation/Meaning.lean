import EcmaStack.Grammar.Operators
import EcmaStack.Lowering.Access
import EcmaStack.Text.Piece

/-!
# What expressions mean

The meaning of expressions by their structure, without a machine: operands are evaluated from
left to right, and each thing that is done with a value is an **action**. What an action answers
is left open: a **world** may answer by all that was done before, which is the trace. So two
ways to evaluate an expression agree if they come to the same value and the same trace, whatever
the world.

The expressions are those made of names, literals, operators, members and assignments to names
and members (`Expr.isBasic`). Operators stand for themselves: what `+` does is the action of the
token `+`, and `+=` does it because that is how it is spelled.
-/

namespace EcmaStack

/-- A value that is written in the source. -/
inductive Constant where
  | null
  | boolean (b : Bool)
  | nan
  | number (x : Binary64)
  | text (bytes : List UInt8)
  deriving DecidableEq

/-- The value of a number. There is only one value that is no number. -/
def Constant.ofNumber (x : Binary64) : Constant :=
  if x.isNaN then .nan else .number x

/-- What is done with values. -/
inductive Action (V : Type) where
  | this
  | load (name : List UInt8)
  | store (name : List UInt8) (v : V)
  | getField (object key : V)
  | setField (object key v : V)
  | getPrivateField (object key : V)
  | setPrivateField (object key v : V)
  | getSuperField (key : V)
  | setSuperField (key v : V)
  | unary (op : Kind) (v : V)
  | binary (op : Kind) (left right : V)
  | concat (text v : V)
  | numeric (v : V)
  | step (up : Bool) (v : V)

/-- Which value is a constant, what an action answers when it is the last of all that was done,
and what can be asked of a value. -/
structure World (V : Type) where
  constant : Constant → V
  answer : List (Action V) → V
  truthy : V → Bool
  nullish : V → Bool

/-- An evaluation, which adds to what was done before. -/
abbrev Evaluation (V α : Type) := StateM (List (Action V)) α

/-- Where a value is stored: a variable, or a member once its object and key have been evaluated. -/
inductive Location (V : Type) where
  | binding (name : List UInt8)
  | superField (key : V)
  | field (object key : V)
  | privateField (object key : V)

section

variable {V : Type} (w : World V)

/-- Do something. -/
def Action.perform (a : Action V) : Evaluation V PUnit :=
  modify (· ++ [a])

namespace World

/-- A text as a value. -/
def text (s : Text) : V :=
  w.constant (.text s.encode)

/-- Do something and take the answer. -/
def ask (a : Action V) : Evaluation V V := do
  a.perform
  return w.answer (← get)

/-- For a logical operator, whether a value on its left is the result, so that its right operand
is not evaluated. -/
def decided : Kind → Option (V → Bool)
  | .punct .logicalAnd => some fun v => !w.truthy v
  | .punct .logicalOr => some w.truthy
  | .punct .coalesce => some fun v => !w.nullish v
  | _ => none

end World

namespace Location

/-- Read what is stored. -/
def read : Location V → Evaluation V V
  | binding name => w.ask (.load name)
  | superField key => w.ask (.getSuperField key)
  | field object key => w.ask (.getField object key)
  | privateField object key => w.ask (.getPrivateField object key)

/-- Store a value. -/
def write (v : V) : Location V → Evaluation V PUnit
  | binding name => (Action.store name v).perform
  | superField key => (Action.setSuperField key v).perform
  | field object key => (Action.setField object key v).perform
  | privateField object key => (Action.setPrivateField object key v).perform

/-- Where a member is stored: the object is evaluated before the key. `super` is no object of
its own. -/
def ofMember (base property : Expr) (computed : Bool) (object key : Evaluation V V) :
    Evaluation V (Location V) := do
  let key := if computed then key else return w.text (property.keyText?.getD [])
  if base.isSuper then return superField (← key)
  let object ← object
  let key ← key
  return if property.isPrivateKey computed then privateField object key else field object key

end Location

end

/-- The operator of a compound assignment: what is left of its spelling without the sign of
assignment. -/
def Kind.compounded : Kind → Kind
  | .punct p => .punct ((Punct.all.find? fun q => q.spelling ++ "=" == p.spelling).getD p)
  | k => k

/-- Whether a property that is not computed is a name. -/
def Expr.isMemberName : Expr → Bool
  | .identifier _ | .privateName _ => true
  | _ => false

mutual

/-- Whether an expression is made of names, literals, operators, members and assignments to
names and members. -/
def Expr.isBasic : Expr → Bool
  | .identifier _ | .nullLiteral _ | .boolean _ _ | .number _ _ _ | .string _ | .thisRef _ => true
  | .template t => t.isBasic
  | .paren _ e => e.isBasic
  | .member _ base property computed optional =>
    !optional && (base.isSuper || base.isBasic) &&
      (if computed then property.isBasic else property.isMemberName)
  | .unary _ op e => Parse.isUnaryOperator op && op != .keyword .deleteWord && e.isBasic
  | .binary _ op left right =>
    (op == .punct .comma || op.binaryPrecedence != 0) && left.isBasic && right.isBasic
  | .conditional _ test consequent alternate =>
    test.isBasic && consequent.isBasic && alternate.isBasic
  | .assign _ op (.target e) value =>
    op.isAssignment && e.isBasic && e.simpleTarget?.isSome && value.isBasic
  | .update _ op e _ => Parse.isUpdateOperator op && e.isBasic && e.simpleTarget?.isSome
  | _ => false

/-- Whether a template has a text before, between and after basic expressions. -/
def Template.isBasic : Template → Bool
  | ⟨_, quasis, expressions⟩ => quasis.length == expressions.length + 1 && Expr.allBasic expressions

/-- Whether all of several expressions are basic. -/
def Expr.allBasic : List Expr → Bool
  | [] => true
  | e :: rest => e.isBasic && Expr.allBasic rest

end

mutual

/-- The value of a basic expression. -/
def Expr.evaluate {V : Type} (w : World V) : Expr → Evaluation V V
  | .identifier n => w.ask (.load (utf8Bytes n.text))
  | .nullLiteral _ => return w.constant .null
  | .boolean _ b => return w.constant (.boolean b)
  | .number _ _ x => return w.constant (.ofNumber x)
  | .string l => return w.text l.value
  | .thisRef _ => w.ask .this
  | .template ⟨_, first :: quasis, expressions⟩ =>
    Expr.evaluateJoined w (w.text first.cooked) quasis expressions
  | .paren _ e => e.evaluate w
  | .member _ base property computed _ => do
    let location ← Location.ofMember w base property computed (base.evaluate w)
      (property.evaluate w)
    location.read w
  | .unary _ op e => do
    let v ← e.evaluate w
    w.ask (.unary op v)
  | .binary _ op left right =>
    if op == .punct .comma then do
      let _ ← left.evaluate w
      right.evaluate w
    else match w.decided op with
      | some decided => do
        let v ← left.evaluate w
        if decided v then return v else right.evaluate w
      | none => do
        let a ← left.evaluate w
        let b ← right.evaluate w
        w.ask (.binary op a b)
  | .conditional _ test consequent alternate => do
    let v ← test.evaluate w
    if w.truthy v then consequent.evaluate w else alternate.evaluate w
  | .assign _ op (.target e) value => do
    let location ← e.locate w
    if op == .punct .assign then
      let v ← value.evaluate w
      location.write v
      return v
    else
      let old ← location.read w
      match w.decided op.compounded with
      | some decided =>
        if decided old then return old
        let v ← value.evaluate w
        location.write v
        return v
      | none =>
        let v ← value.evaluate w
        let result ← w.ask (.binary op.compounded old v)
        location.write result
        return result
  | .update _ op e before => do
    let location ← e.locate w
    let old ← location.read w
    if before then
      let changed ← w.ask (.step (op == .punct .increment) old)
      location.write changed
      return changed
    else
      let old ← w.ask (.numeric old)
      let changed ← w.ask (.step (op == .punct .increment) old)
      location.write changed
      return old
  | _ => return w.constant .null

/-- Where an expression is stored. -/
def Expr.locate {V : Type} (w : World V) : Expr → Evaluation V (Location V)
  | .identifier n => return .binding (utf8Bytes n.text)
  | .paren _ e => e.locate w
  | .member _ base property computed _ =>
    Location.ofMember w base property computed (base.evaluate w) (property.evaluate w)
  | _ => return .binding []

/-- A text to which expressions are joined, and after each the text that follows it. -/
def Expr.evaluateJoined {V : Type} (w : World V) (text : V) :
    List TemplateElement → List Expr → Evaluation V V
  | q :: quasis, e :: rest => do
    let v ← e.evaluate w
    let text ← w.ask (.concat text v)
    let text ← w.ask (.concat text (w.text q.cooked))
    Expr.evaluateJoined w text quasis rest
  | _, _ => return text

end

end EcmaStack
