import EcmaStack.Proofs.Evaluation.Meaning
import EcmaStack.Proofs.Machine.Runs

/-!
# The machine that evaluates

The machine as far as basic expressions need it: it moves values on its stack, does actions and
writes down which, and jumps. What an operation does is read off the table of operations and
owes nothing to how code is made; in particular it has its own idea of which operator an
operation stands for.
-/

namespace EcmaStack

/-- The stack, its top first, and what was done. -/
structure Memory (V : Type) where
  stack : List V
  trace : List (Action V)

/-- The memory once a value has been evaluated and pushed. -/
def Memory.push {V : Type} (m : Memory V) (x : Evaluation V V) : Memory V :=
  ⟨(x m.trace).1 :: m.stack, (x m.trace).2⟩

/-- The machine inside a piece of code. -/
structure Machine (V : Type) where
  pc : Nat
  memory : Memory V

namespace Opcode

variable {V : Type}

/-- The operator of two operands that an operation stands for. -/
def binaryOperator? : Opcode → Option Kind
  | .equal => some (.punct .equal)
  | .notEqual => some (.punct .notEqual)
  | .strictEqual => some (.punct .strictEqual)
  | .strictNotEqual => some (.punct .strictNotEqual)
  | .less => some (.punct .less)
  | .lessEqual => some (.punct .lessEqual)
  | .greater => some (.punct .greater)
  | .greaterEqual => some (.punct .greaterEqual)
  | .add => some (.punct .plus)
  | .sub => some (.punct .minus)
  | .mul => some (.punct .star)
  | .div => some (.punct .slash)
  | .mod => some (.punct .percent)
  | .pow => some (.punct .power)
  | .bitAnd => some (.punct .ampersand)
  | .bitOr => some (.punct .bar)
  | .bitXor => some (.punct .caret)
  | .shl => some (.punct .shiftLeft)
  | .shr => some (.punct .shiftRight)
  | .ushr => some (.punct .shiftRightZero)
  | .isIn => some (.keyword .inWord)
  | .instanceOf => some (.keyword .instanceofWord)
  | _ => none

/-- The operator of one operand that an operation stands for. -/
def unaryOperator? : Opcode → Option Kind
  | .typeOf => some (.keyword .typeofWord)
  | .void => some (.keyword .voidWord)
  | .plus => some (.punct .plus)
  | .negate => some (.punct .minus)
  | .bitNot => some (.punct .tilde)
  | .logicalNot => some (.punct .bang)
  | _ => none

/-- The constant that an operation pushes. -/
def constant? : Opcode → List (Operand Nat) → Option Constant
  | .pushNull, [] => some .null
  | .pushTrue, [] => some (.boolean true)
  | .pushFalse, [] => some (.boolean false)
  | .pushNan, [] => some .nan
  | .pushInfinity, [] => some (.ofNumber (.infinity false))
  | .pushNumber, [.number x] => some (.ofNumber x)
  | .pushString, [.text bytes] => some (.text bytes)
  | _, _ => none

/-- What an operation moves on the stack. -/
def move? : Opcode → List (Operand Nat) → List V → Option (List V)
  | .pop, [], _ :: below => some below
  | .pushValue, [.integer n], stack =>
    if 1 ≤ n.toInt then stack[n.toInt.toNat - 1]?.map (· :: stack) else none
  | .insert, [.integer n], v :: below =>
    if 0 ≤ n.toInt ∧ n.toInt.toNat ≤ below.length then
      some (below.take n.toInt.toNat ++ v :: below.drop n.toInt.toNat)
    else none
  | _, _, _ => none

/-- The action by which an operation stores the value on top, and the stack afterwards. -/
def store? : Opcode → List (Operand Nat) → List V → Option (Action V × List V)
  | .store, [.text name], v :: below => some (.store name v, v :: below)
  | .setSuperField, [], v :: key :: below => some (.setSuperField key v, v :: below)
  | .setField, [], v :: key :: object :: below => some (.setField object key v, v :: below)
  | .setPrivateField, [], v :: key :: object :: below =>
    some (.setPrivateField object key v, v :: below)
  | _, _, _ => none

/-- The action whose answer an operation pushes, and the stack below it. -/
def answer? : Opcode → List (Operand Nat) → List V → Option (Action V × List V)
  | .pushThis, [], stack => some (.this, stack)
  | .load, [.text name], stack => some (.load name, stack)
  | .getSuperField, [], key :: below => some (.getSuperField key, below)
  | .getField, [], key :: object :: below => some (.getField object key, below)
  | .getPrivateField, [], key :: object :: below => some (.getPrivateField object key, below)
  | .concat, [], v :: text :: below => some (.concat text v, below)
  | .inc, [], v :: below => some (.step true v, below)
  | .dec, [], v :: below => some (.step false v, below)
  | op, [], v :: below =>
    match op.unaryOperator?, op.binaryOperator?, below with
    | some k, _, _ => some (.unary k v, below)
    | none, some k, left :: below => some (.binary k left v, below)
    | _, _, _ => none
  | _, _, _ => none

/-- Which way an operation changes the number on top while the number stays. -/
def defer? : Opcode → List (Operand Nat) → Option Bool
  | .deferInc, [] => some true
  | .deferDec, [] => some false
  | _, _ => none

/-- What an operation that does not jump does. -/
def operate (w : World V) (op : Opcode) (operands : List (Operand Nat)) (m : Memory V) :
    Option (Memory V) :=
  match op.constant? operands, op.move? operands m.stack, op.store? operands m.stack,
    op.answer? operands m.stack,
    op.defer? operands, m.stack with
  | some c, _, _, _, _, stack => some { m with stack := w.constant c :: stack }
  | none, some stack, _, _, _, _ => some { m with stack }
  | none, none, some (a, stack), _, _, _ => some ⟨stack, m.trace ++ [a]⟩
  | none, none, none, some (a, stack), _, _ =>
    let (v, trace) := w.ask a m.trace
    some ⟨v :: stack, trace⟩
  | none, none, none, none, some up, v :: below =>
    let (old, trace) := w.ask (.numeric v) m.trace
    let (changed, trace) := w.ask (.step up old) trace
    some ⟨old :: changed :: below, trace⟩
  | _, _, _, _, _, _ => none

/-- Whether an operation jumps for a value on top of the stack. -/
def jumps? (w : World V) : Opcode → Option (V → Bool)
  | .jumpFalse => some fun v => !w.truthy v
  | .jumpTrue => some w.truthy
  | .jumpNotNull => some fun v => !w.nullish v
  | _ => none

end Opcode

section

variable {V : Type} (w : World V)

/-- Execute an instruction. -/
def Instr.evaluate (i : Instr Nat) (m : Machine V) : Option (Machine V) :=
  match i.operands, m.memory.stack with
  | [.address a], stack =>
    match i.op, i.op.jumps? w, stack with
    | .jump, _, _ => some { m with pc := a }
    | _, some test, v :: _ => some { m with pc := if test v then a else m.pc + i.size }
    | _, _, _ => none
  | operands, _ => (i.op.operate w operands m.memory).map fun memory => ⟨m.pc + i.size, memory⟩

namespace Machine

/-- One step in a piece of code; `none` behind it, or where the machine goes wrong. -/
def step (c : Code) (m : Machine V) : Option (Machine V) :=
  (Run.itemAt m.pc c).bind fun i => (i.settle id m.pc).evaluate w m

/-- The machine gets from one place to another. -/
abbrev Reaches (c : Code) (m m' : Machine V) : Prop :=
  Run.Reaches (step w c) m m'

end Machine

end

end EcmaStack
