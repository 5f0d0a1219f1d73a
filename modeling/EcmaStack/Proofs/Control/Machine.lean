import EcmaStack.Lowering.Tree
import EcmaStack.Proofs.Machine.Runs

/-!
# The machine, with evaluation left open

The machine that runs the control flow of emitted code. Code is cut into single instructions,
which the machine executes, and the code of whole expressions, which it does not look into:
there an **oracle** is asked for the value, and control goes on behind the code of the
expression. The oracle may answer by everything that was evaluated before, which is the trace
the machine keeps.

A frame records how deep the stack and the scopes were when it was opened. `BREAK` and
`CONTINUE` go back to that depth and to the address of the innermost frame of their kind and
label, which stays open.
-/

namespace EcmaStack

/-- What is evaluated in one piece: an expression for its value, or the head of a counted loop. -/
inductive Site where
  | value (e : Expr)
  | start (n : Node)

/-- The code of what is evaluated. -/
def Site.lower (s : CodeSite) : Site → Lowering
  | .value e => e.lower s .value
  | .start n => Node.lowerStart s (some n)

/-- Code that is cut into instructions and the code of what is evaluated. -/
abbrev Skeleton := Segments Site

/-- Whatever is evaluated has its own code. -/
abbrev Skeleton.Faithful (s : CodeSite) (sk : Skeleton) : Prop :=
  Segments.Faithful (Site.lower s) sk

/-! ## Values -/

/-- What evaluation answers, and what the machine can ask of values: whether a value counts as
true, and whether two are strictly equal. -/
structure Oracle (V : Type) where
  answer : List Site → V
  truthy : V → Bool
  same : V → V → Bool

/-- A value on the stack. -/
inductive Slot (V : Type) where
  | value (v : V)
  | boolean (b : Bool)
  | undefined
  | uninitialized

/-- Whether a value on the stack counts as true. -/
def Slot.truthy {V : Type} (o : Oracle V) : Slot V → Bool
  | .value v => o.truthy v
  | .boolean b => b
  | .undefined | .uninitialized => false

/-! ## Steps -/

/-- The machine inside one function, and what has been evaluated so far. -/
structure Config (V : Type) where
  pc : Nat
  stack : List (Slot V)
  scopes : Nat
  frames : List Frame
  trace : List Site

/-- The machine runs, or it has returned. -/
inductive State (V : Type) where
  | running (m : Config V)
  | returned (value : Slot V) (trace : List Site)

/-- What has been evaluated. -/
def State.trace {V : Type} : State V → List Site
  | .running m => m.trace
  | .returned _ trace => trace

variable {V : Type}

/-- Go back to a frame, which stays open. -/
def Config.unwind (m : Config V) (kind : FrameKind) (label : List UInt8) : Option (State V) :=
  match StackShape.caught kind label m.frames with
  | some (f, outer) =>
    if f.depth ≤ m.stack.length ∧ f.scopes ≤ m.scopes then
      some (.running { m with
        pc := f.address
        stack := m.stack.drop (m.stack.length - f.depth)
        scopes := f.scopes
        frames := f :: outer })
    else none
  | none => none

/-- Open a frame that leads to an address, and go on. -/
def Config.openFrame (m : Config V) (kind : FrameKind) (label : List UInt8) (address : Nat) :
    Config V :=
  { m with frames := ⟨kind, label, address, m.stack.length, m.scopes⟩ :: m.frames }

/-- Execute an instruction of the control flow. -/
def Instr.execute (o : Oracle V) (i : Instr Nat) (m : Config V) : Option (State V) :=
  let next : Config V := { m with pc := m.pc + i.size }
  match i.op, i.operands with
  | .pushScope, [] => some (.running { next with scopes := m.scopes + 1 })
  | .popScope, [] =>
    if 0 < m.scopes then some (.running { next with scopes := m.scopes - 1 }) else none
  | .pop, [] | .define, [.text _] =>
    match m.stack with
    | _ :: rest => some (.running { next with stack := rest })
    | [] => none
  | .save, [] | .setConst, [] | .setUsing, [] | .setAwaitUsing, [] =>
    match m.stack with
    | _ :: _ => some (.running next)
    | [] => none
  | .pushUndefined, [] => some (.running { next with stack := .undefined :: m.stack })
  | .pushUninitialized, [] => some (.running { next with stack := .uninitialized :: m.stack })
  | .pushValue, [.integer n] =>
    match (if 1 ≤ n.toInt then m.stack[n.toInt.toNat - 1]? else none) with
    | some v => some (.running { next with stack := v :: m.stack })
    | none => none
  | .strictEqual, [] =>
    match m.stack with
    | .value w :: .value v :: rest =>
      some (.running { next with stack := .boolean (o.same v w) :: rest })
    | _ => none
  | .jump, [.address a] => some (.running { m with pc := a })
  | .jumpFalse, [.address a] =>
    match m.stack with
    | v :: _ => some (.running { m with pc := if v.truthy o then m.pc + i.size else a })
    | [] => none
  | .pushBreakLabel, [.text label, .address a] => some (.running (next.openFrame .forBreak label a))
  | .pushContinueLabel, [.text label, .address a] =>
    some (.running (next.openFrame .forContinue label a))
  | .popLabel, [] =>
    match m.frames with
    | _ :: outer => some (.running { next with frames := outer })
    | [] => none
  | .breakOff, [.text label] => m.unwind .forBreak label
  | .carryOn, [.text label] => m.unwind .forContinue label
  | .giveBack, [] =>
    match m.stack with
    | v :: _ => some (.returned v m.trace)
    | [] => none
  | _, _ => none

/-- The machine after an evaluation whose code takes so many bytes. -/
def Config.evaluate (o : Oracle V) (m : Config V) (x : Site) (bytes : Nat) : Config V :=
  let trace := m.trace ++ [x]
  match x with
  | .value _ => { m with pc := m.pc + bytes, trace, stack := .value (o.answer trace) :: m.stack }
  | .start _ => { m with pc := m.pc + bytes, trace }

/-- One step of the machine in code; `none` when it has returned, is behind the code, or goes
wrong. -/
def State.step (o : Oracle V) (sk : Skeleton) : State V → Option (State V)
  | .running m =>
    match Run.itemAt m.pc sk with
    | some (.instr i) => (i.settle id m.pc).execute o m
    | some (.whole x c _) => some (.running (m.evaluate o x c.size))
    | none => none
  | .returned _ _ => none

end EcmaStack
