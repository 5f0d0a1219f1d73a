import EcmaStack.Proofs.Control.Machine
import EcmaStack.Proofs.Tree.Resolved

/-!
# What control flow means

The meaning of statements by their structure, without a machine: a statement evaluates
expressions one after the other and completes in one of a few ways. A loop goes on when its body
completes with a `continue` for it, and a labelled statement ends when its body completes with a
`break` for its label. Values come from the same oracle that the machine asks.

Loops may run forever, so a meaning is given up to a number of turns, after which a statement
counts as exhausted. What it has evaluated by then is a prefix of what it evaluates with more.
-/

namespace EcmaStack

/-- How a statement completes. The empty label stands for none. -/
inductive Completion (V : Type) where
  | normal
  | leave (kind : FrameKind) (label : String)
  | giveBack (value : Slot V)
  | exhausted

/-- What has been evaluated, and how a statement completes. -/
abbrev Course (V : Type) := List Site × Completion V

namespace Course

variable {V : Type}

/-- What comes after a normal completion. -/
def andThen (c : Course V) (next : List Site → Course V) : Course V :=
  match c with
  | (trace, .normal) => next trace
  | other => other

/-- The end of a statement that labels lead to. -/
def catching (kind : FrameKind) (labels : List String) (c : Course V) : Course V :=
  match c with
  | (trace, .leave k label) =>
    if k = kind ∧ label ∈ labels then (trace, .normal) else (trace, .leave k label)
  | other => other

end Course

section

variable {V : Type} (o : Oracle V)

/-- Evaluate an expression and use its value. -/
def evaluating (e : Expr) (trace : List Site) (use : V → List Site → Course V) : Course V :=
  let trace := trace ++ [.value e]
  use (o.answer trace) trace

/-- Evaluate an expression that need not be there. -/
def evaluatingAny (e : Option Expr) (trace : List Site) : List Site :=
  match e with
  | some e => trace ++ [.value e]
  | none => trace

/-- Go on if the value of an expression counts as true. -/
def testing (test : Option Expr) (trace : List Site) (yes : List Site → Course V) : Course V :=
  match test with
  | some e => evaluating o e trace fun v trace => if o.truthy v then yes trace else (trace, .normal)
  | none => yes trace

/-- Turns of a loop, one after the other. Each comes with the number of turns that are left. -/
def loopTurns (turn : Nat → List Site → (List Site → Course V) → Course V) :
    Nat → List Site → Course V
  | 0, trace => (trace, .exhausted)
  | fuel + 1, trace => turn (fuel + 1) trace (loopTurns turn fuel)

/-- Whether anything is evaluated at the head of a counted loop: a `var` without a value is only
declared. -/
def Node.evaluates : Node → Bool
  | .expr _ => true
  | .stmt (.declaration ⟨_, kind, list⟩) => list.any fun d => d.initializer.isSome || kind != .var
  | _ => false

/-- What is evaluated at the head of a counted loop. -/
def evaluatingHead (init : Option Node) (trace : List Site) : List Site :=
  match init with
  | some n => if n.evaluates then trace ++ [.start n] else trace
  | none => trace

/-- Which clause has a test that is strictly equal to a value. Tests are evaluated up to that
one. -/
def selectClause (v : V) : List CaseClause → List Site → List Site × Option Nat
  | [], trace => (trace, none)
  | c :: rest, trace =>
    match c.test with
    | some e =>
      let trace := trace ++ [.value e]
      if o.same v (o.answer trace) then (trace, some 0)
      else (selectClause v rest trace).map id (·.map (· + 1))
    | none => (selectClause v rest trace).map id (·.map (· + 1))

/-- The first clause that runs for a value: the one it selects, or else the default, or else
none. -/
def firstClause (v : V) (cases : List CaseClause) (trace : List Site) : List Site × Nat :=
  (selectClause o v cases trace).map id fun selected =>
    selected.getD (cases.findIdx fun c => c.test.isNone)

/-- Several parts, each of which goes on into the next. -/
def inTurn : List (List Site → Course V) → List Site → Course V
  | [], trace => (trace, .normal)
  | first :: rest, trace => (first trace).andThen (inTurn rest)

end

mutual

/-- The course of a statement with labels on it, in so many turns of a loop. -/
def Stmt.run {V : Type} (o : Oracle V) (fuel : Nat) (labels : List String) :
    Stmt → List Site → Course V
  | .expression _ e, trace => (trace ++ [.value e], .normal)
  | .block b, trace => Block.run o fuel b trace
  | .giveBack _ argument, trace =>
    match argument with
    | some e => evaluating o e trace fun v trace => (trace, .giveBack (.value v))
    | none => (trace, .giveBack .undefined)
  | .labelled _ label body, trace =>
    (body.run o fuel (labels ++ [nameText label]) trace).catching .forBreak [nameText label]
  | .breakOff _ label, trace => (trace, .leave .forBreak (nameText label))
  | .carryOn _ label, trace => (trace, .leave .forContinue (nameText label))
  | .branch _ test consequent alternate, trace =>
    evaluating o test trace fun v trace =>
      if o.truthy v then consequent.run o fuel [] trace else Stmt.runOption o fuel alternate trace
  | .switch _ discriminant cases _, trace =>
    evaluating o discriminant trace fun v trace =>
      let (trace, first) := firstClause o v cases trace
      (inTurn ((CaseClause.courses o fuel cases).drop first) trace).catching .forBreak [""]
  | .whileLoop _ test body, trace =>
    (loopTurns (fun fuel trace next =>
      testing o (some test) trace fun trace =>
        ((body.run o fuel [] trace).catching .forContinue (labels ++ [""])).andThen next) fuel
        trace).catching
      .forBreak [""]
  | .doWhile _ body test, trace =>
    (loopTurns (fun fuel trace next =>
      ((body.run o fuel [] trace).catching .forContinue (labels ++ [""])).andThen fun trace =>
        testing o (some test) trace next) fuel trace).catching .forBreak [""]
  | .forLoop _ init test update body _, trace =>
    (loopTurns (fun fuel trace next =>
      testing o test trace fun trace =>
        ((body.run o fuel [] trace).catching .forContinue (labels ++ [""])).andThen fun trace =>
          next (evaluatingAny update trace)) fuel (evaluatingHead init trace)).catching
          .forBreak [""]
  | _, trace => (trace, .normal)

/-- The course of a block. -/
def Block.run {V : Type} (o : Oracle V) (fuel : Nat) : Block → List Site → Course V
  | ⟨_, body, _⟩, trace => Stmt.runList o fuel body trace

/-- The course of a statement that may be missing. -/
def Stmt.runOption {V : Type} (o : Oracle V) (fuel : Nat) : Option Stmt → List Site → Course V
  | none, trace => (trace, .normal)
  | some stmt, trace => stmt.run o fuel [] trace

/-- The course of statements one after the other. -/
def Stmt.runList {V : Type} (o : Oracle V) (fuel : Nat) : List Stmt → List Site → Course V
  | [], trace => (trace, .normal)
  | stmt :: rest, trace => (stmt.run o fuel [] trace).andThen (Stmt.runList o fuel rest)

/-- The courses of the clauses of a switch. -/
def CaseClause.courses {V : Type} (o : Oracle V) (fuel : Nat) :
    List CaseClause → List (List Site → Course V)
  | [] => []
  | ⟨_, _, consequent⟩ :: rest => Stmt.runList o fuel consequent :: CaseClause.courses o fuel rest

end

/-! ## Where courses leave

A course that is put together from parts leaves where one of its parts leaves, unless a label
around it catches that. -/

/-- If the course leaves a statement, then in one of these ways. -/
def Course.LeavesBy {V : Type} (P : FrameKind → String → Prop) (c : Course V) : Prop :=
  ∀ kind label, c.2 = .leave kind label → P kind label

namespace Course.LeavesBy

variable {V : Type} {o : Oracle V} {P Q : FrameKind → String → Prop} {c : Course V}
    {trace : List Site}

/-- What leaves by fewer ways leaves by more. -/
theorem mono (h : c.LeavesBy P) (hPQ : ∀ kind label, P kind label → Q kind label) : c.LeavesBy Q :=
  fun kind label hc => hPQ kind label (h kind label hc)

/-- A course that does not leave leaves by any ways: -/
theorem normal : LeavesBy (V := V) P (trace, .normal) :=
  fun _ _ h => nomatch h

theorem giveBack {v : Slot V} : LeavesBy P (trace, .giveBack v) :=
  fun _ _ h => nomatch h

theorem exhausted : LeavesBy (V := V) P (trace, .exhausted) :=
  fun _ _ h => nomatch h

theorem leave {kind : FrameKind} {label : String} (h : P kind label) :
    LeavesBy (V := V) P (trace, .leave kind label) := by
  rintro _ _ ⟨⟩
  exact h

/-- nor do two of them do what neither does. -/
theorem andThen {next : List Site → Course V} (h : c.LeavesBy P)
    (hnext : ∀ trace, (next trace).LeavesBy P) :
    (c.andThen next).LeavesBy P := by
  obtain ⟨trace, completion⟩ := c
  cases completion with
  | normal => exact hnext trace
  | _ => exact h

/-- A label that catches is not left by. -/
theorem catching {kind : FrameKind} {labels : List String} (h : c.LeavesBy P) :
    (c.catching kind labels).LeavesBy fun k label => P k label ∧ ¬(k = kind ∧ label ∈ labels) := by
  obtain ⟨trace, completion⟩ := c
  cases completion with
  | normal => exact .normal
  | giveBack v => exact .giveBack
  | exhausted => exact .exhausted
  | leave k label =>
    rw [Course.catching]
    split
    · exact .normal
    · next hother => exact .leave ⟨h _ _ rfl, hother⟩

/-- A test leaves by nothing of its own. -/
theorem testing {test : Option Expr} {yes : List Site → Course V}
    (h : ∀ trace, (yes trace).LeavesBy P) :
    (EcmaStack.testing o test trace yes).LeavesBy P := by
  cases test with
  | none => exact h trace
  | some e =>
    rw [EcmaStack.testing, evaluating]
    split
    · exact h _
    · exact .normal

/-- A loop leaves as its turns do, by induction on their number. -/
theorem loopTurns {turn : Nat → List Site → (List Site → Course V) → Course V}
    (h : ∀ fuel trace next, (∀ trace, Course.LeavesBy P (next trace)) →
      (turn fuel trace next).LeavesBy P) (fuel : Nat) :
    (EcmaStack.loopTurns turn fuel trace).LeavesBy P := by
  induction fuel generalizing trace with
  | zero => exact .exhausted
  | succ fuel ih => exact h _ _ _ fun trace => ih

theorem inTurn {parts : List (List Site → Course V)}
    (h : ∀ part ∈ parts, ∀ trace, (part trace).LeavesBy P) :
    (EcmaStack.inTurn parts trace).LeavesBy P := by
  induction parts generalizing trace with
  | nil => exact .normal
  | cons part rest ih =>
    exact (h part List.mem_cons_self trace).andThen fun trace => ih fun other hmem =>
      h other (List.mem_cons_of_mem _ hmem)

end Course.LeavesBy

end EcmaStack
