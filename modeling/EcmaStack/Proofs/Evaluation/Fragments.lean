import EcmaStack.Lowering.Access
import EcmaStack.Proofs.Evaluation.Machine

/-!
# Code that brings values

A piece of code **brings** the memory of the machine from one state to another if the machine
runs through it so, wherever the piece stands. Pieces are put together by `Brings.append`;
`Brings.fork` is about a jump that passes over a piece or goes on into it.
-/

namespace EcmaStack

/-- The only infinity without a sign. -/
theorem Binary64.eq_infinity {x : Binary64} (h : (x.isInfinite && !x.isNegative) = true) :
    x = .infinity false := by
  simp only [Bool.and_eq_true, isInfinite, beq_iff_eq, isNegative, Bool.not_eq_eq_eq_not,
    Bool.not_true, decide_eq_false_iff_not, Nat.not_le] at h
  obtain ⟨hmagnitude, hsign⟩ := h
  rw [magnitude, Nat.mod_eq_of_lt hsign] at hmagnitude
  cases x with
  | mk bits =>
    rw [infinity, ofParts, if_neg Bool.false_ne_true, ← hmagnitude, UInt64.ofNat_toNat]

namespace Code

/-- Running through the code, wherever it stands, takes the memory from one state to another. -/
def Brings {V : Type} (w : World V) (c : Code) (x y : Memory V) : Prop :=
  Run.Passes (Machine.step w) Machine.mk c x y

namespace Brings

variable {V : Type} {w : World V} {c d : Code} {x y z : Memory V}

/-- No code leaves the memory as it is, -/
theorem nil : Brings w [] x x :=
  Run.Passes.nil

/-- and codes in a row work one after the other. -/
theorem append (hc : Brings w c x y) (hd : Brings w d y z) : Brings w (c ++ d) x z :=
  Run.Passes.append hc hd

/-- An instruction that goes on to the next. -/
theorem instr {i : Instr Reach} (h : ∀ start, (i.settle id start).evaluate w ⟨start, x⟩ =
    some ⟨start + i.size, y⟩) :
    Brings w [i] x y := by
  refine .one fun before after => ?_
  rw [Machine.step, Run.itemAt_extent]
  exact h (Run.extent before)

/-! ## Jumps -/

variable {o : Opcode} {test : V → Bool} {v : V} {stack : List V} {trace : List (Action V)}
    {body other : Code}

/-- What a conditional jump does with the value on top. -/
private theorem evaluate_conditional {reach : Reach} (ho : o.jumps? w = some test) (start : Nat) :
    (Instr.settle id start ⟨o, [.address reach]⟩).evaluate w ⟨start, ⟨v :: stack, trace⟩⟩ =
      some ⟨if test v then reach.target (start + jumpSize) start (start + jumpSize)
        else start + jumpSize,
        ⟨v :: stack, trace⟩⟩ := by
  cases o <;> cases ho <;> rfl

/-- A conditional jump that is not taken. -/
private theorem fallen (reach : Reach) (ho : o.jumps? w = some test) (htest : test v = false) :
    Brings w (branch o reach) ⟨v :: stack, trace⟩ ⟨v :: stack, trace⟩ :=
  instr fun start => by rw [evaluate_conditional ho, htest]; rfl

/-- A jump over a piece. -/
theorem skipped : Brings w (bypassed .jump body) x x := by
  intro before after
  refine .of_step ?_
  rw [Machine.step, bypassed, branch, List.append_assoc, List.append_assoc, List.singleton_append,
    Run.itemAt_extent]
  simp only [Run.extent_append, ← Nat.add_assoc]
  rfl

/-- A conditional jump over a piece that is taken. -/
theorem passed (ho : o.jumps? w = some test) (htest : test v = true) :
    Brings w (bypassed o body) ⟨v :: stack, trace⟩ ⟨v :: stack, trace⟩ := by
  intro before after
  refine .of_step ?_
  rw [Machine.step, bypassed, branch, List.append_assoc, List.append_assoc, List.singleton_append,
    Run.itemAt_extent]
  simp only [Run.extent_append, ← Nat.add_assoc]
  rw [Option.bind_some, evaluate_conditional ho, htest]
  rfl

/-- A conditional jump over a piece that is not taken. -/
theorem entered (ho : o.jumps? w = some test) (htest : test v = false)
    (hbody : Brings w body ⟨v :: stack, trace⟩ y) :
    Brings w (bypassed o body) ⟨v :: stack, trace⟩ y :=
  (fallen _ ho htest).append hbody

/-- One piece or another, by the value on top. -/
theorem fork (ho : o.jumps? w = some test)
    (hbody : test v = false → Brings w body ⟨v :: stack, trace⟩ y)
    (hother : test v = true → Brings w other ⟨v :: stack, trace⟩ y) :
    Brings w (bypassed o (body ++ branch .jump (.ahead other.size)) ++ other) ⟨v :: stack, trace⟩
    y := by
  cases htest : test v with
  | true => exact (passed ho htest).append (hother htest)
  | false =>
    let skip : Code := branch .jump (.ahead other.size)
    have hfirst : Brings w (branch o (.ahead (size (body ++ skip))) ++ body) ⟨v :: stack,
        trace⟩ y :=
      (fallen _ ho htest).append (hbody htest)
    have hskip : Brings w (skip ++ other) y y := skipped
    simpa only [bypassed, List.append_assoc] using hfirst.append hskip

/-! ## Single operations -/

section

variable {o : Opcode} {v a b : V} {taken below stack : List V} {trace : List (Action V)}
    {action : Action V}

/-- The operations of the machine, one by one, on the memory. -/
theorem pop : Brings w (op .pop) ⟨v :: stack, trace⟩ ⟨stack, trace⟩ :=
  instr fun _ => rfl

theorem pick_one : Brings w (pick 1) ⟨a :: stack, trace⟩ ⟨a :: a :: stack, trace⟩ :=
  instr fun _ => rfl

theorem pick_two : Brings w (pick 2) ⟨a :: b :: stack, trace⟩ ⟨b :: a :: b :: stack, trace⟩ :=
  instr fun _ => rfl

/-- An operation that pushes a constant. -/
theorem constant {k : Constant} (h : o.constant? [] = some k) :
    Brings w (op o) x (x.push (return w.constant k)) := by
  refine instr fun _ => ?_
  cases o <;> cases h <;> rfl

/-- Constants are made by the world, -/
theorem string {s : Text} : Brings w (Code.string s) x (x.push (return w.text s)) :=
  instr fun _ => rfl

/-- which also answers what is loaded. -/
theorem load {name : String} :
    Brings w (text .load name) x (x.push (w.ask (.load (utf8Bytes name)))) :=
  instr fun _ => rfl

/-- An operation that pushes what an action answers. -/
theorem asks (h : o.answer? [] taken = some (action, below)) :
    Brings w (op o) ⟨taken, trace⟩ (.push ⟨below, trace⟩ (w.ask action)) := by
  refine instr fun _ => ?_
  rcases taken with _ | ⟨v, _ | ⟨left, taken⟩⟩ <;> cases o <;> cases h <;> rfl

/-- An operation that stores the value on top. -/
theorem stores (h : o.store? [] taken = some (action, below)) :
    Brings w (op o) ⟨taken, trace⟩ ⟨below, trace ++ [action]⟩ := by
  refine instr fun _ => ?_
  rcases taken with _ | ⟨v, _ | ⟨key, _ | ⟨object, taken⟩⟩⟩ <;> cases o <;> cases h <;> rfl

/-- An operation that changes the number on top while the number stays. -/
theorem defers {up : Bool} (h : o.defer? [] = some up) : Brings w (op o) ⟨v :: stack, trace⟩
    (let old := w.ask (.numeric v) trace
    let changed := w.ask (.step up old.1) old.2
    ⟨old.1 :: changed.1 :: stack, changed.2⟩) := by
  refine instr fun _ => ?_
  cases o <;> cases h <;> rfl

theorem number {n : Binary64} :
    Brings w (numberCode n) x (x.push (return w.constant (.ofNumber n))) := by
  rw [numberCode]
  split
  · next hnan =>
    rw [Constant.ofNumber, if_pos hnan]
    exact constant rfl
  · split
    · next hinfinite =>
      rw [Binary64.eq_infinity hinfinite]
      exact constant rfl
    · exact instr fun _ => rfl

end

end Brings

end Code

end EcmaStack
