import EcmaStack.Bytecode.Assembly
import Mathlib.Data.Set.Insert
import Mathlib.Data.Set.Lattice

/-!
# Fragments that carry the machine from shape to shape

A fragment of code **carries** the machine from one shape to another when every place in it can
be given a shape such that each instruction can run in the shape of its place and control
arrives everywhere in the shape that is given there. A jump may leave the fragment; what it
expects to find outside is among the fragment's **wants**. The places other fragments may jump
to are its **offers**.

Fragments are put together by `Carries.append`, which adds up the offers, and `Carries.close`,
which drops the wants that the fragment's own offers meet. The rest of the module is about
single instructions.
-/

/-!
## What an instruction does to the shape of the machine

The **shape** of the machine is what can be said of it without knowing a single value: how many
operands the function in progress has on the stack, how many scopes it has open, and which
frames stand ready for `break` and `continue`. Each operation takes so many operands and leaves
so many (`Opcode.effect`); the operations that jump, open or close something are read one by one
in `Instr.flow`.

`Instr.flow` answers `none` where the machine would go wrong: an operand, a scope or a frame
that is not there, or a program that ends with something left open.
-/

namespace EcmaStack

/-- Which statement a frame is there for. -/
inductive FrameKind where
  | forBreak
  | forContinue
  deriving DecidableEq

/-- A frame that is open: what it catches, where that leads, and how deep the stack and the
scopes were when it was opened. -/
structure Frame where
  kind : FrameKind
  label : List UInt8
  address : Nat
  depth : Nat
  scopes : Nat
  deriving DecidableEq

/-- The shape of the machine inside one function: operands on the stack, open scopes, and open
frames with the innermost first. A function starts with nothing of any of them. -/
structure StackShape where
  depth : Nat := 0
  scopes : Nat := 0
  frames : List Frame := []
  deriving DecidableEq

namespace StackShape

/-- More operands on the stack. -/
def push (σ : StackShape) (n : Nat) : StackShape :=
  { σ with depth := σ.depth + n }

/-- One more scope. -/
def enter (σ : StackShape) : StackShape :=
  { σ with scopes := σ.scopes + 1 }

/-- The frame an instruction opens here. -/
def frame (σ : StackShape) (kind : FrameKind) (label : List UInt8) (address : Nat) : Frame :=
  ⟨kind, label, address, σ.depth, σ.scopes⟩

/-- One more frame. -/
def catching (σ : StackShape) (f : Frame) : StackShape :=
  { σ with frames := f :: σ.frames }

/-- The frames from the innermost one of a kind and label on. -/
def caught (kind : FrameKind) (label : List UInt8) : List Frame → Option (Frame × List Frame)
  | [] => none
  | f :: outer =>
    if f.kind = kind ∧ f.label = label then some (f, outer) else caught kind label outer

@[simp] theorem push_zero (σ : StackShape) : σ.push 0 = σ := rfl

@[simp] theorem push_push (σ : StackShape) (m n : Nat) : (σ.push m).push n = σ.push (m + n) := by
  simp only [push, Nat.add_assoc]

@[simp] theorem depth_push (σ : StackShape) (n : Nat) : (σ.push n).depth = σ.depth + n := rfl

@[simp] theorem scopes_push (σ : StackShape) (n : Nat) : (σ.push n).scopes = σ.scopes := rfl

@[simp] theorem frames_push (σ : StackShape) (n : Nat) : (σ.push n).frames = σ.frames := rfl

@[simp] theorem depth_enter (σ : StackShape) : σ.enter.depth = σ.depth := rfl

@[simp] theorem scopes_enter (σ : StackShape) : σ.enter.scopes = σ.scopes + 1 := rfl

@[simp] theorem frames_enter (σ : StackShape) : σ.enter.frames = σ.frames := rfl

@[simp] theorem depth_catching (σ : StackShape) (f : Frame) : (σ.catching f).depth = σ.depth := rfl

@[simp] theorem scopes_catching (σ : StackShape) (f : Frame) :
    (σ.catching f).scopes = σ.scopes := rfl

@[simp] theorem frames_catching (σ : StackShape) (f : Frame) :
    (σ.catching f).frames = f :: σ.frames := rfl

end StackShape

/-! ### Effects -/

/-- How many operands an operation takes and how many it leaves, for the operations that do
nothing else to the shape of the machine. -/
def Opcode.effect : Opcode → Option (Nat × Nat)
  | .directive | .breakpoint => some (0, 0)
  | .load | .pushUndefined | .pushNull | .pushNan | .pushInfinity | .pushUninitialized | .pushTrue
  | .pushFalse | .pushNumber | .pushString | .pushBigint | .pushRegexp | .pushFunction
  | .pushClass | .pushAsyncFunction | .pushLambda | .pushAsyncLambda | .pushGenerator
  | .pushAsyncGenerator | .pushObject | .pushArray | .pushThis | .importModule => some (0, 1)
  | .pop | .define | .exportName | .exportAll => some (1, 0)
  | .store | .save | .superCall | .getSuperField | .setConst | .setUsing | .setAwaitUsing
  | .setSource | .setClosure | .keys | .await | .yield | .iterator | .asyncIterator | .remove
  | .typeOf | .void | .inc | .dec | .bitNot | .plus | .negate | .logicalNot => some (1, 1)
  | .rest | .deferInc | .deferDec => some (1, 2)
  | .next | .awaitNext => some (1, 3)
  | .superMemberCall | .setSuperField | .setBind | .setClass | .setName | .inherit | .call
  | .directEval | .getField | .getPrivateField | .construct | .equal | .notEqual | .strictEqual
  | .greater | .less | .greaterEqual | .lessEqual | .strictNotEqual | .add | .sub | .mul | .div
  | .mod | .pow | .bitAnd | .bitOr | .bitXor | .shr | .shl | .ushr | .concat | .spread | .isIn
  | .instanceOf | .removeField | .append => some (2, 1)
  | .restObject => some (2, 3)
  | .initAccessor | .initPrivateAccessor | .initField | .initPrivateField | .memberCall
  | .setField | .privateCall | .setPrivateField | .setGetter | .setSetter | .setMethod
  | .defPrivateGetter | .defPrivateSetter | .defPrivateMethod | .assert => some (3, 1)
  | .decorator => some (3, 2)
  | .tag | .superMemberTag => some (4, 1)
  | .memberTag | .privateTag => some (5, 1)
  | _ => none

/-- Where control may go after an instruction: on to the next one in a shape, unless it never
gets there, and to addresses, each in a shape. -/
structure Flow where
  fall : Option StackShape
  jumps : List (Nat × StackShape) := []

/-- Only on to the next instruction. -/
def Flow.on (σ : StackShape) : Flow := { fall := some σ }

/-- Where control may go after an operation and its operands. -/
def Opcode.flow (op : Opcode) (operands : List (Operand Nat)) (σ : StackShape) : Option Flow :=
  match op, operands with
  | .pushScope, _ => some (.on σ.enter)
  | .popScope, _ => if 0 < σ.scopes then some (.on { σ with scopes := σ.scopes - 1 }) else none
  | .pushValue, [.integer n] =>
    if 1 ≤ n.toInt ∧ n.toInt ≤ σ.depth then some (.on (σ.push 1)) else none
  | .insert, [.integer n] => if 0 ≤ n.toInt ∧ n.toInt < σ.depth then some (.on σ) else none
  | .pushBreakLabel, [.text label, .address a] =>
    let τ := σ.catching (σ.frame .forBreak label a)
    some { fall := some τ, jumps := [(a, τ)] }
  | .pushContinueLabel, [.text label, .address a] =>
    let τ := σ.catching (σ.frame .forContinue label a)
    some { fall := some τ, jumps := [(a, τ)] }
  | .popLabel, _ =>
    match σ.frames with
    | [] => none
    | _ :: outer => some (.on { σ with frames := outer })
  | .setAddress, [.address a] =>
    if 1 ≤ σ.depth then some { fall := some σ, jumps := [(a, {})] } else none
  | .jump, [.address a] => some { fall := none, jumps := [(a, σ)] }
  | .jumpNull, [.address a] | .jumpNotNull, [.address a] | .jumpFalse, [.address a] | .jumpTrue,
    [.address a]
  | .jumpNotUndefined, [.address a] =>
    if 1 ≤ σ.depth then some { fall := some σ, jumps := [(a, σ)] } else none
  | .breakOff, [.text label] =>
    (StackShape.caught .forBreak label σ.frames).map fun (f, outer) =>
      { fall := none, jumps := [(f.address, ⟨f.depth, f.scopes, f :: outer⟩)] }
  | .carryOn, [.text label] =>
    (StackShape.caught .forContinue label σ.frames).map fun (f, outer) =>
      { fall := none, jumps := [(f.address, ⟨f.depth, f.scopes, f :: outer⟩)] }
  | .raise, _ | .giveBack, _ => if 1 ≤ σ.depth then some { fall := none } else none
  | .tryBegin, [.address handler, .address finalizer] =>
    some { fall := some σ
           jumps := [(handler, σ.push 1), (finalizer, σ)].filter (·.1 != 0) }
  | .tryEnd, _ => some (.on σ)
  | .halt, _ => if σ = {} then some { fall := none } else none
  | op, _ =>
    op.effect.bind fun (takes, leaves) =>
      if takes ≤ σ.depth then some (.on { σ with depth := σ.depth - takes + leaves }) else none

/-- Where control may go after an instruction that runs in a shape; `none` where the operands
are not those of the operation or the machine would go wrong. -/
def Instr.flow (i : Instr Nat) (σ : StackShape) : Option Flow :=
  if i.operands.map Operand.kind = i.op.operands then i.op.flow i.operands σ else none

end EcmaStack

/-! ## Fragments -/

namespace EcmaStack

/-- Addresses with the shape that control has when it arrives there. -/
abbrev Landings := Set (Nat × StackShape)

/-- The offset to which an address leads, where what leaves a chain goes to a given offset. -/
def Reach.target (leave start stop : Nat) : Reach → Nat
  | .exit => leave
  | r => r.offset start stop

/-- An instruction that starts at an offset, with the offsets to which its addresses lead. Where
an instruction leaves its chain to may depend on where it ends. -/
def Instr.settle (leave : Nat → Nat) (start : Nat) (i : Instr Reach) : Instr Nat :=
  i.map fun r => r.target (leave (start + i.size)) start (start + i.size)

/-- No instruction is empty, so no two start at one place. -/
theorem Instr.size_pos (i : Instr Reach) : 0 < i.size := by
  rw [Instr.size]
  omega

namespace Code

/-- Whether an address is a place of the fragment, or its end, with the given shape. -/
def Lands (c : Code) (start : Nat) (shape : Nat → StackShape) (a : Nat) (τ : StackShape) : Prop :=
  ∃ before after, c = before ++ after ∧ a = start + size before ∧ shape (start + size before) = τ

/-- Every instruction of the fragment can run in the shape of its place, and control arrives in
the shape of the place it goes to. -/
def Agrees (leave : Nat → Nat) (wants : Landings) (start : Nat) (shape : Nat → StackShape)
    (c : Code) : Prop :=
  ∀ before i after, c = before ++ i :: after →
    ∃ flow, (i.settle leave (start + size before)).flow (shape (start + size before)) = some flow ∧
      (∀ τ, flow.fall = some τ → shape (start + size before + i.size) = τ) ∧
      ∀ a τ, (a, τ) ∈ flow.jumps → c.Lands start shape a τ ∨ (a, τ) ∈ wants

/-- The fragment carries the machine from one shape to another. -/
def Carries (leave : Nat → Nat) (wants offers : Landings) (start : Nat) (c : Code)
    (σ τ : StackShape) : Prop :=
  ∃ shape : Nat → StackShape, shape start = σ ∧ shape (start + size c) = τ ∧
    c.Agrees leave wants start shape ∧
    ∀ a ρ, (a, ρ) ∈ offers → c.Lands start shape a ρ

/-- A jump may land where the code starts -/
theorem lands_start {c : Code} {start : Nat} {shape : Nat → StackShape} :
    c.Lands start shape start (shape start) :=
  ⟨[], c, rfl, rfl, rfl⟩

/-- and where it ends. -/
theorem lands_end {c : Code} {start : Nat} {shape : Nat → StackShape} :
    c.Lands start shape (start + size c) (shape (start + size c)) :=
  ⟨c, [], (List.append_nil c).symm, rfl, rfl⟩

namespace Carries

variable {leave : Nat → Nat} {start : Nat} {wants wants' offers offers' : Landings} {c d : Code}
    {σ ρ τ : StackShape}

/-- A fragment may want more and offer less. -/
theorem weaken (h : Carries leave wants offers start c σ τ) (hw : wants ⊆ wants')
    (ho : offers' ⊆ offers) :
    Carries leave wants' offers' start c σ τ := by
  obtain ⟨shape, hstart, hend, hagree, hoffers⟩ := h
  refine ⟨shape, hstart, hend, ?_, fun a ρ hmem => hoffers a ρ (ho hmem)⟩
  intro before i after hc
  obtain ⟨flow, hflow, hfall, hjumps⟩ := hagree before i after hc
  refine ⟨flow, hflow, hfall, fun a ρ hmem => ?_⟩
  exact (hjumps a ρ hmem).imp_right fun hwant => hw hwant

/-- What the fragment itself offers need not be wanted. -/
theorem close (h : Carries leave wants offers start c σ τ) (hw : wants ⊆ wants' ∪ offers) :
    Carries leave wants' offers start c σ τ := by
  obtain ⟨shape, hstart, hend, hagree, hoffers⟩ := h
  refine ⟨shape, hstart, hend, ?_, hoffers⟩
  intro before i after hc
  obtain ⟨flow, hflow, hfall, hjumps⟩ := hagree before i after hc
  refine ⟨flow, hflow, hfall, fun a ρ hmem => ?_⟩
  rcases hjumps a ρ hmem with hland | hwant
  · exact Or.inl hland
  · exact (hw hwant).symm.imp_left (hoffers a ρ)

/-- A fragment offers its start and its end. -/
theorem ends (h : Carries leave wants offers start c σ τ) :
    Carries leave wants (offers ∪ {(start, σ), (start + size c, τ)}) start c σ τ := by
  obtain ⟨shape, hstart, hend, hagree, hoffers⟩ := h
  refine ⟨shape, hstart, hend, hagree, ?_⟩
  rintro a ρ (hmem | hmem | hmem)
  · exact hoffers a ρ hmem
  · cases hmem
    exact hstart ▸ lands_start
  · cases hmem
    exact hend ▸ lands_end

/-- No code carries the shape from where it is to where it is. -/
theorem nil : Carries leave wants ∅ start [] σ σ := by
  refine ⟨fun _ => σ, rfl, rfl, ?_, fun _ _ hmem => hmem.elim⟩
  intro before i after hc
  cases before <;> cases hc

/-- The shapes of two fragments, one after the other. -/
private def joined (middle : Nat) (first second : Nat → StackShape) (t : Nat) : StackShape :=
  if t < middle then first t else second t

/-- The shapes of two codes in a row: those of the first up to where they meet, -/
private theorem joined_first {middle t : Nat} {first second : Nat → StackShape} (ht : t ≤ middle)
    (hmiddle : first middle = second middle) : joined middle first second t = first t := by
  rw [joined]
  split
  · rfl
  · rw [Nat.le_antisymm ht (by omega), hmiddle]

/-- and those of the second from there on. -/
private theorem joined_second {middle t : Nat} {first second : Nat → StackShape} (ht : middle ≤ t) :
    joined middle first second t = second t := by
  rw [joined, if_neg (by omega)]

private theorem size_le_of_append {a b : Code} (h : c = a ++ b) : size a ≤ size c := by
  rw [h, size_append]
  omega

/-- What lands in one of two codes lands in the whole. -/
private theorem lands_left {first second : Nat → StackShape} {a : Nat}
    (hmiddle : first (start + size c) = second (start + size c)) (h : c.Lands start first a τ) :
    (c ++ d).Lands start (joined (start + size c) first second) a τ := by
  obtain ⟨before, after, hc, ha, hshape⟩ := h
  refine ⟨before, after ++ d, by rw [hc, List.append_assoc], ha, ?_⟩
  have hle := size_le_of_append hc
  rw [joined_first (by omega) hmiddle, hshape]

private theorem lands_right {first second : Nat → StackShape} {a : Nat}
    (h : d.Lands (start + size c) second a τ) :
    (c ++ d).Lands start (joined (start + size c) first second) a τ := by
  obtain ⟨before, after, hd, ha, hshape⟩ := h
  refine ⟨c ++ before, after, by rw [hd, List.append_assoc], ?_, ?_⟩
  · rw [ha, size_append, Nat.add_assoc]
  · rw [size_append, ← Nat.add_assoc, joined_second (by omega), hshape]

/-- One fragment after another, each with its own offers. -/
theorem append (hc : Carries leave wants offers start c σ ρ)
    (hd : Carries leave wants offers' (start + size c) d ρ τ) :
    Carries leave wants (offers ∪ offers') start (c ++ d) σ τ := by
  obtain ⟨first, hstart, hend, hagree, hoffers⟩ := hc
  obtain ⟨second, hstart', hend', hagree', hoffers'⟩ := hd
  have hmiddle : first (start + size c) = second (start + size c) := by rw [hend, hstart']
  refine ⟨joined (start + size c) first second, ?_, ?_, ?_, ?_⟩
  · rw [joined_first (by omega) hmiddle, hstart]
  · rw [size_append, ← Nat.add_assoc, joined_second (by omega), hend']
  · intro before i after hsplit
    -- The instruction stands in the first fragment or in the second.
    rcases List.append_eq_append_iff.mp hsplit with ⟨more, hbefore, hmore⟩ | ⟨more, hc, hmore⟩
    -- In the second: its place and its shape are those of the second fragment.
    · obtain ⟨flow, hflow, hfall, hjumps⟩ := hagree' more i after hmore
      have hplace : start + size before = start + size c + size more :=
        by rw [hbefore, size_append, Nat.add_assoc]
      have hshape : joined (start + size c) first second (start + size before) =
          second (start + size c + size more) := by rw [hplace, joined_second (by omega)]
      refine ⟨flow, by rw [hshape, hplace]; exact hflow, ?_, ?_⟩
      · intro ρ' hρ
        rw [joined_second (by omega), hplace]
        exact hfall ρ' hρ
      · exact fun a ρ' hmem => (hjumps a ρ' hmem).imp_left lands_right
    · cases more with
      -- The split is where the two fragments meet, and the instruction is the first of the second.
      | nil =>
        obtain ⟨flow, hflow, hfall, hjumps⟩ := hagree' [] i after (by simpa using hmore.symm)
        have hplace : start + size before = start + size c := by rw [hc, List.append_nil]
        simp only [size_nil, Nat.add_zero] at hflow hfall
        refine ⟨flow, by rw [hplace, joined_second (by omega)]; exact hflow, ?_, ?_⟩
        · intro ρ' hρ
          rw [hplace, joined_second (by omega)]
          exact hfall ρ' hρ
        · exact fun a ρ' hmem => (hjumps a ρ' hmem).imp_left lands_right
      | cons j rest =>
        obtain ⟨hj, hrest⟩ := List.cons.inj hmore
        subst hj
        obtain ⟨flow, hflow, hfall, hjumps⟩ := hagree before i rest hc
        have hle : size before + i.size ≤ size c := by rw [hc, size_append, size_cons]; omega
        refine ⟨flow, by rw [joined_first (by omega) hmiddle]; exact hflow, ?_, ?_⟩
        · intro ρ' hρ
          rw [joined_first (by omega) hmiddle]
          exact hfall ρ' hρ
        · exact fun a ρ' hmem => (hjumps a ρ' hmem).imp_left (lands_left hmiddle)
  · rintro a ρ' (hmem | hmem)
    · exact lands_left hmiddle (hoffers a ρ' hmem)
    · exact lands_right (hoffers' a ρ' hmem)

/-- One fragment after another, where the offset of the second is known in another form. -/
theorem append_at {middle : Nat} (hc : Carries leave wants offers start c σ ρ)
    (hmiddle : start + size c = middle) (hd : Carries leave wants offers' middle d ρ τ) :
    Carries leave wants (offers ∪ offers') start (c ++ d) σ τ := by
  subst hmiddle
  exact hc.append hd

/-- One instruction that runs in its shape. -/
theorem instr {i : Instr Reach} {flow : Flow} (h : (i.settle leave start).flow σ = some flow)
    (hfall : ∀ ρ, flow.fall = some ρ → ρ = τ)
    (hjumps : ∀ a ρ, (a, ρ) ∈ flow.jumps → (a, ρ) ∈ wants) :
    Carries leave wants ∅ start [i] σ τ := by
  have hpos := i.size_pos
  have hafter : (fun t => if t = start then σ else τ) (start + i.size) = τ := if_neg (by omega)
  refine ⟨fun t => if t = start then σ else τ, if_pos rfl, hafter, ?_, fun _ _ hmem => hmem.elim⟩
  · intro before j after hsplit
    cases before with
    | cons k rest => cases rest <;> cases hsplit
    | nil =>
      cases hsplit
      refine ⟨flow, by simpa using h, ?_, fun a ρ hmem => Or.inr (hjumps a ρ hmem)⟩
      intro ρ hρ
      exact hafter.trans (hfall ρ hρ).symm

end Carries

end Code

end EcmaStack
