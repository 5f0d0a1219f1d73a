import EcmaStack.Bytecode.Buffer
import EcmaStack.Lowering.CodeSite

/-!
# Writing code in one pass

A writer appends instructions to a buffer and cannot go back, except to fill in
an address it has reserved. An address that leads ahead is **reserved** by the
instruction that bears it, its **slot** is kept in a variable, and the slot is
**patched** when the code has grown to the place the address leads to. A slot
that is patched twice, or that was never reserved, stops the program for good.

A tree that has no code is reported and does not stop the writer: the first
report is kept, and what is written from then on is thrown away in the end.
-/

namespace EcmaStack

/-- A program under construction, and the first report about its tree. -/
structure Writer where
  out : CodeBuffer
  fault : Option WriteReport := none

/-- What writes to a program, unless a patch is refused. -/
abbrev Writing (α : Type) : Type :=
  StateT Writer (Except PatchFault) α

namespace Writing

/-! ## Instructions -/

/-- Change the buffer. -/
def buffered (f : CodeBuffer → CodeBuffer) : Writing Unit :=
  modify fun w => { w with out := f w.out }

/-- Write instructions that have no addresses. -/
def put (straight : Code) : Writing Unit :=
  buffered fun b => b.addInstructions (straight.map (Instr.map fun _ => 0))

/-- Write an operation without operands. -/
def op (o : Opcode) : Writing Unit :=
  put (Code.op o)

/-- Write an operation with a name or another text. -/
def text (o : Opcode) (s : Text) : Writing Unit :=
  put (Code.text o s)

/-- Write what pushes a string. -/
def string (s : Text) : Writing Unit :=
  put (Code.string s)

/-- Write what copies the n-th value from the top of the stack. -/
def pick (n : Nat) : Writing Unit :=
  put (Code.pick n)

/-- Write what moves the top value below the n values under it. -/
def sink (n : Nat) : Writing Unit :=
  put (Code.sink n)

/-- Write something only under a condition. -/
def when (condition : Bool) (m : Writing Unit) : Writing Unit :=
  if condition then m else return

/-- Report a tree that has no code. Only the first report counts. -/
def report (span : Span) (cause : WriteCause) : Writing Unit :=
  modify fun w => { w with fault := w.fault.or (some ⟨span.offset, cause⟩) }

/-! ## Addresses -/

/-- Where the next instruction will stand. -/
def here : Writing Nat := do
  return (← get).out.length

/-- Append an address that is not yet known; its slot is to be patched. -/
def reserve : Writing Int := do
  let (slot, out) := (← get).out.reserve
  modify fun w => { w with out }
  return slot

/-- Append an address. -/
def address (place : Nat) : Writing Unit :=
  buffered fun b => b.addOperand (.address (UInt64.ofNat place))

/-- Let a slot lead to where the next instruction will stand. -/
def patch (slot : Int) : Writing Unit := do
  let out ← (← get).out.patch slot
  modify fun w => { w with out }

/-- Write a jump that leads ahead, and answer its slot. -/
def jump (o : Opcode) : Writing Int := do
  op o
  reserve

/-- Write a jump to a place that has been passed. -/
def jumpTo (o : Opcode) (place : Nat) : Writing Unit := do
  op o
  address place

/-! ## Frames -/

/-- Open a frame for each label, outermost first. The slots wait for the
instructions that close the frames. -/
def openLabels (o : Opcode) : List String → Writing (List Int)
  | [] => return []
  | label :: rest => do
    text o label
    let slot ← reserve
    return slot :: (← openLabels o rest)

/-- Open the frames of a statement: those of its labels, and for a loop or a
switch one without a label inside them. -/
def openFrames (o : Opcode) (labels : List String) (unlabelled : Bool) : Writing (List Int) :=
  openLabels o (if unlabelled then labels ++ [""] else labels)

/-- Close frames, the innermost first. Each address leads to the instruction
that closes its frame. -/
def closeFrames (slots : List Int) : Writing Unit :=
  slots.reverse.forM fun slot => do
    patch slot
    op .popLabel

/-! ## Chains -/

/-- A link of a chain: what writes it takes the slots of the jumps that have
left the chain so far, and answers them with its own. -/
abbrev Link : Type :=
  List Int → Writing (List Int)

/-- Write a whole chain. The jumps that leave it lead to its end. -/
def chain (link : Link) : Writing Unit := do
  let jumps ← link []
  jumps.forM patch

/-- A jump out of the chain for a missing object. -/
def exitIf (optional : Bool) : Link := fun jumps =>
  if optional then do
    let slot ← jump .jumpNull
    return jumps ++ [slot]
  else return jumps

end Writing

end EcmaStack
