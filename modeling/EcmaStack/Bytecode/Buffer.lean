import EcmaStack.Bytecode.Instruction

/-!
# Code buffers

A buffer takes instruction code piece by piece. An address that is not yet known is **reserved**
and later **patched** with the length of the code at that moment. Each reserved slot is patched
exactly once, and the code is finished when none is left.
-/

namespace EcmaStack

/-- Code under construction: the bytes so far, and the reserved slots in ascending order with
whether each has been patched. -/
structure CodeBuffer where
  name : String
  code : List UInt8 := []
  slots : List (Nat × Bool) := []

/-- Why a slot cannot be patched. -/
inductive PatchFault where
  | unreserved (slot : Int)
  | twice (slot : Int)

/-- The wording of a refused patch. -/
def PatchFault.message : PatchFault → String
  | .unreserved slot => "compiler: patch of unreserved slot " ++ toString slot
  | .twice slot => "compiler: slot " ++ toString slot ++ " patched twice"

/-- Why code is not finished: the buffer's name, how many slots are open, and the first of them. -/
structure OpenSlots where
  name : String
  count : Nat
  first : Nat

/-- The wording of unfinished code. -/
def OpenSlots.message (s : OpenSlots) : String :=
  s.name ++ ": " ++ toString s.count ++ " unpatched jump address(es), first at offset " ++
    toString s.first

namespace CodeBuffer

/-- How many bytes the buffer holds. -/
def length (b : CodeBuffer) : Nat :=
  b.code.length

/-- Append bytes. -/
def append (b : CodeBuffer) (bytes : List UInt8) : CodeBuffer :=
  { b with code := b.code ++ bytes }

/-- Append the number of an operation. -/
def addCode (b : CodeBuffer) (number : Nat) : CodeBuffer :=
  b.append (wordBytes 2 number)

/-- Append an operand. -/
def addOperand (b : CodeBuffer) (o : Operand UInt64) : CodeBuffer :=
  b.append o.encode

/-- Append a truth value, which takes one byte. -/
def addBoolean (b : CodeBuffer) (value : Bool) : CodeBuffer :=
  b.append [if value then 1 else 0]

/-- Append instructions. -/
def addInstructions (b : CodeBuffer) (instructions : List (Instr UInt64)) : CodeBuffer :=
  b.append (instructions.flatMap Instr.encode)

/-- Append an address that is not yet known. The slot is the offset at which it stands. -/
def reserve (b : CodeBuffer) : Nat × CodeBuffer :=
  (b.length, { b.addOperand (.address 0) with slots := b.slots ++ [(b.length, false)] })

/-- Put bytes in place of those at an offset. -/
def overwrite (code : List UInt8) (offset : Nat) (bytes : List UInt8) : List UInt8 :=
  code.take offset ++ bytes ++ code.drop (offset + bytes.length)

/-- Write the length of the code into a reserved slot. -/
def patch (b : CodeBuffer) (slot : Int) : Except PatchFault CodeBuffer :=
  match b.slots.find? fun s => (s.1 : Int) == slot with
  | none => .error (.unreserved slot)
  | some (_, true) => .error (.twice slot)
  | some (n, false) =>
    .ok { b with
      code := overwrite b.code n (wordBytes 8 b.length)
      slots := b.slots.map fun s => if s.1 == n then (n, true) else s }

/-- The reserved slots that are still open. -/
def unpatched (b : CodeBuffer) : List Nat :=
  (b.slots.filter fun s => !s.2).map (·.1)

/-- The finished code. -/
def bytes (b : CodeBuffer) : Except OpenSlots (List UInt8) :=
  match b.unpatched with
  | [] => .ok b.code
  | first :: rest => .error ⟨b.name, rest.length + 1, first⟩

end CodeBuffer

end EcmaStack
