import EcmaStack.Bytecode.Opcode
import EcmaStack.Number.Binary64

/-!
# Instructions and their bytes

An instruction is an operation with its operands. In a stream the operation's number takes two
bytes and the operands follow; all words have their low byte first:

* an address takes eight bytes,
* an integer four, in two's complement,
* a number the eight bytes of its binary form,
* a text four bytes for its length and then its bytes.

How an address is given is left open: code that is still being put together says how far away it
leads (`Reach`), code in a stream has the offset itself.
-/

namespace EcmaStack

/-- An operand. -/
inductive Operand (α : Type) where
  | address (a : α)
  | integer (n : Int32)
  | number (x : Binary64)
  | text (bytes : List UInt8)

/-- An operation with its operands. -/
structure Instr (α : Type) where
  op : Opcode
  operands : List (Operand α) := []

/-! ## Words -/

/-- The lowest bytes of a number, the lowest first. -/
def wordBytes : Nat → Nat → List UInt8
  | 0, _ => []
  | width + 1, n => UInt8.ofNat n :: wordBytes width (n / 256)

/-- The number with the given bytes, the lowest first. -/
def wordValue : List UInt8 → Nat
  | [] => 0
  | b :: rest => b.toNat + 256 * wordValue rest

@[simp] theorem length_wordBytes (width n : Nat) : (wordBytes width n).length = width := by
  induction width generalizing n with
  | zero => rfl
  | succ width ih => simp [wordBytes, ih]

namespace Operand

variable {α β : Type}

/-- What an operand is. -/
def kind : Operand α → OperandKind
  | address _ => .address
  | integer _ => .integer
  | number _ => .number
  | text _ => .text

/-- How many bytes an operand takes. -/
def width : Operand α → Nat
  | address _ | number _ => 8
  | integer _ => 4
  | text bytes => 4 + bytes.length

/-- Give the address in another way. -/
def map (f : α → β) : Operand α → Operand β
  | address a => address (f a)
  | integer n => integer n
  | number x => number x
  | text bytes => text bytes

/-- The bytes of an operand. -/
def encode : Operand UInt64 → List UInt8
  | address a => wordBytes 8 a.toNat
  | integer n => wordBytes 4 n.toUInt32.toNat
  | number x => wordBytes 8 x.bits.toNat
  | text bytes => wordBytes 4 bytes.length ++ bytes

/-- An operand takes as many bytes in the stream as its width says. -/
theorem length_encode (o : Operand UInt64) : o.encode.length = o.width := by
  cases o <;> simp [encode, width]

/-- The width does not depend on where an address leads. -/
@[simp] theorem width_map (f : α → β) (o : Operand α) : (o.map f).width = o.width := by
  cases o <;> rfl

end Operand

namespace Instr

variable {α β : Type}

/-- How many bytes an instruction takes. -/
def size (i : Instr α) : Nat :=
  2 + i.operands.foldr (fun o n => o.width + n) 0

/-- Give the addresses in another way. -/
def map (f : α → β) (i : Instr α) : Instr β :=
  ⟨i.op, i.operands.map (Operand.map f)⟩

/-- Whether the operands are those the operation takes. -/
def WellFormed (i : Instr α) : Prop :=
  i.operands.map Operand.kind = i.op.operands

/-- The bytes of an instruction. -/
def encode (i : Instr UInt64) : List UInt8 :=
  wordBytes 2 i.op.number ++ i.operands.flatMap Operand.encode

/-- An instruction takes as many bytes in the stream as its size says. -/
theorem length_encode (i : Instr UInt64) : i.encode.length = i.size := by
  have operands (os : List (Operand UInt64)) :
      (os.flatMap Operand.encode).length = os.foldr (fun o n => o.width + n) 0 := by
    induction os with
    | nil => rfl
    | cons o rest ih =>
      rw [List.flatMap_cons, List.length_append, ih, Operand.length_encode, List.foldr_cons]
  rw [encode, size, List.length_append, length_wordBytes, operands]

/-- The size does not depend on where the addresses lead. -/
@[simp] theorem size_map (f : α → β) (i : Instr α) : (i.map f).size = i.size := by
  simp only [map, size, List.foldr_map, Operand.width_map]

end Instr

end EcmaStack
