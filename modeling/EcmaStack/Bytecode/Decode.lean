import EcmaStack.Bytecode.Instruction

/-!
# Reading instruction streams

A stream is read instruction by instruction until its end or until something cannot be read;
what was read before that stays.
-/

namespace EcmaStack

/-- An instruction with the offset at which it starts. -/
structure Located where
  offset : Nat
  instr : Instr UInt64

/-- Why a stream cannot be read further: it ends inside an operation's number, it holds a number
that is no operation's, or it ends inside an operand. -/
inductive DecodeFault where
  | truncated (offset : Nat)
  | unknown (number offset : Nat)
  | operand (op : Opcode) (start offset : Nat)

/-- The wording of a fault. -/
def DecodeFault.message : DecodeFault → String
  | .truncated offset => "truncated operand at offset " ++ toString offset
  | .unknown number offset =>
    "unknown opcode " ++ toString number ++ " at offset " ++ toString offset
  | .operand op start offset =>
    op.mnemonic ++ " at offset " ++ toString start ++ ": truncated operand at offset " ++
      toString offset

/-- What was read of a stream, and why the rest was not. -/
structure Decoded where
  instructions : List Located
  fault : Option DecodeFault

/-- Split off so many bytes, if there are so many. -/
def takeExactly (n : Nat) (bytes : List UInt8) : Option (List UInt8 × List UInt8) :=
  let head := bytes.take n
  if head.length = n then some (head, bytes.drop n) else none

theorem length_of_takeExactly {n : Nat} {bytes head rest : List UInt8}
    (h : takeExactly n bytes = some (head, rest)) : rest.length ≤ bytes.length := by
  simp only [takeExactly] at h
  split at h
  · cases h
    simp
  · cases h

/-- Read an operand at an offset; otherwise say at which offset the stream is too short. -/
def Operand.read (offset : Nat) (bytes : List UInt8) :
    OperandKind → Except Nat (Operand UInt64 × List UInt8)
  | .address =>
    match takeExactly 8 bytes with
    | some (word, rest) => .ok (.address (UInt64.ofNat (wordValue word)), rest)
    | none => .error offset
  | .integer =>
    match takeExactly 4 bytes with
    | some (word, rest) => .ok (.integer (UInt32.ofNat (wordValue word)).toInt32, rest)
    | none => .error offset
  | .number =>
    match takeExactly 8 bytes with
    | some (word, rest) => .ok (.number ⟨UInt64.ofNat (wordValue word)⟩, rest)
    | none => .error offset
  | .text =>
    match takeExactly 4 bytes with
    | some (word, rest) =>
      match takeExactly (wordValue word) rest with
      | some (content, rest) => .ok (.text content, rest)
      | none => .error (offset + 4)
    | none => .error offset

theorem Operand.length_of_read {offset : Nat} {bytes rest : List UInt8} {kind : OperandKind}
    {o : Operand UInt64} (h : Operand.read offset bytes kind = .ok (o, rest)) :
    rest.length ≤ bytes.length := by
  cases kind with
  | text =>
    simp only [Operand.read] at h
    split at h
    · rename_i first
      split at h
      · rename_i second
        cases h
        exact Nat.le_trans (length_of_takeExactly second) (length_of_takeExactly first)
      · cases h
    · cases h
  | _ =>
    simp only [Operand.read] at h
    split at h
    · rename_i taken
      cases h
      exact length_of_takeExactly taken
    · cases h

/-- Read operands one after the other. -/
def Operand.readList (offset : Nat) (bytes : List UInt8) :
    List OperandKind → Except Nat (List (Operand UInt64) × List UInt8)
  | [] => .ok ([], bytes)
  | kind :: kinds =>
    match Operand.read offset bytes kind with
    | .error n => .error n
    | .ok (o, rest) =>
      match Operand.readList (offset + o.width) rest kinds with
      | .error n => .error n
      | .ok (os, rest) => .ok (o :: os, rest)

theorem Operand.length_of_readList {kinds : List OperandKind} {offset : Nat}
    {bytes rest : List UInt8} {os : List (Operand UInt64)}
    (h : Operand.readList offset bytes kinds = .ok (os, rest)) :
    rest.length ≤ bytes.length := by
  induction kinds generalizing offset bytes os with
  | nil =>
    cases h
    exact Nat.le_refl _
  | cons kind kinds ih =>
    simp only [Operand.readList] at h
    split at h
    · cases h
    · rename_i first
      split at h
      · cases h
      · rename_i others
        cases h
        exact Nat.le_trans (ih others) (Operand.length_of_read first)

/-- Read a stream from an offset on. -/
def decodeFrom (offset : Nat) : List UInt8 → Decoded
  | [] => ⟨[], none⟩
  | [_] => ⟨[], some (.truncated offset)⟩
  | low :: high :: bytes =>
    let number := wordValue [low, high]
    match Opcode.ofNumber? number with
    | none => ⟨[], some (.unknown number offset)⟩
    | some op =>
      match _h : Operand.readList (offset + 2) bytes op.operands with
      | .error n => ⟨[], some (.operand op offset n)⟩
      | .ok (operands, rest) =>
        let instr : Instr UInt64 := ⟨op, operands⟩
        let others := decodeFrom (offset + instr.size) rest
        { others with instructions := ⟨offset, instr⟩ :: others.instructions }
termination_by bytes => bytes.length
decreasing_by
  have := Operand.length_of_readList _h
  simp only [List.length_cons]
  omega

/-- Read a stream. -/
def decode (bytes : List UInt8) : Decoded :=
  decodeFrom 0 bytes

end EcmaStack
