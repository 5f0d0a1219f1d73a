import EcmaStack.Bytecode.Buffer
import EcmaStack.Bytecode.Decode
import Mathlib.Algebra.Group.Nat.Defs

/-!
# Instruction streams read back

The bytes of an instruction read back as the instruction, if its operands are those its
operation takes and its texts fit the four bytes of their length (`Instr.Short`). A stream of
such instructions therefore decodes into exactly them, each at the offset after those before it
(`decode_encode`).
-/

namespace EcmaStack

/-- The instructions with their offsets, the first at a given one. -/
def locate : Nat → List (Instr UInt64) → List Located
  | _, [] => []
  | start, i :: rest => ⟨start, i⟩ :: locate (start + i.size) rest

/-! ## Words -/

/-- A word holds a number up to its width. -/
theorem wordValue_wordBytes (width n : Nat) : wordValue (wordBytes width n) = n % 256 ^ width := by
  induction width generalizing n with
  | zero => simp only [wordBytes, wordValue, Nat.pow_zero, Nat.mod_one]
  | succ width ih =>
    have hsplit : n % 256 ^ (width + 1) = n % 256 + 256 * (n / 256 % 256 ^ width) := by
      rw [Nat.pow_succ', Nat.mod_mul]
    rw [wordBytes, wordValue, ih, hsplit, UInt8.toNat_ofNat']

/-- A number that fits a word reads back from it. -/
theorem wordValue_of_lt {width n : Nat} (h : n < 256 ^ width) :
    wordValue (wordBytes width n) = n := by
  rw [wordValue_wordBytes, Nat.mod_eq_of_lt h]

/-- Taking as many bytes as a text has takes the text. -/
theorem takeExactly_append {n : Nat} {head rest : List UInt8} (h : head.length = n) :
    takeExactly n (head ++ rest) = some (head, rest) := by
  subst h
  simp only [takeExactly, List.take_left, List.drop_left, if_true]

/-! ## Operands -/

/-- Whether a text fits the four bytes of its length. -/
def Operand.Short {α : Type} : Operand α → Prop
  | .text bytes => bytes.length < 2 ^ 32
  | _ => True

instance {α : Type} (o : Operand α) : Decidable o.Short :=
  match o with
  | .text bytes => inferInstanceAs (Decidable (bytes.length < 2 ^ 32))
  | .address _ | .integer _ | .number _ => .isTrue trivial

/-- Whether all texts of an instruction fit. -/
def Instr.Short {α : Type} (i : Instr α) : Prop :=
  ∀ o ∈ i.operands, o.Short

instance {α : Type} (i : Instr α) : Decidable i.Short :=
  inferInstanceAs (Decidable (∀ o ∈ i.operands, o.Short))

/-- Where addresses lead does not matter to texts. -/
theorem Instr.Short.map {α β : Type} {i : Instr α} (h : i.Short) (f : α → β) : (i.map f).Short := by
  intro o ho
  obtain ⟨o', ho', rfl⟩ := List.mem_map.mp ho
  have hshort := h o' ho'
  cases o' with
  | text bytes => exact hshort
  | _ => trivial

namespace Operand

/-- An operand that is short enough is read back as it was written, -/
theorem read_encode {o : Operand UInt64} (h : o.Short) (offset : Nat) (rest : List UInt8) :
    read offset (o.encode ++ rest) o.kind = .ok (o, rest) := by
  cases o with
  | address a =>
    have hword : wordValue (wordBytes 8 a.toNat) = a.toNat := wordValue_of_lt a.toNat_lt
    simp only [encode, kind, read, takeExactly_append (length_wordBytes _ _), hword,
      UInt64.ofNat_toNat]
  | integer n =>
    have hword : wordValue (wordBytes 4 n.toUInt32.toNat) = n.toUInt32.toNat :=
      wordValue_of_lt n.toUInt32.toNat_lt
    simp only [encode, kind, read, takeExactly_append (length_wordBytes _ _), hword,
      UInt32.ofNat_toNat, Int32.toInt32_toUInt32]
  | number x =>
    have hword : wordValue (wordBytes 8 x.bits.toNat) = x.bits.toNat :=
      wordValue_of_lt x.bits.toNat_lt
    simp only [encode, kind, read, takeExactly_append (length_wordBytes _ _), hword,
      UInt64.ofNat_toNat]
  | text bytes =>
    have hword : wordValue (wordBytes 4 bytes.length) = bytes.length := wordValue_of_lt h
    simp only [encode, kind, read, List.append_assoc, takeExactly_append (length_wordBytes _ _),
      hword, takeExactly_append rfl]

/-- and so is a list of operands, one by one. -/
theorem readList_encode {os : List (Operand UInt64)} (h : ∀ o ∈ os, o.Short) (offset : Nat)
    (rest : List UInt8) :
    readList offset (os.flatMap encode ++ rest) (os.map kind) = .ok (os, rest) := by
  induction os generalizing offset with
  | nil => rfl
  | cons o others ih =>
    have hread := read_encode (h o List.mem_cons_self) offset (others.flatMap encode ++ rest)
    have hothers := ih (fun x hx => h x (List.mem_cons_of_mem o hx)) (offset + o.width)
    simp only [List.flatMap_cons, List.append_assoc, List.map_cons, readList, hread, hothers]

end Operand

/-! ## Streams -/

/-- Every opcode fits into its two bytes. -/
theorem Opcode.number_lt (op : Opcode) : op.number < 256 ^ 2 := by
  cases op <;> decide

/-- The bytes of an instruction are read first, and then what follows them. -/
theorem decodeFrom_encode {i : Instr UInt64} (hkinds : i.WellFormed) (hshort : i.Short)
    (offset : Nat) (rest : List UInt8) : decodeFrom offset (i.encode ++ rest) =
      { decodeFrom (offset + i.size) rest with
        instructions := ⟨offset, i⟩ :: (decodeFrom (offset + i.size) rest).instructions } := by
  have hnumber : wordValue (wordBytes 2 i.op.number) = i.op.number := wordValue_of_lt i.op.number_lt
  have hoperands := Operand.readList_encode hshort (offset + 2) rest
  rw [hkinds] at hoperands
  rw [Instr.encode, List.append_assoc]
  simp only [wordBytes, List.cons_append, List.nil_append] at hnumber ⊢
  rw [decodeFrom]
  simp only [hnumber, Opcode.ofNumber?_number]
  split
  · next hread => cases hoperands.symm.trans hread
  · next operands others hread =>
    cases hoperands.symm.trans hread
    rfl

/-- A stream reads back as the instructions it was written from. -/
theorem decode_encode {program : List (Instr UInt64)} (hkinds : ∀ i ∈ program, i.WellFormed)
    (hshort : ∀ i ∈ program, i.Short) :
    decode (program.flatMap Instr.encode) = ⟨locate 0 program, none⟩ := by
  suffices h : ∀ offset, decodeFrom offset (program.flatMap Instr.encode) =
      ⟨locate offset program, none⟩ from h 0
  induction program with
  | nil => exact fun offset => by rw [List.flatMap_nil, decodeFrom, locate]
  | cons i rest ih =>
    intro offset
    rw [List.flatMap_cons, decodeFrom_encode (hkinds i List.mem_cons_self)
      (hshort i List.mem_cons_self)]
    rw [ih (fun j hj => hkinds j (List.mem_cons_of_mem i hj)) fun j hj => hshort j
      (List.mem_cons_of_mem i hj)]
    rfl

end EcmaStack

/-!
## What is read of a stream is what stands there

Reading goes the other way round from writing (`decode_encode`), and it is exact on every
stream, also on one that no writer has made: what is read of it, written again, is how the
stream begins, and reading ends without a fault at the end of the stream only. A fault thus
always leaves bytes behind (`Decoded.Faithful`), and nothing is read that could not have been
written: each instruction has the operands of its operation, and its texts fit their length.

Writing is done piece by piece, the number of the operation first and then its operands
(`CodeBuffer.addInstr`).
-/

namespace EcmaStack

/-! ## Writing piece by piece -/

namespace CodeBuffer

/-- Append an instruction: its operation's number and its operands. -/
def addInstr (b : CodeBuffer) (i : Instr UInt64) : CodeBuffer :=
  i.operands.foldl addOperand (b.addCode i.op.number)

/-- Adding operands one by one appends their bytes. -/
theorem foldl_addOperand (operands : List (Operand UInt64)) (b : CodeBuffer) :
    operands.foldl addOperand b = b.append (operands.flatMap Operand.encode) := by
  induction operands generalizing b with
  | nil => simp only [List.foldl_nil, List.flatMap_nil, append, List.append_nil]
  | cons o rest ih =>
    simp only [List.foldl_cons, ih, addOperand, append, List.append_assoc, List.flatMap_cons]

/-- The pieces of an instruction are its bytes. -/
theorem addInstr_eq (b : CodeBuffer) (i : Instr UInt64) : b.addInstr i = b.append i.encode := by
  simp only [addInstr, foldl_addOperand, addCode, append, Instr.encode, List.append_assoc]

/-- The pieces of a program are its bytes. -/
theorem foldl_addInstr (program : List (Instr UInt64)) (b : CodeBuffer) :
    program.foldl addInstr b = b.addInstructions program := by
  induction program generalizing b with
  | nil => simp only [List.foldl_nil, addInstructions, List.flatMap_nil, append, List.append_nil]
  | cons i rest ih =>
    simp only [List.foldl_cons, ih, addInstr_eq, addInstructions, append, List.append_assoc,
      List.flatMap_cons]

end CodeBuffer

/-! ## Words -/

/-- A word is below the power that its length allows. -/
theorem wordValue_lt (bytes : List UInt8) : wordValue bytes < 256 ^ bytes.length := by
  induction bytes with
  | nil => exact Nat.one_pos
  | cons b rest ih =>
    have hb := b.toNat_lt
    rw [List.length_cons, Nat.pow_succ', wordValue]
    omega

/-- A word is told by its value. -/
theorem wordBytes_wordValue (bytes : List UInt8) :
    wordBytes bytes.length (wordValue bytes) = bytes := by
  induction bytes with
  | nil => rfl
  | cons b rest ih =>
    have hlow : UInt8.ofNat (b.toNat + 256 * wordValue rest) = b := by
      apply UInt8.toNat_inj.mp
      rw [UInt8.toNat_ofNat', Nat.add_mul_mod_self_left, Nat.mod_eq_of_lt b.toNat_lt]
    have hhigh : (b.toNat + 256 * wordValue rest) / 256 = wordValue rest := by
      have hb := b.toNat_lt
      omega
    rw [List.length_cons, wordValue, wordBytes, hlow, hhigh, ih]

/-- Conversely what was taken stands at the front. -/
theorem of_takeExactly {n : Nat} {bytes head rest : List UInt8}
    (h : takeExactly n bytes = some (head, rest)) :
    bytes = head ++ rest ∧ head.length = n := by
  simp only [takeExactly] at h
  split at h
  · next hlength =>
    cases h
    exact ⟨(List.take_append_drop n bytes).symm, hlength⟩
  · cases h

/-- A word that was split off is written again from its value. -/
theorem of_takeExactly_word {n : Nat} {bytes word rest : List UInt8}
    (h : takeExactly n bytes = some (word, rest)) :
    bytes = wordBytes n (wordValue word) ++ rest ∧ wordValue word < 256 ^ n := by
  obtain ⟨hbytes, hlength⟩ := of_takeExactly h
  subst hlength
  exact ⟨by rw [wordBytes_wordValue]; exact hbytes, wordValue_lt word⟩

/-! ## Operands -/

namespace Operand

/-- An operand that was read is written with the bytes that it was read from, -/
theorem of_read {offset : Nat} {bytes rest : List UInt8} {k : OperandKind} {o : Operand UInt64}
    (h : read offset bytes k = .ok (o, rest)) :
    bytes = o.encode ++ rest ∧ o.kind = k ∧ o.Short := by
  cases k with
  | address =>
    simp only [read] at h
    split at h
    · next word taken hword =>
      cases h
      obtain ⟨hbytes, hlt⟩ := of_takeExactly_word hword
      have hfits : wordValue word < 2 ^ 64 := hlt
      refine ⟨?_, rfl, trivial⟩
      rw [encode, UInt64.toNat_ofNat', Nat.mod_eq_of_lt hfits]
      exact hbytes
    · cases h
  | integer =>
    simp only [read] at h
    split at h
    · next word taken hword =>
      cases h
      obtain ⟨hbytes, hlt⟩ := of_takeExactly_word hword
      have hfits : wordValue word < 2 ^ 32 := hlt
      refine ⟨?_, rfl, trivial⟩
      rw [encode, UInt32.toUInt32_toInt32, UInt32.toNat_ofNat', Nat.mod_eq_of_lt hfits]
      exact hbytes
    · cases h
  | number =>
    simp only [read] at h
    split at h
    · next word taken hword =>
      cases h
      obtain ⟨hbytes, hlt⟩ := of_takeExactly_word hword
      have hfits : wordValue word < 2 ^ 64 := hlt
      refine ⟨?_, rfl, trivial⟩
      rw [encode, UInt64.toNat_ofNat', Nat.mod_eq_of_lt hfits]
      exact hbytes
    · cases h
  | text =>
    simp only [read] at h
    split at h
    · next word taken hword =>
      split at h
      -- A text is its length and as many bytes; both may be cut off.
      · next content rest' hcontent =>
        cases h
        obtain ⟨hbytes, hlt⟩ := of_takeExactly_word hword
        obtain ⟨htaken, hlength⟩ := of_takeExactly hcontent
        refine ⟨?_, rfl, ?_⟩
        · rw [encode, hlength, List.append_assoc, ← htaken]
          exact hbytes
        · rw [Short, hlength]
          exact hlt
      · cases h
    · cases h

/-- and so is a list of operands. -/
theorem of_readList {kinds : List OperandKind} {offset : Nat} {bytes rest : List UInt8}
    {os : List (Operand UInt64)} (h : readList offset bytes kinds = .ok (os, rest)) :
    bytes = os.flatMap encode ++ rest ∧ os.map kind = kinds ∧ ∀ o ∈ os, o.Short := by
  induction kinds generalizing offset bytes os with
  | nil =>
    cases h
    exact ⟨rfl, rfl, fun _ ho => nomatch ho⟩
  | cons k kinds ih =>
    simp only [readList] at h
    split at h
    · cases h
    · next o others hfirst =>
      split at h
      · cases h
      · next os' rest' hothers =>
        cases h
        obtain ⟨hbytes, hkind, hshort⟩ := of_read hfirst
        obtain ⟨hrest, hkinds, hshorts⟩ := ih hothers
        refine ⟨?_, ?_, List.forall_mem_cons.mpr ⟨hshort, hshorts⟩⟩
        · rw [hbytes, hrest, List.flatMap_cons, List.append_assoc]
        · rw [List.map_cons, hkind, hkinds]

end Operand

/-! ## Streams -/

/-- The number of an operation is the one it was found under. -/
theorem Opcode.number_of_ofNumber? {n : Nat} {op : Opcode} (h : ofNumber? n = some op) :
    op.number = n := by
  have hall : ∀ i : Fin all.length, (all.get i).number = i := by decide +kernel
  obtain ⟨hlt, hop⟩ := List.getElem?_eq_some_iff.mp h
  exact hop ▸ hall ⟨n, hlt⟩

/-- How a stream was read, from an offset on: as instructions that could have been written, each
at the offset after those before it, up to bytes that are left exactly if there is a fault. -/
structure Decoded.Faithful (d : Decoded) (offset : Nat) (bytes : List UInt8) : Prop where
  located : d.instructions = locate offset (d.instructions.map Located.instr)
  kinds : ∀ i ∈ d.instructions, i.instr.WellFormed
  short : ∀ i ∈ d.instructions, i.instr.Short
  begins : d.instructions.flatMap (·.instr.encode) <+: bytes
  complete : d.fault = none ↔ d.instructions.flatMap (·.instr.encode) = bytes

namespace Decoded.Faithful

variable {offset : Nat} {bytes rest : List UInt8} {d : Decoded}

/-- Decoding ends where the bytes do, -/
theorem ended : Faithful ⟨[], none⟩ offset [] where
  located := rfl
  kinds := fun _ hi => nomatch hi
  short := fun _ hi => nomatch hi
  begins := List.nil_prefix
  complete := iff_of_true rfl rfl

/-- or at the fault, in front of bytes that are left. -/
theorem stopped (fault : DecodeFault) (hbytes : bytes ≠ []) :
    Faithful ⟨[], some fault⟩ offset bytes where
  located := rfl
  kinds := fun _ hi => nomatch hi
  short := fun _ hi => nomatch hi
  begins := List.nil_prefix
  complete := ⟨nofun, fun h => absurd h.symm hbytes⟩

/-- An instruction in front of a stream. -/
theorem cons {i : Instr UInt64} (hkinds : i.WellFormed) (hshort : i.Short)
    (h : d.Faithful (offset + i.size) rest) :
    Faithful { d with instructions := ⟨offset, i⟩ :: d.instructions } offset
    (i.encode ++ rest) where
  located := by
    rw [List.map_cons, locate, ← h.located]
  kinds := List.forall_mem_cons.mpr ⟨hkinds, h.kinds⟩
  short := List.forall_mem_cons.mpr ⟨hshort, h.short⟩
  begins := by
    rw [List.flatMap_cons]
    exact (List.prefix_append_right_inj _).mpr h.begins
  complete := by
    rw [List.flatMap_cons, List.append_cancel_left_eq]
    exact h.complete

end Decoded.Faithful

/-- Every stream is read exactly, by induction on how the reader goes through it. -/
theorem decodeFrom_faithful (offset : Nat) (bytes : List UInt8) :
    (decodeFrom offset bytes).Faithful offset bytes := by
  fun_induction decodeFrom offset bytes with
  | case1 offset => exact .ended
  | case2 offset low => exact .stopped _ (List.cons_ne_nil _ _)
  | case3 offset low high bytes => exact .stopped _ (List.cons_ne_nil _ _)
  | case4 offset low high bytes => exact .stopped _ (List.cons_ne_nil _ _)
  | case5 offset low high bytes number op hop operands rest hread instr others ih =>
    obtain ⟨hbytes, hkinds, hshort⟩ := Operand.of_readList hread
    have hnumber : wordBytes 2 op.number = [low, high] := by
      rw [Opcode.number_of_ofNumber? hop]
      exact wordBytes_wordValue [low, high]
    have hwhole : low :: high :: bytes = instr.encode ++ rest := by
      rw [Instr.encode, hnumber, hbytes, List.append_assoc]
      rfl
    rw [hwhole]
    exact ih.cons hkinds hshort

/-- Streams and the programs they hold tell each other. A program that is written piece by piece
reads back as it is, each instruction at the offset where it was put; and of any stream exactly
as much is read as can be written again, which is all of it exactly if no fault is reported. -/
theorem decode_exact :
    (∀ (name : String) (program : List (Instr UInt64)), (∀ i ∈ program, i.WellFormed ∧ i.Short) →
      decode (program.foldl CodeBuffer.addInstr { name }).code = ⟨locate 0 program, none⟩) ∧
    ∀ bytes, (decode bytes).Faithful 0 bytes := by
  refine ⟨fun name program h => ?_, fun bytes => decodeFrom_faithful 0 bytes⟩
  rw [CodeBuffer.foldl_addInstr]
  exact decode_encode (fun i hi => (h i hi).1) fun i hi => (h i hi).2

/-- A jump over a string, and a stream that ends inside a string. -/
theorem decode_exact_jump :
    decode (([⟨.jump, [.address 12]⟩, ⟨.pushString, [.text [104, 105]]⟩] : List
      (Instr UInt64)).foldl
        CodeBuffer.addInstr { name := "jump" }).code =
      ⟨[⟨0, ⟨.jump, [.address 12]⟩⟩, ⟨10, ⟨.pushString, [.text [104, 105]]⟩⟩], none⟩ ∧
    (decode [19, 0, 2, 0, 0, 0, 104]).Faithful 0 [19, 0, 2, 0, 0, 0, 104] :=
  ⟨decode_exact.1 "jump" [⟨.jump, [.address 12]⟩, ⟨.pushString, [.text [104, 105]]⟩]
      (by simp [Instr.WellFormed, Instr.Short, Operand.Short, Operand.kind, Opcode.operands]),
    decode_exact.2 _⟩

end EcmaStack
