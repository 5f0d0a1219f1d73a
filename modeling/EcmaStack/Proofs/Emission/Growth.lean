import EcmaStack.Emission.Writer
import Mathlib.Algebra.Group.Nat.Defs

/-!
# How a program grows

What a writer does to a buffer is told by a fragment of code: the buffer grows by
the bytes of the fragment, placed where the buffer ends, and by a slot for each
address that leads ahead. The slot of an address whose place is known has been
patched. The slot of a jump that leaves a chain is still open, and zero stands in
its place.

The law of patches (`CodeBuffer.patch_grow`) says that an open slot in what a
buffer has grown by can be patched, whatever stands around it, and that the
address then leads to the end of the buffer.
-/

namespace EcmaStack

/-! ## What a fragment adds to a buffer -/

/-- The word that stands for an address: zero where its place is not yet known. -/
def Reach.word (start stop : Nat) : Reach → UInt64
  | .exit => 0
  | r => UInt64.ofNat (r.offset start stop)

/-- The slot of an operand at an offset, and whether it has been patched. -/
def Operand.slots (offset : Nat) : Operand Reach → List (Nat × Bool)
  | .address (.ahead _) => [(offset, true)]
  | .address .exit => [(offset, false)]
  | _ => []

namespace Instr

/-- How many bytes operands take. -/
def widths {α : Type} (os : List (Operand α)) : Nat :=
  os.foldr (fun o n => o.width + n) 0

/-- The slots of operands that start at an offset. -/
def slots : Nat → List (Operand Reach) → List (Nat × Bool)
  | _, [] => []
  | offset, o :: rest => o.slots offset ++ slots (offset + o.width) rest

/-- The bytes of operands of an instruction with a given start and end. -/
def bytes (start stop : Nat) (os : List (Operand Reach)) : List UInt8 :=
  os.flatMap fun o => (o.map (Reach.word start stop)).encode

section

variable {start stop offset : Nat} {xs ys : List (Operand Reach)} {s : Nat × Bool}

/-- The bytes that operands take, piece by piece. -/
theorem widths_append {α : Type} (xs ys : List (Operand α)) :
    widths (xs ++ ys) = widths xs + widths ys := by
  induction xs with
  | nil => rw [List.nil_append, widths, widths, List.foldr_nil, Nat.zero_add]
  | cons o xs ih =>
    change o.width + widths (xs ++ ys) = o.width + widths xs + widths ys
    rw [ih, Nat.add_assoc]

/-- Each operand takes as many bytes as its width says, whether its address is known or
not. -/
theorem length_bytes (os : List (Operand Reach)) : (bytes start stop os).length = widths os := by
  induction os with
  | nil => rfl
  | cons o rest ih =>
    rw [bytes, List.flatMap_cons, List.length_append, Operand.length_encode, Operand.width_map]
    exact congrArg (o.width + ·) ih

theorem bytes_append : bytes start stop (xs ++ ys) = bytes start stop xs ++ bytes start stop ys :=
  List.flatMap_append

theorem slots_append (offset : Nat) (xs ys : List (Operand Reach)) :
    slots offset (xs ++ ys) = slots offset xs ++ slots (offset + widths xs) ys := by
  induction xs generalizing offset with
  | nil => rfl
  | cons o xs ih =>
    rw [List.cons_append, slots, slots, ih, List.append_assoc, Nat.add_assoc]
    rfl

/-- The slots of operands lie within them. -/
theorem slots_within (h : s ∈ slots offset xs) : offset ≤ s.1 ∧ s.1 + 8 ≤ offset + widths xs := by
  induction xs generalizing offset with
  | nil => cases h
  | cons o xs ih =>
    change offset ≤ s.1 ∧ s.1 + 8 ≤ offset + (o.width + widths xs)
    rcases List.mem_append.mp h with h | h
    · unfold Operand.slots at h
      split at h
      · cases List.mem_singleton.mp h
        exact ⟨Nat.le_refl _, by simp only [Operand.width]; omega⟩
      · cases List.mem_singleton.mp h
        exact ⟨Nat.le_refl _, by simp only [Operand.width]; omega⟩
      · cases h
    · have hwithin := ih h
      omega

end

end Instr

namespace Code

/-- The bytes of a fragment that starts at an offset. -/
def bytes : Nat → Code → List UInt8
  | _, [] => []
  | start, i :: rest =>
    wordBytes 2 i.op.number ++ Instr.bytes start (start + i.size) i.operands ++
      bytes (start + i.size) rest

/-- The slots of a fragment that starts at an offset, in ascending order, with
whether each has been patched. -/
def slots : Nat → Code → List (Nat × Bool)
  | _, [] => []
  | start, i :: rest => Instr.slots (start + 2) i.operands ++ slots (start + i.size) rest

/-- The open slots of a fragment. -/
def exits (start : Nat) (c : Code) : List Int :=
  ((c.slots start).filter fun s => !s.2).map fun s => (s.1 : Int)

section

variable {start : Nat} {c d : Code} {s : Nat × Bool}

/-- The operation itself takes two bytes. -/
theorem size_instr (i : Instr Reach) : i.size = 2 + Instr.widths i.operands :=
  rfl

@[simp] theorem bytes_nil : bytes start [] = [] := rfl

@[simp] theorem slots_nil : slots start [] = [] := rfl

/-- Code takes as many bytes as its size says, wherever it stands. -/
theorem length_bytes (start : Nat) (c : Code) : (c.bytes start).length = c.size := by
  induction c generalizing start with
  | nil => rfl
  | cons i rest ih =>
    rw [bytes, List.length_append, List.length_append, length_wordBytes, Instr.length_bytes, ih,
      size_cons, size_instr]

/-- What stands behind some code starts where that ends. -/
theorem bytes_append (start : Nat) (c d : Code) :
    (c ++ d).bytes start = c.bytes start ++ d.bytes (start + c.size) := by
  induction c generalizing start with
  | nil => rfl
  | cons i rest ih =>
    rw [List.cons_append, bytes, bytes, ih, size_cons, Nat.add_assoc, List.append_assoc (_ ++ _)]

/-- So do its slots. -/
theorem slots_append (start : Nat) (c d : Code) :
    (c ++ d).slots start = c.slots start ++ d.slots (start + c.size) := by
  induction c generalizing start with
  | nil => rfl
  | cons i rest ih =>
    rw [List.cons_append, slots, slots, ih, size_cons, Nat.add_assoc, List.append_assoc]

/-- And so do those of its slots that are open. -/
theorem exits_append (start : Nat) (c d : Code) :
    (c ++ d).exits start = c.exits start ++ d.exits (start + c.size) := by
  rw [exits, slots_append, List.filter_append, List.map_append]
  rfl

/-- The slots of a fragment lie within it, behind the number of its first
operation. -/
theorem slots_within (h : s ∈ c.slots start) : start + 2 ≤ s.1 ∧ s.1 + 8 ≤ start + c.size := by
  induction c generalizing start with
  | nil => cases h
  | cons i rest ih =>
    rw [size_cons, size_instr]
    rcases List.mem_append.mp h with h | h
    · have hwithin := Instr.slots_within h
      omega
    · have hwithin := ih h
      rw [size_instr] at hwithin
      omega

end

end Code

/-! ## Growth and patches -/

namespace CodeBuffer

variable {b : CodeBuffer} {c d : Code}

/-- A buffer that has grown by a fragment. -/
def grow (b : CodeBuffer) (c : Code) : CodeBuffer :=
  { b with code := b.code ++ c.bytes b.length, slots := b.slots ++ c.slots b.length }

/-- Every slot has its eight bytes in the code. -/
def Inside (b : CodeBuffer) : Prop :=
  ∀ s ∈ b.slots, s.1 + 8 ≤ b.length

@[simp] theorem length_grow (b : CodeBuffer) (c : Code) :
    (b.grow c).length = b.length + c.size := by
  rw [length, grow, List.length_append, Code.length_bytes]
  rfl

@[simp] theorem grow_nil (b : CodeBuffer) : b.grow [] = b := by
  obtain ⟨name, code, slots⟩ := b
  simp only [grow, Code.bytes_nil, Code.slots_nil, List.append_nil]

/-- Growing by two pieces is growing by both. -/
theorem grow_grow (b : CodeBuffer) (c d : Code) : (b.grow c).grow d = b.grow (c ++ d) := by
  rw [grow, length_grow]
  simp only [grow, Code.bytes_append, Code.slots_append, List.append_assoc]

/-- Slots stay inside the buffer when it grows. -/
theorem Inside.grow (h : b.Inside) (c : Code) : (b.grow c).Inside := by
  intro s hs
  rw [length_grow]
  rcases List.mem_append.mp hs with hs | hs
  · exact Nat.le_trans (h s hs) (Nat.le_add_right _ _)
  · exact (Code.slots_within hs).2

/-- Where the bytes of an address stand in a fragment that begins with its
instruction. -/
private theorem bytes_address (start : Nat) (o : Opcode) (xs ys : List (Operand Reach)) (r : Reach)
    (c : Code) : let stop := start + (10 + (Instr.widths xs + Instr.widths ys))
    Code.bytes start (⟨o, xs ++ .address r :: ys⟩ :: c) =
      wordBytes 2 o.number ++ Instr.bytes start stop xs ++ wordBytes 8 (r.word start stop).toNat ++
        (Instr.bytes start stop ys ++ c.bytes stop) := by
  intro stop
  have hsize : start + (⟨o, xs ++ .address r :: ys⟩ : Instr Reach).size = stop := by
    rw [Code.size_instr, Instr.widths_append]
    change start + (2 + (Instr.widths xs + (8 + Instr.widths ys))) = _
    omega
  rw [Code.bytes, hsize, Instr.bytes_append]
  simp only [Instr.bytes, List.flatMap_cons, List.append_assoc]
  rfl

/-- The slot of one address among the operands lies behind the operands that come before
it. -/
private theorem slots_address (start : Nat) (o : Opcode) (xs ys : List (Operand Reach)) (r : Reach)
    (c : Code) : let stop := start + (10 + (Instr.widths xs + Instr.widths ys))
    Code.slots start (⟨o, xs ++ .address r :: ys⟩ :: c) =
      Instr.slots (start + 2) xs ++ (Operand.address r).slots (start + 2 + Instr.widths xs) ++
        (Instr.slots (start + 2 + Instr.widths xs + 8) ys ++ c.slots stop) := by
  intro stop
  have hsize : start + (⟨o, xs ++ .address r :: ys⟩ : Instr Reach).size = stop := by
    rw [Code.size_instr, Instr.widths_append]
    change start + (2 + (Instr.widths xs + (8 + Instr.widths ys))) = _
    omega
  rw [Code.slots, hsize, Instr.slots_append, Instr.slots, List.append_assoc, List.append_assoc,
    List.append_assoc]
  rfl

/-- A word takes what fits it. -/
theorem wordBytes_mod (width n : Nat) : wordBytes width (n % 256 ^ width) = wordBytes width n := by
  induction width generalizing n with
  | zero => rfl
  | succ width ih =>
    have hlow : UInt8.ofNat (n % 256 ^ (width + 1)) = UInt8.ofNat n := by
      refine UInt8.toNat_inj.mp ?_
      rw [UInt8.toNat_ofNat', UInt8.toNat_ofNat', Nat.pow_succ']
      exact Nat.mod_mul_right_mod n 256 (256 ^ width)
    have hhigh : n % 256 ^ (width + 1) / 256 = n / 256 % 256 ^ width := by
      rw [Nat.pow_succ', Nat.mod_mul_right_div_self]
    rw [wordBytes, wordBytes, hlow, hhigh, ih]

/-- An address is written by its eight lowest bytes, and wrapping it changes none of them. -/
theorem wordBytes_ofNat (place : Nat) :
    wordBytes 8 (UInt64.ofNat place).toNat = wordBytes 8 place := by
  rw [UInt64.toNat_ofNat']
  exact wordBytes_mod 8 place

/-- Bytes in the middle are replaced by as many others, and nothing around them moves. -/
private theorem overwrite_middle {before old new after : List UInt8} {n : Nat}
    (hn : n = before.length) (h : old.length = new.length) :
    overwrite (before ++ old ++ after) n new = before ++ new ++ after := by
  subst hn
  have htake : (before ++ old ++ after).take before.length = before := by
    rw [List.append_assoc, List.take_left]
  have hdrop : (before ++ old ++ after).drop (before.length + new.length) = after := by
    rw [← h, ← List.length_append, List.drop_left]
  rw [overwrite, htake, hdrop]

/-- The slots with one of them patched; it is the only one with its offset. -/
private theorem patched_middle {before after : List (Nat × Bool)} {n : Nat}
    (hbefore : ∀ s ∈ before, s.1 ≠ n) (hafter : ∀ s ∈ after, s.1 ≠ n) :
    ((before ++ [(n, false)] ++ after).find? fun s => (s.1 : Int) == (n : Int)) = some (n, false) ∧
    ((before ++ [(n, false)] ++ after).map fun s => if s.1 == n then (n, true) else s) =
      before ++ [(n, true)] ++ after := by
  have hsame (slots : List (Nat × Bool)) (h : ∀ s ∈ slots, s.1 ≠ n) :
      (slots.map fun s => if s.1 == n then (n, true) else s) = slots := by
    refine (List.map_congr_left fun s hs => ?_).trans slots.map_id
    rw [if_neg (by simpa using h s hs)]
    rfl
  constructor
  · rw [List.append_assoc, List.find?_append, List.find?_eq_none.mpr fun s hs => by
      simpa using mod_cast hbefore s hs]
    simp
  · rw [List.map_append, List.map_append, hsame before hbefore, hsame after hafter]
    simp

/-- An open slot in what a buffer has grown by can be patched, and its address
leads to the end of the buffer. -/
theorem patch_grow (hb : b.Inside) (o : Opcode) (xs ys : List (Operand Reach)) (c : Code) :
    (b.grow (⟨o, xs ++ .address .exit :: ys⟩ :: c)).patch
    ((b.length + 2 + Instr.widths xs : Nat) : Int) =
      .ok (b.grow (⟨o, xs ++ .address (.ahead c.size) :: ys⟩ :: c)) := by
  let n := b.length + 2 + Instr.widths xs
  let stop := b.length + (10 + (Instr.widths xs + Instr.widths ys))
  have hlength : (b.grow (⟨o, xs ++ .address .exit :: ys⟩ :: c)).length = stop + c.size := by
    rw [length_grow, Code.size_cons, Code.size_instr, Instr.widths_append]
    change b.length + (2 + (Instr.widths xs + (8 + Instr.widths ys)) + c.size) = _
    omega
  -- No other slot lies at this place: those before it end in front of it, and those behind start
  -- behind its word.
  have hbefore : ∀ s ∈ b.slots ++ Instr.slots (b.length + 2) xs, s.1 ≠ n := by
    intro s hs
    rcases List.mem_append.mp hs with hs | hs
    · have hinside := hb s hs
      omega
    · have hwithin := Instr.slots_within hs
      omega
  have hafter : ∀ s ∈ Instr.slots (n + 8) ys ++ c.slots stop, s.1 ≠ n := by
    intro s hs
    rcases List.mem_append.mp hs with hs | hs
    · have hwithin := Instr.slots_within hs
      omega
    · have hwithin := Code.slots_within hs
      omega
  have hslots : (b.grow (⟨o, xs ++ .address .exit :: ys⟩ :: c)).slots =
      b.slots ++ Instr.slots (b.length + 2) xs ++ [(n, false)] ++
        (Instr.slots (n + 8) ys ++ c.slots stop) := by
    change b.slots ++ Code.slots b.length _ = _
    rw [slots_address]
    simp only [List.append_assoc]
    rfl
  have hslots' : b.slots ++ Instr.slots (b.length + 2) xs ++ [(n, true)] ++
      (Instr.slots (n + 8) ys ++ c.slots stop) =
        b.slots ++ Code.slots b.length (⟨o, xs ++ .address (.ahead c.size) :: ys⟩ :: c) := by
    rw [slots_address]
    simp only [List.append_assoc]
    rfl
  -- The bytes are split in the same way, at the word of the slot.
  let before := b.code ++ (wordBytes 2 o.number ++ Instr.bytes b.length stop xs)
  have hbytes (r : Reach) : b.code ++ Code.bytes b.length (⟨o, xs ++ .address r :: ys⟩ :: c) =
      before ++ wordBytes 8 (r.word b.length stop).toNat ++
        (Instr.bytes b.length stop ys ++ c.bytes stop) := by
    rw [bytes_address]
    simp only [before, List.append_assoc]
    rfl
  have hcode : overwrite (b.grow (⟨o, xs ++ .address .exit :: ys⟩ :: c)).code n
      (wordBytes 8 (stop + c.size)) =
        b.code ++ Code.bytes b.length (⟨o, xs ++ .address (.ahead c.size) :: ys⟩ :: c) := by
    have hplace : n = before.length := by
      simp only [before, List.length_append, length_wordBytes, Instr.length_bytes]
      change b.code.length + 2 + _ = _
      omega
    change overwrite (b.code ++ Code.bytes b.length _) n _ = _
    rw [hbytes, hbytes, overwrite_middle hplace (by rw [length_wordBytes, length_wordBytes])]
    simp only [Reach.word, Reach.offset, wordBytes_ofNat]
  obtain ⟨hfind, hpatched⟩ := patched_middle hbefore hafter
  rw [patch, hslots, hfind, hlength]
  simp only [hpatched]
  rw [hslots', hcode]
  rfl

end CodeBuffer

end EcmaStack
