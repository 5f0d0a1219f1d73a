import EcmaStack.Bytecode.Instruction
import EcmaStack.Text.Piece

/-!
# Putting code together

Code is assembled from fragments that do not know where they will stand. An address in a
fragment is therefore a **reach**: how many bytes after its instruction, or before it, it leads.
Fragments can be moved and joined freely, and `Code.resolve` turns reaches into offsets once the
place of the whole is known.

A chain of optional accesses leaves from several places for one point behind it. Such a jump has
the reach `exit` until the chain is complete and `Code.sealed` fixes how far it goes.
-/

namespace EcmaStack

/-- Where an address leads, seen from its instruction: nowhere, so many bytes beyond the
instruction's end, so many bytes before its start, or to the end of the chain around it. -/
inductive Reach where
  | absent
  | ahead (bytes : Nat)
  | back (bytes : Nat)
  | exit
  deriving DecidableEq

/-- The offset to which an address leads in an instruction with the given start and end. -/
def Reach.offset (start stop : Nat) : Reach → Nat
  | .absent => 0
  | .ahead n => stop + n
  | .back n => start - n
  | .exit => stop

/-- A jump to the end of a chain, once so many bytes follow in it. -/
def Reach.close (following : Unit → Nat) : Reach → Reach
  | .exit => .ahead (following ())
  | r => r

/-- A fragment of code. -/
abbrev Code := List (Instr Reach)

namespace Code

/-- How many bytes a fragment takes. -/
def size (c : Code) : Nat :=
  c.foldr (fun i n => i.size + n) 0

@[simp] theorem size_nil : size [] = 0 := rfl

@[simp] theorem size_cons (i : Instr Reach) (c : Code) : size (i :: c) = i.size + size c :=
  rfl

@[simp] theorem size_append (a b : Code) : size (a ++ b) = size a + size b := by
  induction a with
  | nil => simp
  | cons i rest ih => simp [ih, Nat.add_assoc]

/-- The instructions of a fragment that starts at an offset. -/
def resolve : Nat → Code → List (Instr UInt64)
  | _, [] => []
  | start, i :: rest =>
    let stop := start + i.size
    i.map (fun r => UInt64.ofNat (r.offset start stop)) :: resolve stop rest

/-- A chain that is complete: what leaves it goes to its end. -/
def sealed : Code → Code
  | [] => []
  | i :: rest => i.map (Reach.close fun _ => size rest) :: sealed rest

/-- Sealing a chain moves nothing. -/
theorem size_sealed (c : Code) : c.sealed.size = c.size := by
  induction c with
  | nil => rfl
  | cons i rest ih => simp [sealed, ih]

/-! ## Single instructions -/

/-- An operation without operands. -/
def op (o : Opcode) : Code :=
  [⟨o, []⟩]

/-- An operation with a name or another text. -/
def text (o : Opcode) (s : Text) : Code :=
  [⟨o, [.text s.encode]⟩]

/-- An operation with a number of things. -/
def count (o : Opcode) (n : Nat) : Code :=
  [⟨o, [.integer (Int32.ofNat n)]⟩]

/-- An operation with a line and a column. -/
def placed (o : Opcode) (line column : Int) : Code :=
  [⟨o, [.integer (Int32.ofInt line), .integer (Int32.ofInt column)]⟩]

/-- An operation with an address. -/
def branch (o : Opcode) (r : Reach) : Code :=
  [⟨o, [.address r]⟩]

/-- Push a string. -/
def string (s : Text) : Code :=
  text .pushString s

/-- Copy the n-th value from the top of the stack. -/
def pick (n : Nat) : Code :=
  count .pushValue n

/-- Move the top value below the n values under it. -/
def sink (n : Nat) : Code :=
  count .insert n

/-- Drop n values. -/
def drop : Nat → Code
  | 0 => []
  | n + 1 => op .pop ++ drop n

/-- How many bytes a jump takes. -/
def jumpSize : Nat :=
  size (branch .jump .absent)

/-! ## Jumps around fragments -/

/-- A fragment that a jump before it passes over. -/
def bypassed (o : Opcode) (body : Code) : Code :=
  branch o (.ahead body.size) ++ body

/-- A fragment and a jump back to its start. -/
def forever (body : Code) : Code :=
  body ++ branch .jump (.back body.size)

/-- A test with a fragment for either outcome. The tested value is dropped first. -/
def choice (test yes no : Code) : Code :=
  let no := op .pop ++ no
  test ++ bypassed .jumpFalse (op .pop ++ yes ++ branch .jump (.ahead no.size)) ++ no

/-- A fragment that runs again and again: a test that leaves it with a conditional jump, then
the rest. The rest starts by dropping what was tested. -/
def repeated (test : Code) (leave : Opcode) (rest : Code) : Code :=
  let rest := op .pop ++ rest
  forever (test ++ branch leave (.ahead (rest.size + jumpSize)) ++ rest)

/-- A fragment inside a frame for each label, outermost first. A frame's address is the
instruction that closes it. -/
def framed (o : Opcode) : List String → Code → Code
  | [], body => body
  | label :: rest, body =>
    let inner := framed o rest body
    [⟨o, [.text (utf8Bytes label), .address (.ahead inner.size)]⟩] ++ inner ++ op .popLabel

/-- A function body that is passed over, what makes the function object, and the body's address
for it. -/
def enclosed (body object : Code) : Code :=
  bypassed .jump body ++ object ++ branch .setAddress (.back (body.size + object.size))

end Code

end EcmaStack
