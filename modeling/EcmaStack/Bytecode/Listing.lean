import EcmaStack.Bytecode.Decode
import EcmaStack.Number.Layout
import EcmaStack.Text.Quoted

/-!
# Listings

An instruction stream as lines, one for each instruction: the offset in six digits at least, the
mnemonic and the operands.
-/

namespace EcmaStack

/-- An operand in a listing. -/
def Operand.render : Operand UInt64 → String
  | .address a => toString a.toNat
  | .integer n => toString n.toInt
  | .number x => NumberLayout.listing.write x
  | .text bytes => Text.quoted (Text.decode bytes)

/-- An instruction as a line. -/
def Located.render (l : Located) : String :=
  String.ofList (NumberLayout.padded 6 l.offset) ++ " " ++
    " ".intercalate (l.instr.op.mnemonic :: l.instr.operands.map Operand.render)

/-- The lines of what was read. -/
def Decoded.listing (d : Decoded) : List String :=
  d.instructions.map Located.render

end EcmaStack
