import EcmaStack.Bytecode.Listing
import EcmaStack.Document.Yaml
import EcmaStack.Lowering.Program
import EcmaStack.Printer.Source
import EcmaStack.Settings.Basic
import EcmaStack.Tree.Description

/-!
# Products

What a command makes of a source: a described tree, code, the instructions of code, or the
source in a uniform layout. Trees and instructions are written in the format that is chosen;
code and sources have one form only.
-/

namespace EcmaStack

/-- What a command makes of a source. -/
inductive Product where
  | tree (d : Datum)
  | code (bytes : List UInt8)
  | instructions (d : Decoded)
  | source (s : String)

/-- An operand as data. -/
def Operand.datum : Operand UInt64 → Datum
  | .address a => .int a.toNat
  | .integer n => .int n.toInt
  | .number x => .number x
  | .text bytes => .ofText (Text.decode bytes)

/-- An instruction as data; operands are shown where there are any. -/
def Located.datum (l : Located) : Datum :=
  let operands := l.instr.operands.map Operand.datum
  .record <| [("offset", .int l.offset), ("op", .text l.instr.op.mnemonic)] ++
    if operands.isEmpty then [] else [("operands", .list operands)]

/-- The program of a source as a described tree. -/
def Program.describeIn (file : SourceFile) (p : Program) : Datum :=
  (Node.program p).describe (file.locate file.lineStarts)

/-- A value as a document, with its form as text and with what writes it as YAML. -/
def Datum.written (d : Datum) (plain : String) (yaml : Datum → String) :
    OutputFormat → Except JsonFault String
  | .json => d.toJson
  | .yaml => .ok (yaml d)
  | .text => .ok plain

/-- The bytes of a product in a format. -/
def Product.encode (format : OutputFormat) (yaml : Datum → String) :
    Product → Except JsonFault (List UInt8)
  | .code bytes => .ok bytes
  | .source s => .ok (utf8Bytes s)
  | .tree d => (d.written d.outline yaml format).map utf8Bytes
  | .instructions d =>
    let lines := String.join (d.listing.map (· ++ "\n"))
    ((Datum.list (d.instructions.map Located.datum)).written lines yaml format).map utf8Bytes

end EcmaStack
