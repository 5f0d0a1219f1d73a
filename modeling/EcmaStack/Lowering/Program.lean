import EcmaStack.Emission.Tree
import EcmaStack.Grammar.Program
import EcmaStack.Lowering.Tree

/-!
# Compiled programs

The code of a program is written in one pass to a buffer that bears the name of the
source. A program that is reported is thrown away, and so is one in which a slot
stays open.

As a whole, the code that is written is what the program is lowered to.
-/

namespace EcmaStack

/-- The code of a program. -/
def Program.lower (s : CodeSite) (p : Program) : Lowering := do
  let opening ← openScope p.scope (Stmt.hoistedList s p.body)
  let body ← Stmt.lowerList s p.body
  return opening ++ p.directives.flatMap Directive.lower ++ body ++ Code.op .popScope ++
    Code.op .halt

/-- What goes wrong with a slot: it cannot be patched, or it is still open in the
end. -/
inductive SlotFault where
  | refused (patch : PatchFault)
  | left (slots : OpenSlots)

/-- The wording of what goes wrong with a slot. -/
def SlotFault.message : SlotFault → String
  | .refused patch => patch.message
  | .left slots => slots.message

/-- Why no code is written for a program: its tree is reported at a position, or a
slot goes wrong. -/
inductive WriteError where
  | fault (position : Position) (cause : WriteCause)
  | patch (slot : SlotFault)

/-- The wording of a write error with its place. -/
def WriteError.render : WriteError → String
  | .fault position cause => position.render ++ ": SyntaxError: " ++ cause.message
  | .patch slot => slot.message

/-- Write a program: its scope, its directives and its statements. -/
def Program.emit (s : WriteSite) (p : Program) : Writing Unit := do
  writePrologue p.scope (Stmt.hoistedWriters s p.body)
  Writing.put (p.directives.flatMap Directive.lower)
  Stmt.writeList s p.body
  Writing.op .popScope
  Writing.op .halt

/-- What stands when everything has been written: the code, unless the tree was
reported or a slot is open. -/
def Writer.finish (w : Writer) (file : SourceFile) : Except WriteError CodeBuffer :=
  match w.fault, w.out.bytes with
  | some report, _ => .error (.fault (file.position report.offset) report.cause)
  | none, .error slots => .error (.patch (.left slots))
  | none, .ok _ => .ok w.out

/-- Write the code of a program. -/
def Program.write (p : Program) (file : SourceFile) (omitSource : Bool) :
    Except WriteError CodeBuffer :=
  match (p.emit { file, lineStarts := file.lineStarts, omitSource }).run
    { out := { name := file.name } } with
  | .error refused => .error (.patch (.refused refused))
  | .ok ((), w) => w.finish file

/-- Why a source is not compiled. -/
inductive CompileError where
  | parse (error : ParseError)
  | write (error : WriteError)

/-- The wording of the reason alone. -/
def CompileError.reason : CompileError → String
  | .parse error => error.render
  | .write error => error.render

/-- The wording for a source of a name. -/
def CompileError.render (name : String) (e : CompileError) : String :=
  "compile " ++ name ++ ": " ++ e.reason

/-- Parse a source and write its code. -/
def compile (file : SourceFile) (module omitSource : Bool)
    (compiler : PatternCompiler := compilePattern) :
    Except CompileError CodeBuffer := do
  let p ← (parseFile file module compiler).mapError .parse
  (p.write file omitSource).mapError .write

end EcmaStack
