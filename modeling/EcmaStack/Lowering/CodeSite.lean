import EcmaStack.Bytecode.Assembly
import EcmaStack.Source.File
import EcmaStack.Tree.Basic

/-!
# Why a tree has no code

Trees are lowered to code for the stack machine. Every tree that the grammar produces has code;
a tree built by hand may hold a target that cannot be assigned to, a key that is none, or an
operator of another kind, and it may lack a part.
-/

namespace EcmaStack

/-- Why a tree has no code. -/
inductive WriteCause where
  | bareSuper
  | spread
  | operator (op : Kind)
  | propertyKey
  | deletion
  | afterTarget
  | beforeTarget
  | assignmentTarget
  | destructuringTarget
  | loopHead
  | importSpecifier
  | exportDefault
  | missingPart

/-- The wording of a cause. -/
def WriteCause.message : WriteCause → String
  | .bareSuper => "'super' keyword unexpected here"
  | .spread => "Unexpected token ..."
  | .operator op => "Unexpected token " ++ op.describe
  | .propertyKey => "Unexpected property key"
  | .deletion => "Delete of an unqualified identifier in strict mode."
  | .afterTarget => "Invalid left-hand side expression in postfix operation"
  | .beforeTarget => "Invalid left-hand side expression in prefix operation"
  | .assignmentTarget => "Invalid left-hand side in assignment"
  | .destructuringTarget => "Invalid destructuring assignment target"
  | .loopHead => "Invalid left-hand side in for-loop"
  | .importSpecifier => "Unexpected import specifier"
  | .exportDefault => "Unexpected export default declaration"
  | .missingPart => "Unexpected missing part"

/-- Why and where lowering stops: at a place of the source, or at a switch with two default
clauses. -/
inductive WriteFault where
  | at (offset : Nat) (cause : WriteCause)
  | repeatedDefault

/-- What a writer reports of a tree that has no code: where it stands, and why. -/
structure WriteReport where
  offset : Nat
  cause : WriteCause

/-- The fault at which the lowering of such a tree stops. -/
def WriteReport.fault (r : WriteReport) : WriteFault :=
  .at r.offset r.cause

/-- Code, or why there is none. -/
abbrev Lowering := Except WriteFault Code

/-- Refuse a tree at a range of the source. -/
def refuse {α : Type} (span : Span) (cause : WriteCause) : Except WriteFault α :=
  .error (.at span.offset cause)

end EcmaStack

/-!
## What lowering needs to know

What a piece of code is wanted for, where it stands, and how the scope of a region is opened.
-/

namespace EcmaStack

/-! ## Sites -/

/-- What the value of an expression is wanted for: just the value, a value to be bound to a
name, or the next link of a chain. A name is given to an anonymous function or class; a link may
leave the chain. -/
inductive Use where
  | value
  | named (name : Text)
  | link

/-- The name that a use has for a function or class. -/
def Use.name : Use → Text
  | .named name => name
  | _ => []

/-- Complete a chain, unless it goes on. -/
def Use.finish (use : Use) (chain : Code) : Code :=
  match use with
  | .link => chain
  | _ => chain.sealed

/-- Where code is written: in which source, whether functions keep their source text, whether
the function around is asynchronous, and what initializes an instance after a call of the
superclass's constructor. -/
structure CodeSite where
  file : SourceFile
  lineStarts : List Nat
  omitSource : Bool
  async : Bool := false
  fields : Option (Bool → Lowering) := none

namespace CodeSite

/-- The site inside a function that is no arrow function. -/
def inFunction (s : CodeSite) (async : Bool) : CodeSite :=
  { s with async, fields := none }

/-- The site inside an arrow function, which shares its creator's `this`. -/
def inArrow (s : CodeSite) (async : Bool) : CodeSite :=
  { s with async }

/-- An operation with the line and column at which a range starts. -/
def placed (s : CodeSite) (o : Opcode) (span : Span) : Code :=
  let p := s.file.positionIn s.lineStarts span.offset
  Code.placed o p.line p.column

/-- The source text of a range; none for a range that does not lie in the source. -/
def sourceOf (s : CodeSite) (span : Span) : List UInt8 :=
  if span.start < 0 || span.stop > s.file.size || span.start > span.stop then []
  else (s.file.bytes.drop span.offset).take (span.stop - span.start).toNat

/-- A call of the superclass's constructor, after which the instance is initialized. -/
def superCall (s : CodeSite) (span : Span) : Lowering := do
  match s.fields with
  | some fields => return s.placed .superCall span ++ (← fields s.async)
  | none => return s.placed .superCall span

/-- What a derived class without a constructor does: pass its arguments on. -/
def implicitSuperCall (s : CodeSite) (span : Span) : Lowering := do
  return Code.text .load "arguments" ++ (← s.superCall span) ++ Code.op .pop

/-- A function object whose body is given. -/
def functionObject (s : CodeSite) (o : Opcode) (span : Span) (name : Text) (closure : List String)
    (body : Code) : Code :=
  Code.enclosed body (Code.op o) ++
    (if s.omitSource then [] else [⟨.setSource, [.text (s.sourceOf span)]⟩]) ++
    (if name.isEmpty then [] else Code.string name ++ Code.op .setName) ++
    closure.flatMap fun n => Code.text .setClosure (.ofString n)

end CodeSite

/-! ## Scopes -/

/-- A function declaration that stands directly in a region, with the code of its function. -/
structure Hoisted where
  site : Nat
  name : String
  code : Lowering

/-- The definition of a variable at the opening of its scope. -/
def Variable.opening (v : Variable) : Code :=
  (match v.kind with
    | .var | .param | .function => Code.op .pushUndefined
    | .letDecl | .classDecl | .importDecl => Code.op .pushUninitialized
    | .constDecl => Code.op .pushUninitialized ++ Code.op .setConst
    | .using => Code.op .pushUninitialized ++ Code.op .setUsing
    | .awaitUsing => Code.op .pushUninitialized ++ Code.op .setAwaitUsing) ++
    Code.text .define v.name

/-- The function declaration that made a variable. -/
def Variable.hoisted? (v : Variable) (hoisted : List Hoisted) : Option Hoisted :=
  match v.kind, v.site with
  | .function, some site => hoisted.find? (·.site == site)
  | _, _ => none

/-- Assign hoisted functions. -/
def Hoisted.assign : List Hoisted → Lowering
  | [] => .ok []
  | h :: rest => do
    let code ← h.code
    let others ← Hoisted.assign rest
    return code ++ Code.text .store h.name ++ Code.op .pop ++ others

/-- Open a scope and define its variables; once all exist, assign the functions that are
declared in it. They may thus capture each other and every variable of the scope. -/
def openScope (scope : Option Scope) (hoisted : List Hoisted) : Lowering := do
  let bindings := (scope.map Scope.bindings).getD []
  let assigned ← Hoisted.assign (bindings.filterMap (·.hoisted? hoisted))
  return Code.op .pushScope ++ bindings.flatMap Variable.opening ++ assigned

/-- Whether a region needs a scope when it runs: a block without variables does not. -/
def needsScope : Option Scope → Bool
  | none => false
  | some s => !(s.kind == .block && s.bindings.isEmpty)

/-- Code inside the scope of its region. -/
def inScope (scope : Option Scope) (hoisted : List Hoisted) (body : Lowering) : Lowering := do
  if needsScope scope then
    let opening ← openScope scope hoisted
    return opening ++ (← body) ++ Code.op .popScope
  else body

/-- Directives at the head of a body. -/
def Directive.lower (d : Directive) : Code :=
  Code.text .directive d.value

end EcmaStack
