import EcmaStack.Grammar.Module
import EcmaStack.Grammar.RegExp

/-!
# Programs

The knot of the grammar, and reading a whole source. `answerGoal` answers every goal by its
rule, with the goals inside it answered with less fuel; `parseProgram` starts with more fuel
than any source can use, since between two tokens only a fixed number of goals can nest.
-/

namespace EcmaStack

namespace Parse

/-- The rule for a goal. -/
def rule (r : Rules) : {α : Type} → Goal α → Parse α
  | _, .expression => commaExpression r
  | _, .assignment => assignmentExpression r
  | _, .binary least => binaryExpression r least
  | _, .unary => unaryExpression r
  | _, .leftHandSide => leftHandSide r
  | _, .construct => newExpression r
  | _, .target binding => patternTarget r binding
  | _, .statement => statementRule r
  | _, .item => itemRule r

/-- Answer a goal, nesting at most as deep as the fuel says. -/
def answerGoal : Nat → {α : Type} → Goal α → Parse α
  | 0, _, _ => fail (.breakdown .exhausted)
  | fuel + 1, _, g => rule ⟨fun g => answerGoal fuel g⟩ g

/-- The rules with some fuel. -/
def rulesWith (fuel : Nat) : Rules :=
  ⟨fun g => answerGoal fuel g⟩

/-- How many goals can nest between two tokens, with room to spare. -/
def nestingPerToken : Nat := 16

/-- The interpreter line, which is left in hand for the first token to follow. -/
def interpreterLine : Parse Text := do
  let s ← get
  match readHashbang s.cursor with
  | some (t, cursor) =>
    update fun s => { s with cursor, token := t }
    return t.value
  | none => return []

/-- A whole program. -/
def program (r : Rules) : Parse Program := do
  let e ← surroundings
  let ((interpreter, ds, items), scope) ← inScope (functionScope false e.module) do
    let interpreter ← interpreterLine
    next
    let ds ← directives
    let items ← itemsUntil (· == .eof) (moduleItem r)
    return (interpreter, ds, items)
  return ⟨⟨0, e.source.width⟩, interpreter, ds, items, e.module, scope⟩

end Parse

/-- The state before anything has been read. -/
def ParseState.initial (source : Text) : ParseState :=
  { cursor := .ofText source, token := .blank, previousEnd := 0, scopes := [] }

/-- Read a source as a program; on a fault, where and what. -/
def parseText (source : Text) (module : Bool) (compiler : PatternCompiler := compilePattern) :
    Except ParseFault Program :=
  let fuel := Parse.nestingPerToken * (source.length + 2)
  (Parse.program (Parse.rulesWith fuel) ⟨source, module, compiler, {}⟩ (.initial source)).map (·.1)

/-- Read a file as a program. Whatever compiles regular expressions may be given; where nothing
is, it is the compiler at hand. -/
def parseFile (file : SourceFile) (module : Bool) (compiler : PatternCompiler := compilePattern) :
    Except ParseError Program :=
  match parseText file.text module compiler with
  | .ok p => .ok p
  | .error fault => .error ⟨file.position fault.offset, fault.cause⟩

end EcmaStack
