import EcmaStack.Proofs.Grammar.Speculation
import EcmaStack.Proofs.InPlace.Statements

/-!
# Programs in place

The knot of the rules in place is tied as that of the grammar is, and so each of
them follows the grammar's rule for its goal (`rulesWith_follow`). What a rule
opens and changes is closed and put back when it is done
(`contexts_kept`), and a whole program is read as the grammar
reads it (`parseText_inPlace`).

A rule that reads on trial and misses leaves no trace at all
(`miss_leaves_no_trace`): the parser is as it was, with its cursor and its token
in hand, its contexts and their flags and labels, its scopes and the names in
them. The rewinding puts back no scope and no flag. That the flags are the same
again is because the rules in between follow the grammar, and that the scopes
are is because what a statement declares stays in the function it stands in. -/

namespace EcmaStack

namespace InPlace

open Parse

/-! ## The knot -/

/-- The rule in place for a goal. -/
def rule (r : Rules) : {α : Type} → Goal α → InPlace α
  | _, .expression => commaExpression r
  | _, .assignment => assignmentExpression r
  | _, .binary least => binaryExpression r least
  | _, .unary => unaryExpression r
  | _, .leftHandSide => leftHandSide r
  | _, .construct => newExpression r
  | _, .target binding => patternTarget r binding
  | _, .statement => statementRule r
  | _, .item => itemRule r

/-- Answer a goal in place, nesting at most as deep as the fuel says. -/
def answerGoal : Nat → {α : Type} → Goal α → InPlace α
  | 0, _, _ => fail (.breakdown .exhausted)
  | fuel + 1, _, g => rule ⟨fun g => answerGoal fuel g⟩ g

/-- The rules in place with some fuel. -/
def rulesWith (fuel : Nat) : Rules :=
  ⟨fun g => answerGoal fuel g⟩

/-- A whole program. -/
def program (r : Rules) : InPlace Program := do
  let e ← surroundings
  let depth ← scopeDepth
  Parse.openScope (functionScope false e.module)
  let interpreter ← interpreterLine
  next
  let ds ← directives
  let items ← itemsUntil (· == .eof) (moduleItem r)
  let scope ← closeScope depth
  return ⟨⟨0, e.source.width⟩, interpreter, ds, items, e.module, scope⟩

namespace Follows

variable {r : InPlace.Rules} {q : EcmaStack.Rules} [h : r.Follow q]

/-- Each goal is read by the rule in place for it, which follows the grammar's rule if the
rules it calls do. -/
theorem rule {α : Type} (g : Goal α) : Follows (InPlace.rule r g) (Parse.rule q g) := by
  cases g with
  | expression => exact commaExpression
  | assignment => exact assignmentExpression
  | binary least => exact binaryExpression
  | unary => exact unaryExpression
  | leftHandSide => exact leftHandSide
  | construct => exact newExpression
  | target binding => exact patternTarget
  | statement => exact statementRule
  | item => exact itemRule

/-- A program is read in place as the grammar reads it. -/
theorem program : Follows (InPlace.program r) (Parse.program q) := by
  simp only [Parse.program, Parse.inScope, bind_assoc, pure_bind]
  unfold InPlace.program
  infer_instance

end Follows

/-- Each goal is answered in place as the grammar answers it, by induction on how
deep goals nest. -/
theorem rulesWith_follow (fuel : Nat) : (rulesWith fuel).Follow (Parse.rulesWith fuel) := by
  induction fuel with
  | zero => exact ⟨fun g => Follows.lift⟩
  | succ fuel ih =>
    refine ⟨fun g => ?_⟩
    change Follows (rule (rulesWith fuel) g) (Parse.rule (Parse.rulesWith fuel) g)
    exact Follows.rule g

/-! ## Runs -/

variable {α : Type} {m : InPlace α} {p : Parse α} {P Q : Parser} {a : α}

/-- What a rule in place answered was read by the grammar's rule, in the context
in force. -/
theorem Follows.run (h : Follows m p) (hrun : m P = .ok (a, Q)) :
    ∃ t, p P.surroundings P.toParseState = .ok (a, t) ∧ Q = P.movedTo t := by
  rw [h.eq_lift, InPlace.lift] at hrun
  cases hp : p P.surroundings P.toParseState with
  | error fault =>
    rw [hp] at hrun
    cases hrun
  | ok x =>
    rw [hp] at hrun
    cases hrun
    exact ⟨x.2, rfl, rfl⟩

/-- What a lifted rule answers is what the rule answers: the contexts are carried along
and not asked. -/
theorem lift_answer :
    (InPlace.lift p P).map (·.1) = (p P.surroundings P.toParseState).map (·.1) := by
  rw [InPlace.lift]
  cases p P.surroundings P.toParseState <;> rfl

/-- Every context that a rule opens is closed when it is done, and every flag and
label is as it was. -/
theorem contexts_kept {fuel : Nat} {g : Goal α} (h : (rulesWith fuel).read g P = .ok (a, Q)) :
    Q.toContexts = P.toContexts := by
  obtain ⟨t, -, rfl⟩ := ((rulesWith_follow fuel).read g).run h
  rfl

end InPlace

/-- A parser before anything has been read, in the outermost context. -/
def Parser.initial (source : Text) (module : Bool) (compiler : PatternCompiler) : Parser :=
  { ParseState.initial source with source, module, compiler, context := {}, outer := [] }

/-- A source is read in place as it is read by the grammar. -/
theorem parseText_inPlace (source : Text) (module : Bool) (compiler : PatternCompiler) :
    parseText source module compiler =
      (InPlace.program (InPlace.rulesWith (Parse.nestingPerToken * (source.length + 2)))
        (Parser.initial source module compiler)).map (·.1) := by
  have hrules := InPlace.rulesWith_follow (Parse.nestingPerToken * (source.length + 2))
  have hprogram : InPlace.Follows _ _ := InPlace.Follows.program (h := hrules)
  rw [parseText, hprogram.eq_lift, InPlace.lift_answer]
  rfl

/-! ## Misses -/

namespace Parse.Speculation

variable {α : Type} {P Q : Parser}

/-- The rule in place of a speculation. -/
def inPlace (r : InPlace.Rules) : Speculation α → InPlace (Option α)
  | .arrow => InPlace.arrowFunction r
  | .assignment => InPlace.patternAssignment r
  | .target binding => InPlace.patternTarget r binding
  | .array binding => InPlace.arrayPattern r binding
  | .object binding => InPlace.objectPattern r binding
  | .parameters => InPlace.parameterList r true

/-- Each of the speculative rules follows the one of the grammar. -/
theorem follows (x : Speculation α) (r : InPlace.Rules) (q : EcmaStack.Rules) [r.Follow q] :
    InPlace.Follows (x.inPlace r) (x.read q) := by
  cases x with
  | arrow => exact InPlace.Follows.arrowFunction
  | assignment => exact InPlace.Follows.patternAssignment
  | target binding => exact InPlace.Follows.patternTarget
  | array binding => exact InPlace.Follows.arrayPattern
  | object binding => exact InPlace.Follows.objectPattern
  | parameters => exact InPlace.Follows.maybeParameters

/-- A rule that reads on trial and misses leaves the parser exactly as it was:
the cursor, the token in hand and the end of the one before it, the contexts with
their flags and labels, and the open scopes with the names in them. -/
theorem miss_leaves_no_trace (x : Speculation α) {depth : Nat}
    (h : x.inPlace (InPlace.rulesWith depth) P = .ok (none, Q)) : Q = P := by
  have hfollow := InPlace.rulesWith_follow depth
  obtain ⟨t, hread, rfl⟩ := (x.follows (InPlace.rulesWith depth) (rulesWith depth)).run h
  rw [x.miss_same hread]
  rfl

/-- A script whose parentheses hold a class with a method and a block, and then
what is no parameter. -/
def classInParentheses : Text :=
  .ofString "(a = class K { m() { let x; { var y } return (b) => b } }, 1)"

/-- A parser with the first token of a script in hand, in the head of a loop with
a label. -/
def opening (source : Text) : Parser :=
  let (token, cursor) := scanToken (.ofText source)
  { cursor, token, previousEnd := 0, scopes := [functionScope false false], source, module := false
    compiler := compilePattern
    context := { allowIn := false, inIteration := true, labels := [⟨"l", true⟩] }, outer := [{}] }

theorem miss_leaves_no_trace_classInParentheses : ∃ Q,
    Speculation.arrow.inPlace (InPlace.rulesWith 200) (opening classInParentheses) = .ok (none, Q) ∧
      Q = opening classInParentheses := by
  have hcheck : (Speculation.arrow.inPlace (InPlace.rulesWith 200)
      (opening classInParentheses)).toOption.map (·.1.isNone) = some true := by
    decide +kernel
  cases hread : Speculation.arrow.inPlace (InPlace.rulesWith 200) (opening classInParentheses) with
  | error fault =>
    rw [hread] at hcheck
    cases hcheck
  | ok x =>
    obtain ⟨o, Q⟩ := x
    rw [hread] at hcheck
    cases Option.isNone_iff_eq_none.mp (Option.some.inj hcheck)
    exact ⟨Q, rfl, miss_leaves_no_trace .arrow hread⟩

end Parse.Speculation

end EcmaStack
