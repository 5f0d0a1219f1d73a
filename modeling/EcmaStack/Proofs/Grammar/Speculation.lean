import EcmaStack.Proofs.Grammar.Confined
import EcmaStack.Proofs.Grammar.Looks

/-!
# Misses leave no trace

Some phrases are read on trial: what looks like an arrow function, a destructuring assignment or
a pattern may turn out to be an expression, and then it is read again as one. Before the miss
whole functions and classes may have been read, which open scopes and declare names.
`Speculation.miss_restores` says that none of it is left: after a miss the state is the one the
rule started from, so whatever follows reads the same tokens, in the same region, with the same
scopes open and the same names in them.

An attempt goes back to the token it started from, but that puts no scope back. What makes the
scopes the same again is that statements are confined to the function they stand in
(`rulesWith_confined`), and that a scope opened on trial is abandoned on a miss.
-/

namespace EcmaStack.Parse

namespace Leaves

variable {r : Rules} [r.Confined]

/-! ## Declarations -/

instance declarator {kind : DeclKind} : Leaves .confined (Parse.declarator r kind) := by
  refine andThen fun start => andThen fun _ => andThen fun _ => optional fun _ =>
    andThen fun o => ?_
  cases o <;> infer_instance

instance declarators {kind : DeclKind} : Leaves .confined (Parse.declarators r kind) := by
  unfold Parse.declarators
  infer_instance

instance variableDeclaration : Leaves .confined (Parse.variableDeclaration r) := by
  unfold Parse.variableDeclaration
  infer_instance

instance variableStatement : Leaves .confined (Parse.variableStatement r) := by
  unfold Parse.variableStatement
  infer_instance

instance functionDeclaration {nameOptional : Bool} :
    Leaves .confined (Parse.functionDeclaration r nameOptional) := by
  refine andThen fun f => ?_
  dsimp only
  split <;> infer_instance

instance classDeclaration {nameOptional : Bool} :
    Leaves .confined (Parse.classDeclaration r nameOptional) := by
  refine andThen fun c => ?_
  dsimp only
  split <;> infer_instance

/-! ## Statements -/

instance block : Leaves .confined (Parse.block r) := by
  unfold Parse.block
  infer_instance

instance condition : Leaves .confined (Parse.condition r) := by
  unfold Parse.condition
  infer_instance

instance labelledStatement : Leaves .confined (Parse.labelledStatement r) := by
  refine andThen fun t => andThen fun _ => optional fun _ => andThen fun _ => andThen fun _ =>
    andThen fun here => ?_
  exact optional fun _ => andThen fun k => inferInstance

instance breakStatement : Leaves .confined Parse.breakStatement := by
  refine andThen fun start => andThen fun label => andThen fun here => ?_
  dsimp only
  split
  · exact optional fun _ => inferInstance
  · exact optional fun _ => inferInstance

instance continueStatement : Leaves .confined Parse.continueStatement := by
  refine andThen fun start => andThen fun label => andThen fun here => ?_
  dsimp only
  split
  · split
    · infer_instance
    · exact optional fun _ => inferInstance
  · exact optional fun _ => inferInstance

instance returnStatement : Leaves .confined (Parse.returnStatement r) := by
  refine andThen fun start => andThen fun here => optional fun _ => andThen fun _ => ?_
  exact either fun argument => inferInstance

instance throwStatement : Leaves .confined (Parse.throwStatement r) :=
  andThen fun _ => andThen fun _ => optional fun _ => inferInstance

instance debuggerStatement : Leaves .confined Parse.debuggerStatement := by
  unfold Parse.debuggerStatement
  infer_instance

instance ifStatement : Leaves .confined (Parse.ifStatement r) := by
  unfold Parse.ifStatement
  infer_instance

instance clauseTest {hasDefault : Bool} : Leaves .confined (Parse.clauseTest r hasDefault) :=
  andThen fun _ => branch (optional fun _ => inferInstance) inferInstance

instance clauses : Leaves .confined (Parse.clauses r) := by
  unfold Parse.clauses
  infer_instance

instance switchStatement : Leaves .confined (Parse.switchStatement r) := by
  unfold Parse.switchStatement
  infer_instance

instance catchParam : Leaves .confined (Parse.catchParam r) := by
  refine andThen fun _ => branch (andThen fun _ => andThen fun o => ?_) inferInstance
  cases o <;> infer_instance

instance catchClause : Leaves .confined (Parse.catchClause r) :=
  andThen fun _ => andThen fun _ => andThen fun _ => inferInstance

instance tryStatement : Leaves .confined (Parse.tryStatement r) := by
  refine andThen fun start => andThen fun main => andThen fun _ => either fun handler =>
    andThen fun finalizer => ?_
  exact optional fun _ => inferInstance

instance iterationBody : Leaves .confined (Parse.iterationBody r) :=
  within

instance whileStatement : Leaves .confined (Parse.whileStatement r) := by
  unfold Parse.whileStatement
  infer_instance

instance doStatement : Leaves .confined (Parse.doStatement r) :=
  andThen fun _ => andThen fun _ => andThen fun _ => andThen fun _ => andThen fun _ =>
    optional fun _ => inferInstance

instance targetHead : Leaves .confined (Parse.targetHead r) := by
  refine @attempt _ _ _ (andThen fun o => ?_)
  cases o <;> infer_instance

instance loopHead : Leaves .confined (Parse.loopHead r) := by
  refine andThen fun _ =>
    branch inferInstance (andThen fun _ => branch inferInstance (andThen fun o => ?_))
  cases o <;> infer_instance

instance collectionLoop {start : Nat} {await : Bool} {head : Option Node} {word : LoopWord} :
    Leaves .confined (Parse.collectionLoop r start await head word) := by
  refine andThen fun _ => optional fun _ => andThen fun _ => ?_
  cases word <;> infer_instance

instance loopClauses {head : Option Node} : Leaves .confined (Parse.loopClauses r head) := by
  refine andThen fun _ => andThen fun _ => either fun test => andThen fun _ => andThen fun _ => ?_
  exact either fun update => inferInstance

instance countedLoop {head : Option Node} : Leaves .confined (Parse.countedLoop r head) := by
  unfold Parse.countedLoop
  dsimp only
  split
  · infer_instance
  · exact loopClauses

instance loopParts {start : Nat} {await : Bool} :
    Leaves .confined (Parse.loopParts r start await) := by
  refine andThen fun head => andThen fun o => ?_
  cases o with
  | some word => infer_instance
  | none => exact optional fun _ => inferInstance

instance loopRest {start : Nat} {await : Bool} :
    Leaves .confined (Parse.loopRest r start await) := by
  unfold Parse.loopRest
  infer_instance

instance forStatement : Leaves .confined (Parse.forStatement r) := by
  refine andThen fun start => andThen fun await => ?_
  exact branch (andThen fun _ => optional fun _ => inferInstance) inferInstance

instance expressionStatement : Leaves .confined (Parse.expressionStatement r) := by
  unfold Parse.expressionStatement
  infer_instance

instance statementRule : Leaves .confined (Parse.statementRule r) := by
  refine andThen fun t => ?_
  split <;> infer_instance

instance itemRule : Leaves .confined (Parse.itemRule r) := by
  refine andThen fun k => ?_
  split <;> infer_instance

end Leaves

/-! ## The knot -/

/-- Each goal is answered by rules that are confined if those for the goals inside it are. -/
theorem rulesWith_confined (fuel : Nat) : (rulesWith fuel).Confined := by
  induction fuel with
  | zero => exact ⟨fun g => Leaves.fail⟩
  | succ fuel ih =>
    refine ⟨fun g => ?_⟩
    change Leaves g.change (rule (rulesWith fuel) g)
    cases g with
    | expression => exact Leaves.commaExpression
    | assignment => exact Leaves.assignmentExpression
    | binary least => exact Leaves.binaryExpression
    | unary => exact Leaves.unaryExpression
    | leftHandSide => exact Leaves.leftHandSide
    | construct => exact Leaves.newExpression
    | target binding => exact Leaves.patternTarget
    | statement => exact Leaves.statementRule
    | item => exact Leaves.itemRule

/-! ## Misses -/

/-- On a miss the rule is back at the token it started from. -/
def GoesBack {α : Type} (p : Parse (Option α)) : Prop :=
  ∀ e s t, p e s = .ok (none, t) → t = { s with scopes := t.scopes }

namespace GoesBack

variable {α β : Type} {r : Rules}

/-- An attempt that misses is back where it began. -/
theorem attempt (p : Parse (Option α)) : GoesBack (Parse.attempt p) := by
  intro e s t h
  rw [Parse.attempt] at h
  split at h
  · cases h
  · cases h
    rfl
  · cases h

/-- Looking first changes nothing. -/
theorem look {p : Parse β} [hp : Looks p] {f : β → Parse (Option α)} (h : ∀ b, GoesBack (f b)) :
    GoesBack (p >>= f) := by
  intro e s t heq
  obtain ⟨b, u, hpb, hf⟩ := bind_ok heq
  rw [hp.same hpb] at hf
  exact h b e s t hf

/-- A rule that only looks has nothing to go back from. -/
theorem look_last {p : Parse (Option α)} [hp : Looks p] : GoesBack p := by
  intro e s t h
  rw [hp.same h]

/-- Each branch goes back by itself. -/
theorem of_ite {c : Prop} [Decidable c] {p q : Parse (Option α)} (hp : GoesBack p)
    (hq : GoesBack q) :
    GoesBack (if c then p else q) := by
  split <;> assumption

/-- What is made of a match does not matter to a miss. -/
theorem map {p : Parse (Option β)} (hp : GoesBack p) (g : β → α) :
    GoesBack (do return (← p).map g) := by
  intro e s t h
  obtain ⟨o, u, ho, h⟩ := bind_ok h
  cases o with
  | some b => cases h
  | none =>
    cases h
    exact hp e s t ho

/-- A name that may not be bound is missed before it is taken. -/
theorem bindingIdentifier : GoesBack Parse.bindingIdentifier := by
  refine look fun t => look fun reserved => of_ite look_last fun e s u h => ?_
  obtain ⟨_, _, _, h⟩ := bind_ok h
  cases h

/-- A target that is none is tried with a look ahead only, so there is nothing to take
back. -/
theorem simpleTarget : GoesBack (Parse.simpleTarget r) := by
  refine look fun k => ?_
  split
  · exact attempt _
  · exact attempt _
  · exact attempt _
  · exact look_last

/-- A pattern is missed at once or as a whole. -/
theorem patternTarget (binding : Bool) : GoesBack (Parse.patternTarget r binding) := by
  refine look fun k => ?_
  split
  · exact attempt _
  · exact attempt _
  · exact of_ite (map bindingIdentifier _) simpleTarget

/-- An arrow function is missed before its arrow, and then nothing of its head is kept. -/
theorem arrowFunction : GoesBack (Parse.arrowFunction r) := by
  refine look fun o => ?_
  cases o with
  | none => exact look_last
  | some async => exact look fun start => attempt _

end GoesBack

/-- The rules that read on trial. -/
inductive Speculation : Type → Type where
  | arrow : Speculation Expr
  | assignment : Speculation Expr
  | target (binding : Bool) : Speculation Pattern
  | array (binding : Bool) : Speculation Pattern
  | object (binding : Bool) : Speculation Pattern
  | parameters : Speculation Params

namespace Speculation

variable {α β : Type} {e : Surroundings} {s t : ParseState}

/-- The rule of a speculation. -/
def read (r : Rules) : Speculation α → Parse (Option α)
  | .arrow => arrowFunction r
  | .assignment => patternAssignment r
  | .target binding => patternTarget r binding
  | .array binding => arrayPattern r binding
  | .object binding => objectPattern r binding
  | .parameters => maybeParameters r

/-- Each speculative rule is back where it began when it misses. -/
theorem goesBack (x : Speculation α) (r : Rules) : GoesBack (x.read r) := by
  cases x with
  | arrow => exact .arrowFunction
  | assignment => exact .look fun start => .attempt _
  | target binding => exact .patternTarget binding
  | array binding => exact .attempt _
  | object binding => exact .attempt _
  | parameters => exact .attempt _

/-- Whatever it has read, it has declared nothing in the scopes around it. -/
theorem leaves_none (x : Speculation α) (r : Rules) [r.Confined] : Leaves .none (x.read r) := by
  cases x with
  | arrow => exact Leaves.arrowFunction
  | assignment => exact Leaves.patternAssignment
  | target binding => exact Leaves.patternTarget
  | array binding => exact Leaves.arrayPattern
  | object binding => exact Leaves.objectPattern
  | parameters => exact Leaves.maybeParameters

/-- After a miss the state is as it was before: the cursor and the token in hand, the open
scopes and every name in them. -/
theorem miss_same (x : Speculation α) {depth : Nat}
    (h : x.read (rulesWith depth) e s = .ok (none, t)) : t = s := by
  have hconfined := rulesWith_confined depth
  have hscopes : s.scopes = t.scopes := (x.leaves_none (rulesWith depth)).change e s none t h
  rw [x.goesBack (rulesWith depth) e s t h, ← hscopes]

end Speculation

end EcmaStack.Parse
