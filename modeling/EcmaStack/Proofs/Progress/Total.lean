import EcmaStack.Proofs.Progress.Expressions

/-!
# Statements get ahead

Every rule for a statement, a declaration or an item of a module takes a token. A statement may
start with an expression, and so asks for one before it takes anything; all other statements
start with a word or a punctuator of their own.
-/

namespace EcmaStack.Advances

open Parse

variable {α : Type} {r : Rules} {rank : Nat} {source : Text}

/-! ## Declarations -/

instance declarationKind : Advances r source rank free Parse.declarationKind := by
  unfold Parse.declarationKind
  infer_instance

instance declarator {kind : DeclKind} :
    Advances r source (rank + 3) taking (Parse.declarator r kind) :=
  andThen fun _ => andThen fun _ => andThen fun _ => optional fun _ =>
    found (fun _ => inferInstance) inferInstance

instance declarators {kind : DeclKind} :
    Advances r source (rank + 3) taking (Parse.declarators r kind) := by
  unfold Parse.declarators
  infer_instance

instance variableDeclaration :
    Advances r source (rank + 3) taking (Parse.variableDeclaration r) := by
  unfold Parse.variableDeclaration
  infer_instance

instance checkInitializer {kind : DeclKind} {d : Declarator} :
    Advances r source rank free (Parse.checkInitializer kind d) := by
  unfold Parse.checkInitializer
  split <;> infer_instance

instance checkInitializers {kind : DeclKind} {list : List Declarator} :
    Advances r source rank free (Parse.checkInitializers kind list) := by
  induction list with
  | nil => exact pure
  | cons d rest ih => exact andThen fun _ => ih

instance variableStatement : Advances r source (rank + 3) taking (Parse.variableStatement r) := by
  unfold Parse.variableStatement
  infer_instance

instance functionDeclaration {nameOptional : Bool} :
    Advances r source rank taking (Parse.functionDeclaration r nameOptional) := by
  refine taken fun f => ?_
  split <;> infer_instance

instance classDeclaration {nameOptional : Bool} :
    Advances r source rank taking (Parse.classDeclaration r nameOptional) := by
  refine taken fun c => ?_
  split <;> infer_instance

/-! ## Blocks and jumps -/

instance block : Advances r source rank taking (Parse.block r) := by
  unfold Parse.block
  infer_instance

instance condition : Advances r source rank taking (Parse.condition r) := by
  unfold Parse.condition
  infer_instance

instance labelledStatement : Advances r source rank taking (Parse.labelledStatement r) :=
  andThen fun _ => andThen fun _ => optional fun _ => andThen fun _ => taken fun _ =>
    andThen fun _ => optional fun _ =>
    andThen fun _ => inferInstance

instance labelReference : Advances r source rank free Parse.labelReference := by
  unfold Parse.labelReference
  infer_instance

instance breakStatement : Advances r source rank taking Parse.breakStatement := by
  refine taken fun start => andThen fun label => andThen fun here => ?_
  dsimp only
  split <;> exact optional fun _ => inferInstance

instance continueStatement : Advances r source rank taking Parse.continueStatement := by
  refine taken fun start => andThen fun label => andThen fun here => ?_
  dsimp only
  split
  · split
    · infer_instance
    · exact optional fun _ => inferInstance
  · exact optional fun _ => inferInstance

instance returnStatement : Advances r source rank taking (Parse.returnStatement r) :=
  taken fun _ => andThen fun _ => optional fun _ => andThen fun _ => either fun _ => inferInstance

instance throwStatement : Advances r source rank taking (Parse.throwStatement r) :=
  taken fun _ => andThen fun _ => optional fun _ => inferInstance

instance debuggerStatement : Advances r source rank taking Parse.debuggerStatement := by
  unfold Parse.debuggerStatement
  infer_instance

/-! ## Branches -/

instance ifStatement : Advances r source rank taking (Parse.ifStatement r) := by
  unfold Parse.ifStatement
  infer_instance

instance clauseTest {hasDefault : Bool} :
    Advances r source Goal.top free (Parse.clauseTest r hasDefault) := by
  unfold Parse.clauseTest
  infer_instance

instance clauses : Advances r source Goal.top free (Parse.clauses r) := by
  unfold Parse.clauses
  infer_instance

instance switchStatement : Advances r source rank taking (Parse.switchStatement r) := by
  unfold Parse.switchStatement
  infer_instance

instance catchParam : Advances r source Goal.top free (Parse.catchParam r) :=
  ifPunct (found (fun _ => inferInstance) inferInstance) inferInstance

instance catchClause : Advances r source Goal.top free (Parse.catchClause r) := by
  unfold Parse.catchClause
  infer_instance

instance tryStatement : Advances r source rank taking (Parse.tryStatement r) :=
  taken fun _ => andThen fun _ => andThen fun _ => either fun _ => andThen fun _ =>
    optional fun _ => inferInstance

/-! ## Loops -/

instance iterationBody : Advances r source Goal.top taking (Parse.iterationBody r) :=
  within

instance whileStatement : Advances r source rank taking (Parse.whileStatement r) := by
  unfold Parse.whileStatement
  infer_instance

instance doStatement : Advances r source rank taking (Parse.doStatement r) := by
  unfold Parse.doStatement
  infer_instance

instance targetHead : Advances r source Goal.top hits (Parse.targetHead r) :=
  @attempt _ _ _ _ _ (found (fun _ => inferInstance) inferInstance)

instance loopHead : Advances r source Goal.top free (Parse.loopHead r) :=
  andThen fun _ =>
    branch inferInstance (andThen fun _ => branch inferInstance
      (found (fun _ => inferInstance) inferInstance))

instance checkHead {start : Nat} {word : LoopWord} {head : Option Node} :
    Advances r source rank free (Parse.checkHead start word head) := by
  unfold Parse.checkHead
  split
  · split <;> infer_instance
  all_goals infer_instance

instance collectionLoop {start : Nat} {await : Bool} {head : Option Node} {word : LoopWord} :
    Advances r source Goal.top free (Parse.collectionLoop r start await head word) := by
  refine andThen fun _ => optional fun _ => andThen fun _ => ?_
  cases word <;> exact andThen fun _ => inferInstance

instance loopClauses {head : Option Node} :
    Advances r source Goal.top free (Parse.loopClauses r head) :=
  taken fun _ => andThen fun _ => either fun _ => taken fun _ => andThen fun _ => either fun _ =>
    inferInstance

instance countedLoop {head : Option Node} :
    Advances r source Goal.top free (Parse.countedLoop r head) := by
  unfold Parse.countedLoop
  dsimp only
  split
  · exact andThen fun _ => inferInstance
  · exact loopClauses

instance loopParts {start : Nat} {await : Bool} :
    Advances r source Goal.top free (Parse.loopParts r start await) := by
  refine andThen fun head => andThen fun word => ?_
  cases word with
  | some word => infer_instance
  | none => exact optional fun _ => inferInstance

instance loopRest {start : Nat} {await : Bool} :
    Advances r source rank taking (Parse.loopRest r start await) := by
  unfold Parse.loopRest
  infer_instance

instance forStatement : Advances r source rank taking (Parse.forStatement r) := by
  refine taken fun start => andThen fun await => branch ?_ ?_
  · exact andThen fun _ => optional fun _ => inferInstance
  · infer_instance

/-! ## Dispatch -/

instance expressionStatement :
    Advances r source (rank + 6) taking (Parse.expressionStatement r) := by
  unfold Parse.expressionStatement
  infer_instance

instance statementRule : Advances r source (rank + 6) taking (Parse.statementRule r) where
  reads e s hsource hs := by
    subst hsource
    refine Reads.look rfl ?_
    split
    · next hkind => exact Reads.takeAt hs hkind nofun inferInstance
    all_goals exact hs.reads

instance itemRule : Advances r source (rank + 6) taking (Parse.itemRule r) := by
  refine andThen fun k => ?_
  split <;> infer_instance

/-! ## Modules -/

instance exportName : Advances r source rank taking Parse.exportName where
  reads e s hsource hs := by
    subst hsource
    refine Reads.look rfl ?_
    split
    · next hname =>
      refine Reads.take hs (fun heof => ?_) inferInstance
      rw [heof] at hname
      cases hname
    · exact hs.reads

instance moduleSource : Advances r source rank taking Parse.moduleSource where
  reads e s hsource hs := by
    subst hsource
    have hsource := hs.placed.inSource
    refine Reads.look rfl ?_
    split
    · next hkind => exact Reads.takeAt hs (beq_iff_eq.mp hkind) nofun inferInstance
    · exact hs.reads

instance importAttribute : Advances r source rank taking Parse.importAttribute := by
  unfold Parse.importAttribute
  infer_instance

instance importAttributes : Advances r source rank free Parse.importAttributes := by
  unfold Parse.importAttributes
  infer_instance

instance importSpecifier : Advances r source rank taking Parse.importSpecifier := by
  unfold Parse.importSpecifier
  infer_instance

instance defaultSpecifier : Advances r source rank free Parse.defaultSpecifier := by
  unfold Parse.defaultSpecifier
  infer_instance

instance otherSpecifiers : Advances r source rank free Parse.otherSpecifiers := by
  refine andThen fun k => ?_
  split <;> infer_instance

instance importSpecifiers : Advances r source rank free Parse.importSpecifiers := by
  unfold Parse.importSpecifiers
  infer_instance

instance importDeclaration : Advances r source rank taking Parse.importDeclaration := by
  unfold Parse.importDeclaration
  infer_instance

instance exportSpecifier : Advances r source rank taking Parse.exportSpecifier := by
  unfold Parse.exportSpecifier
  infer_instance

instance checkPlain {list : List (ExportSpecifier × Bool)} :
    Advances r source rank free (Parse.checkPlain list) := by
  induction list with
  | nil => exact pure
  | cons x rest ih =>
    unfold Parse.checkPlain
    infer_instance

instance exportList {start : Nat} : Advances r source rank free (Parse.exportList start) := by
  unfold Parse.exportList
  infer_instance

instance exportEverything {start : Nat} :
    Advances r source rank free (Parse.exportEverything start) := by
  unfold Parse.exportEverything
  infer_instance

instance exportStandard {start : Nat} :
    Advances r source Goal.top free (Parse.exportStandard r start) :=
  andThen fun _ => andThen fun _ => andThen fun _ =>
    branch inferInstance (andThen fun _ => andThen fun _ => inferInstance)

instance exportedDeclaration : Advances r source Goal.top free (Parse.exportedDeclaration r) := by
  unfold Parse.exportedDeclaration
  infer_instance

instance exportDeclaration : Advances r source rank taking (Parse.exportDeclaration r) := by
  refine taken fun start => andThen fun k => ?_
  split <;> infer_instance

instance moduleItem : Advances r source Goal.top taking (Parse.moduleItem r) := by
  refine andThen fun here => branch (andThen fun k => ?_) inferInstance
  split <;> infer_instance

end EcmaStack.Advances

/-!
## Reading a file always gives an answer

The answer is a program, or a fault of the source with its place. The reader's own breakdowns
never happen: the fuel it starts with is enough (`answerGoal_reads`, by induction on it), scopes
are closed in the order they were opened, every declaration finds one, and nothing is taken for
a token or a pattern that is none.
-/

namespace EcmaStack

open Parse

variable {α : Type} {r : Rules} {e : Surroundings} {s t : ParseState} {source : Text}

/-! ## Goals -/

/-- The rule for a goal asks only for goals of a lower rank before it takes a token. -/
theorem Parse.rule_advances (g : Goal α) : Advances r source g.rank g.taken (rule r g) := by
  cases g with
  | expression => exact @Advances.commaExpression r 0 source
  | assignment => exact @Advances.assignmentExpression r 0 source
  | binary least => exact @Advances.binaryExpression r 0 source least
  | unary => exact @Advances.unaryExpression r 0 source
  | leftHandSide => exact @Advances.leftHandSideRule r 0 source
  | construct => exact @Advances.newExpression r 0 source
  | target binding => exact @Advances.patternTarget r 0 source binding
  | statement => exact @Advances.statementRule r 0 source
  | item => exact @Advances.itemRule r 0 source

/-- Fuel that is enough for the tokens that are left, and for a goal of a rank. -/
theorem Parse.answerGoal_reads {fuel : Nat} {g : Goal α} (hs : s.Placed e.source)
    (hfuel : nestingPerToken * s.left e.source + g.rank < fuel) :
    Reads (answerGoal fuel g) e s g.taken := by
  induction fuel generalizing α g e s with
  | zero => exact absurd hfuel (Nat.not_lt_zero _)
  | succ fuel ih =>
    refine (rule_advances g).reads e s rfl ⟨hs, fun g' e' t hsource ht hleft =>
      ih (hsource ▸ ht) ?_⟩
    have := g'.rank_lt_top
    unfold nestingPerToken Goal.top at *
    rw [hsource]
    omega

/-- With that much fuel, every goal is served. -/
theorem Parse.rulesWith_serve {fuel : Nat} (hs : s.Placed source)
    (hfuel : nestingPerToken * (source.length + 1) ≤ fuel) :
    (rulesWith fuel).Serve source Goal.top s := by
  refine ⟨hs, fun g e t hsource ht _ => answerGoal_reads (hsource ▸ ht) ?_⟩
  have := g.rank_lt_top
  have := ht.left_le
  unfold nestingPerToken Goal.top at *
  rw [hsource]
  omega

/-! ## Programs -/

/-- Where the first token is still to be read: the rule breaks nothing, and as many scopes are
open as before. -/
def Parse.Survives (p : Parse α) (e : Surroundings) (s : ParseState) : Prop :=
  match p e s with
  | .ok (_, t) => t.scopes.length = s.scopes.length
  | .error fault => fault.cause.isInternal = false

namespace Parse

variable {β : Type} {p : Parse α} {f : α → Parse β}

/-- What reads meets no internal fault. -/
theorem Reads.survives {k : α → Nat} (hp : Reads p e s k) : Survives p e s := by
  unfold Survives
  cases heq : p e s with
  | ok x => exact (hp.ahead heq).depth
  | error fault =>
    rw [Reads, heq] at hp
    exact hp

namespace Survives

/-- After a rule that was read. -/
theorem after {a : α} (h : p e s = .ok (a, t)) (hscopes : t.scopes.length = s.scopes.length)
    (hf : Survives (f a) e t) :
    Survives (p >>= f) e s := by
  unfold Survives
  change (match Parse.andThen p f e s with
    | .ok (_, u) => u.scopes.length = s.scopes.length
    | .error fault => fault.cause.isInternal = false)
  rw [Parse.andThen, h, ← hscopes]
  exact hf

/-- A rule survives if what comes first does and, at each answer of that, what follows. -/
theorem bind (hp : Survives p e s) (hf : ∀ a t, p e s = .ok (a, t) → Survives (f a) e t) :
    Survives (p >>= f) e s := by
  cases heq : p e s with
  | ok x =>
    rw [Survives, heq] at hp
    exact after heq hp (hf x.1 x.2 heq)
  | error fault =>
    rw [Survives, heq] at hp
    unfold Survives
    change (match Parse.andThen p f e s with
      | .ok (_, u) => u.scopes.length = s.scopes.length
      | .error fault => fault.cause.isInternal = false)
    rw [Parse.andThen, heq]
    exact hp

/-- The first token is read. -/
theorem next {p : Parse α} (hcursor : (Cursor.ofText e.source).Reaches s.cursor)
    (hopened : s.scopes ≠ []) (hp : ∀ t, t.Placed e.source → Survives p e t) :
    Survives (Parse.next >>= fun _ => p) e s := by
  rcases next_cases (e := e) hcursor with ⟨fault, hnext, hcause⟩ | ⟨t, hnext, hscopes, place, _,
    hplace, hstands⟩
  · refine bind ?_ fun _ t hok => ?_
    · rw [Survives, hnext]
      exact hcause
    · rw [hnext] at hok
      cases hok
  · exact after hnext (by rw [hscopes]) (hp t ⟨⟨place, hplace, hstands⟩, hscopes ▸ hopened⟩)

/-- A scope around a rule that survives: it is there when it is closed. -/
theorem inScope {p : Parse α} {scope : Scope} (hp : Survives p e (s.enter scope)) :
    Survives (Parse.inScope scope p) e s := by
  have hread : Parse.inScope scope p e s = Parse.andThen p (fun a =>
      Parse.andThen (closeScope s.scopes.length) fun closed =>
      answer (a, closed)) e (s.enter scope) :=
    rfl
  unfold Survives
  rw [hread, Parse.andThen]
  cases heq : p e (s.enter scope) with
  | error fault =>
    rw [Survives, heq] at hp
    exact hp
  | ok x =>
    rw [Survives, heq] at hp
    dsimp only
    rw [Parse.andThen, closeScope_of_depth hp]
    exact List.length_tail.trans (Nat.sub_eq_of_eq_add hp)

end Survives

/-- The first line is taken if it names an interpreter. No token has been read by then. -/
theorem interpreterLine_ok : ∃ name t, interpreterLine e s = .ok (name, t) ∧ t.scopes = s.scopes ∧
    s.cursor.Reaches t.cursor := by
  unfold interpreterLine
  change ∃ name t, Parse.andThen Parse.get _ e s = .ok (name, t) ∧ _
  rw [Parse.andThen, Parse.get]
  dsimp only
  cases hline : readHashbang s.cursor with
  | none => exact ⟨[], s, rfl, rfl, .refl _⟩
  | some x => exact ⟨x.1.value, _, rfl, rfl, readHashbang_reaches hline⟩

end Parse

/-- A program is read without a breakdown, if there is fuel for its tokens. -/
theorem Parse.program_survives {fuel : Nat}
    (hfuel : nestingPerToken * (e.source.length + 1) ≤ fuel) :
    Survives (program (rulesWith fuel)) e (.initial e.source) := by
  refine Survives.after rfl rfl (.bind (.inScope ?_) fun _ _ _ => rfl)
  obtain ⟨name, t, hline, hscopes, hreaches⟩ := @interpreterLine_ok e
    ((ParseState.initial e.source).enter (functionScope false e.module))
  refine .after hline (congrArg List.length hscopes) (.next hreaches (by rw [hscopes]; nofun)
    fun t ht => ?_)
  have hrest : Advances (rulesWith fuel) e.source Goal.top free (do
      let ds ← directives
      let items ← itemsUntil (· == .eof) (moduleItem (rulesWith fuel))
      return (name, ds, items)) := inferInstance
  exact (hrest.reads e t rfl (rulesWith_serve ht hfuel)).survives

/-- A position that an offset of a file has. -/
theorem SourceFile.position_valid (f : SourceFile) (offset : Nat) :
    1 ≤ (f.position offset).line ∧ (f.position offset).offset ≤ f.size := by
  have hfirst : 0 < (f.lineStarts.takeWhile (· ≤ min offset f.size)).length := by
    rw [SourceFile.lineStarts, List.takeWhile_cons_of_pos
      (p := fun start => decide (start ≤ min offset f.size))
      (decide_eq_true (Nat.zero_le _))]
    exact Nat.succ_pos _
  exact ⟨Int.ofNat_lt.mpr hfirst, Nat.min_le_right _ _⟩

/-- Every file, whatever its bytes, is read as a program, or there is a fault of the source at a
position of the file. -/
theorem parseFile_answers (file : SourceFile) (module : Bool) (compiler : PatternCompiler) :
    (∃ p, parseFile file module compiler = .ok p) ∨
    ∃ error, parseFile file module compiler = .error error ∧ error.cause.isInternal = false ∧
      1 ≤ error.position.line ∧ error.position.offset ≤ file.size := by
  have hfuel : nestingPerToken * (file.text.length + 1) ≤
      nestingPerToken * (file.text.length + 2) :=
    Nat.mul_le_mul_left _ (Nat.le_succ _)
  have hprogram := program_survives (e := ⟨file.text, module, compiler, {}⟩) hfuel
  have htext : parseText file.text module compiler =
      (program (rulesWith (nestingPerToken * (file.text.length + 2))) ⟨file.text, module,
        compiler, {}⟩
        (.initial file.text)).map (·.1) := rfl
  rw [parseFile, htext]
  cases hread : program (rulesWith (nestingPerToken * (file.text.length + 2))) ⟨file.text, module,
    compiler, {}⟩ (.initial file.text) with
  | ok x => exact .inl ⟨x.1, rfl⟩
  | error fault =>
    rw [Survives, hread] at hprogram
    exact .inr ⟨⟨file.position fault.offset, fault.cause⟩, rfl, hprogram,
      file.position_valid fault.offset⟩

end EcmaStack
