import EcmaStack.Proofs.Grouping.Operators

/-!
# Statements and modules are read in order

Statements, declarations, imports and exports keep in step, and the operators in the expressions
and patterns that they hold are grouped.
-/

namespace EcmaStack.Parse

open Node (Orderly)

variable {r : Rules} {e : Surroundings} {source : Text}

/-- A part that a rule may read, or leave out. -/
theorem optional_orderly {α : Type} {node : α → Node} {p : Parse α}
    (h : Delivers p e fun a => Orderly e.source [node a]) :
    Delivers (some <$> p) e fun o => ∀ a ∈ o, Orderly e.source [node a] :=
  h.bind fun _ ha => .pure (present ha)

/-! ## Variable declarations -/

/-- The value of a declarator is a single expression, which ends at a comma. -/
theorem declarator_orderly (h : r.Grouping) (kind : DeclKind) :
    Delivers (declarator r kind) e fun d => Orderly e.source [.declarator d] := by
  refine .skip fun start => .skip fun _ => .skip fun _ => .skipIf fun _ =>
    (h.target e true).bind fun o ho => ?_
  cases o with
  | none => exact .unexpected
  | some target =>
    refine (h.value e).behind.bind fun o' ho' => .skip fun _ => .skip fun _ => .pure ?_
    exact ((ho target rfl).cons (.maybe ho')).node rfl rfl

theorem declarators_orderly (h : r.Grouping) (kind : DeclKind) :
    Delivers (declarators r kind) e fun list => ∀ d ∈ list, Orderly e.source [.declarator d] := by
  refine .collecting (Q := fun d => Orderly e.source [.declarator d]) fun items hitems => ?_
  refine (declarator_orderly h kind).bind fun d hd => .skip fun _ =>
    .ite (fun _ => .skip fun _ => ?_) fun _ => ?_
  · exact .pure (extended (P := fun d => Orderly e.source [.declarator d]) hd hitems)
  · exact .pure (reversed (extended (P := fun d => Orderly e.source [.declarator d]) hd hitems))

theorem variableDeclaration_orderly (h : r.Grouping) :
    Delivers (variableDeclaration r) e fun d => Orderly e.source [.stmt (.declaration d)] := by
  refine .skip fun start => .skip fun kind => (declarators_orderly h kind).bind fun list hlist =>
    .skip fun _ => .pure ?_
  exact (Orderly.map hlist).node rfl rfl

theorem variableStatement_orderly (h : r.Grouping) :
    Delivers (variableStatement r) e fun s => Orderly e.source [.stmt s] := by
  refine (variableDeclaration_orderly h).bind fun d hd => .skip fun _ => .skip fun _ =>
    .skip fun _ => .pure ?_
  exact hd.slots.node rfl rfl

theorem functionDeclaration_orderly (h : r.Grouping) (nameOptional : Bool) :
    Delivers (functionDeclaration r nameOptional) e fun s => Orderly e.source [.stmt s] := by
  refine (function_orderly h true nameOptional).bind fun f hf => ?_
  dsimp only
  split
  · exact .skip fun _ => .pure (hf.node rfl rfl)
  · exact .pure (hf.node rfl rfl)

theorem classDeclaration_orderly (h : r.Grouping) (nameOptional : Bool) :
    Delivers (classDeclaration r nameOptional) e fun s => Orderly e.source [.stmt s] := by
  refine (classLiteral_orderly h true nameOptional).bind fun c hc => ?_
  dsimp only
  split
  · exact .skip fun _ => .pure (hc.node rfl rfl)
  · exact .pure (hc.node rfl rfl)

/-! ## Blocks and jumps -/

theorem block_orderly (h : r.Grouping) :
    Delivers (block r) e fun b => Orderly e.source [.stmt (.block b)] := by
  have hbody : Delivers (inBlock do
      let items ← itemsUntil (· == .punct .rightBrace) r.item
      next
      return items) e fun x => ∀ b ∈ x.1, Orderly e.source [.stmt b] :=
    .inBlock (Q := fun items => ∀ b ∈ items, Orderly e.source [.stmt b])
      ((Delivers.itemsUntil (h.item e)).bind fun items hitems => .skip fun _ => .pure hitems)
  refine .skip fun start => hbody.bind fun x hx => ?_
  obtain ⟨items, scope⟩ := x
  exact .skip fun _ => .pure ((Orderly.map hx).node rfl rfl)

theorem condition_orderly (h : r.Grouping) :
    Delivers (condition r) e fun x => Orderly e.source [.expr x] :=
  .skip fun _ => (h.expression e).bind fun _ hx => .skip fun _ => .pure hx

/-- A label has nothing to group. -/
theorem labelledStatement_orderly (h : r.Grouping) :
    Delivers (labelledStatement r) e fun s => Orderly e.source [.stmt s] := by
  refine .skip fun t => .skip fun _ => .skipIf fun _ => .skip fun _ => .skip fun _ => .skip fun _ =>
    .skipIf fun _ => ?_
  refine .skip fun k => (Delivers.within (h.statement _)).bind fun body hbody => .skip fun _ =>
    .pure ?_
  exact ((maybe_name_orderly _).append hbody).node rfl rfl

theorem breakStatement_orderly : Delivers breakStatement e fun s => Orderly e.source [.stmt s] := by
  have hrest (start : Nat) (label : Option Name) : Delivers (do
      semicolon
      return Stmt.breakOff (← spanFrom start) label) e fun s => Orderly e.source [.stmt s] :=
    .skip fun _ => .skip fun _ => .pure ((maybe_name_orderly label).node rfl rfl)
  refine .skip fun start => .skip fun label => .skip fun _ => ?_
  dsimp only
  split
  · exact .skipIf fun _ => hrest start _
  · exact .skipIf fun _ => hrest start none

theorem continueStatement_orderly :
    Delivers continueStatement e fun s => Orderly e.source [.stmt s] := by
  have hrest (start : Nat) (label : Option Name) : Delivers (do
      semicolon
      return Stmt.carryOn (← spanFrom start) label) e fun s => Orderly e.source [.stmt s] :=
    .skip fun _ => .skip fun _ => .pure ((maybe_name_orderly label).node rfl rfl)
  refine .skip fun start => .skip fun label => .skip fun _ => ?_
  dsimp only
  split
  · split
    · exact .bind (Q := fun _ => False) .failAt fun _ => False.elim
    · exact .skipIf fun _ => hrest start _
  · exact .skipIf fun _ => hrest start none

theorem returnStatement_orderly (h : r.Grouping) :
    Delivers (returnStatement r) e fun s => Orderly e.source [.stmt s] := by
  refine .skip fun start => .skip fun _ => .skipIf fun _ => .skip fun _ => ?_
  refine .ite_bind (.pure absent) (optional_orderly (h.expression e)) fun o ho => ?_
  exact .skip fun _ => .skip fun _ => .pure ((Orderly.maybe ho).node rfl rfl)

theorem throwStatement_orderly (h : r.Grouping) :
    Delivers (throwStatement r) e fun s => Orderly e.source [.stmt s] := by
  refine .skip fun start => .skip fun _ => .skipIf fun _ => (h.expression e).bind fun x hx => ?_
  exact .skip fun _ => .skip fun _ => .pure (hx.node rfl rfl)

theorem debuggerStatement_orderly :
    Delivers debuggerStatement e fun s => Orderly e.source [.stmt s] :=
  .skip fun _ => .skip fun _ => .skip fun _ => .pure (.leaf rfl rfl)

/-! ## Branches -/

theorem ifStatement_orderly (h : r.Grouping) :
    Delivers (ifStatement r) e fun s => Orderly e.source [.stmt s] := by
  refine .skip fun start => (condition_orderly h).bind fun test htest =>
    (h.statement e).bind fun yes hyes => ?_
  exact (h.statement e).behind.bind fun no hno => .skip fun _ =>
    .pure ((htest.cons (hyes.cons (.maybe hno))).node rfl rfl)

theorem clauseTest_orderly (h : r.Grouping) (hasDefault : Bool) :
    Delivers (clauseTest r hasDefault) e fun o => ∀ x ∈ o, Orderly e.source [.expr x] := by
  refine .skip fun _ => .ite (fun _ => .skipIf fun _ => .skip fun _ => .pure absent) fun _ => ?_
  exact .skip fun _ => (h.expression e).bind fun x hx => .pure (present hx)

theorem clauses_orderly (h : r.Grouping) :
    Delivers (clauses r) e fun cases => ∀ c ∈ cases, Orderly e.source [.caseClause c] := by
  refine .collecting (Q := fun c => Orderly e.source [.caseClause c]) fun items hitems => ?_
  refine .skip fun _ => .ite (fun _ => .pure (reversed hitems)) fun _ => .skip fun start => ?_
  refine (clauseTest_orderly h _).bind fun test htest => .skip fun _ => ?_
  refine (Delivers.itemsUntil (h.item e)).bind fun body hbody => .skip fun _ => .pure ?_
  exact extended (P := fun c => Orderly e.source [.caseClause c])
    (((Orderly.maybe htest).append (.map hbody)).node rfl rfl)
    hitems

theorem switchStatement_orderly (h : r.Grouping) :
    Delivers (switchStatement r) e fun s => Orderly e.source [.stmt s] := by
  refine .skip fun start => (condition_orderly h).bind fun discriminant hdiscriminant =>
    .skip fun _ => ?_
  refine (Delivers.inBlock (.within ((clauses_orderly h).bind fun cases hcases => .skip fun _ =>
    .pure hcases))).bind
    fun x hx => ?_
  obtain ⟨cases, scope⟩ := x
  exact .skip fun _ => .pure ((hdiscriminant.cons (.map hx)).node rfl rfl)

theorem catchParam_orderly (h : r.Grouping) :
    Delivers (catchParam r) e fun o => ∀ p ∈ o, Orderly e.source [.pattern p] := by
  refine .skip fun _ => .ite (fun _ => .skip fun _ => (h.target e true).bind fun o ho => ?_)
    fun _ => .pure absent
  cases o with
  | none => exact .unexpected
  | some p => exact .skip fun _ => .skip fun _ => .pure ho

theorem catchClause_orderly (h : r.Grouping) :
    Delivers (catchClause r) e fun c => Orderly e.source [.catchClause c] := by
  refine .skip fun start => .skip fun _ => ?_
  refine Delivers.bind (.inBlock (Q := fun x : Option Pattern × List Stmt =>
    Orderly e.source (Node.maybe .pattern x.1 ++ x.2.map .stmt)) ?_) fun x hx => ?_
  · refine (catchParam_orderly h).bind fun param hparam => .skip fun _ => ?_
    refine (Delivers.itemsUntil (h.item e)).bind fun body hbody => .skip fun _ => .pure ?_
    exact .append (.maybe hparam) (.map hbody)
  · obtain ⟨⟨param, body⟩, scope⟩ := x
    exact .skip fun _ => .pure (hx.node rfl rfl)

theorem tryStatement_orderly (h : r.Grouping) :
    Delivers (tryStatement r) e fun s => Orderly e.source [.stmt s] := by
  refine .skip fun start => (block_orderly h).bind fun main hmain => .skip fun _ => ?_
  refine .ite_bind (optional_orderly (catchClause_orderly h)) (.pure absent) fun handler hhandler =>
    ?_
  refine (block_orderly h).behind.bind fun finalizer hfinalizer => .skipIf fun _ =>
    .skip fun _ => .pure ?_
  exact ((hmain.cons (.maybe hhandler)).append (.maybe hfinalizer)).node rfl rfl

/-! ## Loops -/

theorem iterationBody_orderly (h : r.Grouping) :
    Delivers (iterationBody r) e fun s => Orderly e.source [.stmt s] :=
  .within (h.statement _)

theorem whileStatement_orderly (h : r.Grouping) :
    Delivers (whileStatement r) e fun s => Orderly e.source [.stmt s] := by
  refine .skip fun start => (condition_orderly h).bind fun test htest => ?_
  exact (iterationBody_orderly h).bind fun body hbody => .skip fun _ =>
    .pure ((htest.pair hbody).node rfl rfl)

theorem doStatement_orderly (h : r.Grouping) :
    Delivers (doStatement r) e fun s => Orderly e.source [.stmt s] := by
  refine .skip fun start => (iterationBody_orderly h).bind fun body hbody => .skip fun _ => ?_
  refine (condition_orderly h).bind fun test htest => .skip fun _ => .skipIf fun _ =>
    .skip fun _ => ?_
  exact .pure ((hbody.pair htest).node rfl rfl)

/-- A target of a loop is the same as a head. -/
theorem patternHead_orderly {p : Pattern} (h : Orderly source [.pattern p]) :
    Orderly source [patternHead p] := by
  cases p with
  | target x =>
    have hgrouped : (Node.pattern (.target x)).Grouped source :=
      h _ List.mem_cons_self _ (Node.mem_walk_self _)
    refine .close h.slots ?_
    cases x <;> exact hgrouped
  | array => exact h
  | object => exact h

/-- The head of a loop may be a target that was read before it was known for one. -/
theorem targetHead_orderly (h : r.Grouping) :
    Delivers (targetHead r) e fun o => ∀ n ∈ o, Orderly e.source [n] := by
  refine .attempt ((h.target e false).bind fun o ho => ?_)
  cases o with
  | none => exact .pure absent
  | some p =>
    refine .skip fun _ => .pure ?_
    split
    · exact present (patternHead_orderly (ho p rfl))
    · exact absent

theorem loopHead_orderly (h : r.Grouping) :
    Delivers (loopHead r) e fun o => ∀ n ∈ o, Orderly e.source [n] := by
  refine .skip fun _ => .ite (fun _ => .pure absent) fun _ => .skip fun _ =>
    .ite (fun _ => ?_) fun _ => ?_
  · exact (Delivers.within (variableDeclaration_orderly h)).bind fun d hd => .pure (present hd)
  · refine (targetHead_orderly h).bind fun o ho => ?_
    cases o with
    | some n => exact .pure ho
    | none => exact (Delivers.within (h.expression _)).bind fun x hx => .pure (present hx)

/-- A loop whose head, tests and body are orderly, whatever its range and its scope are. -/
private def Fills (source : Text) (build : Span → Option Scope → Stmt) : Prop :=
  ∀ span scope, Orderly source [.stmt (build span scope)]

/-- What a loop goes over is one expression, and behind `of` a single one. -/
theorem collectionLoop_orderly (h : r.Grouping) (start : Nat) (await : Bool) {head : Option Node}
    (hhead : ∀ n ∈ head, Orderly e.source [n]) (word : LoopWord) :
    Delivers (collectionLoop r start await head word) e (Fills e.source) := by
  have hleft {right : Expr} (hright : Orderly e.source [.expr right]) :
      Orderly e.source [head.getD (.expr right)] := by
    cases head with
    | none => exact hright
    | some n => exact hhead n rfl
  refine .skip fun _ => .skipIf fun _ => .skip fun _ => ?_
  cases word with
  | forOf =>
    refine (h.value e).bind fun right hright => .skip fun _ =>
      (iterationBody_orderly h).bind fun body hbody => .pure ?_
    exact fun _ _ => ((hleft hright).cons (hright.pair hbody)).node rfl rfl
  | forIn =>
    refine (h.expression e).bind fun right hright => .skip fun _ =>
      (iterationBody_orderly h).bind fun body hbody => .pure ?_
    exact fun _ _ => ((hleft hright).cons (hright.pair hbody)).node rfl rfl

theorem loopClauses_orderly (h : r.Grouping) {head : Option Node}
    (hhead : ∀ n ∈ head, Orderly e.source [n]) :
    Delivers (loopClauses r head) e (Fills e.source) := by
  have hheads : Orderly e.source head.toList := by
    cases head with
    | none => exact .nil
    | some n => exact hhead n rfl
  have hexpression := optional_orderly (h.expression e)
  refine .skip fun _ => .skip fun _ => .ite_bind (.pure absent) hexpression fun test htest => ?_
  refine .skip fun _ => .skip fun _ => .ite_bind (.pure absent) hexpression fun update hupdate => ?_
  refine .skip fun _ => (iterationBody_orderly h).bind fun body hbody => .pure fun _ _ => ?_
  exact (((hheads.append (.maybe htest)).append (.maybe hupdate)).append hbody).node rfl rfl

/-- The clauses of a counted loop are expressions of their own. -/
theorem countedLoop_orderly (h : r.Grouping) {head : Option Node}
    (hhead : ∀ n ∈ head, Orderly e.source [n]) :
    Delivers (countedLoop r head) e (Fills e.source) := by
  unfold countedLoop
  split
  · exact .skip fun _ => loopClauses_orderly h hhead
  · exact .bind_pure (loopClauses_orderly h hhead)

theorem loopParts_orderly (h : r.Grouping) (start : Nat) (await : Bool) :
    Delivers (loopParts r start await) e (Fills e.source) := by
  refine (loopHead_orderly h).bind fun head hhead => .skip fun word => ?_
  cases word with
  | some word => exact collectionLoop_orderly h start await hhead word
  | none => exact .skipIf fun _ => countedLoop_orderly h hhead

theorem forStatement_orderly (h : r.Grouping) :
    Delivers (forStatement r) e fun s => Orderly e.source [.stmt s] := by
  refine .skip fun start => .skip fun await =>
    .ite_rest (fun hrest => .skip fun _ => .skipIf fun _ => .skip fun _ => hrest) ?_
  refine .skip fun _ => Delivers.bind (.inBlock (loopParts_orderly h start await)) fun x hx => ?_
  obtain ⟨build, scope⟩ := x
  exact .skip fun span => .pure (hx span scope)

/-! ## Dispatch -/

theorem expressionStatement_orderly (h : r.Grouping) :
    Delivers (expressionStatement r) e fun s => Orderly e.source [.stmt s] := by
  refine .skip fun start => (h.expression e).bind fun x hx => .skip fun _ => .skip fun _ => .pure ?_
  exact hx.node rfl rfl

/-- A statement is orderly whichever token it begins with. -/
theorem statementRule_orderly (h : r.Grouping) :
    Delivers (statementRule r) e fun s => Orderly e.source [.stmt s] := by
  refine .skip fun t => ?_
  split
  · exact .skip fun _ => .skip fun _ => .pure (.leaf rfl rfl)
  · exact (block_orderly h).bind fun b hb => .pure hb
  · exact variableStatement_orderly h
  · exact ifStatement_orderly h
  · exact doStatement_orderly h
  · exact whileStatement_orderly h
  · exact forStatement_orderly h
  · exact breakStatement_orderly
  · exact continueStatement_orderly
  · exact debuggerStatement_orderly
  · exact switchStatement_orderly h
  · exact returnStatement_orderly h
  · exact throwStatement_orderly h
  · exact tryStatement_orderly h
  · exact .fail
  · exact .fail
  · exact .fail
  · exact .fail
  · exact .fail
  · exact .skip fun _ => .ite (fun _ => labelledStatement_orderly h) fun _ =>
      expressionStatement_orderly h
  · exact expressionStatement_orderly h

theorem itemRule_orderly (h : r.Grouping) :
    Delivers (itemRule r) e fun s => Orderly e.source [.stmt s] := by
  refine .skip fun k => ?_
  split
  · exact functionDeclaration_orderly h false
  · exact classDeclaration_orderly h false
  · exact classDeclaration_orderly h false
  · exact variableStatement_orderly h
  · exact variableStatement_orderly h
  · refine .skip fun _ => .ite (fun _ => functionDeclaration_orderly h false) fun _ => ?_
    exact .skip fun _ => .ite (fun _ => variableStatement_orderly h) fun _ =>
      statementRule_orderly h
  · exact statementRule_orderly h

/-! ## Modules -/

theorem importSpecifier_orderly (x : ImportSpecifier) : Orderly source [.importSpecifier x] := by
  cases x with
  | named => exact ((name_orderly _).pair (name_orderly _)).node rfl rfl
  | standard => exact (maybe_name_orderly _).node rfl rfl
  | whole => exact (maybe_name_orderly _).node rfl rfl

theorem exportSpecifier_orderly (x : ExportSpecifier) : Orderly source [.exportSpecifier x] :=
  ((maybe_name_orderly x.inner).append (maybe_name_orderly x.exported)).node rfl rfl

theorem string_orderly (l : StringLiteral) : Orderly source [.string l] :=
  .leaf rfl rfl

theorem importAttribute_orderly (a : ImportAttribute) : Orderly source [.importAttribute a] :=
  (string_orderly a.value).node rfl rfl

/-- Whatever is imported or exported by name holds no operators. -/
theorem importDeclaration_orderly :
    Delivers importDeclaration e fun s => Orderly e.source [.stmt s] := by
  refine .skip fun _ => .skip fun specifiers => .skip fun from' => .skip fun attributes =>
    .skip fun _ => ?_
  refine .skip fun _ => .skip fun _ => .pure ?_
  have hspecifiers : Orderly e.source (specifiers.map .importSpecifier) :=
    .map fun x _ => importSpecifier_orderly x
  have hattributes : Orderly e.source (attributes.map .importAttribute) :=
    .map fun a _ => importAttribute_orderly a
  exact (hspecifiers.append ((string_orderly from').cons hattributes)).node rfl rfl

theorem exportEverything_orderly (start : Nat) :
    Delivers (exportEverything start) e fun s => Orderly e.source [.stmt s] := by
  refine .skip fun _ => .skip fun exported => .skip fun _ => .skip fun from' =>
    .skip fun attributes => ?_
  refine .skip fun _ => .skip fun _ => .pure ?_
  have hattributes : Orderly e.source (attributes.map .importAttribute) :=
    .map fun a _ => importAttribute_orderly a
  exact ((maybe_name_orderly exported).append ((string_orderly from').cons hattributes)).node
    rfl rfl

theorem exportList_orderly (start : Nat) :
    Delivers (exportList start) e fun s => Orderly e.source [.stmt s] := by
  refine .skip fun _ => .skip fun specifiers => .skip fun _ => .skip fun origin => .skip fun _ =>
    .skip fun _ => .pure ?_
  obtain ⟨from', attributes⟩ := origin
  have hspecifiers : Orderly e.source ((specifiers.map (·.1)).map .exportSpecifier) :=
    .map fun x _ => exportSpecifier_orderly x
  have hfrom : Orderly e.source (Node.maybe .string from') := .maybe fun l _ => string_orderly l
  have hattributes : Orderly e.source (attributes.map .importAttribute) :=
    .map fun a _ => importAttribute_orderly a
  exact ((hspecifiers.append hfrom).append hattributes).node rfl rfl

theorem exportStandard_orderly (h : r.Grouping) (start : Nat) :
    Delivers (exportStandard r start) e fun s => Orderly e.source [.stmt s] := by
  refine .skip fun _ => .skip fun _ => .skip fun _ => .ite (fun _ => ?_) fun _ => ?_
  · exact (functionDeclaration_orderly h true).bind fun s hs => .skip fun _ =>
      .pure (hs.node rfl rfl)
  · refine .skip fun _ => .skip fun _ => .ite (fun _ => ?_) fun _ => ?_
    · exact (classDeclaration_orderly h true).bind fun s hs => .skip fun _ =>
        .pure (hs.node rfl rfl)
    · exact (h.value e).bind fun x hx => .skip fun _ => .skip fun _ => .pure (hx.node rfl rfl)

theorem exportedDeclaration_orderly (h : r.Grouping) :
    Delivers (exportedDeclaration r) e fun s => Orderly e.source [.stmt s] := by
  refine .skip fun _ => .ite (fun _ => variableStatement_orderly h) fun _ => .skip fun _ =>
    .skip fun _ => ?_
  refine .ite (fun _ => functionDeclaration_orderly h false) fun _ => .skip fun _ =>
    .skip fun _ => ?_
  exact .ite (fun _ => classDeclaration_orderly h false) fun _ => .unexpected

theorem exportDeclaration_orderly (h : r.Grouping) :
    Delivers (exportDeclaration r) e fun s => Orderly e.source [.stmt s] := by
  refine .skip fun start => .skip fun k => ?_
  split
  · exact exportEverything_orderly start
  · exact exportStandard_orderly h start
  · exact exportList_orderly start
  · exact (exportedDeclaration_orderly h).bind fun s hs => .skip fun _ => .pure (hs.node rfl rfl)

/-- An item of a module is orderly. -/
theorem moduleItem_orderly (h : r.Grouping) :
    Delivers (moduleItem r) e fun s => Orderly e.source [.stmt s] := by
  refine .skip fun here => .ite (fun _ => .skip fun k => ?_) fun _ => h.item e
  split
  · exact .skip fun t => .ite (fun _ => importDeclaration_orderly) fun _ => h.item e
  · exact exportDeclaration_orderly h
  · exact h.item e

end EcmaStack.Parse

/-!
## Operators in programs are grouped

By induction on the depth to which goals nest, every goal is answered in step and with trees
whose operators are grouped (`rulesWith_grouping`); so in every program that is read each
operator stands between operands that its tier allows (`operators_grouped`).
-/

namespace EcmaStack

open Node (Orderly)
open ParseState (Onward)
open Parse
open Scope (Numbered)

variable {e : Surroundings}

namespace Parse

/-- Each goal is answered in step and in order if the goals inside it are. -/
theorem rulesWith_grouping (fuel : Nat) : (rulesWith fuel).Grouping := by
  induction fuel with
  | zero =>
    exact {
      charted := rulesWith_charted 0
      expression := fun _ => .fail
      assignment := fun _ => .fail
      binary := fun _ _ => .fail
      stops := fun _ _ _ _ => .fail
      unary := fun _ => .fail
      leftHandSide := fun _ => .fail
      construct := fun _ => .fail
      target := fun _ _ => .fail
      statement := fun _ => .fail
      item := fun _ => .fail }
  | succ fuel ih =>
    exact {
      charted := rulesWith_charted (fuel + 1)
      expression := fun _ => commaExpression_orderly ih
      assignment := fun _ => assignmentExpression_orderly ih
      binary := fun _ least => binaryExpression_orderly ih least
      stops := fun _ least _ hs => (binaryExpression_climbs ih least hs).mono fun _ _ h => h.2
      unary := fun _ => unaryExpression_orderly ih
      leftHandSide := fun _ => leftHandSide_orderly ih
      construct := fun _ => newExpression_orderly ih
      target := fun _ binding => patternTarget_orderly ih binding
      statement := fun _ => statementRule_orderly ih
      item := fun _ => itemRule_orderly ih }

/-- After the interpreter line, whatever follows in a program is read in step. -/
theorem program_orderly (fuel : Nat) :
    Holds (program (rulesWith fuel)) e (.initial e.source) fun p _ =>
    Orderly e.source [.program p] := by
  have hbody (interpreter : Text) : Delivers (do
      let ds ← directives
      let items ← itemsUntil (· == .eof) (moduleItem (rulesWith fuel))
      return (interpreter, ds, items)) e fun x =>
        Orderly e.source (x.2.1.map .directive ++ x.2.2.map .stmt) := by
    refine .skip fun ds => (Delivers.itemsUntil (moduleItem_orderly (rulesWith_grouping fuel))).bind
      fun items hitems => ?_
    exact .pure (.append (.map fun _ _ => .leaf rfl rfl) (.map hitems))
  refine .known rfl
    (.bind (.inScope (P := fun x _ => Orderly e.source (x.2.1.map .directive ++ x.2.2.map .stmt))
      ?_) ?_)
  · refine .bind interpreterLine_ends fun interpreter s ⟨hcursor, hended, hscopes, hfresh⟩ => ?_
    refine .bind (P := fun _ t => t.InStep e.source) (fun a t hnext => ?_) fun _ t ht => ?_
    · obtain ⟨ht, hscopes', hfresh'⟩ := next_scanned hended hcursor hnext
      refine ⟨ht, ?_⟩
      rw [hscopes', hfresh', hscopes, hfresh]
      exact initial_numbered
    · exact (hbody interpreter t ht).mono fun _ _ hx => hx.2
  · rintro ⟨⟨interpreter, ds, items⟩, scope⟩ t ⟨_, hx, _⟩
    exact .pure (hx.node rfl rfl)

end Parse

/-! ### Whole programs -/

/-- In every program that is read, every operator with two operands is grouped as the tiers
demand, and stands between its operands. -/
theorem operators_grouped {file : SourceFile} {module : Bool} {compiler : PatternCompiler}
    {p : Program} (h : parseFile file module compiler = .ok p) :
    ∀ span op left right, .expr (.binary span op left right) ∈ (Node.program p).walk →
      Operation file.text span op left right := by
  intro span op left right hm
  unfold parseFile at h
  split at h
  · next q hq =>
    cases h
    obtain ⟨⟨_, t⟩, hread, rfl⟩ := Scope.map_ok hq
    exact program_orderly _ _ t hread _ List.mem_cons_self _ hm
  · cases h

/-- A script with operators of many tiers, two of which parentheses keep apart. -/
def tieredScript : SourceFile :=
  .ofString "tiered.js" "x = a + b * c ** d ** -e, (f ?? g) || h"

theorem operators_grouped_tieredScript : ∃ p, parseFile tieredScript false = .ok p ∧
    (Node.program p).walk.countP Node.isOperation = 7 ∧
    ∀ span op left right, .expr (.binary span op left right) ∈ (Node.program p).walk →
      Operation tieredScript.text span op left right := by
  have hread : ((parseFile tieredScript false).toOption.any fun p =>
      (Node.program p).walk.countP Node.isOperation == 7) = true := by decide +kernel
  cases hp : parseFile tieredScript false with
  | ok p =>
    rw [hp] at hread
    exact ⟨p, rfl, by simpa [Except.toOption] using hread, operators_grouped hp⟩
  | error fault =>
    rw [hp] at hread
    cases hread

end EcmaStack
