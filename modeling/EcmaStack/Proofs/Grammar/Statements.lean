import EcmaStack.Proofs.Grammar.Expressions

/-!
# Statements and programs are read grammatical

A `break` or `continue` is accepted where the region has an exit for it, and a statement that
opens an exit reads what stands inside in a region that has it. A declaration puts its names
into the open scopes; they are still there when those scopes are closed, so they are bound in
the chain of the finished scopes. By induction on the depth to which goals nest, every program
that is read is grammatical (`parseFile_grammatical`).
-/

namespace EcmaStack

open Scope (BindsAll)

namespace Parse

variable {r : Rules} {e : Surroundings}

/-! ## Declarations -/

/-- A target of a declaration whose names the chain binds, with its initializer. -/
private def Declarator.Parts (calls : Bool) (chain : List Scope) (d : Declarator) : Prop :=
  BindsAll chain d.target.boundNames ∧ d.target.Grammatical calls ∧
    ∀ x ∈ d.initializer, x.Grammatical calls

/-- A declarator binds the names of its target in the scopes that are open, which hold
them from then on. -/
theorem declarator_grammatical (h : r.Sound) (kind : DeclKind) :
    Yields (declarator r kind) e (Declarator.Parts e.calls) := by
  refine .skip fun start => .skip fun _ => .skip fun _ => .skipIf fun _ =>
    (h.target e true).bind fun o ho => ?_
  cases o with
  | none => exact .unexpected
  | some target =>
    refine (h.assignment e).behind.bind fun o' ho' => Yields.declareAll.bindHere fun _ => ?_
    exact .skip fun _ => .pureHere fun _ hbound => ⟨hbound, ho target rfl, ho'⟩

/-- The declarators before bind their names in the same scopes, which have only grown since. -/
theorem declarators_grammatical (h : r.Sound) (kind : DeclKind) :
    Yields (declarators r kind) e fun chain list =>
      ∀ d ∈ list, Declarator.Parts e.calls chain d := by
  refine .repeatingHere (fun chain items => ∀ d ∈ items, Declarator.Parts e.calls chain d)
    (fun _ _ hd => nomatch hd)
    fun items => (declarator_grammatical h kind).bindHere fun d => .skip fun _ =>
      .ite (fun _ => ?_) fun _ => ?_
  · exact .skip fun _ => .pureHere fun _ hd hitems => extended hd hitems
  · exact .pureHere fun _ hd hitems => reversed (extended hd hitems)

theorem variableDeclaration_grammatical (h : r.Sound) :
    Yields (variableDeclaration r) e (VarDecl.Grammatical e.calls) := by
  refine .skip fun start => .skip fun kind => (declarators_grammatical h kind).bindHere fun list =>
    .skip fun _ => .pureHere fun _ hlist => ?_
  exact .mk (fun d hd => (hlist d hd).1) (fun d hd => (hlist d hd).2.1) fun d hd => (hlist d hd).2.2

theorem variableStatement_grammatical (h : r.Sound) {exits : Exits} :
    Yields (variableStatement r) e (Stmt.Grammatical e.calls exits) := by
  refine (variableDeclaration_grammatical h).bindHere fun d => .skip fun _ => .skip fun _ =>
    .skip fun _ => ?_
  refine .pureHere fun chain hd => ?_
  cases hd with
  | mk hbound htargets hinitializers => exact .declaration (.mk hbound htargets hinitializers)

/-- A declared function is a statement, and can be the default of a module. -/
theorem functionDeclaration_grammatical (h : r.Sound) (nameOptional : Bool) {exits : Exits} :
    Yields (functionDeclaration r nameOptional) e fun chain s =>
      s.Grammatical e.calls exits chain ∧ Node.Grammatical e.calls chain (.stmt s) := by
  refine (function_grammatical h true nameOptional).bind fun f hf => ?_
  dsimp only
  split
  · exact .skip fun _ => .pureHere fun _ => ⟨.function hf, .function hf⟩
  · exact .pureHere fun _ => ⟨.function hf, .function hf⟩

theorem classDeclaration_grammatical (h : r.Sound) (nameOptional : Bool) {exits : Exits} :
    Yields (classDeclaration r nameOptional) e fun chain s =>
      s.Grammatical e.calls exits chain ∧ Node.Grammatical e.calls chain (.stmt s) := by
  refine (classLiteral_grammatical h true nameOptional).bind fun c hc => ?_
  dsimp only
  split
  · exact .skip fun _ => .pureHere fun _ => ⟨.classDecl hc, .classDecl hc⟩
  · exact .pureHere fun _ => ⟨.classDecl hc, .classDecl hc⟩

/-! ## Blocks and jumps -/

/-- The statements of a block know its scope as the innermost. -/
theorem block_grammatical (h : r.Sound) :
    Yields (block r) e (Block.Grammatical e.calls e.region.exits) := by
  refine .skip fun start => ?_
  refine Yields.bindHere (.inBlock (Q := fun chain items => ∀ b ∈ items,
    b.Grammatical e.calls e.region.exits chain) ?_) fun x => ?_
  · exact (Yields.itemsUntil (h.item e)).bindHere fun items => .skip fun _ =>
      .pureHere fun _ hitems => hitems
  · obtain ⟨items, scope⟩ := x
    refine .skip fun _ => .pureHere fun chain hx => ?_
    obtain ⟨scope, rfl, hkind, hitems⟩ := hx
    exact .mk hkind hitems

theorem condition_grammatical (h : r.Sound) :
    Yields (condition r) e fun _ => Expr.Grammatical e.calls :=
  .skip fun _ => (h.expression e).bind fun _ hx => .skip fun _ => .pure hx

/-- A `break` is read only where the region has an exit for it, with its label if it has
one. -/
theorem breakStatement_grammatical :
    Yields breakStatement e (Stmt.Grammatical e.calls e.region.exits) := by
  refine .skip fun start => .skip fun label => .region ?_
  have hrest (hlabel : nameText label ∈ e.region.exits .forBreak) : Yields (do
      semicolon
      return Stmt.breakOff (← spanFrom start) label) e (Stmt.Grammatical e.calls e.region.exits) :=
    .skip fun _ => .skip fun _ => .pureHere fun _ => .breakOff hlabel
  dsimp only
  split
  · next n =>
    refine .failIf fun hfound => hrest ?_
    obtain ⟨x, hx⟩ := Option.ne_none_iff_exists'.mp fun hnone =>
      hfound (Option.isNone_iff_eq_none.mpr hnone)
    exact (Region.mem_exits_of_label? hx).1
  · refine .failIf fun hopen => hrest (Or.inl ⟨rfl, ?_⟩)
    simpa only [Bool.and_eq_true, Bool.not_eq_true', not_and_or, Bool.not_eq_false] using hopen

/-- A `continue` needs a loop: a label must name one. -/
theorem continueStatement_grammatical :
    Yields continueStatement e (Stmt.Grammatical e.calls e.region.exits) := by
  refine .skip fun start => .skip fun label => .region ?_
  have hrest (hlabel : nameText label ∈ e.region.exits .forContinue) : Yields (do
      semicolon
      return Stmt.carryOn (← spanFrom start) label) e (Stmt.Grammatical e.calls e.region.exits) :=
    .skip fun _ => .skip fun _ => .pureHere fun _ => .carryOn hlabel
  dsimp only
  split
  · next n =>
    split
    · exact .bind (P := fun _ => False) .failAt fun _ hfalse => hfalse.elim
    · next x hx =>
      refine .failIf fun hloop => hrest ((Region.mem_exits_of_label? hx).2 ?_)
      simpa only [Bool.not_eq_true', Bool.not_eq_false] using hloop
  · refine .failIf fun hopen => hrest (Or.inl ⟨rfl, ?_⟩)
    simpa only [Bool.not_eq_true', Bool.not_eq_false] using hopen

/-- The statement under a label is a loop if it starts like one. -/
theorem labelledStatement_grammatical (h : r.Sound) :
    Yields (labelledStatement r) e (Stmt.Grammatical e.calls e.region.exits) := by
  refine .skip fun t => .skip fun _ => .skipIf fun _ => .skip fun _ => .skip fun _ =>
    .region (.skipIf fun _ => ?_)
  refine Yields.at_kind (Q := fun k chain body => body.Grammatical e.calls
    (e.region.exits.labelled t.name k.startsLoop) chain ∧
    (k.startsLoop = true → body.isLoop = true)) ?_ ?_
  · intro s body u hbody
    have hbody :
        within (fun outer =>
          { outer with labels := ⟨t.name, s.token.kind.startsLoop⟩ :: outer.labels })
        r.statement e s = .ok (body, u) := hbody
    obtain ⟨hgrow, hgrammatical⟩ := h.statement _ s body u hbody
    rw [Region.exits_label] at hgrammatical
    exact ⟨hgrow, fun chain hchain => ⟨hgrammatical chain hchain, h.loop _ s body u hbody⟩⟩
  · intro k body
    exact .skip fun _ => .pureHere fun _ hbody => .labelled k.startsLoop hbody.2 hbody.1

/-- A `return` is read within a function. What it gives back may be missing. -/
theorem returnStatement_grammatical (h : r.Sound) :
    Yields (returnStatement r) e (Stmt.Grammatical e.calls e.region.exits) := by
  refine .skip fun start => .skip fun _ => .skipIf fun _ => .skip fun _ =>
    .ite (fun _ => ?_) fun _ => ?_
  · exact .bind_pure (.skip fun _ => .skip fun _ => .pureHere fun _ => .giveBack absent)
  · have hvalue : Yields (some <$> r.expression) e fun _ o => ∀ x ∈ o, x.Grammatical e.calls :=
      .map ((h.expression e).mono fun _ x hx => present hx)
    refine hvalue.bind fun o ho => ?_
    exact .skip fun _ => .skip fun _ => .pureHere fun _ => .giveBack ho

theorem throwStatement_grammatical (h : r.Sound) :
    Yields (throwStatement r) e (Stmt.Grammatical e.calls e.region.exits) := by
  refine .skip fun start => .skip fun _ => .skipIf fun _ => (h.expression e).bind fun x hx => ?_
  exact .skip fun _ => .skip fun _ => .pureHere fun _ => .raise hx

theorem debuggerStatement_grammatical :
    Yields debuggerStatement e (Stmt.Grammatical e.calls e.region.exits) :=
  .skip fun _ => .skip fun _ => .skip fun _ => .pureHere fun _ => .debugger

/-! ## Branches -/

theorem ifStatement_grammatical (h : r.Sound) :
    Yields (ifStatement r) e (Stmt.Grammatical e.calls e.region.exits) := by
  refine .skip fun start => (condition_grammatical h).bind fun test htest =>
    (h.statement e).bindHere fun yes => ?_
  exact (h.statement e).behind.bindHere fun no => .skip fun _ =>
    .pureHere fun _ hno hyes => .branch htest hyes hno

/-- Clauses with grammatical tests and statements, at most one of them without a test. -/
private def CaseClause.Parts (calls : Bool) (exits : Exits) (chain : List Scope)
    (cases : List CaseClause) : Prop :=
  (∀ c ∈ cases, ∀ x ∈ c.test, x.Grammatical calls) ∧
    (∀ c ∈ cases, ∀ b ∈ c.consequent, b.Grammatical calls exits chain) ∧
      (cases.filter fun c => c.test.isNone).length ≤ 1

/-- The test of one more clause, which is only missing if none was missing before. -/
private theorem clauseTest_grammatical (h : r.Sound) (hasDefault : Bool) :
    Yields (clauseTest r hasDefault) e fun _ o =>
    (∀ x ∈ o, x.Grammatical e.calls) ∧ (o.isNone = true → hasDefault = false) := by
  refine .skip fun _ => .ite (fun _ => ?_) fun _ => ?_
  · cases hasDefault with
    | true => exact .bind (P := fun _ => False) .fail fun _ hfalse => hfalse.elim
    | false => exact .skip fun _ => .pure ⟨absent, fun _ => rfl⟩
  · exact .skip fun _ => (h.expression e).bind fun x hx =>
      .pure ⟨present hx, fun hnone => nomatch hnone⟩

/-- One more clause, which may be without a test if no other is. -/
private theorem CaseClause.Parts.cons {calls : Bool} {exits : Exits} {chain : List Scope}
    {c : CaseClause} {cases : List CaseClause} (hcases : CaseClause.Parts calls exits chain cases)
    (htest : ∀ x ∈ c.test, x.Grammatical calls)
    (hone : c.test.isNone = true → (cases.any fun c => c.test.isNone) = false)
    (hbody : ∀ b ∈ c.consequent, b.Grammatical calls exits chain) :
    CaseClause.Parts calls exits chain (c :: cases) := by
  refine ⟨extended htest hcases.1, extended hbody hcases.2.1, ?_⟩
  rw [List.filter_cons]
  split
  · next hnone =>
    have hempty : (cases.filter fun c => c.test.isNone) = [] := by
      refine List.filter_eq_nil_iff.mpr fun x hx hx' => ?_
      exact Bool.false_ne_true ((hone hnone).symm.trans (List.any_eq_true.mpr ⟨x, hx, hx'⟩))
    rw [hempty]
    exact Nat.le_refl 1
  · exact hcases.2.2

/-- The clauses of a switch, at most one of them without a test. -/
theorem clauses_grammatical (h : r.Sound) :
    Yields (clauses r) e (CaseClause.Parts e.calls e.region.exits) := by
  refine .repeatingHere (CaseClause.Parts e.calls e.region.exits)
    (fun _ => ⟨fun _ hx => (nomatch hx), fun _ hx => (nomatch hx), Nat.zero_le 1⟩) fun items => ?_
  refine .skip fun _ => .ite (fun _ => .pureHere fun _ hitems => ?_) fun _ => .skip fun start => ?_
  · refine ⟨reversed hitems.1, reversed hitems.2.1, ?_⟩
    rw [List.filter_reverse, List.length_reverse]
    exact hitems.2.2
  · refine (clauseTest_grammatical h _).bind fun test htest => .skip fun _ => ?_
    refine (Yields.itemsUntil (h.item e)).bindHere fun body => .skip fun _ =>
      .pureHere fun _ hbody hitems => ?_
    exact hitems.cons htest.1 htest.2 hbody

/-- All clauses share the scope of the switch. -/
theorem switchStatement_grammatical (h : r.Sound) :
    Yields (switchStatement r) e (Stmt.Grammatical e.calls e.region.exits) := by
  refine .skip fun start => (condition_grammatical h).bind fun discriminant hdiscriminant =>
    .skip fun _ => ?_
  refine Yields.bindHere (.inBlock (Q := CaseClause.Parts e.calls (e.region.exits.switching []))
    (.within ?_)) fun x => ?_
  · rw [← Region.exits_inSwitch]
    exact (clauses_grammatical h).bindHere fun cases => .skip fun _ => .pureHere fun _ hcases =>
      hcases
  · obtain ⟨cases, scope⟩ := x
    refine .skip fun _ => .pureHere fun chain hx => ?_
    obtain ⟨scope, rfl, hkind, htests, hbodies, hdefaults⟩ := hx
    exact .switch hkind hdiscriminant htests hbodies hdefaults

/-- The parameter of a handler, whose names the chain binds, and its statements. -/
private def CatchClause.Parts (calls : Bool) (exits : Exits) (chain : List Scope)
    (parts : Option Pattern × List Stmt) :
    Prop :=
  (∀ p ∈ parts.1, BindsAll chain p.boundNames ∧ p.Grammatical calls) ∧
    ∀ b ∈ parts.2, b.Grammatical calls exits chain

/-- The names of the parameter are declared by then, in the scope of the handler. -/
theorem catchParam_grammatical (h : r.Sound) :
    Yields (catchParam r) e fun chain o => ∀ p ∈ o, BindsAll chain p.boundNames ∧
      p.Grammatical e.calls := by
  refine .skip fun _ => .ite (fun _ => .skip fun _ => (h.target e true).bind fun o ho => ?_)
    fun _ => .pureHere fun _ => absent
  cases o with
  | none => exact .unexpected
  | some p =>
    refine Yields.declareAll.bindHere fun _ => .skip fun _ => .pureHere fun _ hbound => ?_
    exact present ⟨hbound, ho p rfl⟩

/-- The parameter of a handler is bound in the scope that its body is read in. -/
theorem catchClause_grammatical (h : r.Sound) :
    Yields (catchClause r) e (CatchClause.Grammatical e.calls e.region.exits) := by
  refine .skip fun start => .skip fun _ => ?_
  refine Yields.bindHere (.inBlock (Q := CatchClause.Parts e.calls e.region.exits) ?_) fun x => ?_
  · refine (catchParam_grammatical h).bindHere fun param => .skip fun _ => ?_
    refine (Yields.itemsUntil (h.item e)).bindHere fun body => ?_
    exact .skip fun _ => .pureHere fun _ hbody hparam => ⟨hparam, hbody⟩
  · obtain ⟨⟨param, body⟩, scope⟩ := x
    refine .skip fun _ => .pureHere fun chain hx => ?_
    obtain ⟨scope, rfl, hkind, hparam, hbody⟩ := hx
    exact .mk hkind (fun p hp => (hparam p hp).1) (fun p hp => (hparam p hp).2) hbody

theorem tryStatement_grammatical (h : r.Sound) :
    Yields (tryStatement r) e (Stmt.Grammatical e.calls e.region.exits) := by
  have hrest (start : Nat) (main : Block) (handler : Option CatchClause) : Yields (do
        let finalizer ← behind (atWord .finallyWord) (block r)
        if handler.isNone && finalizer.isNone then fail .missingHandler
        return Stmt.guarded (← spanFrom start) main handler finalizer) e fun chain s =>
      (∀ c ∈ handler, c.Grammatical e.calls e.region.exits chain) →
        main.Grammatical e.calls e.region.exits chain →
        s.Grammatical e.calls e.region.exits chain := by
    refine (block_grammatical h).behind.bindHere fun finalizer => .skipIf fun _ => .skip fun _ => ?_
    exact .pureHere fun _ hfinalizer hhandler hmain => .guarded hmain hhandler hfinalizer
  refine .skip fun start => (block_grammatical h).bindHere fun main => .skip fun _ =>
    .ite (fun _ => ?_) fun _ => ?_
  · have hhandler : Yields (some <$> catchClause r) e fun chain o =>
        ∀ c ∈ o, c.Grammatical e.calls e.region.exits chain :=
      .map ((catchClause_grammatical h).mono fun _ c hc => present hc)
    exact hhandler.bindHere fun handler => hrest start main handler
  · exact .bind_pure ((hrest start main none).mono fun _ _ hs => hs absent)

/-! ## Loops -/

/-- The body of a loop has the loop as an exit. -/
theorem iterationBody_grammatical (h : r.Sound) :
    Yields (iterationBody r) e (Stmt.Grammatical e.calls (e.region.exits.looping [])) := by
  rw [← Region.exits_inIteration]
  exact .within (h.statement _)

theorem whileStatement_grammatical (h : r.Sound) : Yields (whileStatement r) e fun chain s =>
    s.Grammatical e.calls e.region.exits chain ∧ s.isLoop = true := by
  refine .skip fun start => (condition_grammatical h).bind fun test htest => ?_
  exact (iterationBody_grammatical h).bindHere fun body => .skip fun _ => .pureHere fun _ hbody =>
    ⟨.whileLoop htest hbody, rfl⟩

theorem doStatement_grammatical (h : r.Sound) : Yields (doStatement r) e fun chain s =>
    s.Grammatical e.calls e.region.exits chain ∧ s.isLoop = true := by
  refine .skip fun start => (iterationBody_grammatical h).bindHere fun body => .skip fun _ => ?_
  refine (condition_grammatical h).bind fun test htest => .skip fun _ => .skipIf fun _ =>
    .skip fun _ => ?_
  exact .pureHere fun _ hbody => ⟨.doWhile hbody htest, rfl⟩

theorem targetHead_grammatical (h : r.Sound) :
    Yields (targetHead r) e fun _ o => ∀ n ∈ o, ∀ chain, Node.Grammatical e.calls chain n := by
  refine .attempt ((h.target e false).bind fun o ho => ?_)
  cases o with
  | none => exact .pure absent
  | some p =>
    have hhead (chain : List Scope) : (patternHead p).Grammatical e.calls chain := by
      have hp := ho p rfl
      cases hp with
      | target hx => exact .expr hx
      | array helements hrest => exact .pattern (.array helements hrest)
      | object hproperties hrest => exact .pattern (.object hproperties hrest)
    refine .skip fun _ => .pure ?_
    split
    · exact present hhead
    · exact absent

/-- What a `for` starts with: a declaration, a target or an expression, or nothing. -/
theorem loopHead_grammatical (h : r.Sound) :
    Yields (loopHead r) e fun chain o => ∀ n ∈ o, Node.Grammatical e.calls chain n := by
  refine .skip fun _ => .ite (fun _ => .pureHere fun _ => absent) fun _ => .skip fun _ =>
    .ite (fun _ => ?_) fun _ => ?_
  · exact (Yields.within (variableDeclaration_grammatical h)).bindHere fun d =>
      .pureHere fun _ hd =>
      present (.declaration hd)
  · refine (targetHead_grammatical h).bind fun o ho => ?_
    cases o with
    | some n => exact .pureHere fun chain => present (ho n rfl chain)
    | none =>
      exact (Yields.within (h.expression _)).bind fun x hx => .pureHere fun _ => present (.expr hx)

/-- What is left to know of a loop when its head has been read, and then its scope is closed. -/
private def Builds (calls : Bool) (exits : Exits) (chain : List Scope)
    (build : Span → Option Scope → Stmt) : Prop :=
  ∀ span scope outer, scope.kind = .block → chain = scope :: outer →
    (build span (some scope)).Grammatical calls exits outer ∧
      (build span (some scope)).isLoop = true

/-- A loop over keys or values, whose head binds one target. -/
theorem collectionLoop_grammatical (h : r.Sound) (start : Nat) (await : Bool) (head : Option Node)
    (word : LoopWord) :
    Yields (collectionLoop r start await head word) e fun chain build =>
      (∀ n ∈ head, Node.Grammatical e.calls chain n) →
      Builds e.calls e.region.exits chain build := by
  have hleft {chain : List Scope} {right : Expr} (hright : right.Grammatical e.calls)
      (hhead : ∀ n ∈ head, Node.Grammatical e.calls chain n) :
        (head.getD (.expr right)).Grammatical e.calls chain := by
    cases head with
    | none => exact .expr hright
    | some n => exact hhead n rfl
  refine .skip fun _ => .skipIf fun _ => .skip fun _ => ?_
  cases word with
  | forOf =>
    refine (h.assignment e).bind fun right hright => .skip fun _ =>
      (iterationBody_grammatical h).bindHere fun body => ?_
    refine .pureHere fun chain hbody hhead => ?_
    rintro span scope outer hkind rfl
    exact ⟨.forOf hkind (hleft hright hhead) hright hbody, rfl⟩
  | forIn =>
    refine (h.expression e).bind fun right hright => .skip fun _ =>
      (iterationBody_grammatical h).bindHere fun body => ?_
    refine .pureHere fun chain hbody hhead => ?_
    rintro span scope outer hkind rfl
    exact ⟨.forIn hkind (hleft hright hhead) hright hbody, rfl⟩

/-- Test and update of a counted loop. -/
theorem loopClauses_grammatical (h : r.Sound) (head : Option Node) :
    Yields (loopClauses r head) e fun chain build =>
      (∀ n ∈ head, Node.Grammatical e.calls chain n) →
      Builds e.calls e.region.exits chain build := by
  have hexpression : Yields (some <$> r.expression) e fun _ o => ∀ x ∈ o, x.Grammatical e.calls :=
    .map ((h.expression e).mono fun _ x hx => present hx)
  refine .skip fun _ => .skip fun _ => .ite_bind (.pure absent) hexpression fun test htest => ?_
  refine .skip fun _ => .skip fun _ => .ite_bind (.pure absent) hexpression fun update hupdate => ?_
  refine .skip fun _ => (iterationBody_grammatical h).bindHere fun body =>
    .pureHere fun chain hbody hhead => ?_
  rintro span scope outer hkind rfl
  exact ⟨.forLoop hkind hhead htest hupdate hbody, rfl⟩

/-- A counted loop, whose head may declare any number of names. -/
theorem countedLoop_grammatical (h : r.Sound) (head : Option Node) :
    Yields (countedLoop r head) e fun chain build =>
      (∀ n ∈ head, Node.Grammatical e.calls chain n) →
      Builds e.calls e.region.exits chain build := by
  unfold countedLoop
  split
  · exact .skip fun _ => loopClauses_grammatical h _
  · exact .bind_pure (loopClauses_grammatical h head)

theorem loopParts_grammatical (h : r.Sound) (start : Nat) (await : Bool) :
    Yields (loopParts r start await) e (Builds e.calls e.region.exits) := by
  refine (loopHead_grammatical h).bindHere fun head => .skip fun word => ?_
  cases word with
  | some word => exact collectionLoop_grammatical h start await head word
  | none => exact .skipIf fun _ => countedLoop_grammatical h head

/-- The names that a head declares are in a scope around the loop. -/
theorem forStatement_grammatical (h : r.Sound) : Yields (forStatement r) e fun chain s =>
    s.Grammatical e.calls e.region.exits chain ∧ s.isLoop = true := by
  refine .skip fun start => .skip fun await =>
    .ite_rest (fun hrest => .skip fun _ => .skipIf fun _ => .skip fun _ => hrest) ?_
  refine .skip fun _ => Yields.bindHere (.inBlock (loopParts_grammatical h start await)) fun x => ?_
  obtain ⟨build, scope⟩ := x
  refine .skip fun span => .pureHere fun chain hx => ?_
  obtain ⟨scope, rfl, hkind, hbuilds⟩ := hx
  exact hbuilds span scope chain hkind rfl

/-! ## Dispatch -/

/-- The statement that the next token begins. What no keyword begins is an expression. -/
theorem statementRule_grammatical (h : r.Sound) :
    Yields (statementRule r) e (Stmt.Grammatical e.calls e.region.exits) := by
  have hexpression :
      Yields (expressionStatement r) e (Stmt.Grammatical e.calls e.region.exits) := by
    refine .skip fun start => (h.expression e).bind fun x hx => .skip fun _ => .skip fun _ => ?_
    exact .pureHere fun _ => .expression hx
  refine .skip fun t => ?_
  split
  · exact .skip fun _ => .skip fun _ => .pureHere fun _ => .empty
  · exact (block_grammatical h).bindHere fun b => .pureHere fun _ hb => .block hb
  · exact variableStatement_grammatical h
  · exact ifStatement_grammatical h
  · exact (doStatement_grammatical h).mono fun _ _ hs => hs.1
  · exact (whileStatement_grammatical h).mono fun _ _ hs => hs.1
  · exact (forStatement_grammatical h).mono fun _ _ hs => hs.1
  · exact breakStatement_grammatical
  · exact continueStatement_grammatical
  · exact debuggerStatement_grammatical
  · exact switchStatement_grammatical h
  · exact returnStatement_grammatical h
  · exact throwStatement_grammatical h
  · exact tryStatement_grammatical h
  · exact .fail
  · exact .fail
  · exact .fail
  · exact .fail
  · exact .fail
  · exact .skip fun _ => .ite (fun _ => labelledStatement_grammatical h) fun _ => hexpression
  · exact hexpression

/-- A statement that starts like a loop is one. -/
theorem statementRule_isLoop (h : r.Sound) {s t : ParseState} {stmt : Stmt}
    (heq : statementRule r e s = .ok (stmt, t)) (hstart : s.token.kind.startsLoop = true) :
    stmt.isLoop = true := by
  have hloop {p : Parse Stmt} {exits : Exits} (hp : Yields p e fun chain s => s.Grammatical e.calls
      exits chain ∧ s.isLoop = true)
      (heq : p e s = .ok (stmt, t)) : stmt.isLoop = true :=
        ((hp s stmt t heq).2 t.scopes (.refl t.scopes)).2
  obtain ⟨cursor, ⟨kind, _⟩, previousEnd, scopes⟩ := s
  change kind.startsLoop = true at hstart
  unfold Kind.startsLoop at hstart
  split at hstart
  · exact hloop (doStatement_grammatical h) heq
  · exact hloop (whileStatement_grammatical h) heq
  · exact hloop (forStatement_grammatical h) heq
  · cases hstart

theorem itemRule_grammatical (h : r.Sound) :
    Yields (itemRule r) e (Stmt.Grammatical e.calls e.region.exits) := by
  refine .skip fun k => ?_
  split
  · exact (functionDeclaration_grammatical h false).mono fun _ _ hs => hs.1
  · exact (classDeclaration_grammatical h false).mono fun _ _ hs => hs.1
  · exact (classDeclaration_grammatical h false).mono fun _ _ hs => hs.1
  · exact variableStatement_grammatical h
  · exact variableStatement_grammatical h
  · refine .skip fun _ =>
      .ite (fun _ => (functionDeclaration_grammatical h false).mono fun _ _ hs => hs.1) fun _ => ?_
    exact .skip fun _ => .ite (fun _ => variableStatement_grammatical h) fun _ =>
      statementRule_grammatical h
  · exact statementRule_grammatical h

/-! ## Modules -/

/-- The default of a module: a declaration that may have no name, or an expression. -/
theorem exportStandard_grammatical (h : r.Sound) (start : Nat) {exits : Exits} :
    Yields (exportStandard r start) e (Stmt.Grammatical e.calls exits) := by
  have hfunction : Yields (functionDeclaration r true) e fun chain s =>
      Node.Grammatical e.calls chain (.stmt s) :=
    (functionDeclaration_grammatical h true).mono fun _ s (hs : s.Grammatical e.calls exits _ ∧
      _) => hs.2
  have hclass : Yields (classDeclaration r true) e fun chain s =>
      Node.Grammatical e.calls chain (.stmt s) :=
    (classDeclaration_grammatical h true).mono fun _ s (hs : s.Grammatical e.calls exits _ ∧ _) =>
      hs.2
  refine .skip fun _ => .skip fun _ => .skip fun _ => .ite (fun _ => ?_) fun _ => ?_
  · exact hfunction.bindHere fun s => .skip fun _ => .pureHere fun _ hs => .exportDefault hs
  · refine .skip fun _ => .skip fun _ => .ite (fun _ => ?_) fun _ => ?_
    · exact hclass.bindHere fun s => .skip fun _ => .pureHere fun _ hs => .exportDefault hs
    · refine (h.assignment e).bind fun x hx => .skip fun _ => .skip fun _ => ?_
      exact .pureHere fun _ => .exportDefault (.expr hx)

theorem exportedDeclaration_grammatical (h : r.Sound) {exits : Exits} :
    Yields (exportedDeclaration r) e (Stmt.Grammatical e.calls exits) := by
  refine .skip fun _ => .ite (fun _ => variableStatement_grammatical h) fun _ => .skip fun _ =>
    .skip fun _ => ?_
  refine .ite (fun _ => (functionDeclaration_grammatical h false).mono fun _ _ hs => hs.1)
    fun _ => ?_
  refine .skip fun _ => .skip fun _ => .ite (fun _ => ?_) fun _ => .unexpected
  exact (classDeclaration_grammatical h false).mono fun _ _ hs => hs.1

theorem exportDeclaration_grammatical (h : r.Sound) :
    Yields (exportDeclaration r) e (Stmt.Grammatical e.calls e.region.exits) := by
  have heverything (start : Nat) :
      Yields (exportEverything start) e (Stmt.Grammatical e.calls e.region.exits) :=
    .skip fun _ => .skip fun _ => .skip fun _ => .skip fun _ => .skip fun _ => .skip fun _ =>
      .skip fun _ =>
      .pureHere fun _ => .exportAll
  have hlist (start : Nat) :
      Yields (exportList start) e (Stmt.Grammatical e.calls e.region.exits) :=
    .skip fun _ => .skip fun _ => .skip fun _ => .skip fun _ => .skip fun _ => .skip fun _ =>
      .pureHere fun _ => .exportNames
  refine .skip fun start => .skip fun k => ?_
  split
  · exact heverything start
  · exact exportStandard_grammatical h start
  · exact hlist start
  · exact (exportedDeclaration_grammatical h).bindHere fun s => .skip fun _ => .pureHere fun _ hs =>
      .exportNamed hs

/-- An item of a module is an import, an export or what a script may hold as well. -/
theorem moduleItem_grammatical (h : r.Sound) :
    Yields (moduleItem r) e (Stmt.Grammatical e.calls e.region.exits) := by
  have himport : Yields importDeclaration e (Stmt.Grammatical e.calls e.region.exits) := by
    refine .skip fun _ => .skip fun specifiers => .skip fun _ => .skip fun _ => .skip fun _ =>
      .skip fun _ => ?_
    exact .skip fun _ => .pureHere fun _ => .importDecl specifiers
  refine .skip fun here => .ite (fun _ => .skip fun k => ?_) fun _ => h.item e
  split
  · exact .skip fun t => .ite (fun _ => himport) fun _ => h.item e
  · exact exportDeclaration_grammatical h
  · exact h.item e

/-! ## Programs -/

/-- Rules that never answer are sound. -/
private theorem noRules_sound : (rulesWith 0).Sound where
  expression _ := .fail
  assignment _ := .fail
  binary _ _ := .fail
  unary _ := .fail
  leftHandSide _ := .fail
  construct _ := .fail
  target _ _ := .fail
  statement _ := .fail
  loop _ _ _ _ heq _ := nomatch heq
  item _ := .fail

/-- However deep goals may nest, they are answered by grammatical trees. -/
theorem rulesWith_sound (fuel : Nat) : (rulesWith fuel).Sound := by
  induction fuel with
  | zero => exact noRules_sound
  | succ fuel ih =>
    exact {
      expression := fun _ => commaExpression_grammatical ih
      assignment := fun _ => assignmentExpression_grammatical ih
      binary := fun _ least => binaryExpression_grammatical ih least
      unary := fun _ => unaryExpression_grammatical ih
      leftHandSide := fun _ => leftHandSide_grammatical ih
      construct := fun _ => newExpression_grammatical ih
      target := fun _ binding => patternTarget_grammatical ih binding
      statement := fun _ => statementRule_grammatical ih
      loop := fun _ _ _ _ heq hstart => statementRule_isLoop ih heq hstart
      item := fun _ => itemRule_grammatical ih }

/-- Every jump of a statement that is read leads to an exit of its region or has its target in
the statement. -/
theorem statement_resolved {fuel : Nat} {s t : ParseState} {stmt : Stmt}
    (h : (rulesWith fuel).statement e s = .ok (stmt, t)) : stmt.Resolved e.region.exits :=
  (((rulesWith_sound fuel).statement e s stmt t h).2 t.scopes (.refl t.scopes)).resolved

theorem program_grammatical (h : r.Sound) (hcalls : e.calls = false)
    (hexits : e.region.exits = .none) :
    Yields (program r) e fun _ => Program.Grammatical := by
  have hitems : Yields (itemsUntil (· == .eof) (moduleItem r)) e fun chain items =>
      ∀ b ∈ items, b.Grammatical false .none chain :=
        hcalls ▸ hexits ▸ .itemsUntil (moduleItem_grammatical h)
  refine .skip fun here => ?_
  refine Yields.bind (.inFunction (Q := fun chain x => ∀ b ∈ x.2.2,
    Stmt.Grammatical false .none chain b) ?_) fun x hx => ?_
  · refine .skip fun _ => .skip fun _ => .skip fun _ => ?_
    exact hitems.bindHere fun items => .pureHere fun _ hitems => hitems
  · obtain ⟨⟨interpreter, ds, items⟩, scope⟩ := x
    obtain ⟨scope, rfl, hkind, hitems⟩ := hx
    exact .pure (.mk hkind hitems)

end Parse

/-- Every program that is read is grammatical. -/
theorem parseText_grammatical {source : Text} {module : Bool} {compiler : PatternCompiler}
    {p : Program} (h : parseText source module compiler = .ok p) :
    p.Grammatical := by
  unfold parseText at h
  dsimp only at h
  unfold Except.map at h
  split at h
  · cases h
  · next x hx =>
    cases h
    have hread :=
      Parse.program_grammatical (Parse.rulesWith_sound _) rfl (Region.exits_eq_none rfl rfl rfl) _
        _ _ hx
    exact hread.2 x.2.scopes (.refl x.2.scopes)

theorem parseFile_grammatical {file : SourceFile} {module : Bool} {compiler : PatternCompiler}
    {p : Program} (h : parseFile file module compiler = .ok p) :
    p.Grammatical := by
  unfold parseFile at h
  split at h
  · next q hq =>
    cases h
    exact parseText_grammatical hq
  · cases h

/-- Every jump of a program that is read has its target in the program. -/
theorem parseFile_resolved {file : SourceFile} {module : Bool} {compiler : PatternCompiler}
    {p : Program} (h : parseFile file module compiler = .ok p) :
    ∀ b ∈ p.body, b.Resolved .none := by
  cases parseFile_grammatical h with
  | mk _ hbody => exact fun b hb => (hbody b hb).resolved

end EcmaStack
