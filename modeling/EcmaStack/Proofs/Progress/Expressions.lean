import EcmaStack.Proofs.Progress.Laws

/-!
# Expressions get ahead

Every rule for a name, a pattern, a function, a class or an expression takes a token, or misses.
Below an assignment the goals are nested by how tightly they bind, and each rule asks for the
next before it takes anything; all other rules take a token first.
-/

namespace EcmaStack

open Parse

/-- The end of the source is no name. -/
theorem Kind.ne_eof_of_isIdentifierName {k : Kind} (h : k.isIdentifierName = true) : k ≠ .eof := by
  rintro rfl
  cases h

namespace Advances

variable {α : Type} {r : Rules} {rank : Nat} {source : Text}

/-! ## Goals -/

/-- A goal of a lower rank may be asked for at once, before any token is taken. -/
theorem goal {g : Goal α} (h : g.rank < rank) : Advances r source rank g.taken (r.read g) :=
  ⟨fun e s hsource hs => hs.read g e s hsource hs.placed (.inr ⟨Nat.le_refl _, h⟩)⟩

instance construct : Advances r source (rank + 1) taking r.construct :=
  goal (g := .construct) (Nat.succ_pos rank)

instance leftHandSide : Advances r source (rank + 2) taking r.leftHandSide :=
  @goal _ _ _ _ .leftHandSide (Nat.lt_add_left rank Nat.one_lt_two)

instance target {binding : Bool} : Advances r source (rank + 3) hits (r.target binding) :=
  @goal _ _ _ _ (.target binding) (Nat.lt_add_left rank (Nat.lt_succ_self 2))

instance unary : Advances r source (rank + 3) taking r.unary :=
  @goal _ _ _ _ .unary (Nat.lt_add_left rank (Nat.lt_succ_self 2))

instance binary {least : Nat} : Advances r source (rank + 4) taking (r.binary least) :=
  @goal _ _ _ _ (.binary least) (Nat.lt_add_left rank (Nat.lt_succ_self 3))

instance assignment : Advances r source (rank + 5) taking r.assignment :=
  @goal _ _ _ _ .assignment (Nat.lt_add_left rank (Nat.lt_succ_self 4))

instance expression : Advances r source (rank + 6) taking r.expression :=
  @goal _ _ _ _ .expression (Nat.lt_add_left rank (Nat.lt_succ_self 5))

instance statement : Advances r source (rank + 7) taking r.statement :=
  @goal _ _ _ _ .statement (Nat.lt_add_left rank (Nat.lt_succ_self 6))

instance item : Advances r source (rank + 7) taking r.item :=
  @goal _ _ _ _ .item (Nat.lt_add_left rank (Nat.lt_succ_self 6))

/-! ## Names, keys and literals -/

instance bindingIdentifier : Advances r source rank hits Parse.bindingIdentifier where
  reads e s hsource hs := by
    subst hsource
    refine Reads.look rfl ?_
    obtain ⟨reserved, hreserved⟩ := (@Looks.isReservedHere s.token.name).looks e s
    refine Reads.look hreserved ?_
    split
    · exact hs.reads
    · next hkind =>
      simp only [Bool.or_eq_true, bne_iff_ne, ne_eq, not_or, Decidable.not_not] at hkind
      exact Reads.takeAt hs hkind.1.1 nofun inferInstance

instance requiredBinding : Advances r source rank taking Parse.requiredBinding :=
  found (fun _ => inferInstance) inferInstance

instance identifierReference : Advances r source rank taking Parse.identifierReference where
  reads e s hsource hs := by
    subst hsource
    refine Reads.look rfl ?_
    split
    · exact hs.reads
    · next hkind =>
      rw [bne_iff_ne, ne_eq, Decidable.not_not] at hkind
      split
      · exact hs.reads
      · obtain ⟨reserved, hreserved⟩ := (@Looks.isReservedHere s.token.name).looks e s
        refine Reads.look hreserved ?_
        split
        · exact hs.reads
        · exact Reads.takeAt hs hkind nofun (by split <;> infer_instance)

instance memberName : Advances r source rank taking Parse.memberName where
  reads e s hsource hs := by
    subst hsource
    refine Reads.look rfl ?_
    split
    · next hkind =>
      refine Reads.look rfl ?_
      split
      · exact Reads.takeAt hs (beq_iff_eq.mp hkind) nofun inferInstance
      · exact hs.reads
    · split
      · next hname => exact Reads.take hs (Kind.ne_eof_of_isIdentifierName hname) inferInstance
      · exact hs.reads

instance numberLiteral {t : Token} [t.InSource source] :
    Advances r source rank free (Parse.numberLiteral t) := by
  refine andThen fun raw => ?_
  split
  · split <;> infer_instance
  · split <;> infer_instance

instance stringLiteral {t : Token} [t.InSource source] :
    Advances r source rank free (Parse.stringLiteral t) := by
  unfold Parse.stringLiteral
  infer_instance

instance propertyKey : Advances r source rank hits (Parse.propertyKey r) where
  reads e s hsource hs := by
    subst hsource
    have hsource := hs.placed.inSource
    refine Reads.look rfl ?_
    split
    · next hkind => exact Reads.takeAt hs hkind nofun inferInstance
    · next hkind => exact Reads.takeAt hs hkind nofun inferInstance
    · next hkind => exact Reads.takeAt hs hkind nofun inferInstance
    · next hkind => exact Reads.takeAt hs hkind nofun inferInstance
    · next hkind => exact Reads.takeAt hs hkind nofun inferInstance
    · split
      · next hname => exact Reads.take hs (Kind.ne_eof_of_isIdentifierName hname) inferInstance
      · exact hs.reads

/-! ## Patterns -/

instance fallback : Advances r source rank free (Parse.fallback r) := by
  unfold Parse.fallback
  infer_instance

instance patternElement {binding : Bool} :
    Advances r source Goal.top hits (Parse.patternElement r binding) :=
  andThen fun _ => found (fun _ => inferInstance) inferInstance

instance arrayElements {binding : Bool} :
    Advances r source Goal.top free (Parse.arrayElements r binding) := by
  refine turns fun items => andThen fun _ =>
    branch inferInstance (ifPunct inferInstance (ifPunct ?_ ?_))
  · exact found (fun _ => inferInstance) inferInstance
  · exact found (fun _ => inferInstance) inferInstance

instance arrayPattern {binding : Bool} :
    Advances r source rank hits (Parse.arrayPattern r binding) := by
  refine @attempt _ _ _ _ _ (taken fun start => andThen fun o => ?_)
  cases o <;> infer_instance

instance patternProperty {binding : Bool} :
    Advances r source Goal.top hits (Parse.patternProperty r binding) := by
  refine andThen fun start => andThen fun _ => andThen fun _ => branch ?_ ?_
  · exact found (fun _ => inferInstance) inferInstance
  · refine found (fun x => andThen fun _ => branch inferInstance (andThen fun _ => ?_))
      inferInstance
    exact andThen fun o => by cases o <;> infer_instance

instance objectRest {binding : Bool} :
    Advances r source Goal.top hits (Parse.objectRest r binding) := by
  unfold Parse.objectRest
  infer_instance

instance objectProperties {binding : Bool} :
    Advances r source Goal.top free (Parse.objectProperties r binding) := by
  refine turns fun items => andThen fun _ => branch inferInstance (ifPunct ?_ ?_)
  · exact found (fun _ => inferInstance) inferInstance
  · exact found (fun _ => inferInstance) inferInstance

instance objectPattern {binding : Bool} :
    Advances r source rank hits (Parse.objectPattern r binding) := by
  refine @attempt _ _ _ _ _ (taken fun start => andThen fun o => ?_)
  cases o <;> infer_instance

instance simpleTarget : Advances r source (rank + 2) hits (Parse.simpleTarget r) := by
  have hread : Advances r source (rank + 2) hits (Parse.attempt do
      let x ← r.leftHandSide
      match x.simpleTarget? with
      | some target => return some (← Parse.asPattern target)
      | none => return none) := by
    refine @attempt _ _ _ _ _ (taken fun x => ?_)
    split
    · next h => exact @andThen _ _ _ _ _ _ _ _ (asPattern h) fun _ => inferInstance
    · infer_instance
  refine andThen fun k => ?_
  split
  · exact hread
  · exact hread
  · exact hread
  · infer_instance

instance patternTarget {binding : Bool} :
    Advances r source (rank + 2) hits (Parse.patternTarget r binding) := by
  refine andThen fun k => ?_
  split <;> infer_instance

instance parameterItems {speculative : Bool} :
    Advances r source Goal.top free (Parse.parameterItems r speculative) := by
  refine turns fun items => andThen fun _ => branch inferInstance (ifPunct ?_ ?_)
  · exact found (fun _ => inferInstance) inferInstance
  · exact found (fun _ => inferInstance) inferInstance

instance parameterList {speculative : Bool} :
    Advances r source rank hits (Parse.parameterList r speculative) where
  reads e s hsource hs := by
    subst hsource
    refine Reads.look rfl ?_
    split
    · next hat =>
      refine Reads.look rfl (Reads.takeAt hs (beq_iff_eq.mp hat) nofun (andThen fun o => ?_))
      cases o <;> infer_instance
    · exact hs.reads

instance maybeParameters : Advances r source rank hits (Parse.maybeParameters r) :=
  attempt

instance parameters : Advances r source rank taking (Parse.parameters r) :=
  found (fun _ => inferInstance) inferInstance

/-! ## Functions -/

instance directive : Advances r source rank hits Parse.directive := by
  refine @attempt _ _ _ _ _ ⟨fun e s hsource hs => ?_⟩
  subst hsource
  have hsource := hs.placed.inSource
  refine Reads.look rfl ?_
  split
  · exact hs.reads
  · next hkind =>
    rw [bne_iff_ne, ne_eq, Decidable.not_not] at hkind
    refine Reads.takeAt hs hkind nofun (andThen fun _ => branch (andThen fun _ => ?_) inferInstance)
    exact @andThen _ _ _ _ _ _ _ _ (unquoted hkind) fun _ => inferInstance

instance directives : Advances r source rank free Parse.directives :=
  turns fun _ => found (fun _ => inferInstance) inferInstance

instance functionBody : Advances r source rank taking (Parse.functionBody r) := by
  unfold Parse.functionBody
  infer_instance

instance functionRest {generator async : Bool} :
    Advances r source rank taking (Parse.functionRest r generator async) := by
  unfold Parse.functionRest
  infer_instance

instance functionName {declaration nameOptional generator async : Bool} :
    Advances r source rank free (Parse.functionName declaration nameOptional generator async) := by
  have hname (o : Option Name) : Advances r source rank free
      (match o with
        | some n => return some n
        | none => Parse.unexpected : Parse (Option Name)) := by
    cases o <;> infer_instance
  unfold Parse.functionName
  infer_instance

instance function {declaration nameOptional : Bool} :
    Advances r source rank taking (Parse.function r declaration nameOptional) := by
  refine andThen fun start => andThen fun async => optional fun _ => taken fun _ =>
    andThen fun generator => ?_
  refine optional fun _ => andThen fun name => ?_
  dsimp only
  split <;> infer_instance

instance checkAccessor {kind : PropertyKind} {start : Nat} {params : Params} :
    Advances r source rank free (Parse.checkAccessor kind start params) := by
  unfold Parse.checkAccessor
  cases kind <;> infer_instance

instance method {start : Nat} {kind : PropertyKind} {async generator superCall : Bool} :
    Advances r source rank taking (Parse.method r start kind async generator superCall) := by
  unfold Parse.method
  infer_instance

instance arrowParameters : Advances r source rank hits (Parse.arrowParameters r) := by
  refine andThen fun _ => branch ?_ inferInstance
  exact found (fun _ => inferInstance) inferInstance

instance arrowBody : Advances r source Goal.top free (Parse.arrowBody r) := by
  unfold Parse.arrowBody
  infer_instance

instance arrowRest : Advances r source rank hits (Parse.arrowRest r) :=
  found (fun _ => inferInstance) inferInstance

instance arrowFunction : Advances r source rank hits (Parse.arrowFunction r) := by
  refine andThen fun o => ?_
  cases o with
  | none => infer_instance
  | some async =>
    refine andThen fun start => @attempt _ _ _ _ _ (optional fun _ => ?_)
    exact found (fun _ => inferInstance) inferInstance

/-! ## Classes -/

instance spreadOrAssignment : Advances r source Goal.top taking (Parse.spreadOrAssignment r) :=
  andThen fun _ => branch (andThen fun _ => andThen fun _ => inferInstance) inferInstance

instance arguments : Advances r source rank taking (Parse.arguments r) := by
  unfold Parse.arguments
  infer_instance

instance parenthesized : Advances r source rank taking (Parse.parenthesized r) := by
  unfold Parse.parenthesized
  infer_instance

instance dottedNames {start : Nat} {x : Expr} :
    Advances r source rank free (Parse.dottedNames start x) := by
  unfold Parse.dottedNames
  infer_instance

instance decoratorExpression : Advances r source rank taking (Parse.decoratorExpression r) :=
  andThen fun _ => branch inferInstance (andThen fun _ => taken fun _ => inferInstance)

instance decorators : Advances r source rank free (Parse.decorators r) := by
  unfold Parse.decorators
  infer_instance

instance staticBlock {start : Nat} : Advances r source rank taking (Parse.staticBlock r start) := by
  unfold Parse.staticBlock
  infer_instance

instance memberModifiers : Advances r source rank free Parse.memberModifiers := by
  unfold Parse.memberModifiers
  infer_instance

instance propertyModifiers : Advances r source rank free Parse.propertyModifiers := by
  unfold Parse.propertyModifiers
  infer_instance

instance methodKind {m : Modifiers} {isConstructor : Bool} {keyStart : Nat} :
    Advances r source rank free (Parse.methodKind m isConstructor keyStart) := by
  unfold Parse.methodKind
  infer_instance

instance classMember {derived : Bool} {start : Nat} {decorations : List Decorator} {static : Bool} :
    Advances r source rank taking (Parse.classMember r derived start decorations static) := by
  refine andThen fun accessor => either fun m => andThen fun keyStart =>
    found (fun x => ?_) inferInstance
  refine andThen fun _ => branch inferInstance ?_
  exact optional fun _ => optional fun _ => inferInstance

instance classElement {derived : Bool} :
    Advances r source rank taking (Parse.classElement r derived) := by
  refine andThen fun start => andThen fun ds => andThen fun _ =>
    branch (andThen fun _ => branch ?_ ?_) inferInstance
  · exact optional fun _ => inferInstance
  · infer_instance

instance classElements {derived : Bool} :
    Advances r source rank free (Parse.classElements r derived) := by
  unfold Parse.classElements
  infer_instance

instance classRest : Advances r source rank taking (Parse.classRest r) := by
  unfold Parse.classRest
  infer_instance

instance className {declaration nameOptional : Bool} :
    Advances r source rank free (Parse.className declaration nameOptional) := by
  unfold Parse.className
  infer_instance

instance classLiteral {declaration nameOptional : Bool} :
    Advances r source rank taking (Parse.classLiteral r declaration nameOptional) := by
  refine andThen fun start => andThen fun ds => taken fun _ => andThen fun name => ?_
  dsimp only
  split <;> infer_instance

/-! ## Primary expressions and chains -/

/-- A closing brace is read again as template text. -/
theorem brace_again {q : Parse α} (hq : Advances r source rank free q) :
    Advances r source rank free (do
    let s ← Parse.get
    let (again, cursor) := rescanTemplate (← Parse.surroundings).source s.token
    Parse.hold again cursor s.previousEnd
    q) where
  reads e s hsource hs := by
    subst hsource
    refine Reads.look rfl (Reads.look rfl ?_)
    rcases heq : rescanTemplate e.source s.token with ⟨again, cursor⟩
    refine (Reads.rescan (fun _ _ => readTemplateContinuation_gives) hs.placed heq).andThen
      fun _ t _ hahead => ?_
    exact hq.reads e t rfl (hs.onward hahead)

/-- A template takes the token in hand, and so does each of its turns: the token, or an
expression after it. -/
theorem templateLiteral_reads {e : Surroundings} {s : ParseState} (hs : r.Serve e.source rank s)
    (hkind : s.token.kind ≠ .eof) :
    Reads (Parse.templateLiteral r) e s taking := by
  have hrest {source : Text} (quasis : List TemplateElement) (xs : List Expr) :
      Advances r source Goal.top taking (do
        let x ← Parse.withIn true r.expression
        if ← Parse.atPunct .rightBrace then
          let s ← Parse.get
          let (again, cursor) := rescanTemplate (← Parse.surroundings).source s.token
          Parse.hold again cursor s.previousEnd
          return .again (quasis, x :: xs)
        else Parse.unexpected : Parse (Turn (List TemplateElement × List Expr) Template)) :=
    taken fun _ => andThen fun _ => branch (brace_again inferInstance) inferInstance
  refine Reads.look rfl (Reads.repeating hs.placed (j := taking) ?_ ?_ (fun _ => Nat.le_refl 1)
    fun _ => Nat.le_refl 1)
  · exact Reads.look rfl (Reads.take hs hkind
      (branch inferInstance (@weaken _ _ _ _ _ (hrest [_] []))))
  · rintro t ⟨quasis, xs⟩ ht
    refine Reads.look rfl ?_
    dsimp only
    split
    · next hlast =>
      refine Reads.take (hs.all ht) ?_ inferInstance
      intro heof
      rw [heof] at hlast
      cases hlast
    · exact (andThen fun _ => hrest (_ :: quasis) xs).reads e t rfl (hs.all ht)

/-- The rescanned token is a regular expression, so it is one that can be taken. -/
theorem regExpToken_reads {e : Surroundings} {s : ParseState} {t : Token} {cursor : Cursor}
    (hs : r.Serve e.source rank s) (heq : rescanRegExp e.source s.token = (t, cursor))
    (hkind : t.kind = .regexp) :
    Reads (Parse.regExpToken t cursor s.previousEnd) e s taking := by
  refine (Reads.rescan (fun _ _ => readRegExp_gives) hs.placed heq).andThen fun _ u hu hahead => ?_
  obtain ⟨-, rfl⟩ := hold_ok hu
  -- The token lies in the source, which its literal needs.
  have hsource := hahead.placed.inSource
  exact Reads.takeAt (hs.onward hahead) hkind nofun inferInstance

instance regExpLiteral : Advances r source rank taking Parse.regExpLiteral where
  reads e s hsource hs := by
    subst hsource
    refine Reads.look rfl (Reads.look rfl ?_)
    rcases heq : rescanRegExp e.source s.token with ⟨t, cursor⟩
    dsimp only
    split
    · exact hs.reads
    · split
      · exact hs.reads
      · next hkind =>
        have hrest := regExpToken_reads hs heq (by simpa using hkind)
        split
        · split
          · exact hrest
          · exact Reads.error rfl rfl
        · exact hrest

instance arrayItems : Advances r source Goal.top free (Parse.arrayItems r) := by
  refine turns fun items => andThen fun _ => branch inferInstance (ifPunct inferInstance ?_)
  exact taken fun _ => andThen fun _ => inferInstance

instance arrayLiteral : Advances r source rank taking (Parse.arrayLiteral r) := by
  unfold Parse.arrayLiteral
  infer_instance

instance shorthand {keyToken : Token} {key : Expr} :
    Advances r source rank free (Parse.shorthand keyToken key) := by
  unfold Parse.shorthand
  split <;> infer_instance

instance objectProperty : Advances r source rank taking (Parse.objectProperty r) := by
  refine andThen fun start => ifPunct inferInstance ?_
  refine andThen fun m => andThen fun keyToken => found (fun x => ?_) inferInstance
  exact optional fun _ => inferInstance

instance objectLiteral : Advances r source rank taking (Parse.objectLiteral r) := by
  unfold Parse.objectLiteral
  infer_instance

instance superReference : Advances r source rank taking Parse.superReference := by
  refine taken fun start => andThen fun k => ?_
  dsimp only
  split <;> infer_instance

instance importArguments : Advances r source Goal.top free (Parse.importArguments r) := by
  unfold Parse.importArguments
  infer_instance

instance importExpression : Advances r source rank taking (Parse.importExpression r) := by
  refine taken fun start => andThen fun _ => branch ?_ inferInstance
  exact andThen fun _ => andThen fun _ => optional fun _ => andThen fun here => optional fun _ =>
    inferInstance

instance identifierOrFunction : Advances r source rank taking (Parse.identifierOrFunction r) := by
  unfold Parse.identifierOrFunction
  infer_instance

instance primary : Advances r source rank taking (Parse.primary r) where
  reads e s hsource hs := by
    subst hsource
    have hsource := hs.placed.inSource
    refine Reads.look rfl ?_
    split
    · exact hs.reads
    · next hkind => exact Reads.takeAt hs hkind nofun inferInstance
    · exact hs.reads
    · next hkind => exact Reads.takeAt hs hkind nofun inferInstance
    · next hkind => exact Reads.takeAt hs hkind nofun inferInstance
    · next hkind => exact Reads.takeAt hs hkind nofun inferInstance
    · next hkind => exact Reads.takeAt hs hkind nofun inferInstance
    · next hkind => exact Reads.takeAt hs hkind nofun inferInstance
    · next hkind => exact Reads.takeAt hs hkind nofun inferInstance
    · next hkind =>
      exact (templateLiteral_reads hs (hkind ▸ nofun)).andThen fun _ _ _ hahead =>
        Reads.pure hahead.placed rfl
    · next hkind =>
      exact (templateLiteral_reads hs (hkind ▸ nofun)).andThen fun _ _ _ hahead =>
        Reads.pure hahead.placed rfl
    · exact hs.reads
    · exact hs.reads
    · exact hs.reads
    · exact hs.reads
    · exact hs.reads
    · exact hs.reads
    · exact hs.reads
    · exact hs.reads
    · exact hs.reads
    · next hkind =>
      refine Reads.look rfl (Reads.look rfl ?_)
      split
      · exact Reads.takeAt hs hkind nofun inferInstance
      · exact hs.reads
    · exact hs.reads

instance bracketKey : Advances r source Goal.top taking (Parse.bracketKey r) := by
  unfold Parse.bracketKey
  infer_instance

instance optionalLink {start : Nat} {left : Expr} :
    Advances r source Goal.top free (Parse.optionalLink r start left) := by
  refine andThen fun k => ?_
  split <;> infer_instance

instance chain {left : Expr} {allowCall : Bool} :
    Advances r source Goal.top free (Parse.chain r left allowCall) := by
  refine turns fun x => ⟨fun e s hsource hs => ?_⟩
  subst hsource
  have htemplate (hkind : s.token.kind ≠ .eof) : Reads (do
      if x.2 then Parse.fail .optionalTemplate
      let quasi ← Parse.templateLiteral r
      return .again (.tagged (← Parse.spanFrom left.span.offset) x.1 quasi, x.2) :
        Parse (Turn (Expr × Bool) Expr)) e s
      Turn.taken := by
    dsimp only
    split
    · exact Reads.error rfl rfl
    · refine (templateLiteral_reads hs hkind).andThen fun _ _ _ hahead => ?_
      exact Reads.look rfl (Reads.pure hahead.placed rfl)
  refine Reads.look rfl ?_
  dsimp only
  split
  · next hkind => exact Reads.takeAt hs hkind nofun inferInstance
  · exact hs.reads
  · split
    · exact hs.reads
    · next hkind _ => exact Reads.takeAt hs hkind nofun inferInstance
  · split <;> exact hs.reads
  · next hkind => exact htemplate (hkind ▸ nofun)
  · next hkind => exact htemplate (hkind ▸ nofun)
  · exact hs.reads

instance constructed : Advances r source (rank + 1) taking (Parse.constructed r) := by
  refine andThen fun k => ?_
  split <;> infer_instance

instance newExpression : Advances r source rank taking (Parse.newExpression r) := by
  refine taken fun start => andThen fun _ => branch ?_ inferInstance
  exact andThen fun _ => andThen fun _ => optional fun _ => andThen fun here => optional fun _ =>
    inferInstance

instance leftHandSideRule : Advances r source (rank + 1) taking (Parse.leftHandSide r) := by
  unfold Parse.leftHandSide
  infer_instance

/-! ## Operators -/

instance updateExpression : Advances r source (rank + 2) taking (Parse.updateExpression r) := by
  refine taken fun operand => andThen fun t => branch inferInstance ?_
  split <;> infer_instance

instance unaryExpression : Advances r source (rank + 2) taking (Parse.unaryExpression r) where
  reads e s hsource hs := by
    subst hsource
    refine Reads.look rfl ?_
    split
    · next hunary =>
      refine Reads.take hs (fun heof => ?_) (andThen fun operand => optional fun _ => inferInstance)
      rw [heof] at hunary
      cases hunary
    · split
      · next hupdate =>
        refine Reads.take hs (fun heof => ?_) (andThen fun operand => ?_)
        · rw [heof] at hupdate
          cases hupdate
        · split <;> infer_instance
      · obtain ⟨async, hasync⟩ := Looks.inAsync.looks e s
        refine Reads.look rfl (Reads.look hasync ?_)
        split
        · next hat =>
            exact Reads.take hs (isPlain_ne_eof (Bool.and_eq_true_iff.mp hat).1) inferInstance
        · exact hs.reads

instance binaryExpression {least : Nat} :
    Advances r source (rank + 3) taking (Parse.binaryExpression r least) := by
  refine taken fun first => turns fun left => andThen fun t => andThen fun here =>
    branch inferInstance ?_
  exact optional fun _ => andThen fun _ => taken fun right => optional fun _ => inferInstance

instance conditional : Advances r source (rank + 4) taking (Parse.conditional r) := by
  unfold Parse.conditional
  infer_instance

/-- The word that starts it is in hand, so it is taken. -/
theorem yieldExpression_reads {e : Surroundings} {s : ParseState} (hs : r.Serve e.source rank s)
    (hkind : s.token.kind ≠ .eof) :
    Reads (Parse.yieldExpression r) e s taking := by
  refine Reads.look rfl (Reads.take hs hkind (andThen fun t => ?_))
  exact branch inferInstance (branch inferInstance (branch inferInstance inferInstance))

instance assignmentTarget : Advances r source rank hits (Parse.assignmentTarget r) := by
  refine andThen fun k => ?_
  split <;> infer_instance

instance patternAssignment : Advances r source rank hits (Parse.patternAssignment r) := by
  refine andThen fun start => @attempt _ _ _ _ _ ?_
  exact found (fun target => andThen fun _ => inferInstance) inferInstance

instance plainAssignment : Advances r source (rank + 4) taking (Parse.plainAssignment r) := by
  refine taken fun left => andThen fun op => branch inferInstance ?_
  split
  · infer_instance
  · next h =>
      exact andThen fun _ => andThen fun value => @andThen _ _ _ _ _ _ _ _ (asPattern h) fun _ =>
        inferInstance

instance assignmentExpression :
    Advances r source (rank + 4) taking (Parse.assignmentExpression r) where
  reads e s hsource hs := by
    subst hsource
    have hplain : Advances r e.source (rank + 4) taking (do
        match ← Parse.arrowFunction r with
        | some x => return x
        | none =>
          match ← Parse.patternAssignment r with
          | some x => return x
          | none => Parse.plainAssignment r) :=
      found (fun _ => inferInstance) (found (fun _ => inferInstance) inferInstance)
    obtain ⟨generator, hgenerator⟩ := Looks.inGenerator.looks e s
    refine Reads.look rfl (Reads.look hgenerator ?_)
    split
    · next hat => exact yieldExpression_reads hs (isPlain_ne_eof (Bool.and_eq_true_iff.mp hat).1)
    · exact hs.reads

instance commaExpression : Advances r source (rank + 5) taking (Parse.commaExpression r) := by
  unfold Parse.commaExpression
  infer_instance

end Advances

end EcmaStack
