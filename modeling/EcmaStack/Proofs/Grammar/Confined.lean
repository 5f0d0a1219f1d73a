import EcmaStack.Proofs.Grammar.Keeps

/-!
# What rules leave of the open scopes

An expression, a pattern or a function leaves the open scopes exactly as they were: what is
declared inside it is declared in scopes that it opens and closes itself. A statement may
declare names, but not beyond the nearest function scope, so a function body is **confined** to
the scope of its function. The two feed each other: a body is made of statements, and statements
hold expressions with functions in them. Both follow by induction on the depth to which goals
nest (`rulesWith_confined`).
-/

namespace EcmaStack

/-! ## Changes within a function -/

namespace Scope

/-- The chains are the same beyond their nearest function scopes, which stand at the same
distance. -/
inductive SameBeyond : List Scope → List Scope → Prop
  | nil : SameBeyond [] []
  | function {s t : Scope} {outer : List Scope} :
      s.kind = .function → t.kind = .function → SameBeyond (s :: outer) (t :: outer)
  | block {s t : Scope} {a b : List Scope} :
      s.kind = .block → t.kind = .block → SameBeyond a b → SameBeyond (s :: a) (t :: b)

namespace SameBeyond

variable {s t : Scope} {a b c : List Scope}

/-- Scopes outside the innermost function are compared, and a function's own scope is the
last that may differ. -/
theorem cons (hkind : s.kind = t.kind) (h : SameBeyond a b)
    (hfunction : s.kind = .function → a = b) :
    SameBeyond (s :: a) (t :: b) := by
  cases hs : s.kind with
  | block => exact .block hs (hkind ▸ hs) h
  | function =>
    rw [hfunction hs]
    exact .function hs (hkind ▸ hs)

/-- Scopes that nothing was done to are the same. -/
theorem refl (a : List Scope) : SameBeyond a a := by
  induction a with
  | nil => exact .nil
  | cons s a ih => exact cons rfl ih fun _ => rfl

/-- What two rules leave alone, both together leave alone. -/
theorem trans (h : SameBeyond a b) (k : SameBeyond b c) : SameBeyond a c := by
  induction h generalizing c with
  | nil => exact k
  | function hs ht =>
    cases k with
    | function _ hu => exact .function hs hu
    | block hblock _ _ => rw [ht] at hblock; cases hblock
  | block hs ht _ ih =>
    cases k with
    | function hfunction _ => rw [ht] at hfunction; cases hfunction
    | block _ hu hrest => exact .block hs hu (ih hrest)

/-- Closing a scope that was opened here gives back scopes that are the same beyond the
function. -/
theorem tail (h : SameBeyond (s :: a) b) : SameBeyond a b.tail := by
  cases h with
  | function _ _ => exact refl a
  | block _ _ hrest => exact hrest

/-- Closing the scope of a function gives back all that was there before it. -/
theorem tail_eq (h : SameBeyond (s :: a) b) (hs : s.kind = .function) : b.tail = a := by
  cases h with
  | function _ _ => rfl
  | block hblock _ _ => rw [hs] at hblock; cases hblock

/-- As many scopes are open as before. -/
theorem length_eq (h : SameBeyond a b) : b.length = a.length := by
  induction h with
  | nil => rfl
  | function _ _ => rfl
  | block _ _ _ ih => rw [List.length_cons, List.length_cons, ih]

end SameBeyond

variable {a b : List Scope} {v : Variable}

/-- A variable that is added to the innermost scope changes no other. -/
theorem addAt_zero_ok (h : addAt v 0 a = .ok b) :
    ∃ s t outer, a = s :: outer ∧ b = t :: outer ∧ s.kind = t.kind := by
  cases a with
  | nil => cases h
  | cons s outer =>
    obtain ⟨t, ht, rfl⟩ := map_ok h
    exact ⟨s, t, outer, rfl, rfl, (add_grows ht).1.kind.symm⟩

/-- A name that is declared right here changes one scope, which lies within the function. -/
theorem addAt_zero_sameBeyond (h : addAt v 0 a = .ok b) : SameBeyond a b := by
  obtain ⟨s, t, outer, rfl, rfl, hkind⟩ := addAt_zero_ok h
  exact .cons hkind (.refl outer) fun _ => rfl

/-- A variable that moves out stops at the nearest function scope. -/
theorem addAt_hoistDistance_sameBeyond {n : Nat} (hn : hoistDistance v.name a = .ok (some n))
    (h : addAt v n a = .ok b) :
    SameBeyond a b := by
  induction a generalizing n b with
  | nil => cases hn
  | cons s a ih =>
    unfold hoistDistance at hn
    split at hn
    · cases hn
    · split at hn
      · cases hn
        exact addAt_zero_sameBeyond h
      · next hkind =>
        obtain ⟨m, hm, hmn⟩ := map_ok hn
        obtain ⟨m, rfl, rfl⟩ := Option.map_eq_some_iff.mp hmn
        obtain ⟨b', hb', rfl⟩ := map_ok h
        exact .cons rfl (ih hm hb') fun hfunction => absurd (beq_iff_eq.mpr hfunction) hkind

/-- A declaration reaches as far as the function around it and no further. -/
theorem declareIn_sameBeyond (h : declareIn a v = .ok b) : SameBeyond a b := by
  obtain ⟨n, hn, rfl | hfunction⟩ := declareIn_addAt h
  · exact addAt_zero_sameBeyond hn
  · exact addAt_hoistDistance_sameBeyond hfunction hn

end Scope

namespace Parse

namespace ScopeChange

/-- Changes as far as the nearest function scope. -/
def confined : ScopeChange where
  rel := Scope.SameBeyond
  refl := .refl
  trans := .trans
  tail := .tail
  length_eq := Scope.SameBeyond.length_eq

instance : confined.Declares :=
  ⟨Scope.declareIn_sameBeyond⟩

/-- Changes of the innermost scope. -/
def innermost : ScopeChange where
  rel a b := b.tail = a.tail ∧ b.length = a.length
  refl _ := ⟨rfl, rfl⟩
  trans h k := ⟨k.1.trans h.1, k.2.trans h.2⟩
  tail h := by
    have htail := h.1
    rw [List.tail_cons] at htail
    rw [htail]
    exact ⟨rfl, rfl⟩
  length_eq h := h.2

end ScopeChange

end Parse

/-- How far the rule for a goal may change the open scopes. -/
def Goal.change {α : Type} : Goal α → Parse.ScopeChange
  | .statement | .item => .confined
  | _ => .none

/-- Whoever answers goals changes the open scopes by statements only, and not beyond the nearest
function scope. -/
class Rules.Confined (r : Rules) : Prop where
  read : ∀ {α : Type} (g : Goal α), Parse.Leaves g.change (r.read g)

namespace Parse

namespace Leaves

variable {α : Type} {p : Parse α} {r : Rules} {R : ScopeChange}

/-! ## Scopes that take the changes with them -/

/-- What changes only the scope it is read in changes nothing once that scope is closed. -/
theorem inScope_of_innermost {scope : Scope} (h : Leaves .innermost p) :
    Leaves R (Parse.inScope scope p) := by
  refine of_eq fun e s x t heq => ?_
  obtain ⟨a, u, hp, _, rfl⟩ := inScope_ok heq
  exact (h.change e _ a u hp).1

/-- Within a function a rule may declare what it likes: nothing of it is left outside. -/
instance inFunction {generator async : Bool} [h : Leaves .confined p] :
    Leaves R (Parse.inScope (functionScope generator async) p) := by
  refine of_eq fun e s x t heq => ?_
  obtain ⟨a, u, hp, _, rfl⟩ := inScope_ok heq
  exact (h.change e _ a u hp).tail_eq rfl

/-- The same where the function is read on trial. -/
instance inTrialFunction {p : Parse (Option α)} {generator async : Bool} [h : Leaves .confined p] :
    Leaves R (Parse.inTrialScope (functionScope generator async) p) := by
  refine of_eq fun e s o t heq => ?_
  obtain ⟨o', u, hp, _, hhit, hmiss⟩ := inTrialScope_ok heq
  have hchange := h.change e _ o' u hp
  have htail : u.scopes.tail = s.scopes := hchange.tail_eq rfl
  cases o' with
  | some a =>
    rw [hhit rfl]
    exact htail
  | none =>
    have hlength : u.scopes.length - s.scopes.length = 1 := by
      rw [hchange.length_eq, ParseState.enter_depth, Nat.add_sub_cancel_left]
    rw [hmiss rfl, hlength, List.drop_one]
    exact htail

/-- A constant is declared in the innermost scope. -/
theorem declare_constDecl {name : Name} : Leaves .innermost (Parse.declare name .constDecl) := by
  refine ⟨fun e s u t heq => ?_⟩
  obtain ⟨x, y, outer, hs, ht, _⟩ := Scope.addAt_zero_ok (declareAt_ok heq)
  rw [hs, ht]
  exact ⟨rfl, rfl⟩

/-- The name of a function or class expression is gone with the scope around it. -/
instance named {scope : Scope} {name : Name} [h : Leaves .none p] : Leaves R (Parse.inScope scope do
    Parse.declare name .constDecl
    p) :=
  inScope_of_innermost (@andThen _ _ _ _ _ declare_constDecl fun _ => of_none h)

/-! ## Choices and repetitions -/

/-- Two branches, for rules that are not found as instances. -/
theorem branch {c : Prop} [Decidable c] {p q : Parse α} (hp : Leaves R p) (hq : Leaves R q) :
    Leaves R (if c then p else q) :=
  ite

/-- A choice of how to begin, with one way to go on. -/
theorem either {β : Type} {c : Prop} [Decidable c] {p q : Parse α}
    {f : α → Parse β} [Leaves R p] [Leaves R q] (h : ∀ a, Leaves R (f a)) :
    Leaves R (if c then p >>= f else q >>= f) :=
  branch (andThen h) (andThen h)

/-- A step that may be left out, before one way to go on. -/
theorem optional {β : Type} {c : Prop} [Decidable c] {p : Parse PUnit}
    {f : PUnit → Parse β} [Leaves R p] (h : ∀ u, Leaves R (f u)) :
    Leaves R (if c then p >>= f else f ⟨⟩) :=
  branch (andThen h) (h ⟨⟩)

/-- A repetition leaves what each of its turns leaves. -/
theorem turns {σ β : Type} {init : σ} {step : σ → Parse (Turn σ β)} (h : ∀ x, Leaves R (step x)) :
    Leaves R (Parse.repeating init step) :=
  repeating

/-! ## Goals -/

variable [hr : r.Confined]

instance expression : Leaves R r.expression :=
  of_none (hr.read .expression)

instance assignment : Leaves R r.assignment :=
  of_none (hr.read .assignment)

instance binary {least : Nat} : Leaves R (r.binary least) :=
  of_none (hr.read (.binary least))

instance unary : Leaves R r.unary :=
  of_none (hr.read .unary)

instance leftHandSideGoal : Leaves R r.leftHandSide :=
  of_none (hr.read .leftHandSide)

instance construct : Leaves R r.construct :=
  of_none (hr.read .construct)

instance target {binding : Bool} : Leaves R (r.target binding) :=
  of_none (hr.read (.target binding))

instance statement : Leaves .confined r.statement :=
  hr.read .statement

instance item : Leaves .confined r.item :=
  hr.read .item

instance withIn {allow : Bool} [Leaves R p] : Leaves R (Parse.withIn allow p) :=
  within

instance inBlock [Leaves R p] : Leaves R (Parse.inBlock p) :=
  inScope

/-! ## Names and patterns -/

instance identifierReference : Leaves R Parse.identifierReference := by
  have hname (t : Token) : Leaves R (match t.name with
      | "NaN" => return .number (tokenSpan t) "NaN" .nan
      | "Infinity" => return .number (tokenSpan t) "Infinity" (.infinity false)
      | _ => return .identifier (nameOf t) : Parse Expr) := by
    split <;> infer_instance
  unfold Parse.identifierReference
  infer_instance

instance memberName : Leaves R Parse.memberName := by
  unfold Parse.memberName
  infer_instance

instance numberLiteral {t : Token} : Leaves R (Parse.numberLiteral t) := by
  refine andThen fun raw => ?_
  split
  · split <;> infer_instance
  · split <;> infer_instance

instance propertyKey : Leaves R (Parse.propertyKey r) := by
  refine andThen fun t => ?_
  split <;> infer_instance

instance fallback : Leaves R (Parse.fallback r) := by
  unfold Parse.fallback
  infer_instance

instance patternElement {binding : Bool} : Leaves R (Parse.patternElement r binding) := by
  refine andThen fun start => andThen fun o => ?_
  cases o <;> infer_instance

instance arrayElements {binding : Bool} : Leaves R (Parse.arrayElements r binding) := by
  refine turns fun items => andThen fun _ => branch inferInstance ?_
  refine andThen fun _ => branch inferInstance ?_
  refine andThen fun _ => branch ?_ ?_
  · refine andThen fun _ => andThen fun o => ?_
    cases o <;> infer_instance
  · refine andThen fun o => ?_
    cases o <;> infer_instance

instance arrayPattern {binding : Bool} : Leaves R (Parse.arrayPattern r binding) := by
  refine @attempt _ _ _ (andThen fun start => andThen fun o => ?_)
  cases o with
  | none => infer_instance
  | some x => exact andThen fun _ => inferInstance

instance patternProperty {binding : Bool} : Leaves R (Parse.patternProperty r binding) := by
  refine andThen fun start => andThen fun _ => andThen fun _ => branch ?_ ?_
  · refine andThen fun o => ?_
    cases o <;> infer_instance
  · refine andThen fun o => ?_
    cases o with
    | none => infer_instance
    | some x =>
      refine andThen fun _ => branch inferInstance (andThen fun _ => andThen fun o => ?_)
      cases o <;> infer_instance

instance objectRest {binding : Bool} : Leaves R (Parse.objectRest r binding) := by
  unfold Parse.objectRest
  infer_instance

instance objectProperties {binding : Bool} : Leaves R (Parse.objectProperties r binding) := by
  refine turns fun items => andThen fun _ => branch inferInstance ?_
  refine andThen fun _ => branch ?_ ?_
  · refine andThen fun _ => andThen fun o => ?_
    cases o <;> infer_instance
  · refine andThen fun o => ?_
    cases o <;> infer_instance

instance objectPattern {binding : Bool} : Leaves R (Parse.objectPattern r binding) := by
  refine @attempt _ _ _ (andThen fun start => andThen fun o => ?_)
  cases o with
  | none => infer_instance
  | some x => exact andThen fun _ => inferInstance

instance simpleTarget : Leaves R (Parse.simpleTarget r) := by
  have hread : Leaves R (Parse.attempt do
      let x ← r.leftHandSide
      match x.simpleTarget? with
      | some target => return some (← Parse.asPattern target)
      | none => return none) := by
    refine @attempt _ _ _ (andThen fun x => ?_)
    split <;> infer_instance
  refine andThen fun k => ?_
  split
  · exact hread
  · exact hread
  · exact hread
  · infer_instance

instance patternTarget {binding : Bool} : Leaves R (Parse.patternTarget r binding) := by
  refine andThen fun k => ?_
  split <;> infer_instance

instance parameterItems {speculative : Bool} : Leaves R (Parse.parameterItems r speculative) := by
  refine turns fun items => andThen fun _ => branch inferInstance ?_
  refine andThen fun _ => branch ?_ ?_
  · refine andThen fun _ => andThen fun o => ?_
    cases o <;> infer_instance
  · refine andThen fun o => ?_
    cases o <;> infer_instance

instance parameterList {speculative : Bool} : Leaves R (Parse.parameterList r speculative) := by
  refine andThen fun _ => branch ?_ inferInstance
  refine andThen fun start => andThen fun _ => andThen fun o => ?_
  cases o with
  | none => infer_instance
  | some x => exact andThen fun _ => inferInstance

instance maybeParameters : Leaves R (Parse.maybeParameters r) :=
  attempt

instance parameters : Leaves R (Parse.parameters r) := by
  refine andThen fun o => ?_
  cases o <;> infer_instance

/-! ## Functions and classes -/

instance functionBody : Leaves .confined (Parse.functionBody r) := by
  unfold Parse.functionBody
  infer_instance

instance functionRest {generator async : Bool} :
    Leaves R (Parse.functionRest r generator async) := by
  unfold Parse.functionRest
  infer_instance

instance function {declaration nameOptional : Bool} :
    Leaves R (Parse.function r declaration nameOptional) := by
  refine andThen fun start => andThen fun async => optional fun _ => andThen fun _ =>
    andThen fun generator => ?_
  refine optional fun _ => andThen fun name => ?_
  dsimp only
  split
  · exact @bind _ _ _ _ _ named inferInstance
  · infer_instance

instance method {start : Nat} {kind : PropertyKind} {async generator superCall : Bool} :
    Leaves R (Parse.method r start kind async generator superCall) := by
  unfold Parse.method
  infer_instance

instance arrowParameters : Leaves R (Parse.arrowParameters r) := by
  refine andThen fun _ => branch (andThen fun o => ?_) inferInstance
  cases o <;> infer_instance

instance arrowBody : Leaves .confined (Parse.arrowBody r) := by
  unfold Parse.arrowBody
  infer_instance

instance arrowRest : Leaves .confined (Parse.arrowRest r) := by
  refine andThen fun o => ?_
  cases o <;> infer_instance

instance arrowFunction : Leaves R (Parse.arrowFunction r) := by
  refine andThen fun o => ?_
  cases o with
  | none => infer_instance
  | some async =>
    refine andThen fun start => @attempt _ _ _ (optional fun _ => andThen fun o => ?_)
    cases o <;> infer_instance

instance spreadOrAssignment : Leaves R (Parse.spreadOrAssignment r) := by
  unfold Parse.spreadOrAssignment
  infer_instance

instance arguments : Leaves R (Parse.arguments r) := by
  unfold Parse.arguments
  infer_instance

instance parenthesized : Leaves R (Parse.parenthesized r) := by
  unfold Parse.parenthesized
  infer_instance

instance dottedNames {start : Nat} {x : Expr} : Leaves R (Parse.dottedNames start x) := by
  unfold Parse.dottedNames
  infer_instance

instance decoratorExpression : Leaves R (Parse.decoratorExpression r) := by
  unfold Parse.decoratorExpression
  infer_instance

instance decorators : Leaves R (Parse.decorators r) := by
  unfold Parse.decorators
  infer_instance

instance staticBlock {start : Nat} : Leaves R (Parse.staticBlock r start) := by
  unfold Parse.staticBlock
  infer_instance

instance classMember {derived : Bool} {start : Nat} {decorations : List Decorator} {static : Bool} :
    Leaves R (Parse.classMember r derived start decorations static) := by
  refine andThen fun accessor => either fun m => andThen fun keyStart => andThen fun o => ?_
  cases o with
  | none => infer_instance
  | some x =>
    refine andThen fun _ => branch inferInstance ?_
    exact optional fun _ => optional fun _ => inferInstance

instance classElement {derived : Bool} : Leaves R (Parse.classElement r derived) := by
  refine andThen fun start => andThen fun ds => andThen fun _ =>
    branch (andThen fun _ => branch ?_ ?_) inferInstance
  · exact optional fun _ => inferInstance
  · infer_instance

instance classElements {derived : Bool} : Leaves R (Parse.classElements r derived) := by
  unfold Parse.classElements
  infer_instance

instance classRest : Leaves R (Parse.classRest r) := by
  unfold Parse.classRest
  infer_instance

instance classLiteral {declaration nameOptional : Bool} :
    Leaves R (Parse.classLiteral r declaration nameOptional) := by
  refine andThen fun start => andThen fun ds => andThen fun _ => andThen fun name => ?_
  dsimp only
  split
  · exact @bind _ _ _ _ _ named inferInstance
  · infer_instance

/-! ## Primary expressions and chains -/

set_option synthInstance.maxSize 512 in
instance templateLiteral : Leaves R (Parse.templateLiteral r) := by
  unfold Parse.templateLiteral
  infer_instance

instance regExpToken {t : Token} {cursor : Cursor} {previousEnd : Nat} :
    Leaves R (Parse.regExpToken t cursor previousEnd) := by
  unfold Parse.regExpToken
  infer_instance

instance regExpLiteral : Leaves R Parse.regExpLiteral := by
  refine andThen fun s => andThen fun here => ?_
  dsimp only
  split
  · infer_instance
  · refine branch inferInstance (branch ?_ inferInstance)
    split
    · infer_instance
    · exact andThen fun _ => inferInstance

instance arrayItems : Leaves R (Parse.arrayItems r) := by
  refine turns fun items => andThen fun _ => branch inferInstance ?_
  exact andThen fun _ => branch inferInstance (andThen fun _ => inferInstance)

instance arrayLiteral : Leaves R (Parse.arrayLiteral r) := by
  unfold Parse.arrayLiteral
  infer_instance

instance shorthand {keyToken : Token} {key : Expr} : Leaves R (Parse.shorthand keyToken key) := by
  unfold Parse.shorthand
  split <;> infer_instance

instance objectProperty : Leaves R (Parse.objectProperty r) := by
  refine andThen fun start => andThen fun _ => branch inferInstance ?_
  refine andThen fun m => andThen fun keyToken => andThen fun o => ?_
  cases o with
  | none => infer_instance
  | some x => exact optional fun _ => inferInstance

instance objectLiteral : Leaves R (Parse.objectLiteral r) := by
  unfold Parse.objectLiteral
  infer_instance

instance superReference : Leaves R Parse.superReference := by
  refine andThen fun start => andThen fun k => ?_
  dsimp only
  split <;> infer_instance

instance importArguments : Leaves R (Parse.importArguments r) := by
  refine andThen fun source => andThen fun _ => branch (andThen fun _ => andThen fun _ => ?_) ?_
  · exact branch inferInstance (andThen fun _ => andThen fun _ => optional fun _ => inferInstance)
  · infer_instance

instance importExpression : Leaves R (Parse.importExpression r) := by
  refine andThen fun start => andThen fun _ => branch ?_ inferInstance
  exact andThen fun _ => andThen fun _ => optional fun _ => andThen fun here => optional fun _ =>
    inferInstance

instance identifierOrFunction : Leaves R (Parse.identifierOrFunction r) := by
  unfold Parse.identifierOrFunction
  infer_instance

instance primary : Leaves R (Parse.primary r) := by
  refine andThen fun t => ?_
  split <;> infer_instance

instance bracketKey : Leaves R (Parse.bracketKey r) := by
  unfold Parse.bracketKey
  infer_instance

instance optionalLink {start : Nat} {left : Expr} : Leaves R (Parse.optionalLink r start left) := by
  refine andThen fun k => ?_
  split <;> infer_instance

instance chain {left : Expr} {allowCall : Bool} : Leaves R (Parse.chain r left allowCall) := by
  refine turns fun x => andThen fun k => ?_
  dsimp only
  split
  · infer_instance
  · infer_instance
  · exact optional fun _ => inferInstance
  · infer_instance
  · exact optional fun _ => inferInstance
  · exact optional fun _ => inferInstance
  · infer_instance

instance constructed : Leaves R (Parse.constructed r) := by
  refine andThen fun k => ?_
  split <;> infer_instance

instance newExpression : Leaves R (Parse.newExpression r) := by
  refine andThen fun start => andThen fun _ => branch ?_ inferInstance
  exact andThen fun _ => andThen fun _ => optional fun _ => andThen fun here => optional fun _ =>
    inferInstance

instance leftHandSide : Leaves R (Parse.leftHandSide r) := by
  unfold Parse.leftHandSide
  infer_instance

/-! ## Operators -/

instance updateExpression : Leaves R (Parse.updateExpression r) := by
  refine andThen fun operand => andThen fun t => branch inferInstance ?_
  split <;> infer_instance

instance unaryExpression : Leaves R (Parse.unaryExpression r) := by
  refine andThen fun t => branch ?_ (branch ?_ inferInstance)
  · exact andThen fun _ => andThen fun operand => optional fun _ => inferInstance
  · refine andThen fun _ => andThen fun operand => ?_
    split <;> infer_instance

instance binaryExpression {least : Nat} : Leaves R (Parse.binaryExpression r least) := by
  refine andThen fun first => turns fun left => andThen fun t => andThen fun here =>
    branch inferInstance ?_
  exact optional fun _ => andThen fun _ => andThen fun right => optional fun _ => inferInstance

instance conditional : Leaves R (Parse.conditional r) := by
  unfold Parse.conditional
  infer_instance

set_option synthInstance.maxSize 512 in
instance yieldExpression : Leaves R (Parse.yieldExpression r) := by
  unfold Parse.yieldExpression
  infer_instance

instance assignmentTarget : Leaves R (Parse.assignmentTarget r) := by
  refine andThen fun k => ?_
  split <;> infer_instance

instance patternAssignment : Leaves R (Parse.patternAssignment r) := by
  refine andThen fun start => @attempt _ _ _ (andThen fun o => ?_)
  cases o <;> infer_instance

instance plainAssignment : Leaves R (Parse.plainAssignment r) := by
  refine andThen fun left => andThen fun op => branch inferInstance ?_
  split <;> infer_instance

instance assignmentExpression : Leaves R (Parse.assignmentExpression r) := by
  refine andThen fun _ => andThen fun _ => branch inferInstance (andThen fun o => ?_)
  cases o with
  | some x => infer_instance
  | none =>
    refine andThen fun o => ?_
    cases o <;> infer_instance

instance commaExpression : Leaves R (Parse.commaExpression r) := by
  unfold Parse.commaExpression
  infer_instance

end Leaves

end Parse

end EcmaStack
