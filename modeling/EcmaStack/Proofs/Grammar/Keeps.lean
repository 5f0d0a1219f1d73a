import EcmaStack.Grammar.Program
import EcmaStack.Proofs.Scope.Growth

/-!
# What reading does to the open scopes

A rule `Leaves` the open scopes in a relation to what they were before it. The relation is a
parameter: that they are the same, or that they are the same but for more names in them, and
then the rule `Keeps` them. The small rules only look at the scopes, so they leave them in every
such relation, and so does what is put together from rules that do; the grammar's recursive
rules follow where their trees are looked at. To open a scope without closing it, or to close
one that was open before, is what no such relation allows.
-/

namespace EcmaStack

/-- One more scope is open. -/
theorem ParseState.enter_depth (s : ParseState) (scope : Scope) :
    (s.enter scope).scopes.length = s.scopes.length + 1 :=
  rfl

namespace Parse

variable {α β σ : Type} {p q : Parse α} {f : α → Parse β} {e : Surroundings} {s : ParseState}

/-! ## What a rule went through -/

/-- Two rules, one after the other, were both read. -/
theorem bind_ok {b : β} {u : ParseState} (h : (p >>= f) e s = .ok (b, u)) :
    ∃ a t, p e s = .ok (a, t) ∧ f a e t = .ok (b, u) := by
  simp only [bind, andThen] at h
  split at h
  · next a t hp => exact ⟨a, t, hp, h⟩
  · cases h

/-- A scope was closed that was the innermost. -/
theorem closeScope_ok {depth : Nat} {closed : Option Scope} {t : ParseState}
    (h : closeScope depth e s = .ok (closed, t)) :
    closed = s.scopes.head? ∧ t = { s with scopes := s.scopes.tail } := by
  obtain ⟨_, _, hget, h⟩ := bind_ok h
  cases hget
  split at h
  · cases h
    exact ⟨rfl, rfl⟩
  · cases h

/-- What was read inside a scope, with the scope as it was at the end. -/
theorem inScope_ok {scope : Scope} {x : α × Option Scope} {t : ParseState}
    (h : inScope scope p e s = .ok (x, t)) :
    ∃ a u, p e (s.enter scope) = .ok (a, u) ∧ x = (a, u.scopes.head?) ∧
      t = { u with scopes := u.scopes.tail } := by
  obtain ⟨depth, _, hdepth, h⟩ := bind_ok h
  cases hdepth
  obtain ⟨_, _, hopen, h⟩ := bind_ok h
  cases hopen
  obtain ⟨a, u, hp, h⟩ := bind_ok h
  obtain ⟨closed, v, hclose, h⟩ := bind_ok h
  obtain ⟨rfl, rfl⟩ := closeScope_ok hclose
  cases h
  exact ⟨a, u, hp, rfl, rfl⟩

/-- What was read inside a scope on trial: either it is there, and the scope with it as it was
at the end, or it is a miss and the scope is abandoned. -/
theorem inTrialScope_ok {p : Parse (Option α)} {scope : Scope} {o : Option (α × Option Scope)}
    {t : ParseState} (h : inTrialScope scope p e s = .ok (o, t)) :
    ∃ o' u, p e (s.enter scope) = .ok (o', u) ∧
      o = o'.map (fun a => (a, u.scopes.head?)) ∧
      (o'.isSome = true → t = { u with scopes := u.scopes.tail }) ∧
      (o' = none → t = { u with scopes := u.scopes.drop (u.scopes.length - s.scopes.length) }) := by
  obtain ⟨depth, _, hdepth, h⟩ := bind_ok h
  cases hdepth
  obtain ⟨_, _, hopen, h⟩ := bind_ok h
  cases hopen
  obtain ⟨o', u, hp, h⟩ := bind_ok h
  cases o' with
  | some a =>
    obtain ⟨closed, v, hclose, h⟩ := bind_ok h
    obtain ⟨rfl, rfl⟩ := closeScope_ok hclose
    cases h
    exact ⟨some a, u, hp, rfl, fun _ => rfl, nofun⟩
  | none =>
    cases h
    exact ⟨none, u, hp, rfl, nofun, fun _ => rfl⟩

/-- A token that was taken in hand is well formed. -/
theorem hold_ok {token : Token} {c : Cursor} {n : Nat} {u : Unit} {t : ParseState}
    (h : hold token c n e s = .ok (u, t)) :
    token.fault = none ∧ t = { s with cursor := c, token, previousEnd := n } := by
  unfold hold at h
  cases hfault : token.fault with
  | some fault =>
    rw [hfault] at h
    cases h
  | none =>
    rw [hfault] at h
    cases h
    exact ⟨rfl, rfl⟩

/-- A variable was declared in the open scopes. -/
theorem declareAt_ok {name : Name} {site : Nat} {kind : DeclKind} {u : Unit} {t : ParseState}
    (h : declareAt name site kind e s = .ok (u, t)) :
    Scope.declareIn s.scopes { name := name.text, kind, site := some site } = .ok t.scopes := by
  obtain ⟨_, _, hget, h⟩ := bind_ok h
  cases hget
  cases hscopes : Scope.declareIn s.scopes { name := name.text, kind, site := some site } with
  | error fault =>
    rw [hscopes] at h
    cases h
  | ok scopes =>
    rw [hscopes] at h
    cases h
    rfl

/-! ## Changes of the open scopes -/

/-- A relation between the open scopes before and after a rule that survives putting rules
together, and closing a scope that was opened before them. -/
structure ScopeChange where
  rel : List Scope → List Scope → Prop
  refl : ∀ a, rel a a
  trans : ∀ {a b c}, rel a b → rel b c → rel a c
  tail : ∀ {scope a b}, rel (scope :: a) b → rel a b.tail
  length_eq : ∀ {a b}, rel a b → b.length = a.length

namespace ScopeChange

/-- No change. -/
def none : ScopeChange where
  rel := Eq
  refl _ := rfl
  trans := Eq.trans
  tail := by rintro scope a _ rfl; rfl
  length_eq := by rintro a _ rfl; rfl

/-- More names in the same scopes. -/
def growth : ScopeChange where
  rel := Scope.AllGrow
  refl := .refl
  trans := .trans
  tail h := by
    cases h with
    | cons _ hrest => exact hrest
  length_eq h := (List.Forall₂.length_eq h).symm

/-- A change that allows for declarations. -/
class Declares (R : ScopeChange) : Prop where
  declare : ∀ {a b v}, Scope.declareIn a v = .ok b → R.rel a b

instance : growth.Declares :=
  ⟨Scope.declareIn_grows⟩

end ScopeChange

/-- Wherever the rule is read, it changes the open scopes in no other way. -/
class Leaves (R : ScopeChange) {α : Type} (p : Parse α) : Prop where
  change : ∀ e s a t, p e s = .ok (a, t) → R.rel s.scopes t.scopes

/-- The open scopes are the same after the rule as before, but for more names in them. -/
abbrev Keeps {α : Type} (p : Parse α) : Prop :=
  Leaves .growth p

namespace Leaves

variable {R : ScopeChange}

/-- A rule that leaves the open scopes as they are. -/
theorem of_eq (h : ∀ e s a t, p e s = .ok (a, t) → t.scopes = s.scopes) : Leaves R p :=
  ⟨fun e s a t heq => by rw [h e s a t heq]; exact R.refl s.scopes⟩

/-- What leaves all scopes alone leaves alone what is asked of it. -/
theorem of_none (hp : Leaves .none p) : Leaves R p :=
  of_eq fun e s a t heq => (hp.change e s a t heq).symm

/-! ## Putting rules together -/

/-- Two rules, the second of which depends on what the first has read. -/
theorem andThen [Leaves R p] (h : ∀ a, Leaves R (f a)) : Leaves R (p >>= f) where
  change e s b u heq := by
    obtain ⟨a, t, hp, hf⟩ := bind_ok heq
    exact R.trans (change e s a t hp) ((h a).change e t b u hf)

instance bind [Leaves R p] [h : ∀ a, Leaves R (f a)] : Leaves R (p >>= f) :=
  andThen h

instance pure {a : α} : Leaves R (Pure.pure a : Parse α) :=
  of_eq fun _ _ _ _ h => by cases h; rfl

instance map {g : α → β} [Leaves R p] : Leaves R (g <$> p) :=
  andThen fun _ => pure

instance ite {c : Prop} [Decidable c] [Leaves R p] [Leaves R q] :
    Leaves R (if c then p else q) := by
  split <;> assumption

instance within {change : Region → Region} [h : Leaves R p] : Leaves R (Parse.within change p) :=
  ⟨fun _ s a t heq => h.change _ s a t heq⟩

instance attempt {p : Parse (Option α)} [h : Leaves R p] : Leaves R (Parse.attempt p) where
  change e s o t heq := by
    rw [Parse.attempt] at heq
    split at heq
    · next hp =>
      cases heq
      exact h.change e s _ t hp
    · next u hp =>
      cases heq
      exact h.change e s none u hp
    · cases heq

instance inScope {scope : Scope} [h : Leaves R p] : Leaves R (Parse.inScope scope p) where
  change e s x t heq := by
    obtain ⟨a, u, hp, _, rfl⟩ := inScope_ok heq
    exact R.tail (h.change e _ a u hp)

/-! ## The smallest rules -/

instance get : Leaves R Parse.get :=
  of_eq fun _ _ _ _ h => by cases h; rfl

instance surroundings : Leaves R Parse.surroundings :=
  of_eq fun _ _ _ _ h => by cases h; rfl

instance failAt {offset : Nat} {cause : SyntaxFault} :
    Leaves R (Parse.failAt offset cause : Parse α) :=
  of_eq fun _ _ _ _ h => by cases h

instance hold {t : Token} {c : Cursor} {n : Nat} : Leaves R (Parse.hold t c n) := by
  unfold Parse.hold
  split
  · infer_instance
  · exact of_eq fun _ _ _ _ h => by cases h; rfl

instance region : Leaves R Parse.region := by
  unfold Parse.region
  infer_instance

/-! ## Tokens -/

instance token : Leaves R Parse.token := by
  unfold Parse.token
  infer_instance

instance kind : Leaves R Parse.kind := by
  unfold Parse.kind
  infer_instance

instance offset : Leaves R Parse.offset := by
  unfold Parse.offset
  infer_instance

instance next : Leaves R Parse.next := by
  unfold Parse.next
  infer_instance

instance peek : Leaves R Parse.peek := by
  unfold Parse.peek
  infer_instance

instance peekTwo : Leaves R Parse.peekTwo := by
  unfold Parse.peekTwo
  infer_instance

instance isAt {k : Kind} : Leaves R (Parse.isAt k) := by
  unfold Parse.isAt
  infer_instance

instance atPunct {k : Punct} : Leaves R (Parse.atPunct k) :=
  isAt

instance atWord {k : Keyword} : Leaves R (Parse.atWord k) :=
  isAt

instance atContextual {name : String} : Leaves R (Parse.atContextual name) := by
  unfold Parse.atContextual
  infer_instance

instance unexpected : Leaves R (Parse.unexpected : Parse α) := by
  unfold Parse.unexpected
  infer_instance

instance fail {cause : SyntaxFault} : Leaves R (Parse.fail cause : Parse α) := by
  unfold Parse.fail
  infer_instance

instance expect {k : Kind} : Leaves R (Parse.expect k) := by
  unfold Parse.expect
  infer_instance

instance expectPunct {k : Punct} : Leaves R (Parse.expectPunct k) :=
  expect

instance expectWord {k : Keyword} : Leaves R (Parse.expectWord k) :=
  expect

instance expectContextual {name : String} : Leaves R (Parse.expectContextual name) := by
  unfold Parse.expectContextual
  infer_instance

instance canEnd : Leaves R Parse.canEnd := by
  unfold Parse.canEnd
  infer_instance

instance semicolon : Leaves R Parse.semicolon := by
  unfold Parse.semicolon
  infer_instance

instance spanFrom {start : Nat} : Leaves R (Parse.spanFrom start) := by
  unfold Parse.spanFrom
  infer_instance

instance literal {t : Token} : Leaves R (Parse.literal t) := by
  unfold Parse.literal
  infer_instance

instance inGenerator : Leaves R Parse.inGenerator := by
  unfold Parse.inGenerator
  infer_instance

instance inAsync : Leaves R Parse.inAsync := by
  unfold Parse.inAsync
  infer_instance

instance isReservedHere {name : String} : Leaves R (Parse.isReservedHere name) := by
  unfold Parse.isReservedHere
  infer_instance

instance unquoted {t : Token} : Leaves R (Parse.unquoted t) := by
  unfold Parse.unquoted
  infer_instance

instance asPattern {x : Expr} : Leaves R (Parse.asPattern x) := by
  unfold Parse.asPattern
  split <;> infer_instance

/-! ## Repetition -/

instance repeating {init : σ} {step : σ → Parse (Turn σ β)} [∀ x, Leaves R (step x)] :
    Leaves R (Parse.repeating init step) := by
  have hfrom (fuel : Nat) (x : σ) : Leaves R (repeatFrom step fuel x) := by
    induction fuel generalizing x with
    | zero => exact fail
    | succ fuel ih =>
      refine andThen fun turn => ?_
      cases turn with
      | again y => exact ih y
      | done b => exact pure
  exact andThen fun here => hfrom _ init

instance itemsUntil {stop : Kind → Bool} [Leaves R p] : Leaves R (Parse.itemsUntil stop p) := by
  unfold Parse.itemsUntil
  infer_instance

instance commaList {close : Punct} [Leaves R p] : Leaves R (Parse.commaList close p) := by
  unfold Parse.commaList
  infer_instance

instance behind {sign : Parse Bool} [Leaves R sign] [Leaves R p] :
    Leaves R (Parse.behind sign p) := by
  unfold Parse.behind
  infer_instance

/-! ## Declarations -/

variable {D : ScopeChange} [D.Declares]

instance declareAt {name : Name} {site : Nat} {kind : DeclKind} :
    Leaves D (Parse.declareAt name site kind) :=
  ⟨fun _ _ _ _ heq => ScopeChange.Declares.declare (declareAt_ok heq)⟩

instance declare {name : Name} {kind : DeclKind} : Leaves D (Parse.declare name kind) :=
  declareAt

instance declareAll {kind : DeclKind} {names : List Name} :
    Leaves D (Parse.declareAll kind names) := by
  induction names with
  | nil => exact pure
  | cons n rest ih => exact andThen fun _ => ih

instance declarePattern {target : Pattern} {kind : DeclKind} :
    Leaves D (Parse.declarePattern target kind) :=
  declareAll

instance declareParameters {params : Params} : Leaves D (Parse.declareParameters params) :=
  declareAll

/-! ## Names and keys -/

instance bindingIdentifier : Leaves R Parse.bindingIdentifier := by
  unfold Parse.bindingIdentifier
  infer_instance

instance requiredBinding : Leaves R Parse.requiredBinding :=
  andThen fun o => by cases o <;> infer_instance

instance stringLiteral {t : Token} : Leaves R (Parse.stringLiteral t) := by
  unfold Parse.stringLiteral
  infer_instance

instance modifierFollows {allowNewline : Bool} : Leaves R (Parse.modifierFollows allowNewline) := by
  refine andThen fun t => ?_
  split
  · infer_instance
  · split <;> infer_instance

instance memberModifiers : Leaves R Parse.memberModifiers := by
  unfold Parse.memberModifiers
  infer_instance

instance propertyModifiers : Leaves R Parse.propertyModifiers := by
  unfold Parse.propertyModifiers
  infer_instance

/-! ## Functions and classes -/

instance directives : Leaves R Parse.directives := by
  have hdirective : Leaves R directive := by
    unfold directive
    infer_instance
  refine @repeating _ _ _ _ _ fun items => andThen fun o => ?_
  cases o <;> exact pure

instance functionName {declaration nameOptional generator async : Bool} :
    Leaves R (Parse.functionName declaration nameOptional generator async) := by
  have hname (o : Option Name) : Leaves R
      (match o with
        | some n => return some n
        | none => Parse.unexpected : Parse (Option Name)) := by
    cases o <;> infer_instance
  unfold Parse.functionName
  infer_instance

instance checkAccessor {kind : PropertyKind} {start : Nat} {params : Params} :
    Leaves R (Parse.checkAccessor kind start params) := by
  unfold Parse.checkAccessor
  cases kind <;> infer_instance

instance arrowStart : Leaves R Parse.arrowStart := by
  unfold Parse.arrowStart
  infer_instance

instance methodKind {m : Modifiers} {isConstructor : Bool} {keyStart : Nat} :
    Leaves R (Parse.methodKind m isConstructor keyStart) := by
  unfold Parse.methodKind
  infer_instance

instance className {declaration nameOptional : Bool} :
    Leaves R (Parse.className declaration nameOptional) := by
  unfold Parse.className
  infer_instance

/-! ## Statements -/

instance startsUsing : Leaves R Parse.startsUsing := by
  unfold Parse.startsUsing
  infer_instance

instance startsDeclaration : Leaves R Parse.startsDeclaration := by
  refine andThen fun k => ?_
  split <;> infer_instance

set_option synthInstance.maxSize 512 in
instance declarationKind : Leaves R Parse.declarationKind := by
  unfold Parse.declarationKind
  infer_instance

instance checkInitializer {kind : DeclKind} {d : Declarator} :
    Leaves R (Parse.checkInitializer kind d) := by
  unfold Parse.checkInitializer
  split <;> infer_instance

instance checkInitializers {kind : DeclKind} {list : List Declarator} :
    Leaves R (Parse.checkInitializers kind list) := by
  induction list with
  | nil => exact pure
  | cons d rest ih => exact andThen fun _ => ih

instance labelReference : Leaves R Parse.labelReference := by
  unfold Parse.labelReference
  infer_instance

instance loopWord : Leaves R Parse.loopWord := by
  unfold Parse.loopWord
  infer_instance

instance checkHead {start : Nat} {word : LoopWord} {head : Option Node} :
    Leaves R (Parse.checkHead start word head) := by
  unfold Parse.checkHead
  split
  · split <;> infer_instance
  all_goals infer_instance

instance startsAsyncFunction {sameLine : Bool} : Leaves R (Parse.startsAsyncFunction sameLine) := by
  unfold Parse.startsAsyncFunction
  infer_instance

/-! ## Modules -/

instance exportName : Leaves R Parse.exportName := by
  unfold Parse.exportName
  infer_instance

instance moduleSource : Leaves R Parse.moduleSource := by
  unfold Parse.moduleSource
  infer_instance

instance importAttribute : Leaves R Parse.importAttribute := by
  unfold Parse.importAttribute
  infer_instance

instance importAttributes : Leaves R Parse.importAttributes := by
  unfold Parse.importAttributes
  infer_instance

instance importSpecifier : Leaves R Parse.importSpecifier := by
  unfold Parse.importSpecifier
  infer_instance

set_option synthInstance.maxSize 256 in
instance defaultSpecifier : Leaves R Parse.defaultSpecifier := by
  unfold Parse.defaultSpecifier
  infer_instance

instance otherSpecifiers : Leaves R Parse.otherSpecifiers := by
  refine andThen fun k => ?_
  split <;> infer_instance

instance importSpecifiers : Leaves R Parse.importSpecifiers := by
  unfold Parse.importSpecifiers
  infer_instance

instance exportSpecifier : Leaves R Parse.exportSpecifier := by
  unfold Parse.exportSpecifier
  infer_instance

instance checkPlain {list : List (ExportSpecifier × Bool)} : Leaves R (Parse.checkPlain list) := by
  induction list with
  | nil => exact pure
  | cons x rest ih =>
    unfold Parse.checkPlain
    infer_instance

instance interpreterLine : Leaves R Parse.interpreterLine := by
  refine andThen fun s => ?_
  split
  · exact of_eq fun _ _ _ _ h => by cases h; rfl
  · exact pure

end Leaves

end Parse

end EcmaStack
