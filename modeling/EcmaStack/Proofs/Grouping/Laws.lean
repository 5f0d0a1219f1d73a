import EcmaStack.Proofs.Layout.Laws

/-!
# Rules in step with the scanner

A parser is **in step** when the token in hand is the one that scanning reads next after what
has been read. A regular expression and the continuation of a template are read again from a
token in hand, so between two tokens a parser may get out of step; the next token brings it
back.

`Delivers p e Q` says of the rule `p`, read in the surroundings `e` from a state that is in
step, that it is in step again wherever it stops, in the same scopes, and that whatever it
answers has the property `Q`. Rules are put together by the laws below, as by those of `Yields`.
A rule that keeps in step and whose answer does not matter is passed over by `Delivers.skip`;
the small rules are instances of `Scans`.
-/

namespace EcmaStack

open Scope (Numbered frames)

variable {source : Text} {s t u : ParseState}

/-! ## States -/

/-- The token in hand is well formed, and the one that scanning reads next after what has been
read. -/
structure ParseState.Scanned (source : Text) (s : ParseState) : Prop where
  scanned : ∃ c, (Cursor.ofText source).Reaches c ∧ c.offset = s.previousEnd ∧ scanToken c =
    (s.token, s.cursor)
  fault : s.token.fault = none

/-- The parser is in step, and its scopes are told apart. -/
structure ParseState.InStep (source : Text) (s : ParseState) : Prop where
  scanned : s.Scanned source
  numbered : Numbered s.fresh s.scopes

namespace ParseState.Scanned

/-- Where the token in hand stands. -/
theorem stands (h : s.Scanned source) :
    ∃ place, (Cursor.ofText source).Reaches place ∧ s.previousEnd ≤ place.offset ∧
    s.token.StandsAt place s.cursor := by
  obtain ⟨c, hc, hoffset, hscan⟩ := h.scanned
  have hstands := scanToken_stands (c := c) (by rw [hscan]; exact h.fault)
  rw [hscan] at hstands
  obtain ⟨place, hplace, hstands⟩ := hstands
  obtain ⟨skipped, -, hskipped⟩ := id hplace
  exact ⟨place, hc.trans hplace, by omega, hstands⟩

/-- What scanning reads after what has been read. -/
theorem scan_eq (h : s.Scanned source) :
    scanToken (.seek source s.previousEnd) = (s.token, s.cursor) := by
  obtain ⟨c, hc, hoffset, hscan⟩ := h.scanned
  rw [← hoffset, seek_offset hc, hscan]

end ParseState.Scanned

/-- A parser that is in step with its scanner is ready to read. -/
theorem ParseState.InStep.ready (h : s.InStep source) : s.Ready source := by
  obtain ⟨place, hplace, hended, hstands⟩ := h.scanned.stands
  refine ⟨⟨⟨place, hplace, hstands⟩, h.numbered.opened⟩, ?_, h.numbered⟩
  rw [hstands.start]
  exact hended

theorem ParseState.InStep.enter (hs : s.InStep source) (scope : Scope) :
    (s.enter scope).InStep source :=
  ⟨⟨hs.scanned.scanned, hs.scanned.fault⟩, hs.numbered.cons rfl⟩

/-- The next token is in step, whatever was in hand before. -/
theorem Parse.next_scanned {e : Surroundings} {a : Unit} (hs : s.token.stop = s.cursor.offset)
    (hcursor : (Cursor.ofText e.source).Reaches s.cursor) (h : next e s = .ok (a, t)) :
    t.Scanned e.source ∧ t.scopes = s.scopes ∧ t.fresh = s.fresh := by
  obtain ⟨hfault, rfl⟩ := hold_ok (show hold _ _ _ e s = .ok (a, t) from h)
  exact ⟨⟨⟨s.cursor, hcursor, hs.symm, rfl⟩, hfault⟩, rfl, rfl⟩

/-- From a state to a later one, in the same scopes. -/
structure ParseState.Onward (source : Text) (s t : ParseState) : Prop where
  scanned : t.Scanned source
  frames : frames t.scopes = frames s.scopes
  fresh : s.fresh ≤ t.fresh

namespace ParseState.Onward

/-- Nothing was read. -/
theorem refl (hs : s.Scanned source) : Onward source s s :=
  ⟨hs, rfl, Nat.le_refl _⟩

/-- One rule goes on from where another has come to. -/
theorem trans (h : Onward source s t) (k : Onward source t u) : Onward source s u :=
  ⟨k.scanned, k.frames.trans h.frames, Nat.le_trans h.fresh k.fresh⟩

/-- Going on keeps in step: the token at hand is the one that the scanner reads next. -/
theorem inStep (h : Onward source s t) (hs : s.InStep source) : t.InStep source :=
  ⟨h.scanned, hs.numbered.of_frames h.frames h.fresh⟩

end ParseState.Onward

/-! ## Scopes -/

namespace Scope

theorem add_frame {s t : Scope} {v : Variable} (h : s.add v = .ok t) : t.frame = s.frame :=
  (add_gains h).frame

/-- Declaring a name numbers no scope anew. -/
theorem addAt_frames {n : Nat} {v : Variable} {a b : List Scope} (h : addAt v n a = .ok b) :
    frames b = frames a := by
  induction a generalizing n b with
  | nil =>
    cases n <;> cases h
  | cons s a ih =>
    cases n with
    | zero =>
      obtain ⟨t, ht, rfl⟩ := map_ok h
      exact congrArg (· :: frames a) (add_frame ht)
    | succ n =>
      obtain ⟨b', hb', rfl⟩ := map_ok h
      exact congrArg (s.frame :: ·) (ih hb')

end Scope

namespace Parse

open ParseState (Onward)

namespace ScopeChange

/-- The same scopes, with more names in them. -/
def framed : ScopeChange where
  rel a b := frames b = frames a
  refl _ := rfl
  trans h k := k.trans h
  tail {scope a b} h := by
    rw [Scope.frames, List.map_tail, ← Scope.frames, h]
    rfl
  length_eq h := by
    have hlength := congrArg List.length h
    rwa [Scope.frames, Scope.frames, List.length_map, List.length_map] at hlength

instance : framed.Declares where
  declare h := by
    obtain ⟨n, hn, -⟩ := Scope.declareIn_addAt h
    exact Scope.addAt_frames hn

end ScopeChange

/-- The rule keeps in step. -/
class Scans {α : Type} (p : Parse α) : Prop where
  scans : ∀ e s a t, s.Scanned e.source → p e s = .ok (a, t) → t.Scanned e.source ∧ s.fresh ≤
    t.fresh

variable {α β σ : Type} {p q : Parse α} {f : α → Parse β} {e : Surroundings}

namespace Scans

/-! ## Putting rules together -/

instance (priority := low) looks [Looks p] : Scans p where
  scans _ _ _ _ hs heq := by
    cases Looks.same heq
    exact ⟨hs, Nat.le_refl _⟩

/-- Two rules, each of which moves as the scanner does. -/
theorem andThen [hp : Scans p] (hf : ∀ a, Scans (f a)) : Scans (p >>= f) where
  scans e s b u hs heq := by
    obtain ⟨a, t, hpa, hfb⟩ := bind_ok heq
    obtain ⟨ht, hst⟩ := hp.scans e s a t hs hpa
    obtain ⟨hu, htu⟩ := (hf a).scans e t b u ht hfb
    exact ⟨hu, Nat.le_trans hst htu⟩

instance bind [Scans p] [hf : ∀ a, Scans (f a)] : Scans (p >>= f) :=
  andThen hf

instance pure {a : α} : Scans (Pure.pure a : Parse α) :=
  looks

instance ite {c : Prop} [Decidable c] [Scans p] [Scans q] : Scans (if c then p else q) := by
  split <;> assumption

instance failAt {offset : Nat} {cause : SyntaxFault} :
    Scans (Parse.failAt offset cause : Parse α) where
  scans _ _ _ _ _ heq := by cases heq

instance attempt {p : Parse (Option α)} [hp : Scans p] : Scans (Parse.attempt p) where
  scans e s o t hs heq := by
    rw [Parse.attempt] at heq
    split at heq
    · next hpa =>
      cases heq
      exact hp.scans e s _ _ hs hpa
    · cases heq
      exact ⟨⟨hs.scanned, hs.fault⟩, Nat.le_refl _⟩
    · cases heq

instance inScope {scope : Scope} [hp : Scans p] : Scans (Parse.inScope scope p) where
  scans e s x t hs heq := by
    obtain ⟨a, u, hpa, -, rfl⟩ := inScope_ok heq
    obtain ⟨hu, hle⟩ := hp.scans e (s.enter scope) a u ⟨hs.scanned, hs.fault⟩ hpa
    exact ⟨⟨hu.scanned, hu.fault⟩, Nat.le_trans (Nat.le_succ s.fresh) hle⟩

instance repeating {init : σ} {step : σ → Parse (Turn σ β)} [hstep : ∀ x, Scans (step x)] :
    Scans (Parse.repeating init step) := by
  have hfrom (fuel : Nat) (x : σ) : Scans (repeatFrom step fuel x) := by
    induction fuel generalizing x with
    | zero => exact andThen fun _ => failAt
    | succ fuel ih =>
      refine andThen fun turn => ?_
      cases turn with
      | again y => exact ih y
      | done b => exact pure
  exact andThen fun here => hfrom _ init

/-! ## Tokens -/

instance next : Scans Parse.next where
  scans e s a t hs heq := by
    obtain ⟨place, hplace, -, hstands⟩ := hs.stands
    obtain ⟨ht, -, hfresh⟩ := next_scanned hstands.stop (hplace.trans hstands.reaches) heq
    exact ⟨ht, Nat.le_of_eq hfresh.symm⟩

instance fail {cause : SyntaxFault} : Scans (Parse.fail cause : Parse α) :=
  andThen fun _ => failAt

instance unexpected : Scans (Parse.unexpected : Parse α) :=
  andThen fun _ => failAt

instance expect {k : Kind} : Scans (Parse.expect k) := by
  unfold Parse.expect
  infer_instance

instance expectPunct {k : Punct} : Scans (Parse.expectPunct k) :=
  expect

instance expectWord {k : Keyword} : Scans (Parse.expectWord k) :=
  expect

instance expectContextual {name : String} : Scans (Parse.expectContextual name) := by
  unfold Parse.expectContextual
  infer_instance

instance semicolon : Scans Parse.semicolon := by
  unfold Parse.semicolon
  infer_instance

instance literal {t : Token} : Scans (Parse.literal t) := by
  unfold Parse.literal
  infer_instance

instance unquoted {t : Token} : Scans (Parse.unquoted t) := by
  unfold Parse.unquoted
  infer_instance

/-! ## Declarations -/

instance declareAt {name : Name} {site : Nat} {kind : DeclKind} :
    Scans (Parse.declareAt name site kind) where
  scans e s a t hs heq := by
    obtain ⟨_, _, hget, heq⟩ := bind_ok heq
    cases hget
    cases hscopes : Scope.declareIn s.scopes { name := name.text, kind, site := some site } with
    | ok scopes =>
      rw [hscopes] at heq
      cases heq
      exact ⟨⟨hs.scanned, hs.fault⟩, Nat.le_refl _⟩
    | error fault =>
      rw [hscopes] at heq
      cases heq

instance declare {name : Name} {kind : DeclKind} : Scans (Parse.declare name kind) :=
  declareAt

instance declareAll {kind : DeclKind} {names : List Name} :
    Scans (Parse.declareAll kind names) := by
  induction names with
  | nil => exact pure
  | cons n rest ih => exact andThen fun _ => ih

instance declarePattern {target : Pattern} {kind : DeclKind} :
    Scans (Parse.declarePattern target kind) :=
  declareAll

instance declareParameters {params : Params} : Scans (Parse.declareParameters params) :=
  declareAll

/-! ## Names, functions and classes -/

instance bindingIdentifier : Scans Parse.bindingIdentifier := by
  unfold Parse.bindingIdentifier
  infer_instance

instance requiredBinding : Scans Parse.requiredBinding :=
  andThen fun o => by cases o <;> infer_instance

instance stringLiteral {t : Token} : Scans (Parse.stringLiteral t) := by
  unfold Parse.stringLiteral
  infer_instance

instance memberModifiers : Scans Parse.memberModifiers := by
  unfold Parse.memberModifiers
  infer_instance

instance propertyModifiers : Scans Parse.propertyModifiers := by
  unfold Parse.propertyModifiers
  infer_instance

instance directives : Scans Parse.directives := by
  have hdirective : Scans directive := by
    unfold directive
    infer_instance
  refine @repeating _ _ _ _ fun items => andThen fun o => ?_
  cases o <;> exact pure

instance functionName {declaration nameOptional generator async : Bool} :
    Scans (Parse.functionName declaration nameOptional generator async) := by
  have hname (o : Option Name) : Scans
      (match o with
        | some n => return some n
        | none => Parse.unexpected : Parse (Option Name)) := by
    cases o <;> infer_instance
  unfold Parse.functionName
  infer_instance

instance checkAccessor {kind : PropertyKind} {start : Nat} {params : Params} :
    Scans (Parse.checkAccessor kind start params) := by
  unfold Parse.checkAccessor
  cases kind <;> infer_instance

instance methodKind {m : Modifiers} {isConstructor : Bool} {keyStart : Nat} :
    Scans (Parse.methodKind m isConstructor keyStart) := by
  unfold Parse.methodKind
  infer_instance

instance className {declaration nameOptional : Bool} :
    Scans (Parse.className declaration nameOptional) := by
  unfold Parse.className
  infer_instance

/-! ## Statements and modules -/

set_option synthInstance.maxSize 512 in
instance declarationKind : Scans Parse.declarationKind := by
  unfold Parse.declarationKind
  infer_instance

instance checkInitializer {kind : DeclKind} {d : Declarator} :
    Scans (Parse.checkInitializer kind d) := by
  unfold Parse.checkInitializer
  split <;> infer_instance

instance checkInitializers {kind : DeclKind} {list : List Declarator} :
    Scans (Parse.checkInitializers kind list) := by
  induction list with
  | nil => exact pure
  | cons d rest ih => exact andThen fun _ => ih

instance labelReference : Scans Parse.labelReference := by
  unfold Parse.labelReference
  infer_instance

instance checkHead {start : Nat} {word : LoopWord} {head : Option Node} :
    Scans (Parse.checkHead start word head) := by
  unfold Parse.checkHead
  split
  · split <;> infer_instance
  all_goals infer_instance

instance exportName : Scans Parse.exportName := by
  unfold Parse.exportName
  infer_instance

instance moduleSource : Scans Parse.moduleSource := by
  unfold Parse.moduleSource
  infer_instance

instance commaList {close : Punct} [Scans p] : Scans (Parse.commaList close p) := by
  unfold Parse.commaList
  infer_instance

instance behind {sign : Parse Bool} [Scans sign] [Scans p] : Scans (Parse.behind sign p) := by
  unfold Parse.behind
  infer_instance

instance importAttribute : Scans Parse.importAttribute := by
  unfold Parse.importAttribute
  infer_instance

instance importAttributes : Scans Parse.importAttributes := by
  unfold Parse.importAttributes
  infer_instance

instance importSpecifier : Scans Parse.importSpecifier := by
  unfold Parse.importSpecifier
  infer_instance

set_option synthInstance.maxSize 256 in
instance defaultSpecifier : Scans Parse.defaultSpecifier := by
  unfold Parse.defaultSpecifier
  infer_instance

instance otherSpecifiers : Scans Parse.otherSpecifiers := by
  refine andThen fun k => ?_
  split <;> infer_instance

instance importSpecifiers : Scans Parse.importSpecifiers := by
  unfold Parse.importSpecifiers
  infer_instance

instance exportSpecifier : Scans Parse.exportSpecifier := by
  unfold Parse.exportSpecifier
  infer_instance

instance checkPlain {list : List (ExportSpecifier × Bool)} : Scans (Parse.checkPlain list) := by
  induction list with
  | nil => exact pure
  | cons x rest ih =>
    unfold Parse.checkPlain
    infer_instance

end Scans

/-! ## What rules deliver -/

/-- Two things that hold of one answer. -/
theorem Holds.and {P P' : α → ParseState → Prop} (h : Holds p e s P) (k : Holds p e s P') :
    Holds p e s fun a t => P a t ∧ P' a t :=
  fun a t heq => ⟨h a t heq, k a t heq⟩

/-- An answer is what the rule answers. -/
theorem Holds.answer : Holds p e s fun a t => p e s = .ok (a, t) :=
  fun _ _ heq => heq

/-- The rule keeps in step and in its scopes, and whatever it answers has the property. -/
def Delivers (p : Parse α) (e : Surroundings) (Q : α → Prop) : Prop :=
  ∀ s, s.InStep e.source → Holds p e s fun a t => Onward e.source s t ∧ Q a

namespace Delivers

variable {Q Q' : α → Prop} {R : β → Prop}

/-- A rule that keeps in step delivers something. -/
theorem any (p : Parse α) [hp : Scans p] [hk : Leaves .framed p] : Delivers p e fun _ => True := by
  intro s hs a t heq
  obtain ⟨ht, hle⟩ := hp.scans e s a t hs.scanned heq
  exact ⟨⟨ht, hk.change e s a t heq, hle⟩, trivial⟩

/-- A weaker claim. -/
theorem mono (h : Delivers p e Q) (hQ : ∀ a, Q a → Q' a) : Delivers p e Q' :=
  fun s hs a t heq => (h s hs a t heq).imp_right (hQ a)

theorem pure {a : α} (h : Q a) : Delivers (Pure.pure a) e Q := by
  rintro s hs _ _ ⟨⟩
  exact ⟨.refl hs.scanned, h⟩

/-- What is delivered first is known to what follows. -/
theorem bind (hp : Delivers p e Q) (hf : ∀ a, Q a → Delivers (f a) e R) :
    Delivers (p >>= f) e R := by
  intro s hs b u heq
  obtain ⟨a, t, hpa, hfb⟩ := bind_ok heq
  obtain ⟨hst, ha⟩ := hp s hs a t hpa
  obtain ⟨htu, hb⟩ := hf a ha t (hst.inStep hs) b u hfb
  exact ⟨hst.trans htu, hb⟩

/-- A step whose answer is at hand. -/
theorem bind_pure {a : α} (h : Delivers (f a) e R) : Delivers (Pure.pure a >>= f) e R :=
  h

/-- A step whose answer does not matter. -/
theorem skip [Scans p] [Leaves .framed p] (hf : ∀ a, Delivers (f a) e R) : Delivers (p >>= f) e R :=
  (any p).bind fun a _ => hf a

/-- Each branch under its own condition. -/
theorem ite {c : Prop} [Decidable c] (hp : c → Delivers p e Q) (hq : ¬c → Delivers q e Q) :
    Delivers (if c then p else q) e Q := by
  split
  · next h => exact hp h
  · next h => exact hq h

/-- A branch that is taken only sometimes, and what follows with and without it. -/
theorem ite_rest {c : Prop} [Decidable c] (hp : Delivers q e Q → Delivers p e Q)
    (hq : Delivers q e Q) :
    Delivers (if c then p else q) e Q :=
  ite (fun _ => hp hq) fun _ => hq

/-- One of two steps, and what is the same after both. -/
theorem ite_bind {c : Prop} [Decidable c] (hp : Delivers p e Q) (hq : Delivers q e Q)
    (hf : ∀ a, Q a → Delivers (f a) e R) : Delivers (if c then p >>= f else q >>= f) e R :=
  ite (fun _ => hp.bind hf) fun _ => hq.bind hf

/-- A step that is taken only sometimes, and whose answer does not matter. -/
theorem skipIf {c : Prop} [Decidable c] {p : Parse PUnit} [Scans p] [Leaves .framed p]
    {f : PUnit → Parse β} (hf : ∀ u, Delivers (f u) e R) :
    Delivers (if c then p >>= f else f ⟨⟩) e R :=
  ite (fun _ => skip hf) fun _ => hf ⟨⟩

theorem failAt {offset : Nat} {cause : SyntaxFault} :
    Delivers (Parse.failAt offset cause : Parse α) e Q := by
  rintro s hs a t ⟨⟩

theorem fail {cause : SyntaxFault} : Delivers (Parse.fail cause : Parse α) e Q :=
  skip fun _ => failAt

theorem unexpected : Delivers (Parse.unexpected : Parse α) e Q :=
  skip fun _ => failAt

/-- A rule in a changed region is read in other surroundings. -/
theorem within {change : Region → Region} (h : Delivers p { e with region := change e.region } Q) :
    Delivers (Parse.within change p) e Q :=
  h

/-- On a miss an attempt goes back, and then nothing is answered. -/
theorem attempt {p : Parse (Option α)} (h : Delivers p e fun o => ∀ a ∈ o, Q a) :
    Delivers (Parse.attempt p) e fun o => ∀ a ∈ o, Q a := by
  intro s hs o t heq
  rw [Parse.attempt] at heq
  split at heq
  · next a u hpa =>
    cases heq
    exact h s hs (some a) t hpa
  · next u hpa =>
    cases heq
    obtain ⟨hsu, -⟩ := h s hs none u hpa
    exact ⟨⟨⟨hs.scanned.scanned, hs.scanned.fault⟩, hsu.frames, Nat.le_refl _⟩, absent⟩
  · cases heq

/-! ## Repetition -/

/-- What a repetition keeps from turn to turn gives what it answers. -/
theorem repeating {init : σ} {step : σ → Parse (Turn σ β)} (I : σ → Prop) (hinit : I init)
    (hstep : ∀ x, I x → Delivers (step x) e (Turn.Holds I R)) :
    Delivers (Parse.repeating init step) e R := by
  refine skip fun here => ?_
  generalize here.source.length + 2 = fuel
  induction fuel generalizing init with
  | zero => exact fail
  | succ fuel ih =>
    refine (hstep init hinit).bind fun turn hturn => ?_
    cases turn with
    | again x => exact ih hturn
    | done b => exact pure hturn

/-- Items that are collected back to front. -/
theorem collecting {step : List α → Parse (Turn (List α) β)}
    (hstep : ∀ items, (∀ a ∈ items, Q a) →
      Delivers (step items) e (Turn.Holds (fun more => ∀ a ∈ more, Q a) R)) :
    Delivers (Parse.repeating [] step) e R :=
  repeating (fun items => ∀ a ∈ items, Q a) (fun _ ha => nomatch ha) hstep

theorem itemsUntil {stop : Kind → Bool} {item : Parse α} (h : Delivers item e Q) :
    Delivers (Parse.itemsUntil stop item) e fun items => ∀ a ∈ items, Q a := by
  refine collecting fun items hitems => .skip fun k =>
    .ite (fun _ => .pure (reversed hitems)) fun _ => ?_
  exact h.bind fun a ha => .pure (extended ha hitems)

theorem commaList {close : Punct} {item : Parse α} (h : Delivers item e Q) :
    Delivers (Parse.commaList close item) e fun items => ∀ a ∈ items, Q a := by
  refine collecting fun items hitems => .skip fun k =>
    .ite (fun _ => .pure (reversed hitems)) fun _ => ?_
  refine h.bind fun a ha => .skip fun _ => .ite (fun _ => .pure (extended ha hitems)) fun _ => ?_
  exact .skip fun _ => .pure (extended ha hitems)

theorem behind {sign : Parse Bool} [Scans sign] [Leaves .framed sign] {p : Parse α}
    (h : Delivers p e Q) : Delivers (Parse.behind sign p) e fun o => ∀ a ∈ o, Q a := by
  refine .skip fun _ => .ite (fun _ => .skip fun _ => ?_) fun _ => .pure absent
  exact h.bind fun a ha => .pure (present ha)

/-! ## Scopes -/

/-- A scope that was opened is closed again. -/
private theorem leave {s u : ParseState} {scope : Scope} (h : Onward e.source (s.enter scope) u) :
    Onward e.source s { u with scopes := u.scopes.tail } where
  scanned := ⟨h.scanned.scanned, h.scanned.fault⟩
  frames := ScopeChange.framed.tail h.frames
  fresh := Nat.le_trans (Nat.le_succ s.fresh) h.fresh

theorem inScope {scope : Scope} (h : Delivers p e Q) :
    Delivers (Parse.inScope scope p) e fun x => Q x.1 := by
  intro s hs x t heq
  obtain ⟨a, u, hp, rfl, rfl⟩ := inScope_ok heq
  obtain ⟨hsu, ha⟩ := h _ (hs.enter scope) a u hp
  exact ⟨leave hsu, ha⟩

theorem inBlock (h : Delivers p e Q) : Delivers (Parse.inBlock p) e fun x => Q x.1 :=
  inScope h

theorem inTrialScope {p : Parse (Option α)} {scope : Scope}
    (h : Delivers p e fun o => ∀ a ∈ o, Q a) :
    Delivers (Parse.inTrialScope scope p) e fun o => ∀ x ∈ o, Q x.1 := by
  intro s hs o t heq
  obtain ⟨o', u, hp, rfl, hhit, hmiss⟩ := inTrialScope_ok heq
  obtain ⟨hsu, ha⟩ := h _ (hs.enter scope) o' u hp
  cases o' with
  | some a =>
    rw [hhit rfl]
    exact ⟨leave hsu, present (ha a rfl)⟩
  | none =>
    have hlength : u.scopes.length - s.scopes.length = 1 := by
      rw [ScopeChange.framed.length_eq hsu.frames, ParseState.enter_depth, Nat.add_sub_cancel_left]
    rw [hmiss rfl, hlength, List.drop_one]
    exact ⟨leave hsu, absent⟩

end Delivers

end Parse

end EcmaStack
