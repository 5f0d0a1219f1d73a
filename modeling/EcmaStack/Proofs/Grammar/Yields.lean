import EcmaStack.Proofs.Grammar.Keeps

/-!
# What rules answer

`Yields p e Q` says that the rule `p`, read in the surroundings `e`, keeps the open scopes, and
that whatever it answers has the property `Q`, from whichever state it starts and whatever it
reads. A name that is declared later in a scope is bound earlier in it too, so what an answer
means is not settled by the scopes that are open when it is read: `Q` is about an answer and a
chain of scopes, and has to hold for every chain that covers the scopes that are open at the end
of the rule. Where the chain does not matter the property is written `fun _ => P`.

Rules are put together by the laws below, one for each way there is to do so. A step whose
answer does not matter is passed over by `Yields.skip`. A property that depends on the chain is
handed on to the next step as a premise (`Yields.bindHere`), since only the end of the last step
tells for which chains it is needed.
-/

namespace EcmaStack.Parse

open Scope (AllGrow Covers)

/-- The rule keeps the open scopes, and whatever it answers has the property for all chains that
cover them. -/
def Yields {α : Type} (p : Parse α) (e : Surroundings) (Q : List Scope → α → Prop) : Prop :=
  ∀ s a t, p e s = .ok (a, t) → AllGrow s.scopes t.scopes ∧ ∀ chain, Covers t.scopes chain →
    Q chain a

/-- What a turn of a repetition hands on, and what it answers. -/
def Turn.Holds {σ β : Type} (I : σ → Prop) (R : β → Prop) : Turn σ β → Prop
  | .again x => I x
  | .done b => R b

/-! ## Parts that are there -/

section Parts

variable {α : Type} {P : α → Prop} {a : α} {items : List α}

/-- Nothing is claimed of what is not there. -/
theorem absent : ∀ a ∈ (none : Option α), P a := by
  rintro _ ⟨⟩

theorem present (h : P a) : ∀ b ∈ some a, P b := by
  rintro _ ⟨⟩
  exact h

theorem extended (ha : P a) (h : ∀ b ∈ items, P b) : ∀ b ∈ a :: items, P b :=
  List.forall_mem_cons.mpr ⟨ha, h⟩

theorem reversed (h : ∀ a ∈ items, P a) : ∀ a ∈ items.reverse, P a :=
  fun a ha => h a (List.mem_reverse.mp ha)

end Parts

namespace Yields

variable {α β σ : Type} {p q : Parse α} {f : α → Parse β} {e : Surroundings} {P : α → Prop}
    {Q Q' : List Scope → α → Prop}
  {R : List Scope → β → Prop}

/-! ## One step after another -/

/-- Every rule that keeps the scopes yields something. -/
theorem any (p : Parse α) [h : Keeps p] : Yields p e fun _ _ => True :=
  fun s a t heq => ⟨h.change e s a t heq, fun _ _ => trivial⟩

/-- A weaker claim. -/
theorem mono (h : Yields p e Q) (hQ : ∀ chain a, Q chain a → Q' chain a) : Yields p e Q' :=
  fun s a t heq => ⟨(h s a t heq).1, fun chain hchain => hQ chain a ((h s a t heq).2 chain hchain)⟩

/-- An answer for which the claim holds in any chain of scopes. -/
theorem pureHere {a : α} (h : ∀ chain, Q chain a) : Yields (Pure.pure a) e Q := by
  rintro s _ _ ⟨⟩
  exact ⟨.refl s.scopes, fun chain _ => h chain⟩

theorem pure {a : α} (h : P a) : Yields (Pure.pure a) e fun _ => P :=
  pureHere fun _ => h

/-- The second step is read whatever the first has answered; what that is like may be used at
the end. -/
theorem bindHere (hp : Yields p e Q) (hf : ∀ a, Yields (f a) e fun chain b => Q chain a →
    R chain b) :
    Yields (p >>= f) e R := by
  intro s b u heq
  obtain ⟨a, t, hpa, hfb⟩ := bind_ok heq
  obtain ⟨hst, ha⟩ := hp s a t hpa
  obtain ⟨htu, hb⟩ := hf a t b u hfb
  exact ⟨hst.trans htu, fun chain hchain => hb chain hchain (ha chain (htu.covers.trans hchain))⟩

/-- What the first rule yields is known to the second. It speaks of no scope, as the
scopes may have grown in between. -/
theorem bind (hp : Yields p e fun _ => P) (hf : ∀ a, P a → Yields (f a) e R) :
    Yields (p >>= f) e R := by
  intro s b u heq
  obtain ⟨a, t, hpa, hfb⟩ := bind_ok heq
  obtain ⟨hst, ha⟩ := hp s a t hpa
  obtain ⟨htu, hb⟩ := hf a (ha t.scopes (.refl t.scopes)) t b u hfb
  exact ⟨hst.trans htu, hb⟩

/-- A step whose answer is at hand. -/
theorem bind_pure {a : α} (h : Yields (f a) e R) : Yields (Pure.pure a >>= f) e R :=
  h

/-- A step whose answer does not matter. -/
theorem skip [Keeps p] (hf : ∀ a, Yields (f a) e R) : Yields (p >>= f) e R :=
  (any p).bind fun a _ => hf a

/-- A claim about what is made of an answer. -/
theorem map {g : α → β} (hp : Yields p e fun chain a => R chain (g a)) : Yields (g <$> p) e R :=
  hp.bindHere fun _ => .pureHere fun _ ha => ha

/-- Each branch is read under its own condition. -/
theorem ite {c : Prop} [Decidable c] (hp : c → Yields p e Q) (hq : ¬c → Yields q e Q) :
    Yields (if c then p else q) e Q := by
  split
  · next h => exact hp h
  · next h => exact hq h

/-- A branch that is taken only sometimes, and what follows with and without it. -/
theorem ite_rest {c : Prop} [Decidable c] (hp : Yields q e Q → Yields p e Q) (hq : Yields q e Q) :
    Yields (if c then p else q) e Q :=
  ite (fun _ => hp hq) fun _ => hq

/-- One of two steps, and what is the same after both. -/
theorem ite_bind {c : Prop} [Decidable c] (hp : Yields p e fun _ => P) (hq : Yields q e fun _ => P)
    (hf : ∀ a, P a → Yields (f a) e R) : Yields (if c then p >>= f else q >>= f) e R :=
  ite (fun _ => hp.bind hf) fun _ => hq.bind hf

/-- A step that is taken only sometimes, and whose answer does not matter. -/
theorem skipIf {c : Prop} [Decidable c] {p : Parse PUnit} [Keeps p] {f : PUnit → Parse β}
    (hf : ∀ u, Yields (f u) e R) :
    Yields (if c then p >>= f else f ⟨⟩) e R :=
  ite (fun _ => skip hf) fun _ => hf ⟨⟩

/-- A rule that fails yields anything. -/
theorem failAt {offset : Nat} {cause : SyntaxFault} :
    Yields (Parse.failAt offset cause : Parse α) e Q := by
  rintro s a t ⟨⟩

/-- A check that is a fault when it fails. -/
theorem failIf {c : Prop} [Decidable c] {offset : Nat} {cause : SyntaxFault} {f : PUnit → Parse β}
    (hf : ¬c → Yields (f ⟨⟩) e R) :
    Yields (if c then Parse.failAt offset cause >>= f else f ⟨⟩) e R := by
  refine ite (fun _ => ?_) hf
  rintro s b t ⟨⟩

theorem fail {cause : SyntaxFault} : Yields (Parse.fail cause : Parse α) e Q :=
  skip fun _ => failAt

theorem unexpected : Yields (Parse.unexpected : Parse α) e Q :=
  skip fun _ => failAt

/-! ## Regions, tokens and misses -/

/-- A rule in a changed region is read in other surroundings. -/
theorem within {change : Region → Region} (h : Yields p { e with region := change e.region } Q) :
    Yields (Parse.within change p) e Q :=
  h

/-- The flags of the region are those of the surroundings. -/
theorem region {f : Region → Parse β} (h : Yields (f e.region) e R) :
    Yields (Parse.region >>= f) e R :=
  fun s b t heq => h s b t heq

/-- A step that starts at the token whose kind was looked at just before. -/
theorem at_kind {p : Kind → Parse α} {f : Kind → α → Parse β} {Q : Kind → List Scope → α → Prop}
    (hp : ∀ s a t,
      p s.token.kind e s = .ok (a, t) → AllGrow s.scopes t.scopes ∧ ∀ chain, Covers t.scopes chain →
      Q s.token.kind chain a)
    (hf : ∀ k a, Yields (f k a) e fun chain b => Q k chain a → R chain b) :
    Yields (Parse.kind >>= fun k => p k >>= f k) e R := by
  intro s b u heq
  obtain ⟨_, _, hkind, heq⟩ := bind_ok heq
  cases hkind
  obtain ⟨a, t, hpa, hfb⟩ := bind_ok heq
  obtain ⟨hst, ha⟩ := hp s a t hpa
  obtain ⟨htu, hb⟩ := hf _ a t b u hfb
  exact ⟨hst.trans htu, fun chain hchain => hb chain hchain (ha chain (htu.covers.trans hchain))⟩

/-- On a miss an attempt goes back, and then nothing is answered. -/
theorem attempt {p : Parse (Option α)} (h : Yields p e fun _ o => ∀ a ∈ o, P a) :
    Yields (Parse.attempt p) e fun _ o => ∀ a ∈ o, P a := by
  intro s o t heq
  rw [Parse.attempt] at heq
  split at heq
  · next a u hpa =>
    cases heq
    exact h s (some a) t hpa
  · next u hpa =>
    cases heq
    obtain ⟨hgrow, _⟩ := h s none u hpa
    exact ⟨hgrow, fun _ _ => absent⟩
  · cases heq

/-! ## Repetition -/

/-- A repetition whose turns keep something that depends on the state in which they end. -/
theorem repeatingAt {init : σ} {step : σ → Parse (Turn σ β)} (I : ParseState → σ → Prop)
    (hstep : ∀ x s turn t, I s x → step x e s = .ok (turn, t) →
      AllGrow s.scopes t.scopes ∧ ∀ chain, Covers t.scopes chain → Turn.Holds (I t) (R chain) turn)
    {s : ParseState} (hinit : I s init) {b : β} {u : ParseState}
    (heq : Parse.repeating init step e s = .ok (b, u)) :
    AllGrow s.scopes u.scopes ∧ ∀ chain, Covers u.scopes chain → R chain b := by
  have hfrom (fuel : Nat) {x : σ} {s : ParseState} (hx : I s x)
      (heq : repeatFrom step fuel x e s = .ok (b, u)) :
      AllGrow s.scopes u.scopes ∧ ∀ chain, Covers u.scopes chain → R chain b := by
    induction fuel generalizing x s with
    | zero => exact (fail (Q := R)) s b u heq
    | succ fuel ih =>
      obtain ⟨turn, t, hturn, hrest⟩ := bind_ok heq
      obtain ⟨hst, hholds⟩ := hstep x s turn t hx hturn
      cases turn with
      | again y => exact (ih (hholds t.scopes (.refl t.scopes)) hrest).imp_left hst.trans
      | done b =>
        cases hrest
        exact ⟨hst, hholds⟩
  obtain ⟨here, _, hhere, heq⟩ := bind_ok heq
  cases hhere
  exact hfrom _ hinit heq

/-- What a repetition keeps from turn to turn gives what it answers. -/
theorem repeating {init : σ} {step : σ → Parse (Turn σ β)} (I : σ → Prop) (hinit : I init)
    (hstep : ∀ x, I x → Yields (step x) e fun chain => Turn.Holds I (R chain)) :
    Yields (Parse.repeating init step) e R :=
  fun _ _ _ heq => repeatingAt (fun _ => I) (fun x s turn t hx => hstep x hx s turn t) hinit heq

/-- A repetition whose turns keep something that depends on the chain. -/
theorem repeatingHere {init : σ} {step : σ → Parse (Turn σ β)} (I : List Scope → σ → Prop)
    (hinit : ∀ chain, I chain init) (hstep : ∀ x, Yields (step x) e fun chain turn => I chain x →
      Turn.Holds (I chain) (R chain) turn) :
    Yields (Parse.repeating init step) e R := by
  have hfrom (fuel : Nat) (x : σ) : Yields (repeatFrom step fuel x) e fun chain b => I chain x →
      R chain b := by
    induction fuel generalizing x with
    | zero => exact fail
    | succ fuel ih =>
      refine (hstep x).bindHere fun turn => ?_
      cases turn with
      | again y => exact (ih y).mono fun chain b hb hy hx => hb (hy hx)
      | done b => exact .pureHere fun chain hb hx => hb hx
  exact skip fun here => (hfrom _ init).mono fun chain b hb => hb (hinit chain)

/-- Items that are collected back to front. -/
theorem collecting {step : List α → Parse (Turn (List α) β)} (P : α → Prop)
    (hstep : ∀ items, (∀ a ∈ items, P a) →
      Yields (step items) e fun chain => Turn.Holds (fun more => ∀ a ∈ more, P a) (R chain)) :
    Yields (Parse.repeating [] step) e R := by
  refine repeating (fun items => ∀ a ∈ items, P a) ?_ hstep
  rintro _ ⟨⟩

/-- Items of which each was yielded in its turn. The chain has grown since, and the claims
have to bear that. -/
theorem itemsUntil {stop : Kind → Bool} {item : Parse α} (h : Yields item e Q) :
    Yields (Parse.itemsUntil stop item) e fun chain items => ∀ a ∈ items, Q chain a := by
  refine repeatingHere (fun chain items => ∀ a ∈ items, Q chain a) (fun _ _ ha => nomatch ha)
    fun items => ?_
  refine .skip fun k => .ite (fun _ => ?_) fun _ => ?_
  · exact .pureHere fun chain hitems => reversed hitems
  · exact h.bindHere fun a => .pureHere fun chain ha hitems => extended ha hitems

theorem commaList {close : Punct} {item : Parse α} (h : Yields item e fun _ => P) :
    Yields (Parse.commaList close item) e fun _ items => ∀ a ∈ items, P a := by
  refine collecting P fun items hitems => .skip fun k => .ite (fun _ => ?_) fun _ => ?_
  · exact .pure (reversed hitems)
  · refine h.bind fun a ha => .skip fun _ => .ite (fun _ => ?_) fun _ => ?_
    · exact .pure (extended ha hitems)
    · exact .skip fun _ => .pure (extended ha hitems)

/-- What stands behind a token is yielded where the token is. -/
theorem behind {sign : Parse Bool} [Keeps sign] {p : Parse α} (h : Yields p e Q) :
    Yields (Parse.behind sign p) e fun chain o => ∀ a ∈ o, Q chain a := by
  refine .skip fun _ => .ite (fun _ => .skip fun _ => ?_) fun _ => .pureHere fun _ => absent
  exact h.bindHere fun a => .pureHere fun _ ha => present ha

/-! ## Scopes and declarations -/

/-- What is read in a scope is right for every chain that covers the scope, as it is at the end,
inside the chain. -/
theorem inScope {scope : Scope} (h : Yields p e Q) : Yields (Parse.inScope scope p) e fun chain x =>
    ∃ inner, x.2 = some inner ∧ inner.kind = scope.kind ∧ ∀ within, Covers (inner :: chain) within →
    Q within x.1 := by
  intro s x t heq
  obtain ⟨a, u, hp, rfl, rfl⟩ := inScope_ok heq
  obtain ⟨hgrow, ha⟩ := h _ a u hp
  dsimp only
  generalize u.scopes = scopes at hgrow ha
  cases hgrow with
  | cons hinner houter =>
    refine ⟨houter, fun chain hchain => ⟨_, rfl, hinner.kind, fun within hwithin => ?_⟩⟩
    exact ha within (hchain.cons.trans hwithin)

/-- What is yielded within a block holds under the scope of the block, which is closed and
kept. -/
theorem inBlock (h : Yields p e Q) : Yields (Parse.inBlock p) e fun chain x =>
    ∃ inner, x.2 = some inner ∧ inner.kind = .block ∧ Q (inner :: chain) x.1 :=
  (inScope h).mono fun chain _ ⟨inner, hinner, hkind, hx⟩ =>
    ⟨inner, hinner, hkind, hx _ (.refl (inner :: chain))⟩

/-- A block in which only such things stand as mean the same in every chain. -/
theorem inBlockAlone (h : Yields p e fun _ => P) : Yields (Parse.inBlock p) e fun _ x =>
    ∃ inner, x.2 = some inner ∧ inner.kind = .block ∧ P x.1 :=
  inBlock h

/-- What is read in the scope of a function on trial is right where nothing is looked up beyond
that scope. -/
theorem inTrialFunction {p : Parse (Option α)} {generator async : Bool}
    (h : Yields p e fun chain o => ∀ a ∈ o, Q chain a) :
    Yields (Parse.inTrialScope (functionScope generator async) p) e fun _ o =>
      ∀ x ∈ o, ∃ inner, x.2 = some inner ∧ inner.kind = .function ∧ Q [inner] x.1 := by
  intro s o t heq
  obtain ⟨o', u, hp, rfl, hhit, hmiss⟩ := inTrialScope_ok heq
  obtain ⟨hgrow, ha⟩ := h _ o' u hp
  cases o' with
  | none =>
    refine ⟨?_, fun _ _ => absent⟩
    rw [hmiss rfl, ← List.Forall₂.length_eq hgrow, ParseState.enter_depth, Nat.add_sub_cancel_left,
      List.drop_one]
    exact ScopeChange.growth.tail hgrow
  | some a =>
    rw [hhit rfl]
    dsimp only [Option.map_some]
    generalize u.scopes = scopes at hgrow ha
    cases hgrow with
    | cons hinner houter =>
      have hkind := hinner.kind
      exact ⟨houter, fun _ _ => present ⟨_, rfl, hkind, ha _ (.of_function hkind) a rfl⟩⟩

/-- Nothing is looked up beyond the scope of a function. -/
theorem inFunction {generator async : Bool} (h : Yields p e Q) :
    Yields (Parse.inScope (functionScope generator async) p) e fun _ x =>
      ∃ inner, x.2 = some inner ∧ inner.kind = .function ∧ Q [inner] x.1 :=
  (inScope h).mono fun _ _ ⟨inner, hinner, hkind, hx⟩ =>
    ⟨inner, hinner, hkind, hx _ (.of_function hkind)⟩

/-- Names that are declared are bound in the chain from then on. -/
theorem declareAll {kind : DeclKind} {names : List Name} :
    Yields (Parse.declareAll kind names) e fun chain _ => Scope.BindsAll chain names := by
  induction names with
  | nil => exact .pureHere fun _ _ hn => nomatch hn
  | cons n rest ih =>
    have hdeclare : Yields (Parse.declare n kind) e fun chain _ => Scope.binds n.text chain =
        true := by
      intro s u t heq
      have hscopes := declareAt_ok heq
      exact ⟨Scope.declareIn_grows hscopes, fun chain hchain => hchain n.text
        (Scope.declareIn_binds hscopes)⟩
    exact hdeclare.bindHere fun _ => ih.mono fun chain _ hrest hn =>
      List.forall_mem_cons.mpr ⟨hn, hrest⟩

end Yields

end EcmaStack.Parse
