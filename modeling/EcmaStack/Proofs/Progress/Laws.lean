import EcmaStack.Proofs.Progress.Reads

/-!
# Rules that get ahead

How rules are put together that break nothing and take tokens: one after another, in a choice,
inside a scope, again and again. What a rule may ask for is bounded by a rank as long as no
token has been taken; after that it may ask for anything. So the laws for `>>=` come in pairs,
and a rule that starts by taking a token serves at every rank.
-/

namespace EcmaStack

open Parse

/-- A condition that is known not to hold. -/
class IsFalse (b : Bool) : Prop where
  eq_false : b = false

instance : IsFalse false :=
  ⟨rfl⟩

namespace Parse

/-- A token that does not fit is the fault of the source. -/
theorem unexpectedCause_isInternal (t : Token) : (unexpectedCause t).isInternal = false := by
  unfold unexpectedCause
  split
  · rfl
  · split <;> rfl
  all_goals rfl

/-- The end of the source is no contextual keyword. -/
theorem isPlain_ne_eof {t : Token} {name : String} (h : isPlain t name = true) : t.kind ≠ .eof := by
  simp only [isPlain, Bool.and_eq_true, beq_iff_eq] at h
  rw [h.1.1]
  nofun

/-- A scope is closed where one more is open than before it was opened. -/
theorem closeScope_of_depth {e : Surroundings} {s : ParseState} {depth : Nat}
    (h : s.scopes.length = depth + 1) :
    closeScope depth e s = .ok (s.scopes.head?, { s with scopes := s.scopes.tail }) := by
  have hopen : (s.scopes.length == depth + 1) = true := beq_iff_eq.mpr h
  change (if (s.scopes.length == depth + 1) = true then _ else _ : Parse (Option Scope)) e s = _
  rw [if_pos hopen]
  rfl

end Parse

namespace Parse.Reads

variable {α : Type} {e : Surroundings} {s : ParseState} {scope : Scope}

/-- The scope that is closed is the one that was opened. -/
theorem close {n : Nat} {t : ParseState} (hs : s.Placed e.source)
    (hahead : Ahead e.source n (s.enter scope) t) :
    ∃ closed u, Parse.closeScope s.scopes.length e t = .ok (closed, u) ∧ Ahead e.source n s u := by
  have hdepth : t.scopes.length = s.scopes.length + 1 := hahead.depth
  refine ⟨_, _, closeScope_of_depth hdepth, ⟨hahead.placed.stands, ?_⟩, ?_, hahead.left⟩
  · have hlength := List.length_pos_iff.mpr hs.opened
    exact List.length_pos_iff.mp (by rw [List.length_tail]; omega)
  · rw [List.length_tail, hdepth, Nat.add_sub_cancel]

/-- A scope that was opened is there to be closed: rules leave as many scopes open as they
find. -/
theorem inScope {p : Parse α} {k : α → Nat} (hs : s.Placed e.source)
    (hp : Reads p e (s.enter scope) k) : Reads (Parse.inScope scope p) e s fun x => k x.1 := by
  have hread : Parse.inScope scope p e s = Parse.andThen p (fun a =>
      Parse.andThen (closeScope s.scopes.length) fun closed =>
      answer (a, closed)) e (s.enter scope) :=
    rfl
  unfold Reads
  rw [hread, Parse.andThen]
  cases heq : p e (s.enter scope) with
  | error fault =>
    rw [Reads, heq] at hp
    exact hp
  | ok x =>
    obtain ⟨a, t⟩ := x
    obtain ⟨closed, u, hclose, hahead⟩ := close hs (hp.ahead heq)
    dsimp only
    rw [Parse.andThen, hclose]
    exact hahead

/-- How a scope that was opened on trial is left: it is closed behind a hit, and abandoned after
a miss. -/
private def settled (depth : Nat) : Option α → Parse (Option (α × Option Scope))
  | some a => Parse.andThen (closeScope depth) fun closed => answer (some (a, closed))
  | none => Parse.andThen (abandonScope depth) fun _ => answer none

/-- After a miss the scope is abandoned. -/
theorem inTrialScope {p : Parse (Option α)} (hs : s.Placed e.source)
    (hp : Reads p e (s.enter scope) hits) : Reads (Parse.inTrialScope scope p) e s hits := by
  have hread : Parse.inTrialScope scope p e s =
      Parse.andThen p (settled s.scopes.length) e (s.enter scope) := rfl
  unfold Reads
  rw [hread, Parse.andThen]
  cases heq : p e (s.enter scope) with
  | error fault =>
    rw [Reads, heq] at hp
    exact hp
  | ok x =>
    obtain ⟨o, t⟩ := x
    have hahead := hp.ahead heq
    cases o with
    | some a =>
      obtain ⟨closed, u, hclose, hahead⟩ := close hs hahead
      dsimp only [settled]
      rw [Parse.andThen, hclose]
      exact hahead
    | none =>
      have hdepth : t.scopes.length = s.scopes.length + 1 := hahead.depth
      have hlength : (t.scopes.drop (t.scopes.length - s.scopes.length)).length =
          s.scopes.length := by
        rw [List.length_drop]
        omega
      refine ⟨⟨hahead.placed.stands, ?_⟩, hlength, hahead.left⟩
      exact List.length_pos_iff.mp (by rw [hlength]; exact List.length_pos_iff.mpr hs.opened)

end Parse.Reads

namespace Scope

variable {a : List Scope} {v : Variable}

/-- Looking for the scope that a name is hoisted to stays within the open ones. -/
theorem hoistDistance_ne_outsideScope (name : String) (a : List Scope) :
    hoistDistance name a ≠ .error .outsideScope := by
  induction a with
  | nil => rintro ⟨⟩
  | cons s a ih =>
    unfold hoistDistance
    split
    · rintro ⟨⟩
    · split
      · rintro ⟨⟩
      · cases hrest : hoistDistance name a with
        | ok n => rintro ⟨⟩
        | error fault =>
          rintro ⟨⟩
          exact ih hrest

/-- A scope that is open can be added to. -/
theorem addAt_ne_outsideScope {n : Nat} (hn : n < a.length) :
    addAt v n a ≠ .error .outsideScope := by
  induction a generalizing n with
  | nil => exact absurd hn (Nat.not_lt_zero n)
  | cons s a ih =>
    cases n with
    | zero =>
      unfold addAt add
      split
      · nofun
      · split
        · nofun
        · split <;> nofun
    | succ n =>
      unfold addAt
      cases hrest : addAt v n a with
      | ok b => nofun
      | error fault =>
        rintro ⟨⟩
        exact ih (Nat.lt_of_succ_lt_succ hn) hrest

/-- Where a scope is open, a declaration finds one. -/
theorem declareIn_ne_outsideScope (ha : a ≠ []) : declareIn a v ≠ .error .outsideScope := by
  have hzero : addAt v 0 a ≠ .error .outsideScope :=
    addAt_ne_outsideScope (List.length_pos_iff.mpr ha)
  unfold declareIn
  split
  · cases hdistance : hoistDistance v.name a with
    | error fault =>
      rintro ⟨⟩
      exact hoistDistance_ne_outsideScope v.name a hdistance
    | ok found =>
      cases found with
      | none => exact hzero
      | some n => exact addAt_ne_outsideScope (hoistDistance_lt hdistance)
  · exact hzero

end Scope

/-- With rules that serve up to a rank, a rule that advances at that rank can be read. -/
theorem Rules.Serve.reads {α : Type} {r : Rules} {rank : Nat} {p : Parse α} {k : α → Nat}
    {e : Surroundings} {s : ParseState} (hs : r.Serve e.source rank s)
    [h : Advances r e.source rank k p] : Reads p e s k :=
  h.reads e s rfl hs

namespace Advances

variable {α β σ : Type} {r : Rules} {rank : Nat} {p q : Parse α} {f : α → Parse β} {source : Text}
    {k : α → Nat}

/-! ## One after another -/

/-- Nothing is said about what is taken. -/
instance (priority := low) weaken [h : Advances r source rank taking p] :
    Advances r source rank free p :=
  ⟨fun e s hsource hs => (h.reads e s hsource hs).weaken fun _ => Nat.zero_le _⟩

instance (priority := low) weakenHits {p : Parse (Option α)} [h : Advances r source rank hits p] :
    Advances r source rank free p :=
  ⟨fun e s hsource hs => (h.reads e s hsource hs).weaken fun _ => Nat.zero_le _⟩

/-- After a rule that may take nothing the next one is read at the same rank. -/
theorem andThen {k : β → Nat} [h : Advances r source rank free p]
    (hf : ∀ a, Advances r source rank k (f a)) :
    Advances r source rank k (p >>= f) where
  reads e s hsource hs := (h.reads e s hsource hs).andThen fun a t _ hahead =>
    (hf a).reads e t hsource (hs.onward (hsource ▸ hahead))

/-- Once a token has been taken, what follows may ask for any goal. -/
theorem taken {k : β → Nat} [h : Advances r source rank taking p] [hk : Light k]
    (hf : ∀ a, Advances r source Goal.top free (f a)) : Advances r source rank k (p >>= f) where
  reads e s hsource hs := (h.reads e s hsource hs).andThen fun a t _ hahead =>
    ((hf a).reads e t hsource (hs.all (hsource ▸ hahead))).weaken fun b => by
      have := hk.le_one b
      simp only [free, taking]
      omega

/-- What follows a rule that may miss. -/
theorem found {p : Parse (Option α)} {f : Option α → Parse β} {k : β → Nat}
    [h : Advances r source rank hits p] [hk : Light k]
    (hsome : ∀ a, Advances r source Goal.top free (f (some a)))
    (hnone : Advances r source rank k (f none)) :
    Advances r source rank k (p >>= f) where
  reads e s hsource hs := (h.reads e s hsource hs).andThen fun o t _ hahead => by
    cases o with
    | some a =>
      refine ((hsome a).reads e t hsource (hs.all (hsource ▸ hahead))).weaken fun b => ?_
      have := hk.le_one b
      simp only [free, hits]
      omega
    | none => exact hnone.reads e t hsource (hs.onward (hsource ▸ hahead))

instance bind {k : β → Nat} [Advances r source rank free p]
    [hf : ∀ a, Advances r source rank k (f a)] :
    Advances r source rank k (p >>= f) :=
  andThen hf

instance bindTaken {k : β → Nat} [Advances r source rank taking p] [Light k]
    [hf : ∀ a, Advances r source Goal.top free (f a)] : Advances r source rank k (p >>= f) :=
  taken hf

/-- An answer that claims to have taken nothing. -/
theorem pure_of {a : α} (ha : k a = 0) : Advances r source rank k (Pure.pure a : Parse α) :=
  ⟨fun _ _ hsource hs => Reads.pure (hsource ▸ hs.placed) ha⟩

instance pure {a : α} : Advances r source rank free (Pure.pure a : Parse α) :=
  pure_of rfl

instance pureNone : Advances r source rank hits (Pure.pure none : Parse (Option α)) :=
  pure_of rfl

instance pureDone {b : β} :
    Advances r source rank Turn.taken (Pure.pure (.done b) : Parse (Turn σ β)) :=
  pure_of rfl

instance mapHits {p : Parse (Option α)} {g : α → β} [Advances r source rank hits p] :
    Advances r source rank hits (p >>= fun o => Pure.pure (o.map g)) :=
  found (fun _ => pure) pureNone

instance map {g : α → β} [Advances r source rank free p] : Advances r source rank free (g <$> p) :=
  andThen fun _ => pure

/-! ## Choices -/

instance ite {c : Prop} [Decidable c] [Advances r source rank k p] [Advances r source rank k q] :
    Advances r source rank k (if c then p else q) := by
  split <;> assumption

/-- Two branches, for rules that are not found as instances. -/
theorem branch {c : Prop} [Decidable c] {p q : Parse α} (hp : Advances r source rank k p)
    (hq : Advances r source rank k q) :
    Advances r source rank k (if c then p else q) :=
  ite

/-- A choice of how to begin, with one way to go on. -/
theorem either {k : β → Nat} {c : Prop} [Decidable c] {p q : Parse α}
    {f : α → Parse β} [Advances r source rank free p] [Advances r source rank free q]
    (h : ∀ a, Advances r source rank k (f a)) :
    Advances r source rank k (if c then p >>= f else q >>= f) :=
  branch (andThen h) (andThen h)

/-- A step that may be left out, before one way to go on. -/
theorem optional {k : β → Nat} {c : Prop} [Decidable c] {p : Parse PUnit}
    {f : PUnit → Parse β} [Advances r source rank free p]
    (h : ∀ u, Advances r source rank k (f u)) :
    Advances r source rank k (if c then p >>= f else f ⟨⟩) :=
  branch (andThen h) (h ⟨⟩)

instance failAt {offset : Nat} {cause : SyntaxFault} [h : IsFalse cause.isInternal] :
    Advances r source rank k (Parse.failAt offset cause) :=
  ⟨fun _ _ _ _ => Reads.error rfl h.eq_false⟩

instance (priority := low) looks [h : Looks p] : Advances r source rank free p where
  reads e s hsource hs := by
    obtain ⟨a, ha⟩ := h.looks e s
    exact Reads.ok ha (.refl (hsource ▸ hs.placed))

instance within {change : Region → Region} [h : Advances r source rank k p] :
    Advances r source rank k (Parse.within change p) :=
  ⟨fun e s hsource hs => h.reads { e with region := change e.region } s hsource hs⟩

instance withIn {allow : Bool} [Advances r source rank k p] :
    Advances r source rank k (Parse.withIn allow p) :=
  within

/-- After a miss nothing has been taken. -/
instance attempt {p : Parse (Option α)} [h : Advances r source rank hits p] :
    Advances r source rank hits (Parse.attempt p) where
  reads e s hsource hs := by
    have hp := h.reads e s hsource hs
    unfold Reads Parse.attempt
    cases heq : p e s with
    | error fault =>
      rw [Reads, heq] at hp
      exact hp
    | ok x =>
      obtain ⟨o, t⟩ := x
      have hahead := hp.ahead heq
      cases o with
      | some a => exact hahead
      | none =>
        exact ⟨⟨(hsource ▸ hs.placed).stands, hahead.placed.opened⟩, hahead.depth, Nat.le_refl _⟩

/-! ## Tokens -/

instance unexpected : Advances r source rank k (Parse.unexpected : Parse α) :=
  ⟨fun _ s _ _ => Reads.look rfl (Reads.error rfl (unexpectedCause_isInternal s.token))⟩

instance fail {cause : SyntaxFault} [IsFalse cause.isInternal] :
    Advances r source rank k (Parse.fail cause : Parse α) :=
  andThen fun _ => failAt

instance next : Advances r source rank free Parse.next :=
  ⟨fun _ _ hsource hs => (Reads.next (hsource ▸ hs.placed)).weaken fun _ => Nat.zero_le _⟩

/-- A token of a kind is taken, or something else happens. -/
theorem isAt_take {kind : Kind} (hkind : kind ≠ .eof) {f : Unit → Parse β} {q : Parse β}
    {k : β → Nat} [Light k] (hf : Advances r source Goal.top free (f ()))
    (hq : Advances r source rank k q) :
    Advances r source rank k (Parse.isAt kind >>= fun b => if b = true then Parse.next >>= f
      else q) where
  reads e s hsource hs := by
    subst hsource
    refine Reads.look rfl ?_
    split
    · next hat => exact Reads.take hs (by rw [beq_iff_eq.mp hat]; exact hkind) hf
    · exact hs.reads

section

variable {f : Unit → Parse β} {q : Parse β} {k : β → Nat} [Light k]

/-- Behind a punctuator that was seen and taken any goal may be asked for. -/
theorem ifPunct {x : Punct} (hf : Advances r source Goal.top free (f ()))
    (hq : Advances r source rank k q) :
    Advances r source rank k (Parse.atPunct x >>= fun b => if b = true then Parse.next >>= f
      else q) :=
  isAt_take (by nofun : Kind.punct x ≠ .eof) hf hq

/-- So it is behind a keyword, -/
theorem ifWord {x : Keyword} (hf : Advances r source Goal.top free (f ()))
    (hq : Advances r source rank k q) :
    Advances r source rank k (Parse.atWord x >>= fun b => if b = true then Parse.next >>= f
      else q) :=
  isAt_take (by nofun : Kind.keyword x ≠ .eof) hf hq

/-- and behind a name that is used as one. -/
theorem ifContextual {name : String} (hf : Advances r source Goal.top free (f ()))
    (hq : Advances r source rank k q) :
    Advances r source rank k (Parse.atContextual name >>= fun b => if b = true then Parse.next >>= f
      else q) where
  reads e s hsource hs := by
    subst hsource
    refine Reads.look rfl ?_
    split
    · next hat => exact Reads.take hs (isPlain_ne_eof hat) hf
    · exact hs.reads

instance atPunct {x : Punct} [hf : Advances r source Goal.top free (f ())]
    [hq : Advances r source rank k q] :
    Advances r source rank k (Parse.atPunct x >>= fun b => if b = true then Parse.next >>= f
      else q) :=
  ifPunct hf hq

instance atWord {x : Keyword} [hf : Advances r source Goal.top free (f ())]
    [hq : Advances r source rank k q] :
    Advances r source rank k (Parse.atWord x >>= fun b => if b = true then Parse.next >>= f
      else q) :=
  ifWord hf hq

instance atContextual {name : String} [hf : Advances r source Goal.top free (f ())]
    [hq : Advances r source rank k q] :
    Advances r source rank k (Parse.atContextual name >>= fun b => if b = true then Parse.next >>= f
      else q) :=
  ifContextual hf hq

end

/-- What is expected is taken, and it is not the end of the source. -/
theorem expect_taking {x : Kind} (hx : x ≠ .eof) :
    Advances r source rank taking (Parse.expect x) where
  reads e s hsource hs := by
    subst hsource
    refine Reads.look rfl ?_
    split
    · next hat => exact Reads.take hs (by rw [beq_iff_eq.mp hat]; exact hx) inferInstance
    · exact hs.reads

instance expectPunct {x : Punct} : Advances r source rank taking (Parse.expectPunct x) :=
  expect_taking nofun

instance expectWord {x : Keyword} : Advances r source rank taking (Parse.expectWord x) :=
  expect_taking nofun

instance expectContextual {name : String} :
    Advances r source rank taking (Parse.expectContextual name) where
  reads e s hsource hs := by
    subst hsource
    refine Reads.look rfl ?_
    split
    · next hat => exact Reads.next_taking hs.placed (isPlain_ne_eof hat)
    · exact hs.reads

instance semicolon : Advances r source rank free Parse.semicolon := by
  unfold Parse.semicolon
  infer_instance

instance literal {t : Token} [ht : t.InSource source] :
    Advances r source rank free (Parse.literal t) where
  reads e s hsource hs := by
    subst hsource
    refine Reads.look rfl ?_
    dsimp only
    rw [if_pos (by simp only [ht.start_le, ht.stop_le, decide_true, Bool.and_self])]
    exact hs.reads

/-- The text between the quotes of a string is in the source, as the token is. -/
theorem unquoted {t : Token} [ht : t.InSource source] (hkind : t.kind = .string) :
    Advances r source rank free (Parse.unquoted t) := by
  refine andThen fun raw => ?_
  rw [if_pos (ht.quoted hkind)]
  exact pure

/-- What may be assigned to is a pattern. -/
theorem asPattern {x target : Expr} (h : x.simpleTarget? = some target) :
    Advances r source rank free (Parse.asPattern target) := by
  unfold Expr.simpleTarget? at h
  split at h
  · cases h
    exact pure
  · dsimp only at h
    split at h
    · cases h
    · cases h
      exact pure
  · cases h

/-! ## Scopes -/

instance inScopeTaking {scope : Scope} [h : Advances r source rank taking p] :
    Advances r source rank taking (Parse.inScope scope p) where
  reads e s hsource hs := by
    subst hsource
    exact Reads.inScope hs.placed (h.reads e _ rfl (hs.entered))

instance inScope {scope : Scope} [h : Advances r source rank free p] :
    Advances r source rank free (Parse.inScope scope p) where
  reads e s hsource hs := by
    subst hsource
    exact Reads.inScope hs.placed (h.reads e _ rfl (hs.entered))

instance inBlockTaking [Advances r source rank taking p] :
    Advances r source rank taking (Parse.inBlock p) :=
  inScopeTaking

instance inBlock [Advances r source rank free p] : Advances r source rank free (Parse.inBlock p) :=
  inScope

instance inTrialScope {p : Parse (Option α)} {scope : Scope} [h : Advances r source rank hits p] :
    Advances r source rank hits (Parse.inTrialScope scope p) where
  reads e s hsource hs := by
    subst hsource
    exact Reads.inTrialScope hs.placed (h.reads e _ rfl (hs.entered))

instance declareAt {name : Name} {site : Nat} {kind : DeclKind} :
    Advances r source rank free (Parse.declareAt name site kind) where
  reads e s hsource hs := by
    subst hsource
    refine Reads.look rfl ?_
    cases hscopes : Scope.declareIn s.scopes { name := name.text, kind, site := some site } with
    | ok scopes =>
      have hlength : scopes.length = s.scopes.length :=
        (List.Forall₂.length_eq (Scope.declareIn_grows hscopes)).symm
      refine Reads.ok rfl ⟨hs.placed.reopened ?_, hlength, Nat.le_refl _⟩
      exact List.length_pos_iff.mp (by rw [hlength]; exact List.length_pos_iff.mpr hs.placed.opened)
    | error fault =>
      refine Reads.error rfl ?_
      cases fault with
      | redeclared name => rfl
      | outsideScope => exact absurd hscopes (Scope.declareIn_ne_outsideScope hs.placed.opened)

instance declare {name : Name} {kind : DeclKind} :
    Advances r source rank free (Parse.declare name kind) :=
  declareAt

instance declareAll {kind : DeclKind} {names : List Name} :
    Advances r source rank free (Parse.declareAll kind names) := by
  induction names with
  | nil => exact pure
  | cons n rest ih => exact andThen fun _ => ih

instance declarePattern {target : Pattern} {kind : DeclKind} :
    Advances r source rank free (Parse.declarePattern target kind) :=
  declareAll

instance declareParameters {params : Params} :
    Advances r source rank free (Parse.declareParameters params) :=
  declareAll

/-! ## Repetition -/

/-- A repetition ends because each turn takes a token: there are no more turns than
tokens. -/
theorem turns {init : σ} {step : σ → Parse (Turn σ β)}
    (h : ∀ x, Advances r source rank Turn.taken (step x)) :
    Advances r source rank free (Parse.repeating init step) where
  reads e s hsource hs := by
    subst hsource
    exact Reads.repeating hs.placed ((h init).reads e s rfl hs)
      (fun t x ht => (h x).reads e t rfl (hs.onward ht))
      (fun _ => Nat.le_refl 1) fun _ => Nat.le_refl 0

instance repeating {init : σ} {step : σ → Parse (Turn σ β)}
    [h : ∀ x, Advances r source rank Turn.taken (step x)] :
    Advances r source rank free (Parse.repeating init step) :=
  turns h

instance repeatingTaking {init : σ} {step : σ → Parse (Turn σ β)}
    [h : ∀ x, Advances r source rank taking (step x)] :
    Advances r source rank taking (Parse.repeating init step) where
  reads e s hsource hs := by
    subst hsource
    exact Reads.repeating hs.placed ((h init).reads e s rfl hs)
      (fun t x ht => (h x).reads e t rfl (hs.onward ht))
      (fun _ => Nat.le_refl 1) fun _ => Nat.le_refl 1

instance itemsUntil {stop : Kind → Bool} [Advances r source rank taking p] :
    Advances r source rank free (Parse.itemsUntil stop p) := by
  unfold Parse.itemsUntil
  infer_instance

instance commaList {close : Punct} [Advances r source rank taking p] :
    Advances r source rank free (Parse.commaList close p) := by
  unfold Parse.commaList
  infer_instance

instance behindPunct {x : Punct} [Advances r source Goal.top free p] :
    Advances r source rank free (Parse.behind (Parse.atPunct x) p) := by
  unfold Parse.behind
  infer_instance

instance behindWord {x : Keyword} [Advances r source Goal.top free p] :
    Advances r source rank free (Parse.behind (Parse.atWord x) p) := by
  unfold Parse.behind
  infer_instance

instance behindContextual {name : String} [Advances r source Goal.top free p] :
    Advances r source rank free (Parse.behind (Parse.atContextual name) p) := by
  unfold Parse.behind
  infer_instance

end Advances

end EcmaStack
