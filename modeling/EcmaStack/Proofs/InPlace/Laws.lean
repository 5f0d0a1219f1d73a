import EcmaStack.Proofs.Grammar.Looks
import EcmaStack.Proofs.InPlace.Parser

/-!
# Rules in place that follow the grammar

A rule in place `Follows` a rule of the grammar if it does what that rule does,
read in the context in force, and leaves all contexts as it found them. Rules
that are put together alike follow one another. Where a rule in place opens a
context or changes a flag, the grammar's rule reads a part of its phrase in
another region: the two are then compared step by step, with the contexts that
each step starts and ends with (`Runs`). Where a rule in place rewinds, the
grammar's rule is the end of an attempt, which goes back by itself (`undoing`). -/

namespace EcmaStack.InPlace

open Parse (Turn)

variable {α β σ : Type}

variable {m : InPlace α} {k : α → InPlace β} {p q : Parse α} {f : α → Parse β} {c d : Contexts}
    {here : Region}
  {st : Mark} {missed : α → Bool}

/-- The rule does what a rule of the grammar does, read in the context in force,
and it leaves the contexts as they are. -/
class Follows (m : InPlace α) (p : Parse α) : Prop where
  eq_lift : m = lift p

/-- A rule does what a rule of the grammar does in another region. It goes from
some contexts to others. -/
def Runs (c d : Contexts) (here : Region) (m : InPlace α) (p : Parse α) : Prop :=
  ∀ P : Parser, P.toContexts = c →
    m P = match p { P.surroundings with region := here } P.toParseState with
      | .ok (a, t) => .ok (a, { P.movedTo t with toContexts := d })
      | .error fault => .error fault

/-- The rule of the grammar does the same in every region. -/
class Blind (p : Parse α) : Prop where
  same : ∀ source module compiler region other s,
    p ⟨source, module, compiler, region⟩ s = p ⟨source, module, compiler, other⟩ s

/-- A region that is changed around two rules is changed around each of them, so a phrase
read in another region may be cut where the parser closes the context. -/
theorem within_bind {change : Region → Region} :
    Parse.within change (p >>= f) = Parse.within change p >>= fun a => Parse.within change (f a) :=
  rfl

theorem within_pure {change : Region → Region} {a : α} :
    Parse.within change (Pure.pure a : Parse α) = Pure.pure a :=
  rfl

/-- Rules of the grammar may be regrouped: what is bound first does not matter, and
binding nothing changes nothing. -/
instance : LawfulMonad Parse :=
  LawfulMonad.mk' Parse
    (fun p => by
      funext e s
      change Parse.andThen p Parse.answer e s = p e s
      rw [Parse.andThen]
      cases p e s <;> rfl)
    (fun _ _ => rfl)
    fun p f g => by
      funext e s
      change Parse.andThen (Parse.andThen p f) g e s =
        Parse.andThen p (fun a => Parse.andThen (f a) g) e s
      rw [Parse.andThen, Parse.andThen, Parse.andThen]
      cases p e s <;> rfl

/-- The same for rules in place, whose state also holds the contexts. -/
instance : LawfulMonad InPlace :=
  LawfulMonad.mk' InPlace
    (fun m => by
      funext P
      change InPlace.andThen m answer P = m P
      rw [InPlace.andThen]
      cases m P <;> rfl)
    (fun _ _ => rfl)
    fun m k g => by
      funext P
      change InPlace.andThen (InPlace.andThen m k) g P =
        InPlace.andThen m (fun a => InPlace.andThen (k a) g) P
      rw [InPlace.andThen, InPlace.andThen, InPlace.andThen]
      cases m P <;> rfl

/-- A rule that is back at a mark when it has missed. The scopes are not put
back. -/
def undoing (missed : α → Bool) (st : Mark) (p : Parse α) : Parse α :=
  fun e s =>
    match p e s with
    | .ok (a, t) => .ok (a, if missed a then t.rewound st else t)
    | .error fault => .error fault

/-- Whether a repetition ends with a miss. -/
def endsMissed (missed : β → Bool) : Turn σ β → Bool
  | .again _ => false
  | .done b => missed b

/-! ## Rules that do the same in every region -/

namespace Blind

instance bind [hp : Blind p] [hf : ∀ a, Blind (f a)] : Blind (p >>= f) where
  same source module compiler region other s := by
    change Parse.andThen p f _ s = Parse.andThen p f _ s
    rw [Parse.andThen, Parse.andThen, hp.same source module compiler region other]
    cases p ⟨source, module, compiler, other⟩ s with
    | error fault => rfl
    | ok x => exact (hf x.1).same source module compiler region other x.2

instance pure {a : α} : Blind (Pure.pure a : Parse α) :=
  ⟨fun _ _ _ _ _ _ => rfl⟩

instance ite {c : Prop} [Decidable c] [Blind p] [Blind q] : Blind (if c then p else q) := by
  split <;> assumption

instance get : Blind Parse.get :=
  ⟨fun _ _ _ _ _ _ => rfl⟩

instance hold {t : Token} {cursor : Cursor} {previousEnd : Nat} :
    Blind (Parse.hold t cursor previousEnd) := by
  unfold Parse.hold
  split <;> exact ⟨fun _ _ _ _ _ _ => rfl⟩

instance next : Blind Parse.next := by
  unfold Parse.next
  infer_instance

instance spanFrom {start : Nat} : Blind (Parse.spanFrom start) :=
  ⟨fun _ _ _ _ _ _ => rfl⟩

instance expectPunct {x : Punct} : Blind (Parse.expectPunct x) := by
  have htoken : Blind Parse.token := ⟨fun _ _ _ _ _ _ => rfl⟩
  have hunexpected : Blind (Parse.unexpected : Parse Nat) := ⟨fun _ _ _ _ _ _ => rfl⟩
  unfold Parse.expectPunct Parse.expect
  infer_instance

end Blind

namespace Runs

/-- Where every run starts and ends with the same contexts and reads in the one in force,
nothing is left of how they changed in between. -/
theorem follows (h : ∀ c, Runs c c c.context m p) : Follows m p :=
  ⟨funext fun P => h P.toContexts P rfl⟩

/-- A rule that only reads tokens may be used in place as it is. -/
theorem leaf : Runs c c c.context (liftM p) p := by
  rintro P rfl
  rfl

/-- A rule that follows one of the grammar is a step that comes back to the contexts it
started with. -/
theorem of_follows (h : Follows m p) : Runs c c c.context m p := by
  rintro P rfl
  rw [h.eq_lift]
  rfl

/-- A rule that does not look at its region does the same in any other, so it needs no
context to agree with. -/
theorem blind [h : Blind p] : Runs c c here (liftM p) p := by
  rintro P rfl
  rw [h.same _ _ _ here P.context]
  rfl

/-- Runs compose: the second starts with the contexts that the first has left. -/
theorem bind {b : Contexts} (hm : Runs c b here m p) (hk : ∀ a, Runs b d here (k a) (f a)) :
    Runs c d here (m >>= k) (p >>= f) := by
  intro P hP
  change InPlace.andThen m k P = match Parse.andThen p f _ _ with
    | .ok (a, t) => _
    | .error fault => _
  rw [InPlace.andThen, Parse.andThen, hm P hP]
  cases p { P.surroundings with region := here } P.toParseState with
  | error fault => rfl
  | ok x => exact hk x.1 { P.movedTo x.2 with toContexts := b } rfl

theorem pure {a : α} : Runs c c here (Pure.pure a) (Pure.pure a : Parse α) := by
  rintro P rfl
  rfl

/-- The region that the grammar's rule is read in may be the changed one from the start. -/
theorem within {change : Region → Region} (h : Runs c d (change here) m p) :
    Runs c d here m (Parse.within change p) :=
  h

/-- The same for the one flag that `in` is read by. -/
theorem withIn {allow : Bool} (h : Runs c d { here with allowIn := allow } m p) :
    Runs c d here m (Parse.withIn allow p) :=
  h

/-- A step in place that the grammar has no counterpart for. -/
theorem step {b : Contexts} {n : InPlace Unit} {k : Unit → InPlace α}
    (hn : ∀ P : Parser, P.toContexts = c → n P = .ok ((), { P with toContexts := b }))
    (h : Runs b d here (k ()) p) : Runs c d here (n >>= k) p := by
  intro P hP
  change InPlace.andThen n k P = _
  rw [InPlace.andThen, hn P hP]
  exact h { P with toContexts := b } rfl

/-- What the context in force is may be asked for without moving anything. -/
theorem context {k : Region → InPlace α} (h : Runs c d here (k c.context) p) :
    Runs c d here (InPlace.context >>= k) p := by
  rintro P rfl
  exact h P rfl

/-- Opening a context puts the one in force away and starts with an empty one. -/
theorem openContext {k : Unit → InPlace α} (h : Runs ⟨{}, c.context :: c.outer⟩ d here (k ()) p) :
    Runs c d here (InPlace.openContext >>= k) p :=
  step (fun P hP => by subst hP; rfl) h

/-- The context of an arrow function takes over what the surroundings allow. -/
theorem openArrow {k : Unit → InPlace α}
    (h : Runs ⟨c.context.arrow, c.context :: c.outer⟩ d here (k ()) p) :
    Runs c d here (openFunctionContext true >>= k) p :=
  step (fun P hP => by subst hP; rfl) h

/-- The context of a function allows nothing that is not the function's own. -/
theorem openFunction {k : Unit → InPlace α}
    (h : Runs ⟨c.context.function, c.context :: c.outer⟩ d here (k ()) p) :
    Runs c d here (openFunctionContext false >>= k) p :=
  step (fun P hP => by subst hP; rfl) h

/-- A flag is set in the context in force and nowhere else. -/
theorem changeContext {change : Region → Region} {k : Unit → InPlace α}
    (h : Runs ⟨change c.context, c.outer⟩ d here (k ()) p) :
    Runs c d here (InPlace.changeContext change >>= k) p :=
  step (fun P hP => by subst hP; rfl) h

/-- Closing a context gives back the one that was put away last, whatever has become of
the one in force. -/
theorem closeContext {now around : Region} {rest : List Region} {k : Unit → InPlace α}
    (h : Runs ⟨around, rest⟩ d here (k ()) p) :
    Runs ⟨now, around :: rest⟩ d here (InPlace.closeContext >>= k) p := by
  refine step (b := ⟨around, rest⟩) (fun P hP => ?_) h
  rw [InPlace.closeContext, show P.outer = around :: rest from congrArg Contexts.outer hP]

/-- A flag that was set is put back by what setting it has answered, so both ends of the
stretch name the same context. -/
theorem setAllowIn {allow : Bool} {k : InPlace Unit → InPlace α}
    (h : Runs ⟨{ c.context with allowIn := allow }, c.outer⟩ d here
      (k (InPlace.changeContext fun r => { r with allowIn := c.context.allowIn })) p) :
    Runs c d here (InPlace.setAllowIn allow >>= k) p := by
  rintro P rfl
  exact h { P with context := { P.context with allowIn := allow } } rfl

end Runs

/-- The rules in place follow the rules of the grammar. -/
class Rules.Follow (r : InPlace.Rules) (q : EcmaStack.Rules) : Prop where
  read : ∀ {α : Type} (g : Goal α), Follows (r.read g) (q.read g)

namespace Follows

/-! ## Putting rules together -/

instance lift : Follows (liftM p) p :=
  ⟨rfl⟩

/-- Two rules that follow, one after the other. The second is given apart where it is no
instance of its own. -/
theorem andThen [hm : Follows m p] (hk : ∀ a, Follows (k a) (f a)) : Follows (m >>= k) (p >>= f) :=
  Runs.follows fun _ => .bind (.of_follows hm) fun a => .of_follows (hk a)

instance bind [Follows m p] [hk : ∀ a, Follows (k a) (f a)] : Follows (m >>= k) (p >>= f) :=
  andThen hk

instance pure {a : α} : Follows (Pure.pure a) (Pure.pure a : Parse α) :=
  Runs.follows fun _ => .pure

instance map {g : α → β} [Follows m p] : Follows (g <$> m) (g <$> p) :=
  andThen fun _ => pure

instance ite {c : Prop} [Decidable c] {n : InPlace α} [hm : Follows m p] [hn : Follows n q] :
    Follows (if c then m else n) (if c then p else q) := by
  split <;> assumption

/-- Two branches, each of which follows its own. -/
theorem branch {c : Prop} [Decidable c] {n : InPlace α} (hm : Follows m p) (hn : Follows n q) :
    Follows (if c then m else n) (if c then p else q) :=
  ite

/-- A choice of how to begin, with one way to go on. -/
theorem either {c : Prop} [Decidable c] {n : InPlace α} [Follows m p] [Follows n q]
    (h : ∀ a, Follows (k a) (f a)) :
    Follows (if c then m >>= k else n >>= k) (if c then p >>= f else q >>= f) :=
  branch (andThen h) (andThen h)

/-- A step that may be left out, before one way to go on. -/
theorem optional {c : Prop} [Decidable c] {m : InPlace PUnit} {k : PUnit → InPlace β}
    {p : Parse PUnit} {f : PUnit → Parse β} [Follows m p] (h : ∀ u, Follows (k u) (f u)) :
    Follows (if c then m >>= k else k ⟨⟩) (if c then p >>= f else f ⟨⟩) :=
  branch (andThen h) (h ⟨⟩)

/-! ## Repetition -/

variable {init : σ} {step : σ → InPlace (Turn σ β)} {step' : σ → Parse (Turn σ β)}

/-- Turns follow turns, by induction on how many of them may be taken. -/
theorem repeatFrom (h : ∀ x, Follows (step x) (step' x)) (fuel : Nat) (x : σ) :
    Follows (InPlace.repeatFrom step fuel x) (Parse.repeatFrom step' fuel x) := by
  induction fuel generalizing x with
  | zero => exact lift
  | succ fuel ih =>
    refine @andThen _ _ _ _ _ _ (h x) fun turn => ?_
    cases turn with
    | again y => exact ih y
    | done b => exact pure

/-- A repetition follows if each of its turns does. -/
theorem turns (h : ∀ x, Follows (step x) (step' x)) :
    Follows (InPlace.repeating init step) (Parse.repeating init step') :=
  andThen fun _ => repeatFrom h _ init

instance repeating [h : ∀ x, Follows (step x) (step' x)] :
    Follows (InPlace.repeating init step) (Parse.repeating init step') :=
  turns h

instance itemsUntil {stop : Kind → Bool} [Follows m p] :
    Follows (InPlace.itemsUntil stop m) (Parse.itemsUntil stop p) := by
  unfold InPlace.itemsUntil Parse.itemsUntil
  infer_instance

instance commaList {close : Punct} [Follows m p] :
    Follows (InPlace.commaList close m) (Parse.commaList close p) := by
  unfold InPlace.commaList Parse.commaList
  infer_instance

instance behind {sign : Parse Bool} [Follows m p] :
    Follows (InPlace.behind sign m) (Parse.behind sign p) := by
  unfold InPlace.behind Parse.behind
  infer_instance

/-! ## Flags -/

/-- The flag is put back as soon as the part that needed it has been read. -/
instance allowing {allow : Bool} [hm : Follows m p] [hk : ∀ a, Follows (k a) (f a)] :
    Follows (do
      let restore ← InPlace.setAllowIn allow
      let a ← m
      restore
      k a) (Parse.withIn allow p >>= f) :=
  Runs.follows fun _ =>
    .setAllowIn (.bind (.withIn (.of_follows hm)) fun a => .changeContext (.of_follows (hk a)))

/-! ## Goals -/

section

variable {r : InPlace.Rules} {q : EcmaStack.Rules} [h : r.Follow q]

instance expression : Follows r.expression q.expression :=
  h.read .expression

instance assignment : Follows r.assignment q.assignment :=
  h.read .assignment

instance binary {least : Nat} : Follows (r.binary least) (q.binary least) :=
  h.read (.binary least)

instance unary : Follows r.unary q.unary :=
  h.read .unary

instance leftHandSideGoal : Follows r.leftHandSide q.leftHandSide :=
  h.read .leftHandSide

instance construct : Follows r.construct q.construct :=
  h.read .construct

instance target {binding : Bool} : Follows (r.target binding) (q.target binding) :=
  h.read (.target binding)

instance statement : Follows r.statement q.statement :=
  h.read .statement

instance item : Follows r.item q.item :=
  h.read .item

end

/-! ## Attempts -/

/-- An attempt marks where it starts. -/
theorem marked {k : Mark → InPlace α} (h : ∀ st, Follows (k st) (undoing missed st p)) :
    Follows (InPlace.mark >>= k) fun e s => undoing missed s.mark p e s := by
  refine ⟨funext fun P => ?_⟩
  change k P.toParseState.mark P = _
  rw [(h P.toParseState.mark).eq_lift]
  rfl

/-- An attempt of the grammar is its rule, put back where it has missed: this is what the
parser does by hand. -/
theorem attempt_eq {p : Parse (Option α)} :
    Parse.attempt p = fun e s => undoing Option.isNone s.mark p e s := by
  funext e s
  rw [Parse.attempt, undoing]
  cases p e s with
  | error fault => rfl
  | ok x =>
    obtain ⟨_ | a, t⟩ := x <;> rfl

/-- An attempt is followed by a rule that sets a mark and rewinds to it wherever it
misses. -/
theorem attempt {p : Parse (Option α)} {k : Mark → InPlace (Option α)}
    (h : ∀ st, Follows (k st) (undoing Option.isNone st p)) :
    Follows (InPlace.mark >>= k) (Parse.attempt p) := by
  rw [attempt_eq]
  exact marked h

/-- What only looks may as well be done before the attempt. -/
theorem attempt_look {p : Parse α} [hp : p.Looks] {f : α → Parse (Option β)} :
    Parse.attempt (p >>= f) = p >>= fun a => Parse.attempt (f a) := by
  funext e s
  obtain ⟨a, ha⟩ := hp.looks e s
  change Parse.attempt (Parse.andThen p f) e s = Parse.andThen p (fun a => Parse.attempt (f a)) e s
  rw [Parse.attempt, Parse.andThen, Parse.andThen, ha]
  rfl

/-- Missing at once is an attempt that has read nothing. -/
theorem attempt_none : Parse.attempt (Pure.pure none : Parse (Option α)) = Pure.pure none :=
  rfl

/-- What is undone is undone at the end, so a first part may be split off. -/
theorem undoing_bind {missed : β → Bool} :
    undoing missed st (p >>= f) = p >>= fun a => undoing missed st (f a) := by
  funext e s
  change undoing missed st (Parse.andThen p f) e s =
    Parse.andThen p (fun a => undoing missed st (f a)) e s
  rw [undoing, Parse.andThen, Parse.andThen]
  cases p e s <;> rfl

/-- A first part that follows, before an end that rewinds. -/
theorem undo {missed : β → Bool} [Follows m p] (h : ∀ a, Follows (k a) (undoing missed st (f a))) :
    Follows (m >>= k) (undoing missed st (p >>= f)) := by
  rw [undoing_bind]
  exact andThen h

instance undoBind {missed : β → Bool} [Follows m p]
    [h : ∀ a, Follows (k a) (undoing missed st (f a))] :
    Follows (m >>= k) (undoing missed st (p >>= f)) :=
  undo h

/-- Two branches before their ends, each of which rewinds where it misses. -/
theorem undoBranch {c : Prop} [Decidable c] {n : InPlace α} (hm : Follows m (undoing missed st p))
    (hn : Follows n (undoing missed st q)) :
    Follows (if c then m else n) (undoing missed st (if c then p else q)) := by
  split <;> assumption

/-- A step that may be left out, before an end that rewinds. -/
theorem undoOptional {c : Prop} [Decidable c] {missed : β → Bool} {m : InPlace PUnit}
    {k : PUnit → InPlace β} {p : Parse PUnit} {f : PUnit → Parse β} [Follows m p]
    (h : ∀ u, Follows (k u) (undoing missed st (f u))) :
    Follows (if c then m >>= k else k ⟨⟩) (undoing missed st (if c then p >>= f else f ⟨⟩)) :=
  undoBranch (undo h) (h ⟨⟩)

instance undoIte {c : Prop} [Decidable c] {n : InPlace α} [hm : Follows m (undoing missed st p)]
    [hn : Follows n (undoing missed st q)] :
    Follows (if c then m else n) (undoing missed st (if c then p else q)) :=
  undoBranch hm hn

/-- A match has nothing to undo. -/
theorem undoing_some {a : α} :
    undoing Option.isNone st (Pure.pure (some a)) = Pure.pure (some a) :=
  rfl

/-- The flag for `in` has no part in what is undone. -/
theorem undoing_withIn {allow : Bool} :
    undoing missed st (Parse.withIn allow p) = Parse.withIn allow (undoing missed st p) :=
  rfl

/-- What reads a part passes the part's miss on, so that it does not matter
which of the two is undone. -/
theorem undoing_part {missing : β → Bool} (hmiss : ∀ a, missed a = true → ∃ b, missing b = true ∧
    f a = Pure.pure b)
    (h : ∀ a, missed a = false → undoing missing st (f a) = f a) :
    undoing missing st (p >>= f) = undoing missed st p >>= f := by
  funext e s
  change undoing missing st (Parse.andThen p f) e s = Parse.andThen (undoing missed st p) f e s
  rw [undoing, Parse.andThen, Parse.andThen, undoing]
  cases p e s with
  | error fault => rfl
  | ok x =>
    obtain ⟨a, t⟩ := x
    dsimp only
    cases ha : missed a with
    | false => exact congrFun (congrFun (h a ha) e) t
    | true =>
      obtain ⟨b, hb, hf⟩ := hmiss a ha
      rw [hf]
      change Except.ok (b, if missing b then _ else _) = _
      rw [hb]
      rfl

/-- A rule that cannot miss has nothing to undo. -/
theorem undoing_never (h : ∀ a, missed a = false) : undoing missed st p = p := by
  funext e s
  rw [undoing]
  cases p e s with
  | error fault => rfl
  | ok x =>
    obtain ⟨a, t⟩ := x
    change Except.ok (a, if missed a then t.rewound st else t) = _
    rw [h a]
    rfl

/-- What has matched is not undone. -/
theorem matched {a : α} (h : missed a = false) :
    Follows (Pure.pure a) (undoing missed st (Pure.pure a)) := by
  refine ⟨funext fun P => ?_⟩
  change _ = Except.ok (a, P.movedTo (if missed a then _ else _))
  rw [h]
  rfl

/-- After a miss the parser goes back to the mark. -/
theorem gone {a : α} (h : missed a = true) :
    Follows (InPlace.rewind st >>= fun _ => Pure.pure a) (undoing missed st (Pure.pure a)) := by
  refine ⟨funext fun P => ?_⟩
  change _ = Except.ok (a, P.movedTo (if missed a then _ else _))
  rw [h]
  rfl

instance matchedSome {a : α} :
    Follows (Pure.pure (some a)) (undoing Option.isNone st (Pure.pure (some a))) :=
  matched rfl

instance missedNone : Follows (InPlace.rewind st >>= fun _ => Pure.pure (none : Option α))
    (undoing Option.isNone st (Pure.pure none)) :=
  gone rfl

instance matchedAgain {missed : β → Bool} {x : σ} :
    Follows (Pure.pure (Turn.again x))
    (undoing (endsMissed missed) st (Pure.pure (Turn.again x))) :=
  matched rfl

instance matchedDone {a : α} :
    Follows (Pure.pure (Turn.done (some a)) : InPlace (Turn σ (Option α)))
    (undoing (endsMissed Option.isNone) st (Pure.pure (Turn.done (some a)))) :=
  matched rfl

instance missedDone :
    Follows (InPlace.rewind st >>= fun _ => Pure.pure
      (Turn.done (none : Option α) : Turn σ (Option α)))
    (undoing (endsMissed Option.isNone) st (Pure.pure (Turn.done none))) :=
  gone rfl

/-- What reports a fault has nothing to undo. -/
instance undoFail {offset : Nat} {cause : SyntaxFault} :
    Follows (liftM (Parse.failAt offset cause : Parse α))
    (undoing missed st (Parse.failAt offset cause)) :=
  ⟨rfl⟩

/-- A part that has missed is undone where it is read. -/
theorem passing {missing : β → Bool} (hm : Follows m (undoing missed st p))
    (hmiss : ∀ a, missed a = true → ∃ b, missing b = true ∧ k a = Pure.pure b ∧ f a = Pure.pure b)
    (h : ∀ a, missed a = false → Follows (k a) (undoing missing st (f a))) :
    Follows (m >>= k) (undoing missing st (p >>= f)) := by
  refine ⟨funext fun P => ?_⟩
  change InPlace.andThen m k P = InPlace.lift (undoing missing st (Parse.andThen p f)) P
  rw [hm.eq_lift, InPlace.andThen, InPlace.lift, InPlace.lift, undoing, undoing, Parse.andThen]
  cases p P.surroundings P.toParseState with
  | error fault => rfl
  | ok x =>
    obtain ⟨a, t⟩ := x
    dsimp only
    cases ha : missed a with
    | false =>
      rw [(h a ha).eq_lift]
      rfl
    | true =>
      obtain ⟨b, hb, hk, hf⟩ := hmiss a ha
      rw [hk, hf]
      change _ = Except.ok (b, P.movedTo (if missing b then _ else _))
      rw [hb]
      rfl

/-- A repetition that may end with a miss: only its last turn rewinds. -/
theorem undoTurns {missed : β → Bool}
    (h : ∀ x, Follows (step x) (undoing (endsMissed missed) st (step' x))) :
    Follows (InPlace.repeating init step) (undoing missed st (Parse.repeating init step')) := by
  have hfrom (fuel : Nat) (x : σ) :
      Follows (InPlace.repeatFrom step fuel x)
        (undoing missed st (Parse.repeatFrom step' fuel x)) := by
    induction fuel generalizing x with
    | zero => exact ⟨rfl⟩
    | succ fuel ih =>
      refine passing (h x) (fun turn hturn => ?_) fun turn hturn => ?_
      · cases turn with
        | again y => cases hturn
        | done b => exact ⟨b, hturn, rfl, rfl⟩
      · cases turn with
        | again y => exact ih y
        | done b => exact matched hturn
  exact undo fun _ => hfrom _ init

/-- A phrase whose part is missing is missing. -/
theorem part {p : Parse (Option α)} {m : InPlace (Option α)} {k : Option α → InPlace (Option β)}
    {f : Option α → Parse (Option β)} (hm : Follows m (undoing Option.isNone st p))
    (hk : k none = Pure.pure none) (hf : f none = Pure.pure none)
    (h : ∀ a, Follows (k (some a)) (undoing Option.isNone st (f (some a)))) :
    Follows (m >>= k) (undoing Option.isNone st (p >>= f)) := by
  refine passing hm (fun o ho => ?_) fun o ho => ?_
  · cases o with
    | none => exact ⟨none, rfl, hk, hf⟩
    | some a => cases ho
  · cases o with
    | none => cases ho
    | some a => exact h a

end Follows

end EcmaStack.InPlace
