import EcmaStack.Proofs.Grammar.Speculation
import EcmaStack.Proofs.Grammar.Yields
import EcmaStack.Proofs.Layout.Passage
import EcmaStack.Proofs.Progress.Laws

/-!
# How rules make passages

`Holds p e s R` says of the rule `p`, read from the state `s`, that whatever it answers, and
wherever it stops, `R` holds of the two. Three kinds of rules matter, told by the stretch they
read: one that reads a `Whole` node, from the token in hand to the last token read; one that
`Gathers` nodes; and one that `Finds` nodes unless it misses. A rule that `Passes` reads tokens
only.

The laws below start from a stretch that was read before and go on with one step: the nodes of
the step are added to those before it, and what is left to show is what follows the step.
-/

namespace EcmaStack

open Scope (frames Numbered)

namespace Parse

variable {α β σ : Type} {p q : Parse α} {f : α → Parse β} {e : Surroundings} {s : ParseState}
    {P : α → ParseState → Prop}
  {R : β → ParseState → Prop}

/-! ## Reading from a state -/

/-- Whatever the rule answers from the state, and wherever it stops. -/
def Holds (p : Parse α) (e : Surroundings) (s : ParseState) (R : α → ParseState → Prop) : Prop :=
  ∀ a t, p e s = .ok (a, t) → R a t

namespace Holds

/-- What holds of an answer here. -/
theorem pure {a : α} (h : P a s) : Holds (Pure.pure a) e s P := by
  rintro _ _ ⟨⟩
  exact h

/-- What holds after the first rule is where the second one starts. -/
theorem bind (hp : Holds p e s P) (hf : ∀ a t, P a t → Holds (f a) e t R) :
    Holds (p >>= f) e s R := by
  intro b u heq
  obtain ⟨a, t, hpa, hfb⟩ := bind_ok heq
  exact hf a t (hp a t hpa) b u hfb

/-- A weaker claim. -/
theorem mono {Q : α → ParseState → Prop} (h : Holds p e s P) (himp : ∀ a t, P a t → Q a t) :
    Holds p e s Q :=
  fun a t heq => himp a t (h a t heq)

/-- A step whose answer is at hand, and which changes nothing. -/
theorem known {a : α} (h : p e s = .ok (a, s)) (hf : Holds (f a) e s R) :
    Holds (p >>= f) e s R := by
  intro b u heq
  obtain ⟨a', t, hpa, hfb⟩ := bind_ok heq
  rw [h] at hpa
  cases hpa
  exact hf b u hfb

/-- A step that only looks. -/
theorem look [hp : Looks p] (hf : ∀ a, Holds (f a) e s R) : Holds (p >>= f) e s R := by
  obtain ⟨a, ha⟩ := hp.looks e s
  exact known ha (hf a)

/-- Each branch under its own condition. -/
theorem ite {c : Prop} [Decidable c] (hp : c → Holds p e s P) (hq : ¬c → Holds q e s P) :
    Holds (if c then p else q) e s P := by
  split
  · next h => exact hp h
  · next h => exact hq h

/-- A rule that fails owes nothing. -/
theorem failAt {offset : Nat} {cause : SyntaxFault} :
    Holds (Parse.failAt offset cause : Parse α) e s P := by
  rintro a t ⟨⟩

theorem fail {cause : SyntaxFault} : Holds (Parse.fail cause : Parse α) e s P :=
  look fun _ => failAt

theorem unexpected : Holds (Parse.unexpected : Parse α) e s P :=
  look fun _ => failAt

/-- The range from an offset to the end of the last token read. -/
theorem span {start : Nat} {f : Span → Parse β} (hf : Holds (f ⟨start, s.previousEnd⟩) e s R) :
    Holds (spanFrom start >>= f) e s R :=
  known rfl hf

/-- A check that is a fault when it fails. -/
theorem failIf {c : Prop} [Decidable c] {q : PUnit → Parse β} {p : Parse PUnit}
    (hp : ∀ R', Holds p e s R') (hq : ¬c → Holds (q ⟨⟩) e s R) :
    Holds (if c then p >>= q else q ⟨⟩) e s R :=
  ite (fun _ => bind (hp fun _ _ => False) fun _ _ => False.elim) hq

/-- What a repetition keeps from turn to turn gives what it answers. -/
theorem repeating {init : σ} {step : σ → Parse (Turn σ β)} (I : σ → ParseState → Prop)
    (hinit : I init s) (hstep : ∀ x t, I x t →
      Holds (step x) e t fun turn u => Turn.Holds (I · u) (R · u) turn) :
    Holds (Parse.repeating init step) e s R := by
  refine look fun here => ?_
  generalize here.source.length + 2 = fuel
  induction fuel generalizing init s with
  | zero => exact fail
  | succ fuel ih =>
    refine bind (hstep init s hinit) fun turn t hturn => ?_
    cases turn with
    | again x => exact ih hturn
    | done b => exact pure hturn

end Holds

/-! ## Kinds of rules -/

/-- The rule reads a node, which extends from the token in hand to the last token read. -/
def Whole (p : Parse α) (e : Surroundings) (node : α → Node) : Prop :=
  ∀ s, s.Ready e.source → Holds p e s fun a t => Extent e.source s t (node a)

/-- The rule reads nodes. -/
def Gathers (p : Parse α) (e : Surroundings) (taken : Bool) (nodes : α → List Node) : Prop :=
  ∀ s, s.Ready e.source → Holds p e s fun a t => Stretch e.source taken s t (nodes a)

/-- The rule reads nodes, unless it misses. -/
def Finds (p : Parse (Option α)) (e : Surroundings) (taken : Bool) (nodes : α → List Node) : Prop :=
  ∀ s, s.Ready e.source → Holds p e s fun o t => ∀ a ∈ o, Stretch e.source taken s t (nodes a)

/-- The rule reads a node, which extends from the token in hand to the last token read, unless
it misses. -/
def FindsWhole (p : Parse (Option α)) (e : Surroundings) (node : α → Node) : Prop :=
  ∀ s, s.Ready e.source → Holds p e s fun o t => ∀ a ∈ o, Extent e.source s t (node a)

/-- The rule reads tokens and nothing else. -/
class Passes (p : Parse α) : Prop where
  passes : ∀ e s, s.Ready e.source → Holds p e s fun _ t => Stretch e.source false s t []

section

variable {taken : Bool} {node : α → Node} {nodes : α → List Node}

/-- A rule that reads one node gathers it. -/
theorem Whole.gathers (h : Whole p e node) : Gathers p e true fun a => [node a] :=
  fun s hs => (h s hs).mono fun _ _ ha => ha.stretch

theorem Whole.within {change : Region → Region}
    (h : Whole p { e with region := change e.region } node) :
    Whole (Parse.within change p) e node :=
  h

/-- It may be forgotten that a token was taken. -/
theorem Gathers.weaken (h : Gathers p e taken nodes) : Gathers p e false nodes :=
  fun s hs => (h s hs).mono fun _ _ ha => Passage.weaken ha

theorem Gathers.within {change : Region → Region}
    (h : Gathers p { e with region := change e.region } taken nodes) :
    Gathers (Parse.within change p) e taken nodes :=
  h

end

/-! ## Misses -/

section

variable {p : Parse (Option α)} {P : α → ParseState → Prop}

theorem Finds.within {change : Region → Region} {taken : Bool} {nodes : α → List Node}
    (h : Finds p { e with region := change e.region } taken nodes) :
    Finds (Parse.within change p) e taken nodes :=
  h

/-- After an attempt that misses no more is said than after the miss. -/
theorem Holds.attempt (h : Holds p e s fun o t => ∀ a ∈ o, P a t) :
    Holds (Parse.attempt p) e s fun o t => ∀ a ∈ o, P a t := by
  intro o t heq a ha
  rw [Parse.attempt] at heq
  split at heq
  · next b u hp =>
    cases heq
    exact h (some b) t hp a ha
  · cases heq
    cases ha
  · cases heq

/-- A miss owes nothing. -/
theorem Holds.missed : Holds (Pure.pure none : Parse (Option α)) e s fun o t => ∀ a ∈ o, P a t :=
  .pure absent

/-- A match owes what was claimed. -/
theorem Holds.found {a : α} (h : P a s) :
    Holds (Pure.pure (some a)) e s fun o t => ∀ a ∈ o, P a t :=
  .pure (present h)

/-- What follows a rule that may miss. -/
theorem Holds.either {f : Option α → Parse β} (hp : Holds p e s fun o t => ∀ a ∈ o, P a t)
    (hsome : ∀ a t, P a t → Holds (f (some a)) e t R) (hnone : ∀ t, Holds (f none) e t R) :
    Holds (p >>= f) e s R := by
  refine bind hp fun o t ho => ?_
  cases o with
  | none => exact hnone t
  | some a => exact hsome a t (ho a rfl)

/-- A rule that is tried first, and if it misses the other is read from the same state. -/
theorem Holds.orElse {f : Option α → Parse β} (hp : Holds p e s fun o t => ∀ a ∈ o, P a t)
    (hback : ∀ t, p e s = .ok (none, t) → t = s) (hsome : ∀ a t, P a t → Holds (f (some a)) e t R)
    (hnone : Holds (f none) e s R) : Holds (p >>= f) e s R := by
  intro b u heq
  obtain ⟨o, t, hpo, hfb⟩ := bind_ok heq
  cases o with
  | none =>
    rw [hback t hpo] at hfb
    exact hnone b u hfb
  | some a => exact hsome a t (hp _ t hpo a rfl) b u hfb

/-- An attempt finds what its rule finds, and takes back what that has read without
finding anything. -/
theorem Finds.attempt {taken : Bool} {nodes : α → List Node} (h : Finds p e taken nodes) :
    Finds (Parse.attempt p) e taken nodes :=
  fun s hs => .attempt (h s hs)

theorem FindsWhole.attempt {node : α → Node} (h : FindsWhole p e node) :
    FindsWhole (Parse.attempt p) e node :=
  fun s hs => .attempt (h s hs)

end

/-! ## Tokens -/

section

variable {t : ParseState}

/-- The next token stands after the one in hand. -/
theorem next_ready (hcursor : (Cursor.ofText e.source).Reaches s.cursor)
    (hended : s.token.stop = s.cursor.offset) (hs : Numbered s.fresh s.scopes) :
    Holds Parse.next e s fun _ t =>
      t.Ready e.source ∧ t.previousEnd = s.token.stop ∧ t.scopes = s.scopes ∧ t.fresh =
        s.fresh := by
  rcases next_cases (e := e) hcursor with ⟨fault, hnext, _⟩ | ⟨t, hnext, hscopes, place, hread,
    hplace, hstands⟩
  · rintro _ _ heq
    rw [hnext] at heq
    cases heq
  · have htaken : t.previousEnd = s.token.stop ∧ t.fresh = s.fresh := by
      have heq : hold (scanToken s.cursor).1 (scanToken s.cursor).2 s.token.stop e s =
          .ok ((), t) := hnext
      unfold hold at heq
      cases hfault : (scanToken s.cursor).1.fault with
      | some fault =>
        rw [hfault] at heq
        cases heq
      | none =>
        rw [hfault] at heq
        cases heq
        exact ⟨rfl, rfl⟩
    have hnumbered : Numbered t.fresh t.scopes := by
      rw [hscopes, htaken.2]
      exact hs
    rintro _ _ heq
    rw [hnext] at heq
    cases heq
    refine ⟨⟨⟨⟨place, hplace, hstands⟩, hnumbered.opened⟩, ?_, hnumbered⟩, htaken.1, hscopes,
      htaken.2⟩
    obtain ⟨skipped, _, hoffset⟩ := hread
    rw [htaken.1, hended, hstands.start, hoffset]
    exact Nat.le_add_right _ _

/-- The token in hand has been taken. -/
theorem next_passage (hs : s.Ready e.source) : Holds Parse.next e s fun _ t =>
    Stretch e.source false s t [] ∧ t.previousEnd = s.token.stop := by
  obtain ⟨place, hplace, hstands⟩ := hs.placed.stands
  refine (next_ready (hplace.trans hstands.reaches) hstands.stop hs.numbered).mono
    fun _ t ⟨ht, hended, hscopes, hfresh⟩ => ?_
  have hinside := hs.placed.inSource.start_le
  have hbehind := hs.behind
  have hbehind' := ht.behind
  exact ⟨⟨ht, nofun, by omega, by omega, nofun, .of_eq hs.numbered hscopes hfresh⟩, hended⟩

/-- A token has a width, unless it is the end of the source. -/
theorem token_filled (hs : s.Ready e.source) (hkind : s.token.kind ≠ .eof) :
    s.token.start < s.token.stop := by
  obtain ⟨place, _, hstands⟩ := hs.placed.stands
  rw [hstands.start, hstands.stop]
  exact (hstands.ahead hkind).offset_lt

/-- A reserved word is as wide as it is long. -/
theorem keyword_wide (hs : s.Ready e.source) {k : Keyword} (hkind : s.token.kind = .keyword k) :
    s.token.start + k.spelling.length ≤ s.token.stop := by
  obtain ⟨place, _, hstands⟩ := hs.placed.stands
  have hwide := hstands.wide
  rw [hkind] at hwide
  exact hwide

/-- A token that is read again stands where it stood. -/
theorem rescan_passage {reader : Cursor → Reading} (hreader : ∀ c x, reader c = some x → c.Gives x)
    (hs : s.Ready e.source) {again : Token} {c : Cursor}
    (heq : EcmaStack.rescan reader e.source s.token = (again, c)) :
    Holds (hold again c s.previousEnd) e s fun _ t =>
      Stretch e.source false s t [] ∧ t.token = again ∧ again.start = s.token.start ∧
        (s.token.kind ≠ .eof → again.kind ≠ .eof) := by
  obtain ⟨place, hplace, hstands⟩ := hs.placed.stands
  have hagain := rescan_stands hreader hplace hstands
  rw [heq] at hagain
  rintro _ t hheld
  unfold hold at hheld
  cases hfault : again.fault with
  | some fault =>
    rw [hfault] at hheld
    cases hheld
  | none =>
    rw [hfault] at hheld
    cases hheld
    have hstart : again.start = s.token.start := (hagain hfault).start.trans hstands.start.symm
    refine ⟨⟨⟨⟨⟨place, hplace, hagain hfault⟩, hs.placed.opened⟩, ?_, hs.numbered⟩, nofun, ?_,
      Nat.le_refl _, nofun,
      .of_eq hs.numbered rfl rfl⟩, rfl, hstart, fun hkind hend => ?_⟩
    · show s.previousEnd ≤ again.start
      rw [hstart]
      exact hs.behind
    · show s.token.start ≤ again.start
      rw [hstart]
    · have hshorter := (hstands.ahead hkind).shorter
      rw [(hagain hfault).ended hend] at hshorter
      exact Nat.not_lt_zero _ hshorter

end

end Parse

open Parse

/-! ## One step after another -/

section Steps

variable {α β : Type} {e : Surroundings} {s₀ s : ParseState} {taken : Bool} {nodes : List Node}
    {part : Part}
  {p : Parse α} {f : α → Parse β} {R : β → ParseState → Prop}

namespace Passage

/-- A step that reads tokens only. -/
theorem skip [hp : Passes p] (h : Passage e.source taken s₀ s part)
    (hf : ∀ a t, Passage e.source taken s₀ t part → Holds (f a) e t R) : Holds (p >>= f) e s R := by
  refine Holds.bind (hp.passes e s h.ready) fun a t ht => hf a t ?_
  have hboth := Stretch.pass h ht
  rwa [Bool.or_false] at hboth

/-- A step that is taken only sometimes, and reads tokens only. -/
theorem skipIf {p : Parse PUnit} [Passes p] {f : PUnit → Parse β} {c : Prop} [Decidable c]
    (h : Passage e.source taken s₀ s part) (hf : ∀ u t, Passage e.source taken s₀ t part →
      Holds (f u) e t R) :
    Holds (if c then p >>= f else f ⟨⟩) e s R :=
  .ite (fun _ => h.skip hf) fun _ => hf ⟨⟩ s h

/-- One step or the other, which both read tokens only. -/
theorem skipEither {q : Parse α} [Passes p] [Passes q] {c : Prop} [Decidable c]
    (h : Passage e.source taken s₀ s part) (hf : ∀ a t, Passage e.source taken s₀ t part →
      Holds (f a) e t R) : Holds (if c then p >>= f else q >>= f) e s R :=
  .ite (fun _ => h.skip hf) fun _ => h.skip hf

/-- What is gathered next lies behind what was read so far. -/
theorem gather {more : Bool} {found : α → List Node} (h : Passage e.source taken s₀ s part)
    (hp : Gathers p e more found) (hf : ∀ a t, Passage e.source (taken || more) s₀ t
      (part ++ Part.of (frames s₀.scopes) (found a)) → Holds (f a) e t R) :
    Holds (p >>= f) e s R := by
  refine Holds.bind (hp s h.ready) fun a t ht => hf a t ?_
  have hboth := h.trans ht
  rwa [h.sameFrames] at hboth

/-- So does a node that is read as a whole. -/
theorem whole {node : α → Node} (h : Passage e.source taken s₀ s part) (hp : Whole p e node)
    (hf : ∀ a t, Passage e.source true s₀ t (part ++ Part.of (frames s₀.scopes) [node a]) →
      Holds (f a) e t R) :
    Holds (p >>= f) e s R := by
  refine h.gather hp.gathers fun a t ht => hf a t ?_
  rwa [Bool.or_true] at ht

/-- The token in hand is taken. -/
theorem next {f : Unit → Parse β} (h : Passage e.source taken s₀ s part)
    (hkind : s.token.kind ≠ .eof) (hf : ∀ t, Passage e.source true s₀ t part →
      t.previousEnd = s.token.stop → Holds (f ()) e t R) :
    Holds (Parse.next >>= f) e s R := by
  refine Holds.bind (next_passage h.ready) fun _ t ⟨ht, hended⟩ => hf t ?_ hended
  have hfilled := token_filled h.ready hkind
  have honward := h.onward
  have hboth := Stretch.pass h ht
  exact { hboth with began := fun _ => by omega }

/-- A token of a kind is taken, where the passage or a part of it starts. -/
theorem expect {k : Kind} {f : Nat → Parse β} (h : Passage e.source taken s₀ s part) (hk : k ≠ .eof)
    (hf : ∀ t, s.token.kind = k → t.previousEnd = s.token.stop → Passage e.source true s₀ t part →
      Holds (f s.token.start) e t R) : Holds (Parse.expect k >>= f) e s R := by
  rintro b u heq
  obtain ⟨start, t, hexpect, hfb⟩ := bind_ok heq
  obtain ⟨x, _, htoken, hexpect⟩ := bind_ok hexpect
  cases htoken
  split at hexpect
  · next hkind =>
    obtain ⟨_, v, hnext, hpure⟩ := bind_ok hexpect
    cases hpure
    have hkind := beq_iff_eq.mp hkind
    have hread : Holds (Parse.next >>= fun _ => Pure.pure s.token.start) e s fun a t =>
        t.previousEnd = s.token.stop ∧ Passage e.source true s₀ t part :=
      h.next (by rw [hkind]; exact hk) fun t ht hended => .pure ⟨hended, ht⟩
    obtain ⟨hended, ht⟩ := hread _ t hexpect
    exact hf t hkind hended ht b u hfb
  · exact absurd hexpect (Holds.unexpected (P := fun _ _ => False) start t)

/-- A punctuator takes its place among the nodes and adds none. -/
theorem punct {k : Punct} {f : Nat → Parse β} (h : Passage e.source taken s₀ s part)
    (hf : ∀ t, Passage e.source true s₀ t part → Holds (f s.token.start) e t R) :
    Holds (expectPunct k >>= f) e s R :=
  h.expect (by rintro ⟨⟩) fun t _ _ => hf t

/-- So does a keyword. -/
theorem word {k : Keyword} {f : Nat → Parse β} (h : Passage e.source taken s₀ s part)
    (hf : ∀ t, Passage e.source true s₀ t part → Holds (f s.token.start) e t R) :
    Holds (expectWord k >>= f) e s R :=
  h.expect (by rintro ⟨⟩) fun t _ _ => hf t

end Passage

namespace Stretch

/-- The same where no scope is opened and no name declared. -/
theorem gather {more : Bool} {found : α → List Node} (h : Stretch e.source taken s₀ s nodes)
    (hp : Gathers p e more found) (hf : ∀ a t, Stretch e.source (taken || more) s₀ t
      (nodes ++ found a) → Holds (f a) e t R) :
    Holds (p >>= f) e s R :=
  .bind (hp s h.ready) fun a t ht => hf a t (h.trans ht)

theorem whole {node : α → Node} (h : Stretch e.source taken s₀ s nodes) (hp : Whole p e node)
    (hf : ∀ a t, Stretch e.source true s₀ t (nodes ++ [node a]) →
      (node a).span = ⟨s.token.start, t.previousEnd⟩ →
      Holds (f a) e t R) : Holds (p >>= f) e s R := by
  exact .bind (hp s h.ready) fun a t ht => hf a t (h.andThen ht.stretch) ht.span

/-- One step or the other, which both read nodes. -/
theorem gatherEither {q : Parse α} {more : Bool} {found : α → List Node} {c : Prop} [Decidable c]
    (h : Stretch e.source taken s₀ s nodes) (hp : Gathers p e more found)
    (hq : Gathers q e more found) (hf : ∀ a t, Stretch e.source (taken || more) s₀ t
      (nodes ++ found a) → Holds (f a) e t R) :
    Holds (if c then p >>= f else q >>= f) e s R :=
  .ite (fun _ => h.gather hp hf) fun _ => h.gather hq hf

/-- A step that may miss, and what follows it then. -/
theorem find {p : Parse (Option α)} {f : Option α → Parse β} {more : Bool} {found : α → List Node}
    (h : Stretch e.source taken s₀ s nodes) (hp : Finds p e more found)
    (hsome : ∀ a t, Stretch e.source (taken || more) s₀ t (nodes ++ found a) →
      Holds (f (some a)) e t R)
    (hnone : ∀ t, Holds (f none) e t R) : Holds (p >>= f) e s R :=
  (hp s h.ready).either (fun a t ht => hsome a t (h.trans ht)) hnone

/-- A rule that passes may be left out of what is said. -/
theorem skip [Passes p] (h : Stretch e.source taken s₀ s nodes)
    (hf : ∀ a t, Stretch e.source taken s₀ t nodes → Holds (f a) e t R) : Holds (p >>= f) e s R :=
  Passage.skip h hf

/-- So may one that is read under a condition, -/
theorem skipIf {p : Parse PUnit} [Passes p] {f : PUnit → Parse β} {c : Prop} [Decidable c]
    (h : Stretch e.source taken s₀ s nodes) (hf : ∀ u t, Stretch e.source taken s₀ t nodes →
      Holds (f u) e t R) :
    Holds (if c then p >>= f else f ⟨⟩) e s R :=
  Passage.skipIf h hf

/-- and one of two that pass. -/
theorem skipEither {q : Parse α} [Passes p] [Passes q] {c : Prop} [Decidable c]
    (h : Stretch e.source taken s₀ s nodes) (hf : ∀ a t, Stretch e.source taken s₀ t nodes →
      Holds (f a) e t R) : Holds (if c then p >>= f else q >>= f) e s R :=
  Passage.skipEither h hf

/-- A token is taken, and what was read so far ends with it. -/
theorem next {f : Unit → Parse β} (h : Stretch e.source taken s₀ s nodes)
    (hkind : s.token.kind ≠ .eof) (hf : ∀ t, Stretch e.source true s₀ t nodes →
      t.previousEnd = s.token.stop → Holds (f ()) e t R) :
    Holds (Parse.next >>= f) e s R :=
  Passage.next h hkind hf

theorem punct {k : Punct} {f : Nat → Parse β} (h : Stretch e.source taken s₀ s nodes)
    (hf : ∀ t, Stretch e.source true s₀ t nodes → Holds (f s.token.start) e t R) :
    Holds (expectPunct k >>= f) e s R :=
  Passage.punct h hf

theorem word {k : Keyword} {f : Nat → Parse β} (h : Stretch e.source taken s₀ s nodes)
    (hf : ∀ t, Stretch e.source true s₀ t nodes → Holds (f s.token.start) e t R) :
    Holds (expectWord k >>= f) e s R :=
  Passage.word h hf

/-- One more of the items that are collected in reverse. -/
theorem more {source : Text} {t : ParseState} {node : α → Node} {items : List α} {a : α}
    (h : Stretch source taken s t (items.reverse.map node ++ [node a])) :
    Stretch source taken s t ((a :: items).reverse.map node) := by
  rw [List.reverse_cons, List.map_append]
  exact h

end Stretch

/-- The token in hand is taken, and is all there is of a node that has its range. -/
theorem ParseState.Ready.take {f : Unit → Parse β} (hs : s.Ready e.source)
    (hkind : s.token.kind ≠ .eof) (hf : ∀ t, t.Ready e.source →
      (∀ n : Node, n.Leaf → n.span = tokenSpan s.token → Extent e.source s t n) →
      Holds (f ()) e t R) : Holds (Parse.next >>= f) e s R := by
  refine (Stretch.start hs).next hkind fun t ht hended => hf t ht.ready fun n hn hspan => ⟨?_, ?_⟩
  · exact ht.leaf hn hspan (Nat.le_refl _) (token_filled hs hkind) (Nat.le_of_eq hended.symm)
  · rw [hspan, hended]
    rfl

end Steps

/-! ## Tokens only -/

namespace Parse.Passes

variable {α β : Type} {p q : Parse α} {f : α → Parse β}

instance (priority := low) looks [hp : Looks p] : Passes p where
  passes e s hs a t heq := by
    rw [hp.same heq]
    exact .start hs

/-- Two rules that pass. -/
theorem andThen [hp : Passes p] (hf : ∀ a, Passes (f a)) : Passes (p >>= f) where
  passes e s hs := by
    refine .bind (hp.passes e s hs) fun a t ht => ?_
    exact ((hf a).passes e t ht.ready).mono fun b u hu => Stretch.pass ht hu

instance bind [Passes p] [hf : ∀ a, Passes (f a)] : Passes (p >>= f) :=
  andThen hf

instance ite {c : Prop} [Decidable c] [Passes p] [Passes q] : Passes (if c then p else q) := by
  split <;> assumption

instance failAt {offset : Nat} {cause : SyntaxFault} :
    Passes (Parse.failAt offset cause : Parse α) :=
  ⟨fun _ _ _ => .failAt⟩

instance fail {cause : SyntaxFault} : Passes (Parse.fail cause : Parse α) :=
  ⟨fun _ _ _ => .fail⟩

instance unexpected : Passes (Parse.unexpected : Parse α) :=
  ⟨fun _ _ _ => .unexpected⟩

instance next : Passes Parse.next :=
  ⟨fun _ _ hs => (next_passage hs).mono fun _ _ ht => ht.1⟩

instance expect {k : Kind} : Passes (Parse.expect k) := by
  unfold Parse.expect
  infer_instance

instance expectPunct {k : Punct} : Passes (Parse.expectPunct k) :=
  expect

/-! ## Rules that read tokens only -/

instance expectContextual {name : String} : Passes (Parse.expectContextual name) := by
  unfold Parse.expectContextual
  infer_instance

instance semicolon : Passes Parse.semicolon := by
  unfold Parse.semicolon
  infer_instance

instance literal {t : Token} : Passes (Parse.literal t) := by
  unfold Parse.literal
  infer_instance

instance unquoted {t : Token} : Passes (Parse.unquoted t) := by
  unfold Parse.unquoted
  infer_instance

instance checkAccessor {kind : PropertyKind} {start : Nat} {params : Params} :
    Passes (Parse.checkAccessor kind start params) := by
  unfold Parse.checkAccessor
  cases kind <;> infer_instance

instance memberModifiers : Passes Parse.memberModifiers := by
  unfold Parse.memberModifiers
  infer_instance

instance propertyModifiers : Passes Parse.propertyModifiers := by
  unfold Parse.propertyModifiers
  infer_instance

instance methodKind {m : Modifiers} {isConstructor : Bool} {keyStart : Nat} :
    Passes (Parse.methodKind m isConstructor keyStart) := by
  unfold Parse.methodKind
  infer_instance

set_option synthInstance.maxSize 512 in
instance declarationKind : Passes Parse.declarationKind := by
  unfold Parse.declarationKind
  infer_instance

instance checkInitializer {kind : DeclKind} {d : Declarator} :
    Passes (Parse.checkInitializer kind d) := by
  unfold Parse.checkInitializer
  split <;> infer_instance

instance checkInitializers {kind : DeclKind} {list : List Declarator} :
    Passes (Parse.checkInitializers kind list) := by
  induction list with
  | nil =>
    show Passes (Pure.pure ())
    infer_instance
  | cons d rest ih => exact andThen fun _ => ih

instance checkHead {start : Nat} {word : LoopWord} {head : Option Node} :
    Passes (Parse.checkHead start word head) := by
  unfold Parse.checkHead
  split
  · split <;> infer_instance
  all_goals infer_instance

instance checkPlain {list : List (ExportSpecifier × Bool)} : Passes (Parse.checkPlain list) := by
  induction list with
  | nil =>
    show Passes (Pure.pure ())
    infer_instance
  | cons x rest ih =>
    unfold Parse.checkPlain
    infer_instance

end Parse.Passes

/-! ## Repetition -/

namespace Parse

variable {α : Type} {e : Surroundings} {p : Parse α} {node : α → Node} {taken : Bool}

/-- Items lie one behind the other, by induction on the turns. -/
theorem Gathers.itemsUntil {stop : Kind → Bool} (h : Gathers p e taken fun a => [node a]) :
    Gathers (Parse.itemsUntil stop p) e false fun items => items.map node := by
  intro s hs
  refine Holds.repeating (fun items t => Stretch e.source false s t (items.reverse.map node))
    (.start hs)
    fun items t ht => ?_
  refine .look fun k => .ite (fun _ => .pure ht) fun _ => ?_
  exact ht.gather h.weaken fun a u hu => .pure hu.more

/-- Items with commas between them. -/
theorem Gathers.commaList {close : Punct} (h : Gathers p e taken fun a => [node a]) :
    Gathers (Parse.commaList close p) e false fun items => items.map node := by
  intro s hs
  refine Holds.repeating (fun items t => Stretch e.source false s t (items.reverse.map node))
    (.start hs)
    fun items t ht => ?_
  refine .look fun close => .ite (fun _ => .pure ht) fun _ => ?_
  refine ht.gather h.weaken fun a u hu => .look fun close =>
    .ite (fun _ => .pure hu.more) fun _ => ?_
  exact hu.skip fun _ v hv => .pure hv.more

/-- The token is taken and leaves no node, so what is gathered is the part behind it, or nothing
where that token does not stand. -/
theorem Gathers.behind {sign : Parse Bool} [Looks sign] (h : Whole p e node) :
    Gathers (Parse.behind sign p) e false (Node.maybe node) := by
  intro s hs
  refine .look fun _ => .ite (fun _ => ?_) fun _ => .pure (.start hs)
  exact (Stretch.start hs).skip fun _ t ht => ht.whole h fun a u hu _ => .pure hu.weaken

end Parse

end EcmaStack
