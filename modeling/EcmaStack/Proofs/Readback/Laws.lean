import EcmaStack.Proofs.Grammar.Looks
import EcmaStack.Proofs.Readback.Formula

/-!
# Reading lexemes

`At source ls s` says that the parser `s` stands before the lexemes `ls`: the first is the token
in hand, and the others are what scanning goes on to read. `Gives p e s Q` says what the rule
`p` answers there and where it stops, unless the reader itself breaks down, of which it is known
that it never happens in a whole source.
-/

namespace EcmaStack

/-! ## Lexemes in a source -/

/-- A token is written as the lexeme says, on the line of the token before it. -/
structure Lexeme.Matches (source : Text) (l : Lexeme) (t : Token) : Prop where
  kind : t.kind = l.kind
  newline : t.newline = false
  escaped : t.escaped = false
  fault : t.fault = none
  written : (source.slice t.start t.stop).toString = l.text
  name : l.kind = .identifier → t.name = l.text

/-- Scanning from the cursor on reads the lexemes, and then the end of the source. -/
def Spells (source : Text) : List Lexeme → Cursor → Prop
  | [], c => (scanToken c).1.kind = .eof ∧ (scanToken c).1.fault = none
  | l :: ls, c => l.Matches source (scanToken c).1 ∧ Spells source ls (scanToken c).2

/-- The parser stands before the lexemes, none of which is an arrow. -/
structure ParseState.At (source : Text) (ls : List Lexeme) (s : ParseState) : Prop where
  spelled : ∃ c, scanToken c = (s.token, s.cursor) ∧ Spells source ls c
  plain : ∀ l ∈ ls, l.kind ≠ .punct .arrow

namespace ParseState.At

variable {source : Text} {l : Lexeme} {ls : List Lexeme} {s t : ParseState}

/-- Standing at lexemes is a matter of the token in hand and the cursor. -/
theorem congr (h : s.At source ls) (htoken : t.token = s.token) (hcursor : t.cursor = s.cursor) :
    t.At source ls :=
  ⟨htoken ▸ hcursor ▸ h.spelled, h.plain⟩

/-- The token at hand is the first of the lexemes, -/
theorem token (h : s.At source (l :: ls)) : l.Matches source s.token := by
  obtain ⟨c, hscan, hmatches, -⟩ := h.spelled
  rwa [hscan] at hmatches

/-- has its kind, or the kind of the end where there is none, -/
theorem kind (h : s.At source ls) : s.token.kind = firstKind ls := by
  obtain ⟨c, hscan, hspells⟩ := h.spelled
  cases ls with
  | nil =>
    rw [Spells, hscan] at hspells
    exact hspells.1
  | cons l ls => exact h.token.kind

/-- and the others lie ahead of the scanner. -/
theorem ahead (h : s.At source (l :: ls)) : Spells source ls s.cursor := by
  obtain ⟨c, hscan, -, hspells⟩ := h.spelled
  rwa [hscan] at hspells

end ParseState.At

/-- The token that comes first is well formed, and of the kind of the first lexeme. -/
theorem Spells.scan {source : Text} {ls : List Lexeme} {c : Cursor} (h : Spells source ls c) :
    (scanToken c).1.kind = firstKind ls ∧ (scanToken c).1.fault = none := by
  cases ls with
  | nil => exact h
  | cons l ls => exact ⟨h.1.kind, h.1.fault⟩

namespace ParseState.At

variable {source : Text} {l : Lexeme} {ls : List Lexeme} {s : ParseState}

/-- The kind of the token after the one in hand. -/
theorem kind_ahead (h : s.At source (l :: ls)) : (scanToken s.cursor).1.kind = firstKind ls :=
  h.ahead.scan.1

/-- Lexemes without an arrow never start with one, -/
theorem firstKind_ne_arrow (h : ∀ l ∈ ls, l.kind ≠ .punct .arrow) :
    firstKind ls ≠ .punct .arrow := by
  cases ls with
  | nil => exact nofun
  | cons l ls => exact h l List.mem_cons_self

theorem no_arrow (h : s.At source ls) : s.token.kind ≠ .punct .arrow :=
  h.kind.trans_ne (firstKind_ne_arrow h.plain)

/-- nor does the token after this one, which is what the attempt at an arrow function
looks at. -/
theorem no_arrow_ahead (h : s.At source (l :: ls)) : (scanToken s.cursor).1.kind ≠ .punct .arrow :=
  h.kind_ahead.trans_ne (firstKind_ne_arrow fun m hm => h.plain m (List.mem_cons_of_mem l hm))

end ParseState.At

/-! ## What rules give -/

namespace Parse

variable {α β σ : Type} {p q : Parse α} {f : α → Parse β} {e : Surroundings} {s : ParseState}
  {Q Q' : α → ParseState → Prop} {R : β → ParseState → Prop}

/-- The rule answers as said, unless the reader breaks down. -/
def Gives (p : Parse α) (e : Surroundings) (s : ParseState) (Q : α → ParseState → Prop) : Prop :=
  match p e s with
  | .ok (a, t) => Q a t
  | .error fault => fault.cause.isInternal = true

namespace Gives

/-- The laws of a reader: what it gives when it only answers, -/
theorem pure {a : α} (h : Q a s) : Gives (Pure.pure a) e s Q :=
  h

/-- what a weaker condition on the answer needs, -/
theorem mono (h : Gives p e s Q) (hQ : ∀ a t, Q a t → Q' a t) : Gives p e s Q' := by
  unfold Gives at *
  split at h
  · exact hQ _ _ h
  · exact h

/-- and what it gives when one reader follows another. -/
theorem bind (hp : Gives p e s Q) (hf : ∀ a t, Q a t → Gives (f a) e t R) :
    Gives (p >>= f) e s R := by
  unfold Gives at hp
  show match andThen p f e
    s with | .ok (b, t) => R b t | .error fault => fault.cause.isInternal = true
  unfold andThen
  cases hread : p e s with
  | error fault =>
    rw [hread] at hp
    exact hp
  | ok x =>
    obtain ⟨a, t⟩ := x
    rw [hread] at hp
    exact hf a t hp

/-- A step whose answer is at hand, and which changes nothing. -/
theorem known {a : α} (h : p e s = .ok (a, s)) (hf : Gives (f a) e s R) :
    Gives (p >>= f) e s R := by
  refine bind (Q := fun b t => b = a ∧ t = s) ?_ ?_
  · rw [Gives, h]
    exact ⟨rfl, rfl⟩
  · rintro _ _ ⟨rfl, rfl⟩
    exact hf

/-- A step that only looks. -/
theorem look [hp : Looks p] (hf : ∀ a, Gives (f a) e s R) : Gives (p >>= f) e s R := by
  obtain ⟨a, ha⟩ := hp.looks e s
  exact known ha (hf a)

theorem pos {c : Prop} [Decidable c] (h : c) (hp : Gives p e s Q) :
    Gives (if c then p else q) e s Q := by
  rwa [if_pos h]

theorem neg {c : Prop} [Decidable c] (h : ¬c) (hq : Gives q e s Q) :
    Gives (if c then p else q) e s Q := by
  rwa [if_neg h]

/-- A reader that breaks down gives nothing that could be wrong: breakdowns are excluded
elsewhere. -/
theorem internalAt {offset : Nat} {cause : Breakdown} :
    Gives (failAt offset (.breakdown cause) : Parse α) e s Q :=
  rfl

theorem internal {cause : Breakdown} : Gives (fail (.breakdown cause) : Parse α) e s Q :=
  rfl

/-- A question about the kind at hand is answered by the first lexeme. -/
theorem asks {k : Kind} {f : Bool → Parse β} (hkind : s.token.kind = k)
    (hf : Gives (f true) e s R) :
    Gives (isAt k >>= f) e s R := by
  refine known (a := true) ?_ hf
  rw [← beq_iff_eq.mpr hkind]
  rfl

theorem denies {k : Kind} {f : Bool → Parse β} (hkind : s.token.kind ≠ k)
    (hf : Gives (f false) e s R) :
    Gives (isAt k >>= f) e s R := by
  refine known (a := false) ?_ hf
  rw [← beq_eq_false_iff_ne.mpr hkind]
  rfl

/-- A rule in a changed region is read in other surroundings. -/
theorem within {change : Region → Region} (h : Gives p { e with region := change e.region } s Q) :
    Gives (Parse.within change p) e s Q :=
  h

/-- On a miss an attempt goes back. -/
theorem attempt {p : Parse (Option α)} {Q : Option α → ParseState → Prop}
    (h : Gives p e s fun o t => (o = none → Q none (goBack s t)) ∧ ∀ a, o = some a → Q (some a) t) :
    Gives (Parse.attempt p) e s Q := by
  unfold Gives at h
  unfold Gives Parse.attempt
  cases hread : p e s with
  | error fault =>
    rw [hread] at h
    exact h
  | ok x =>
    obtain ⟨o, t⟩ := x
    rw [hread] at h
    cases o with
    | none => exact h.1 rfl
    | some a => exact h.2 a rfl

/-- In a scope on trial, a rule misses as it does without. -/
theorem misses_inTrialScope {p : Parse (Option α)} {scope : Scope}
    (h : Gives p e (s.enter scope) fun o _ => o = none) :
    Gives (inTrialScope scope p) e s fun o _ => o = none := by
  refine known rfl (bind (Q := fun _ t => t = s.enter scope) rfl ?_)
  rintro _ _ rfl
  refine bind h ?_
  rintro _ t rfl
  exact bind (Q := fun _ _ => True) trivial fun _ _ _ => pure rfl

/-- A scope that is read to its end. -/
theorem inScope {p : Parse α} {scope : Scope} {Q : α × Option Scope → ParseState → Prop}
    (h : Gives p e (s.enter scope) fun a _ => ∀ closed t, Q (a, closed) t) :
    Gives (inScope scope p) e s Q := by
  refine known rfl (bind (Q := fun _ t => t = s.enter scope) rfl ?_)
  rintro _ _ rfl
  refine bind h fun a t ha => bind (Q := fun _ _ => True) (known rfl ?_) fun closed u _ =>
    pure (ha closed u)
  split
  · exact bind (Q := fun _ _ => True) trivial fun _ _ _ => pure trivial
  · exact internal

/-- A repetition, however often it may still go on: after each step either it goes on as said,
or it is done. -/
theorem turns {step : σ → Parse (Turn σ β)} {a : σ}
    (h : Gives (step a) e s fun turn t => match turn with
      | .again b => ∀ fuel, Gives (repeatFrom step fuel b) e t R
      | .done b => R b t) (fuel : Nat) : Gives (repeatFrom step fuel a) e s R := by
  cases fuel with
  | zero => exact internal
  | succ fuel =>
    refine bind h fun turn t ht => ?_
    cases turn with
    | again b => exact ht fuel
    | done b => exact ht

/-- A loop may be taken as its turns with any fuel. -/
theorem repeating {step : σ → Parse (Turn σ β)} {a : σ}
    (h : ∀ fuel, Gives (repeatFrom step fuel a) e s R) :
    Gives (Parse.repeating a step) e s R :=
  known rfl (h _)

/-- A repetition with something that holds before each step. -/
theorem keeping {step : σ → Parse (Turn σ β)} {a : σ} (I : σ → ParseState → Prop) (hI : I a s)
    (hstep : ∀ b t, I b t → Gives (step b) e t fun turn u => match turn with
      | .again c => I c u
      | .done d => R d u) : Gives (Parse.repeating a step) e s R := by
  refine repeating fun fuel => ?_
  induction fuel generalizing a s with
  | zero => exact internal
  | succ fuel ih =>
    refine bind (hstep a s hI) fun turn u hu => ?_
    cases turn with
    | again c => exact ih hu
    | done d => exact hu

/-! ## Tokens -/

variable {l : Lexeme} {ls : List Lexeme}

/-- What scanning goes on to read comes in hand. -/
theorem next_spelled (hspells : Spells e.source ls s.cursor)
    (hplain : ∀ l ∈ ls, l.kind ≠ .punct .arrow) :
    Gives Parse.next e s fun _ t => t.At e.source ls := by
  have hfault := hspells.scan.2
  rcases hscan : scanToken s.cursor with ⟨t, c⟩
  have hread : Parse.next e s = hold t c s.token.stop e s := by
    show hold (scanToken s.cursor).1 (scanToken s.cursor).2 s.token.stop e s = _
    rw [hscan]
  rw [hscan] at hfault
  rw [Gives, hread, hold, show t.fault = none from hfault]
  exact ⟨⟨s.cursor, hscan, hspells⟩, hplain⟩

/-- The first lexeme is read. -/
theorem next (hs : s.At e.source (l :: ls)) : Gives Parse.next e s fun _ t => t.At e.source ls :=
  next_spelled hs.ahead fun m hm => hs.plain m (List.mem_cons_of_mem l hm)

/-- The first lexeme is read where it is expected. -/
theorem expect {k : Kind} (hs : s.At e.source (l :: ls)) (hkind : l.kind = k) :
    Gives (Parse.expect k) e s fun _ t => t.At e.source ls := by
  refine known rfl (pos (beq_iff_eq.mpr (hs.kind.trans hkind)) (bind (next hs) fun _ t ht => ?_))
  exact pure ht

end Gives

end Parse

end EcmaStack
