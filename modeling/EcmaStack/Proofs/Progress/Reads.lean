import EcmaStack.Proofs.Grammar.Keeps
import EcmaStack.Proofs.Grammar.Looks
import EcmaStack.Proofs.Token.Reading

/-!
# Reading gets ahead

Between two tokens only so many goals can nest, because each goal asks for others of a lower
**rank** until it takes a token in hand; and each turn of a repetition takes one. So the fuel of
the rules never runs out. The same induction shows that nothing else breaks: tokens are ranges
of the source, and a scope that is closed is the one that was opened last.

`Reads p e s k` says of the rule `p`, read from the state `s`, that it is no breakdown and that
it takes at least `k a` tokens if it answers `a`. What it needs of `s` is that the token in hand
stands in the source and a scope is open (`Placed`), and that whoever answers goals does so from
`s` on, up to a rank (`Rules.Serve`). Once a token has been taken every goal is served, whatever
its rank. `Advances` says the same of every state that is served so, and rules are put together
by its instances.
-/

namespace EcmaStack

/-! ## Places and ranks -/

/-- The token in hand stands in the source, the cursor after it, and a scope is open. -/
structure ParseState.Placed (source : Text) (s : ParseState) : Prop where
  stands : ∃ place, (Cursor.ofText source).Reaches place ∧ s.token.StandsAt place s.cursor
  opened : s.scopes ≠ []

/-- How many pieces are left, from the token in hand on. -/
def ParseState.left (source : Text) (s : ParseState) : Nat :=
  (Text.dropBytes s.token.start source).length

/-- A token is a range of the source, and a string has its quotes. -/
class Token.InSource (source : Text) (t : Token) : Prop where
  start_le : t.start ≤ t.stop
  stop_le : t.stop ≤ source.width
  quoted : t.kind = .string → t.start + 2 ≤ t.stop

/-- A goal asks for goals of a lower rank before it takes the token in hand. -/
def Goal.rank {α : Type} : Goal α → Nat
  | .construct => 0
  | .leftHandSide => 1
  | .target _ => 2
  | .unary => 2
  | .binary _ => 3
  | .assignment => 4
  | .expression => 5
  | .statement => 6
  | .item => 6

/-- A rank above that of every goal. -/
abbrev Goal.top : Nat := 7

/-- Every goal lies below the top, at which none has been asked for yet. -/
theorem Goal.rank_lt_top {α : Type} (g : Goal α) : g.rank < Goal.top := by
  cases g <;> simp only [Goal.rank, Goal.top, Nat.reduceLT]

namespace Parse

/-! ## How many tokens are taken -/

section

variable {α : Type}

/-- None, as far as is known. -/
def free (_ : α) : Nat := 0

/-- One at least. -/
def taking (_ : α) : Nat := 1

/-- One at least, unless the rule misses. -/
def hits : Option α → Nat
  | some _ => 1
  | none => 0

/-- One at least, if another turn follows. -/
def Turn.taken {σ : Type} : Turn σ α → Nat
  | .again _ => 1
  | .done _ => 0

/-- A count that taking one token is enough for. -/
class Light (k : α → Nat) : Prop where
  le_one : ∀ a, k a ≤ 1

instance : Light (free : α → Nat) :=
  ⟨fun _ => Nat.zero_le 1⟩

instance : Light (taking : α → Nat) :=
  ⟨fun _ => Nat.le_refl 1⟩

instance : Light (hits : Option α → Nat) :=
  ⟨fun o => by cases o <;> simp only [hits, Nat.le_refl, Nat.zero_le]⟩

instance {k : α → Nat} {n : Nat} [h : Light k] : Light fun a => k a - n :=
  ⟨fun a => Nat.le_trans (Nat.sub_le _ _) (h.le_one a)⟩

instance {σ : Type} : Light (Turn.taken : Turn σ α → Nat) :=
  ⟨fun turn => by cases turn <;> simp only [Turn.taken, Nat.le_refl, Nat.zero_le]⟩

end

/-- The second state is after the first, by so many tokens at least. -/
structure Ahead (source : Text) (n : Nat) (s t : ParseState) : Prop where
  placed : t.Placed source
  depth : t.scopes.length = s.scopes.length
  left : t.left source + n ≤ s.left source

/-- The rule breaks nothing, and takes so many tokens at least. -/
def Reads {α : Type} (p : Parse α) (e : Surroundings) (s : ParseState) (k : α → Nat) : Prop :=
  match p e s with
  | .ok (a, t) => Ahead e.source (k a) s t
  | .error fault => fault.cause.isInternal = false

end Parse

/-- How many tokens a goal takes at least. -/
def Goal.taken {α : Type} : Goal α → α → Nat
  | .target _ => Parse.hits
  | _ => Parse.taking

open Parse

/-- Whoever answers goals answers those below a rank from the state on, and any from further on. -/
structure Rules.Serve (r : Rules) (source : Text) (rank : Nat) (s : ParseState) : Prop where
  placed : s.Placed source
  read : ∀ {α : Type} (g : Goal α) (e : Surroundings) (t : ParseState), e.source = source →
    t.Placed source →
    (t.left source < s.left source ∨ t.left source ≤ s.left source ∧ g.rank < rank) →
      Reads (r.read g) e t g.taken

/-- From wherever the goals below a rank are answered, the rule breaks nothing and takes so many
tokens at least. -/
class Advances (r : Rules) (source : Text) (rank : Nat) {α : Type} (k : α → Nat) (p : Parse α) :
    Prop where
  reads : ∀ e s, e.source = source → r.Serve source rank s → Reads p e s k

section

variable {r : Rules} {rank m n : Nat} {s t u : ParseState} {source : Text}

/-! ## States -/

namespace Parse.Ahead

/-- Nothing was taken. -/
theorem refl (h : s.Placed source) : Ahead source 0 s s :=
  ⟨h, rfl, Nat.le_refl _⟩

/-- What two rules take adds up. -/
theorem trans (h : Ahead source m s t) (k : Ahead source n t u) : Ahead source (m + n) s u := by
  refine ⟨k.placed, k.depth.trans h.depth, ?_⟩
  have := h.left
  have := k.left
  omega

/-- At least as much was taken as is claimed. -/
theorem weaken (h : Ahead source n s t) (hle : m ≤ n) : Ahead source m s t := by
  refine ⟨h.placed, h.depth, ?_⟩
  have := h.left
  omega

end Parse.Ahead

namespace ParseState.Placed

/-- The token at which the parser stands was read from the source. -/
theorem inSource (h : s.Placed source) : s.token.InSource source := by
  obtain ⟨⟨place, hplace, hstands⟩, _⟩ := h
  refine ⟨?_, ?_, fun hkind => ?_⟩
  · rw [hstands.start, hstands.stop]
    obtain ⟨read, _, hoffset⟩ := hstands.reaches
    rw [hoffset]
    exact Nat.le_add_right _ _
  · rw [hstands.stop]
    exact offset_le (hplace.trans hstands.reaches)
  · have hwide := hstands.wide
    rw [hkind] at hwide
    exact hwide

/-- There are no more tokens left than there are pieces in the source. -/
theorem left_le (h : s.Placed source) : s.left source ≤ source.length := by
  obtain ⟨⟨place, hplace, hstands⟩, _⟩ := h
  rw [ParseState.left, hstands.start, dropBytes_offset hplace]
  exact hplace.length_le

/-- The open scopes are another matter. -/
theorem reopened (h : s.Placed source) {scopes : List Scope} (hopened : scopes ≠ []) :
    { s with scopes }.Placed source :=
  ⟨h.stands, hopened⟩

/-- So is a scope that is opened. -/
theorem entered (h : s.Placed source) {scope : Scope} : (s.enter scope).Placed source :=
  ⟨h.stands, List.cons_ne_nil _ _⟩

end ParseState.Placed

namespace Rules.Serve

/-- Rules that serve at a rank serve at all ranks below it. -/
theorem mono (hs : r.Serve source n s) (hle : m ≤ n) : r.Serve source m s :=
  ⟨hs.placed, fun g e t hsource ht hleft => hs.read g e t hsource ht
    (hleft.imp_right fun h => ⟨h.1, by omega⟩)⟩

/-- Goals are served further on. -/
theorem onward (hs : r.Serve source rank s) (h : Ahead source n s t) : r.Serve source rank t := by
  refine ⟨h.placed, fun g e u hsource hu hleft => hs.read g e u hsource hu ?_⟩
  have := h.left
  omega

/-- Once a token has been taken, all goals are served. -/
theorem all (hs : r.Serve source rank s) (h : Ahead source 1 s t) : r.Serve source Goal.top t := by
  refine ⟨h.placed, fun g e u hsource hu hleft => hs.read g e u hsource hu ?_⟩
  have := h.left
  omega

/-- Scopes are no matter to goals. -/
theorem entered (hs : r.Serve source rank s) {scope : Scope} :
    r.Serve source rank (s.enter scope) :=
  ⟨hs.placed.entered, hs.read⟩

end Rules.Serve

end

namespace Parse

variable {α β σ : Type} {r : Rules} {rank : Nat} {p q : Parse α} {f : α → Parse β}
    {e : Surroundings} {s t : ParseState}
  {source : Text}

/-! ## Reading from a state -/

/-- The next token is malformed, or it stands at a place that is reached from the cursor. -/
theorem next_cases (hcursor : (Cursor.ofText source).Reaches s.cursor) :
    (∃ fault, Parse.next e s = .error fault ∧ fault.cause.isInternal = false) ∨
    ∃ t, Parse.next e s = .ok ((), t) ∧ t.scopes = s.scopes ∧
      ∃ place, s.cursor.Reaches place ∧ (Cursor.ofText source).Reaches place ∧
      t.token.StandsAt place t.cursor := by
  have hread : Parse.next e s =
      hold (scanToken s.cursor).1 (scanToken s.cursor).2 s.token.stop e s := rfl
  rw [hread]
  unfold hold
  cases hfault : (scanToken s.cursor).1.fault with
  | some fault => exact .inl ⟨_, rfl, rfl⟩
  | none =>
    obtain ⟨place, hreaches, hstands⟩ := scanToken_stands hfault
    exact .inr ⟨_, rfl, rfl, place, hreaches, hcursor.trans hreaches, hstands⟩

namespace Reads

/-- A rule that answers has kept its place in the source. -/
theorem ok {k : α → Nat} {a : α} (h : p e s = .ok (a, t)) (hahead : Ahead e.source (k a) s t) :
    Reads p e s k := by
  rw [Reads, h]
  exact hahead

/-- A rule that fails has found a fault of the source and none of its own. -/
theorem error {k : α → Nat} {fault : ParseFault} (h : p e s = .error fault)
    (hcause : fault.cause.isInternal = false) :
    Reads p e s k := by
  rw [Reads, h]
  exact hcause

/-- What a rule that was read has done. -/
theorem ahead {k : α → Nat} {a : α} (hp : Reads p e s k) (h : p e s = .ok (a, t)) :
    Ahead e.source (k a) s t := by
  rw [Reads, h] at hp
  exact hp

/-- A claim of fewer tokens taken. -/
theorem weaken {j k : α → Nat} (hp : Reads p e s j) (hle : ∀ a, k a ≤ j a) : Reads p e s k := by
  unfold Reads at hp ⊢
  split at hp
  · next a t heq => exact hp.weaken (hle a)
  · exact hp

/-- One rule after another. -/
theorem andThen {j : α → Nat} {k : β → Nat} (hp : Reads p e s j)
    (hf : ∀ a t, p e s = .ok (a, t) → Ahead e.source (j a) s t →
      Reads (f a) e t fun b => k b - j a) :
    Reads (p >>= f) e s k := by
  change Reads (Parse.andThen p f) e s k
  unfold Reads Parse.andThen
  cases heq : p e s with
  | error fault =>
    rw [Reads, heq] at hp
    exact hp
  | ok x =>
    obtain ⟨a, t⟩ := x
    have hahead := hp.ahead heq
    have hrest := hf a t heq hahead
    dsimp only
    unfold Reads at hrest
    split at hrest
    · exact (hahead.trans hrest).weaken (by dsimp only; omega)
    · exact hrest

/-- After a rule that only looks. -/
theorem look {k : β → Nat} {a : α} (h : p e s = .ok (a, s)) (hf : Reads (f a) e s k) :
    Reads (p >>= f) e s k := by
  change Reads (Parse.andThen p f) e s k
  unfold Reads Parse.andThen
  rw [h]
  exact hf

/-- The token in hand is taken, or the next one is malformed. -/
theorem next (hs : s.Placed e.source) :
    Reads Parse.next e s fun _ => if s.token.kind = .eof then 0 else 1 := by
  obtain ⟨place, hplace, hstands⟩ := hs.stands
  rcases next_cases (e := e) (hplace.trans hstands.reaches) with ⟨fault, hnext, hcause⟩ | ⟨t, hnext,
    hscopes, hread⟩
  · exact error hnext hcause
  · obtain ⟨place', hreaches, hplace', hstands'⟩ := hread
    refine ok hnext ⟨⟨⟨place', hplace', hstands'⟩, hscopes ▸ hs.opened⟩, by rw [hscopes], ?_⟩
    unfold ParseState.left
    simp only [hstands.start, hstands'.start, dropBytes_offset hplace, dropBytes_offset hplace']
    have hle := hreaches.length_le
    split
    · exact Nat.le_trans hle hstands.reaches.length_le
    · next hkind => exact Nat.lt_of_le_of_lt hle (hstands.ahead hkind).shorter

/-- Taking a token moves on, but not at the end. -/
theorem next_taking (hs : s.Placed e.source) (hkind : s.token.kind ≠ .eof) :
    Reads Parse.next e s taking :=
  (next hs).weaken fun _ => by rw [if_neg hkind]; exact Nat.le_refl 1

/-- The token in hand is taken, and what follows may ask for any goal. -/
theorem take {f : Unit → Parse β} {k : β → Nat} [hk : Light k] (hs : r.Serve e.source rank s)
    (hkind : s.token.kind ≠ .eof) (hf : Advances r e.source Goal.top free (f ())) :
    Reads (Parse.next >>= f) e s k := by
  refine andThen (next_taking hs.placed hkind) fun _ t _ hahead => ?_
  exact (hf.reads e t rfl (hs.all hahead)).weaken fun b =>
    Nat.sub_eq_zero_of_le (hk.le_one b) ▸ Nat.le_refl 0

/-- A token whose kind was seen is taken, and behind it any goal may be asked for. -/
theorem takeAt {kind : Kind} {f : Unit → Parse β} {k : β → Nat} [Light k]
    (hs : r.Serve e.source rank s) (hkind : s.token.kind = kind) (hne : kind ≠ .eof)
    (hf : Advances r e.source Goal.top free (f ())) :
    Reads (Parse.next >>= f) e s k :=
  take hs (hkind ▸ hne) hf

/-- A token that is read again stands where it stood, and nothing has been taken. -/
theorem rescan {reader : Cursor → Reading} (hreader : ∀ c x, reader c = some x → c.Gives x)
    (hs : s.Placed e.source) {again : Token} {c : Cursor}
    (heq : EcmaStack.rescan reader e.source s.token = (again, c)) :
    Reads (hold again c s.previousEnd) e s free := by
  obtain ⟨place, hplace, hstands⟩ := hs.stands
  have hagain := rescan_stands hreader hplace hstands
  rw [heq] at hagain
  unfold Reads hold
  cases hfault : again.fault with
  | some fault => rfl
  | none =>
    refine ⟨⟨⟨place, hplace, hagain hfault⟩, hs.opened⟩, rfl, ?_⟩
    have hstart : again.start = s.token.start := (hagain hfault).start.trans hstands.start.symm
    unfold ParseState.left
    rw [hstart]
    exact Nat.le_refl _

/-- An answer takes nothing. -/
theorem pure {k : α → Nat} {a : α} (hs : s.Placed e.source) (ha : k a = 0) :
    Reads (Pure.pure a) e s k := by
  refine ok rfl ?_
  rw [ha]
  exact .refl hs

/-- Every turn but the last takes a token, so there are not more turns than the fuel allows. -/
theorem repeating {init : σ} {step : σ → Parse (Turn σ β)} {j : Turn σ β → Nat} {k : β → Nat}
    (hs : s.Placed e.source) (hfirst : Reads (step init) e s j)
    (hlater : ∀ t x, Ahead e.source 1 s t → Reads (step x) e t j) (hagain : ∀ x, 1 ≤ j (.again x))
    (hdone : ∀ b, k b ≤ j (.done b)) : Reads (Parse.repeating init step) e s k := by
  have hfrom (fuel : Nat) : ∀ (x : σ) (u : ParseState), Ahead e.source 0 s u → u.left e.source <
      fuel →
      Reads (step x) e u j → Reads (repeatFrom step fuel x) e u k := by
    induction fuel with
    | zero => exact fun _ _ _ hleft => absurd hleft (Nat.not_lt_zero _)
    | succ fuel ih =>
      intro x u hu hleft hx
      refine andThen hx fun turn t _ hahead => ?_
      cases turn with
      | again y =>
        have hone := hahead.weaken (hagain y)
        have ht := (hu.trans hone).weaken (Nat.le_add_left 1 0)
        refine (ih y t (ht.weaken (Nat.zero_le 1)) ?_ (hlater t y ht)).weaken fun b =>
          Nat.sub_le _ _
        have := hone.left
        omega
      | done b => exact pure hahead.placed (Nat.sub_eq_zero_of_le (hdone b))
  refine look rfl (hfrom _ init s (.refl hs) ?_ hfirst)
  have := hs.left_le
  omega

end Reads

end Parse

end EcmaStack
