import EcmaStack.Proofs.Token.Reading

/-!
# Decoding the escapes of a text

A reader of an escape looks at what follows: for more digits, for a brace, for a second escape
that makes a pair with the first. Where the text behind an escape starts with a delimiter or a
line end (`Quiet`), there is nothing to find, and the reader answers in the longer source what
it answers in the shorter (`readEscape_within`).

So the escapes of a text can be decoded with nothing around it (`unescape?`), and that is what a
literal stands for that has the text between its delimiters (`readString_text`).
-/

namespace EcmaStack

open Text

/-- The text starts with the end of a literal, with a line end, or not at all. -/
def Quiet (s : Text) : Prop :=
  ∀ p ∈ s.head?, p ∈
    [Piece.char '\x22', .char '\x27', .char '\x60', .char '$', .char '\r', .char '\n']

variable {c d : Cursor} {p : Piece} {s s' e r rest text value : Text} {k n v offset : Nat}

/-- Nothing behind an escape changes nothing. -/
theorem Quiet.nil : Quiet [] :=
  nofun

/-- No escape goes on with what a quiet text starts with. -/
theorem Quiet.head (h : Quiet (p :: s)) :
    digitValue? p.scalar = none ∧ isDecimalDigit p.scalar = false ∧
    p ≠ .char '\\' ∧ p ≠ .char 'u' ∧ p ≠ .char '\x7b' ∧ p ≠ .char '\x7d' := by
  have hp := h p rfl
  simp only [List.mem_cons, List.not_mem_nil, or_false] at hp
  rcases hp with rfl | rfl | rfl | rfl | rfl | rfl <;> decide

namespace Cursor

/-- The cursor in a longer source: `k` bytes more were read, and `s` stands behind what is left. -/
def within (k : Nat) (s : Text) (c : Cursor) : Cursor :=
  ⟨c.rest ++ s, c.offset + k⟩

/-- What is answered at a cursor in a longer source. -/
def answerWithin {α : Type} (k : Nat) (s : Text) :
    Except Cursor (α × Cursor) → Except Cursor (α × Cursor)
  | .ok (x, d) => .ok (x, d.within k s)
  | .error d => .error (d.within k s)

/-- A reading that goes on from what an earlier one answered. -/
theorem within_mk : (⟨rest ++ s, offset + k + n⟩ : Cursor) = within k s ⟨rest, offset + n⟩ := by
  rw [within, Nat.add_right_comm]

/-- The readers of an escape answer the same with a quiet text behind what they read, part
by part. -/
theorem hexDigit?_within (hs : Quiet s) :
    (c.within k s).hexDigit? = c.hexDigit?.map (Prod.map id (within k s)) := by
  obtain ⟨rest, offset⟩ := c
  cases rest with
  | nil =>
    cases s with
    | nil => rfl
    | cons p s => simp [hexDigit?, within, hs.head.1]
  | cons p rest => simp [hexDigit?, within, Function.comp_def, Nat.add_right_comm]

theorem hexRun_within (hs : Quiet s) :
    hexRun n v (c.within k s) = answerWithin k s (hexRun n v c) := by
  induction n generalizing v c with
  | zero => rfl
  | succ n ih =>
    rw [hexRun, hexRun, hexDigit?_within hs]
    cases c.hexDigit? with
    | none => rfl
    | some x => exact ih

theorem take?_within {x : Char} (hs : s.head? ≠ some (.char x)) :
    (c.within k s).take? x = (c.take? x).map (within k s) := by
  obtain ⟨rest, offset⟩ := c
  cases rest with
  | nil =>
    rcases s with _ | ⟨_ | _, s⟩
    · rfl
    · next y =>
      have hy : y ≠ x := fun h => hs (h ▸ rfl)
      simp [take?, within, hy]
    · rfl
  | cons p rest =>
    cases p with
    | char y =>
      by_cases hy : y = x
      · simp [take?, within, hy, Nat.add_right_comm]
      · simp [take?, within, hy]
    | stray b => rfl

theorem at?_within {test : Char → Bool} (hs : ∀ p ∈ s.head?, test p.scalar = false) :
    (c.within k s).at? test = c.at? test := by
  obtain ⟨rest, offset⟩ := c
  cases rest with
  | nil =>
    cases s with
    | nil => rfl
    | cons p s => exact hs p rfl
  | cons p rest => rfl

end Cursor

open Cursor

theorem bracedCode_within (hs : Quiet s) :
    bracedCode v (text ++ s) (offset + k) = answerWithin k s (bracedCode v text offset) := by
  induction text generalizing v offset with
  | nil =>
    cases s with
    | nil => rfl
    | cons p s =>
      have hbrace : (p == .char '\x7d') = false := by simpa using hs.head.2.2.2.2.2
      simp [bracedCode, hs.head.1, hbrace, answerWithin, within]
  | cons p rest ih =>
    rw [List.cons_append, bracedCode, bracedCode]
    split
    · split
      · rw [within_mk]
        rfl
      · rw [Nat.add_right_comm]
        exact ih
    · split
      · rw [within_mk]
        rfl
      · rfl

/-- A quiet text adds no low surrogate escape where there is none. -/
theorem lowSurrogate?_within (hs : Quiet s) :
    (c.within k s).lowSurrogate? = c.lowSurrogate?.map (Prod.map id (within k s)) := by
  obtain ⟨rest, offset⟩ := c
  -- A second escape takes two pieces to start, and a quiet text has none that could complete it.
  match rest with
  | [] =>
    cases s with
    | nil => rfl
    | cons p s => simp [lowSurrogate?, within, hs.head.2.2.1]
  | [p] =>
    cases s with
    | nil => simp [lowSurrogate?, within]
    | cons q s => simp [lowSurrogate?, within, hs.head.2.2.2.1]
  | p :: q :: rest =>
    by_cases hp : p = .char '\\' ∧ q = .char 'u'
    · obtain ⟨rfl, rfl⟩ := hp
      have hrun : hexRun 4 0 ⟨rest ++ s, offset + k + 2⟩ =
          answerWithin k s (hexRun 4 0 ⟨rest, offset + 2⟩) := by
        rw [within_mk]
        exact hexRun_within hs
      simp only [lowSurrogate?, within, List.cons_append, hrun]
      cases hexRun 4 0 ⟨rest, offset + 2⟩ with
      | error d => rfl
      | ok x =>
        dsimp only [answerWithin]
        split <;> rfl
    · have hnone (text : Text) (o : Nat) : lowSurrogate? ⟨p :: q :: text, o⟩ = none := by
        unfold lowSurrogate?
        split
        · next heq =>
          cases heq
          exact absurd ⟨rfl, rfl⟩ hp
        · rfl
      rw [hnone rest offset]
      exact hnone (rest ++ s) (offset + k)

/-- Four digits, where no brace comes next. -/
theorem readUnicodeEscape_fixed (h : c.rest.head? ≠ some (.char '\x7b')) : readUnicodeEscape c =
    match c.hexRun 4 0 with
    | .error stopped => .error stopped
    | .ok (high, next) =>
      if isSurrogate high then
        match next.lowSurrogate? with
        | some (low, after) => .ok (joinSurrogates high low, after)
        | none => .ok (replacement, next)
      else .ok (charOfCode high, next) := by
  unfold readUnicodeEscape
  split
  · next heq => exact absurd (heq ▸ rfl) h
  · rfl

theorem readUnicodeEscape_within (hs : Quiet s) :
    readUnicodeEscape (c.within k s) = answerWithin k s (readUnicodeEscape c) := by
  by_cases hbrace : c.rest.head? = some (.char '\x7b')
  · obtain ⟨rest, offset⟩ := c
    obtain ⟨rest, rfl⟩ := List.head?_eq_some_iff.mp hbrace
    simp only [readUnicodeEscape, within, List.cons_append]
    rw [within_mk, hexDigit?_within hs]
    cases hexDigit? ⟨rest, offset + 1⟩ with
    | none => rfl
    | some x =>
      dsimp only [Option.map_some, Prod.map, id, within]
      rw [bracedCode_within hs]
      cases bracedCode x.1 x.2.rest x.2.offset <;> rfl
  · have hlonger : (c.within k s).rest.head? ≠ some (.char '\x7b') := by
      obtain ⟨rest, offset⟩ := c
      cases rest with
      | nil =>
        cases s with
        | nil => exact hbrace
        | cons p s =>
          intro hp
          exact hs.head.2.2.2.2.1 (Option.some.inj hp)
      | cons p rest => exact hbrace
    rw [readUnicodeEscape_fixed hbrace, readUnicodeEscape_fixed hlonger, hexRun_within hs]
    cases c.hexRun 4 0 with
    | error d => rfl
    | ok x =>
      obtain ⟨high, next⟩ := x
      dsimp only [answerWithin]
      split
      · rw [lowSurrogate?_within hs]
        cases next.lowSurrogate? <;> rfl
      · rfl

/-- An escape is read alike in a longer source, if nothing there goes on with it. -/
theorem readEscape_within (hs : Quiet s) (hline : p = .char '\r' → s.head? ≠ some (.char '\n')) :
    (readEscape (within k s ⟨p :: rest, offset⟩)).toOption =
      (readEscape ⟨p :: rest, offset⟩).toOption.map (Prod.map id (within k s)) := by
  have hnext : (⟨rest ++ s, offset + k + p.width⟩ : Cursor) = within k s ⟨rest, offset + p.width⟩ :=
    within_mk
  have hdigit : ∀ q ∈ s.head?, isDecimalDigit q.scalar = false := by
    intro q hq
    cases s with
    | nil => cases hq
    | cons q' s =>
      cases hq
      exact hs.head.2.1
  unfold readEscape
  dsimp only [within, List.cons_append]
  rw [hnext]
  split
  · next hp =>
    rw [take?_within (hline (beq_iff_eq.mp hp))]
    cases Cursor.take? ⟨rest, offset + p.width⟩ '\n' <;> rfl
  · split
    · rfl
    · split
      · rw [at?_within hdigit]
        split <;> rfl
      · split
        · rfl
        · split
          · rw [hexRun_within hs]
            cases hexRun 2 0 ⟨rest, offset + p.width⟩ <;> rfl
          · split
            · rw [readUnicodeEscape_within hs]
              cases readUnicodeEscape ⟨rest, offset + p.width⟩ <;> rfl
            · split <;> rfl

/-- An escape takes something behind its backslash. -/
theorem readEscape_takes (h : readEscape ⟨rest, offset⟩ = .ok (text, d)) :
    ∃ e, e ≠ [] ∧ rest = e ++ d.rest := by
  obtain ⟨e, he, -⟩ := readEscape_reaches h
  refine ⟨e, ?_, he⟩
  rintro rfl
  exact absurd (congrArg List.length he) (Nat.ne_of_gt (readEscape_length h))

/-- What an escape stands for does not depend on what stands behind the text that is left, `s`
or `s'`. -/
theorem readEscape_local (hread : readEscape ⟨e ++ r ++ s, offset⟩ = .ok (text, d))
    (hd : d.rest = r ++ s) (he : e ≠ []) (hs : Quiet s) (hs' : Quiet s')
    (hline : e.head? = some (.char '\r') → s.head? ≠ some (.char '\n'))
    (hline' : e.head? = some (.char '\r') → s'.head? ≠ some (.char '\n')) (offset' : Nat) :
    ∃ d', readEscape ⟨e ++ r ++ s', offset'⟩ = .ok (text, d') ∧ d'.rest = r ++ s' := by
  obtain ⟨p, e, rfl⟩ := List.exists_cons_of_ne_nil he
  have hwithin : (readEscape (within offset s ⟨p :: (e ++ r), 0⟩)).toOption = _ :=
    readEscape_within hs fun hp => hline (hp ▸ rfl)
  have hwithin' : (readEscape (within offset' s' ⟨p :: (e ++ r), 0⟩)).toOption = _ :=
    readEscape_within hs' fun hp => hline' (hp ▸ rfl)
  have hwhole : readEscape (within offset s ⟨p :: (e ++ r), 0⟩) = .ok (text, d) := by
    rw [← hread, within, Nat.zero_add]
    rfl
  rw [hwhole] at hwithin
  obtain ⟨⟨text₀, d₀⟩, hshort, hsame⟩ := Option.map_eq_some_iff.mp hwithin.symm
  obtain ⟨rfl, rfl⟩ := Prod.mk.inj hsame
  have hrest : d₀.rest = r := List.append_cancel_right hd
  rw [hshort] at hwithin'
  have hother : within offset' s' ⟨p :: (e ++ r), 0⟩ = ⟨p :: e ++ r ++ s', offset'⟩ := by
    rw [within, Nat.zero_add]
    rfl
  rw [hother] at hwithin'
  cases hread' : readEscape ⟨p :: e ++ r ++ s', offset'⟩ with
  | error rejection =>
    rw [hread'] at hwithin'
    cases hwithin'
  | ok x =>
    rw [hread'] at hwithin'
    cases hwithin'
    exact ⟨_, rfl, congrArg (· ++ s') hrest⟩

/-- A text with its escapes decoded, if each of them is well-formed. -/
def unescape? (text : Text) : Option Text :=
  match text with
  | [] => some []
  | p :: rest =>
    if p == .char '\\' then
      match _h : readEscape ⟨rest, 0⟩ with
      | .ok (decoded, after) => (unescape? after.rest).map (decoded ++ ·)
      | .error _ => none
    else (unescape? rest).map (p :: ·)
termination_by text.length
decreasing_by
  · exact Nat.lt_succ_of_lt (readEscape_length _h)
  · exact Nat.lt_succ_self _

/-- A piece that is no backslash stands for itself, -/
theorem unescape?_plain (hp : p ≠ .char '\\') (hrest : unescape? rest = some value) :
    unescape? (p :: rest) = some (p :: value) := by
  rw [unescape?, if_neg (by simpa using hp), hrest]
  rfl

/-- and an escape for what it is read as. -/
theorem unescape?_escape (hread : readEscape ⟨rest, offset⟩ = .ok (text, d))
    (hrest : unescape? d.rest = some value) :
    unescape? (.char '\\' :: rest) = some (text ++ value) := by
  obtain ⟨e, he, heq⟩ := readEscape_takes hread
  have hwhole : readEscape ⟨e ++ d.rest ++ [], offset⟩ = .ok (text, d) :=
    by rw [List.append_nil, ← heq, hread]
  obtain ⟨d', hread', hd'⟩ := readEscape_local hwhole (List.append_nil _).symm he .nil .nil
    (fun _ => by simp) (fun _ => by simp) 0
  rw [List.append_nil, ← heq] at hread'
  rw [unescape?, if_pos (beq_self_eq_true _)]
  split
  · next hok =>
    cases hread'.symm.trans hok
    rw [hd', List.append_nil, hrest]
    rfl
  · next herror => cases hread'.symm.trans herror

/-! ## Strings -/

/-- The value of a string is its body with the escapes undone, by induction on what is
left of the text. -/
theorem readStringFrom_text {quote : Char} {start : Nat} {escaped : Bool} {t : Token}
    (h : readStringFrom quote start value escaped c = (t, d)) (ht : t.fault = none)
    (hquote : quote = '\x22' ∨ quote = '\x27') :
    ∃ body decoded, c.rest = body ++ .char quote :: d.rest ∧
      unescape? body = some decoded ∧ t.value = value.reverse ++ decoded := by
  -- Only the closing quote ends without a fault, so three of the cases are of interest: the quote,
  -- an escape and a plain piece.
  fun_induction readStringFrom quote start value escaped c with
  | case1 =>
    cases h
    cases ht
  | case2 =>
    cases h
    cases ht
  | case3 value escaped c p rest hrest next hline hclose =>
    obtain ⟨rfl, rfl⟩ := Prod.mk.inj h
    cases beq_iff_eq.mp hclose
    exact ⟨[], [], hrest, by rw [unescape?], (List.append_nil _).symm⟩
  | case4 value escaped c p rest hrest next hline hopen hbackslash text after hescape ih =>
    obtain ⟨body, decoded, hbody, hdecoded, hvalue⟩ := ih h
    cases beq_iff_eq.mp hbackslash
    obtain ⟨e, he, heq⟩ := readEscape_takes hescape
    -- The escape was read with the rest of the source behind it. It does not look past the quote,
    -- so it reads the same inside the body alone.
    have hwhole : readEscape ⟨e ++ body ++ .char quote :: d.rest, c.offset + 1⟩ =
        .ok (text, after) := by
      rw [List.append_assoc, ← hbody, ← heq]
      exact hescape
    have hquiet : Quiet (.char quote :: d.rest) := by
      rcases hquote with rfl | rfl <;> simp [Quiet]
    have hfeed : quote ≠ '\n' := by rcases hquote with rfl | rfl <;> decide
    obtain ⟨after', hread', hafter'⟩ := readEscape_local hwhole hbody he hquiet .nil
      (fun _ => by simpa using hfeed) (fun _ => by simp) 0
    rw [List.append_nil] at hread' hafter'
    refine ⟨.char '\\' :: (e ++ body), text ++
      decoded, ?_, unescape?_escape hread' (hafter' ▸ hdecoded), ?_⟩
    · rw [hrest, heq, hbody, List.cons_append, List.append_assoc]
    · rw [hvalue, List.reverse_append, List.reverse_reverse, List.append_assoc]
  | case5 =>
    cases h
    cases ht
  | case6 value escaped c p rest hrest next hline hopen hplain ih =>
    obtain ⟨body, decoded, hbody, hdecoded, hvalue⟩ := ih h
    refine ⟨p :: body, p :: decoded, ?_, unescape?_plain (by simpa using hplain) hdecoded, ?_⟩
    · rw [hrest]
      exact congrArg _ hbody
    · rw [hvalue, List.reverse_cons, List.append_assoc]
      rfl

/-- A string stands for what is between its quotes with the escapes decoded. -/
theorem readString_text {t : Token} (h : readString c = some (t, d)) (ht : t.fault = none) :
    ∃ quote body, c.rest = .char quote :: (body ++ .char quote :: d.rest) ∧ unescape? body =
      some t.value := by
  unfold readString at h
  split at h
  · next quote rest hrest =>
    split at h
    · next hquote =>
      have hkind : quote = '\x22' ∨ quote = '\x27' := by simpa using hquote
      obtain ⟨body, decoded, hbody, hdecoded, hvalue⟩ :=
        readStringFrom_text (Option.some.inj h) ht hkind
      refine ⟨quote, body, ?_, ?_⟩
      · rw [hrest]
        exact congrArg _ hbody
      · rw [hdecoded, hvalue]
        rfl
    · cases h
  · cases h

end EcmaStack
