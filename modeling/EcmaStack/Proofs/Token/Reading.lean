import EcmaStack.Token.Scan

/-!
# Reading moves a cursor forward

A cursor is reached from another by reading pieces (`Cursor.Reaches`): the text that was left is
the text that was read followed by the text that is left now, and the offset has grown by what
was read. A token is read from the cursor where it starts to the cursor where it stops, and
takes at least one piece (`Token.ReadFrom`), unless it is the end of the source or malformed. So
scanning gets ahead: `scanToken_placed` says where the next token stands.
-/

namespace EcmaStack

open Text

/-- What is seen as a character of its own is that character. -/
theorem Piece.eq_char {p : Piece} {x : Char} (h : p.scalar = x) (hx : x ≠ replacement) :
    p = .char x := by
  cases p with
  | char y => exact congrArg Piece.char h
  | stray b => exact absurd h.symm hx

namespace Cursor

/-- The second cursor is reached from the first by reading. -/
def Reaches (c d : Cursor) : Prop :=
  ∃ read : Text, c.rest = read ++ d.rest ∧ d.offset = c.offset + read.width

/-- The second cursor is reached from the first by reading at least one piece. -/
structure Passes (c d : Cursor) : Prop where
  reaches : c.Reaches d
  shorter : d.rest.length < c.rest.length

variable {c d e : Cursor} {p : Piece} {rest text : Text} {offset : Nat}

theorem Reaches.refl (c : Cursor) : c.Reaches c :=
  ⟨[], rfl, rfl⟩

theorem Reaches.trans (h : c.Reaches d) (k : d.Reaches e) : c.Reaches e := by
  obtain ⟨read, hrest, hoffset⟩ := h
  obtain ⟨more, krest, koffset⟩ := k
  refine ⟨read ++ more, ?_, ?_⟩
  · rw [hrest, krest, List.append_assoc]
  · rw [koffset, hoffset, width_append, Nat.add_assoc]

/-- Moving on leaves no more text than there was. -/
theorem Reaches.length_le (h : c.Reaches d) : d.rest.length ≤ c.rest.length := by
  obtain ⟨read, hrest, _⟩ := h
  rw [hrest, List.length_append]
  exact Nat.le_add_left _ _

/-- Any step before or after a proper one makes the whole a proper one. -/
theorem Reaches.passes (h : c.Reaches d) (k : d.Passes e) : c.Passes e :=
  ⟨h.trans k.reaches, Nat.lt_of_lt_of_le k.shorter h.length_le⟩

theorem Passes.then (h : c.Passes d) (k : d.Reaches e) : c.Passes e :=
  ⟨h.reaches.trans k, Nat.lt_of_le_of_lt k.length_le h.shorter⟩

theorem Passes.offset_lt (h : c.Passes d) : c.offset < d.offset := by
  obtain ⟨⟨read, hrest, hoffset⟩, hshorter⟩ := h
  cases read with
  | nil =>
    rw [hrest, List.nil_append] at hshorter
    exact absurd hshorter (Nat.lt_irrefl _)
  | cons q more =>
    rw [hoffset, width_cons]
    have := q.width_pos
    omega

/-- One piece is read. -/
theorem passes_piece (hrest : c.rest = p :: rest) : c.Passes ⟨rest, c.offset + p.width⟩ := by
  refine ⟨⟨[p], hrest, rfl⟩, ?_⟩
  rw [hrest]
  exact Nat.lt_succ_self _

/-- One character of one byte is read. -/
theorem passes_char {x : Char} (hrest : c.rest = .char x :: rest) (hx : x.utf8Size = 1) :
    c.Passes ⟨rest, c.offset + 1⟩ :=
  hx ▸ passes_piece hrest

/-- Two characters of one byte each are read. -/
theorem passes_chars {x y : Char} (hrest : c.rest = .char x :: .char y :: rest)
    (hx : x.utf8Size = 1) (hy : y.utf8Size = 1) : c.Passes ⟨rest, c.offset + 2⟩ :=
  (passes_char hrest hx).then (passes_char rfl hy).reaches

/-- No name follows where the next piece neither belongs to one nor starts an escape. -/
theorem identifierFollows_eq_false : (Cursor.mk text offset).identifierFollows = false ↔
    ∀ p ∈ text.head?, isIdentifierPart p.scalar = false ∧ p.scalar ≠ '\\' := by
  cases text with
  | nil =>
    constructor
    · intro _ p hp
      cases hp
    · exact fun _ => rfl
  | cons p rest => simp [identifierFollows, at?, peek?]

/-- Skipping moves on, if only by nothing. -/
theorem skipWhileFrom_reaches (test : Char → Bool) :
    Reaches ⟨text, offset⟩ (skipWhileFrom test text offset) := by
  induction text generalizing offset with
  | nil => exact .refl _
  | cons p rest ih =>
    rw [skipWhileFrom]
    split
    · exact (passes_piece rfl).reaches.trans ih
    · exact .refl _

theorem skipWhile_reaches (test : Char → Bool) : c.Reaches (c.skipWhile test) :=
  skipWhileFrom_reaches test

/-- Taking a character takes it off the text and moves by its size. -/
theorem take?_eq_some {x : Char} (h : c.take? x = some d) :
    c.rest = .char x :: d.rest ∧ d.offset = c.offset + x.utf8Size := by
  unfold take? at h
  split at h
  · next y rest hrest =>
    split at h
    · next hy =>
      cases h
      cases beq_iff_eq.mp hy
      exact ⟨hrest, rfl⟩
    · cases h
  · cases h

/-- Whatever takes a character makes a proper step. -/
theorem take?_passes {x : Char} (h : c.take? x = some d) : c.Passes d := by
  obtain ⟨hrest, hoffset⟩ := take?_eq_some h
  have hpasses := passes_piece hrest
  rw [Piece.width, ← hoffset] at hpasses
  exact hpasses

/-- A character is taken or not. -/
theorem take?_getD_reaches {x : Char} : c.Reaches ((c.take? x).getD c) := by
  cases h : c.take? x with
  | none => exact .refl c
  | some d => exact (take?_passes h).reaches

/-! ## Escapes -/

theorem hexDigit?_passes {n : Nat} (h : c.hexDigit? = some (n, d)) : c.Passes d := by
  unfold hexDigit? at h
  split at h
  · cases h
  · next hrest =>
    obtain ⟨_, _, hd⟩ := Option.map_eq_some_iff.mp h
    cases hd
    exact passes_piece hrest

theorem hexRun_reaches {n v r : Nat} (h : hexRun n v c = .ok (r, d)) : c.Reaches d := by
  induction n generalizing v c with
  | zero =>
    cases h
    exact .refl _
  | succ n ih =>
    rw [hexRun] at h
    split at h
    · next hdigit => exact (hexDigit?_passes hdigit).reaches.trans (ih h)
    · cases h

end Cursor

open Cursor

variable {c d : Cursor} {t : Token}

theorem bracedCode_reaches {v offset r : Nat} {text : Text}
    (h : bracedCode v text offset = .ok (r, d)) :
    Reaches ⟨text, offset⟩ d := by
  induction text generalizing v offset with
  | nil => cases h
  | cons p rest ih =>
    rw [bracedCode] at h
    split at h
    · split at h
      · cases h
      · exact (passes_piece rfl).reaches.trans (ih h)
    · split at h
      · next hbrace =>
        cases h
        cases beq_iff_eq.mp hbrace
        exact (passes_char rfl rfl).reaches
      · cases h

theorem lowSurrogate?_reaches {n : Nat} (h : c.lowSurrogate? = some (n, d)) : c.Reaches d := by
  unfold lowSurrogate? at h
  split at h
  · next hrest =>
    split at h
    · next hrun =>
      split at h
      · cases h
        exact (passes_chars hrest rfl rfl).reaches.trans (hexRun_reaches hrun)
      · cases h
    · cases h
  · cases h

/-- An escape may be empty behind its mark, so this is a step that may stand still; the
backslash makes the whole a proper one. -/
theorem readUnicodeEscape_reaches {x : Char} (h : readUnicodeEscape c = .ok (x, d)) :
    c.Reaches d := by
  unfold readUnicodeEscape at h
  split at h
  · next hrest =>
    dsimp only at h
    split at h
    · cases h
    · next hdigit =>
      split at h
      · next hcode =>
        cases h
        exact ((passes_char hrest rfl).then (hexDigit?_passes hdigit).reaches).reaches.trans
          (bracedCode_reaches hcode)
      · cases h
  · split at h
    · cases h
    · next hrun =>
      have hread := hexRun_reaches hrun
      split at h
      · split at h
        · next hlow =>
          cases h
          exact hread.trans (lowSurrogate?_reaches hlow)
        · cases h
          exact hread
      · cases h
        exact hread

theorem readEscape_reaches {text : Text} (h : readEscape c = .ok (text, d)) : c.Reaches d := by
  unfold readEscape at h
  dsimp only at h
  split at h
  · cases h
  · next p rest hrest =>
    have hpiece := (passes_piece hrest).reaches
    split at h
    · cases h
      exact hpiece.trans take?_getD_reaches
    · split at h
      · cases h
        exact hpiece
      · split at h
        · split at h
          · cases h
          · cases h
            exact hpiece
        · split at h
          · cases h
          · split at h
            · split at h
              · next hrun =>
                cases h
                exact hpiece.trans (hexRun_reaches hrun)
              · cases h
            · split at h
              · split at h
                · next hunicode =>
                  cases h
                  exact hpiece.trans (readUnicodeEscape_reaches hunicode)
                · cases h
              · split at h <;> cases h <;> exact hpiece

/-! ## Tokens -/

/-- What a token of a kind takes at least: a string has its quotes, and a reserved word is
written out. -/
def Kind.leastWidth : Kind → Nat
  | .string => 2
  | .keyword k => k.spelling.length
  | _ => 0

/-- The token was read from one cursor to another. -/
structure Token.ReadFrom (t : Token) (c d : Cursor) : Prop where
  start : t.start = c.offset
  stop : t.stop = d.offset
  passes : c.Passes d
  kind : t.kind ≠ .eof
  wide : t.start + t.kind.leastWidth ≤ t.stop

/-- What a reader answers was read from the cursor, if it is well formed. -/
def Cursor.Gives (c : Cursor) (x : Token × Cursor) : Prop :=
  x.1.fault = none → x.1.ReadFrom c x.2

/-- A refusal gives a fault, which may cover nothing. -/
theorem Rejection.gives (r : Rejection) : c.Gives r.token :=
  nofun

theorem gives_ofFault {cause : LexicalFault} {start stop : Nat} :
    c.Gives (.ofFault cause start stop, d) :=
  nofun

/-- A token that is not the end stands where it was read, if that is wide enough for it. -/
theorem gives_of_passes (h : c.Passes d) (hstart : t.start = c.offset) (hstop : t.stop = d.offset)
    (heof : t.kind ≠ .eof) (hwide : c.offset + t.kind.leastWidth ≤ d.offset) : c.Gives (t, d) :=
  fun _ => ⟨hstart, hstop, h, heof, by rw [hstart, hstop]; exact hwide⟩

/-! ## Names -/

/-- A name grows by what is read. -/
theorem readNameFrom_reaches {soFar name : PartialName} (h : readNameFrom soFar c = .ok (name, d)) :
    c.Passes d ∨ (name = soFar ∧ d = c) := by
  fun_induction readNameFrom soFar c with
  | case1 soFar c hrest =>
    cases h
    exact .inr ⟨rfl, rfl⟩
  | case2 soFar c p rest hrest next hbackslash tail htail x after hescape haccepts ih =>
    have hpassed : c.Passes after := (passes_piece hrest).then
      ((passes_char htail rfl).reaches.trans (readUnicodeEscape_reaches hescape))
    rcases ih h with hmore | ⟨_, rfl⟩
    · exact .inl (hpassed.then hmore.reaches)
    · exact .inl hpassed
  | case3 => cases h
  | case4 => cases h
  | case5 => cases h
  | case6 soFar c p rest hrest next hplain haccepts ih =>
    have hpassed : c.Passes next := passes_piece hrest
    rcases ih h with hmore | ⟨_, rfl⟩
    · exact .inl (hpassed.then hmore.reaches)
    · exact .inl hpassed
  | case7 =>
    cases h
    exact .inr ⟨rfl, rfl⟩

/-- Every character of a name takes at least one byte. -/
theorem readNameFrom_width {soFar name : PartialName} (h : readNameFrom soFar c = .ok (name, d)) :
    c.offset + name.chars.length ≤ d.offset + soFar.chars.length := by
  fun_induction readNameFrom soFar c with
  | case1 soFar c hrest =>
    cases h
    exact Nat.le_refl _
  | case2 soFar c p rest hrest next hbackslash tail htail x after hescape haccepts ih =>
    have hpassed : c.Passes after := (passes_piece hrest).then
      ((passes_char htail rfl).reaches.trans (readUnicodeEscape_reaches hescape))
    have hmore := ih h
    have hbefore := hpassed.offset_lt
    simp only [List.length_cons] at hmore
    omega
  | case3 => cases h
  | case4 => cases h
  | case5 => cases h
  | case6 soFar c p rest hrest next hplain haccepts ih =>
    have hmore := ih h
    have hbefore : c.offset < next.offset := (passes_piece hrest).offset_lt
    simp only [List.length_cons] at hmore
    omega
  | case7 =>
    cases h
    exact Nat.le_refl _

/-- A word is read as the keyword that it spells. -/
theorem Keyword.spelling_of_ofSpelling? {name : String} {k : Keyword}
    (h : ofSpelling? name = some k) : k.spelling = name :=
  beq_iff_eq.mp (List.find?_some (p := fun k : Keyword => k.spelling == name) (l := all) h)

/-- What is read as a name can stand for one. -/
theorem nameKind_isIdentifierName (escaped : Bool) (name : String) :
    (nameKind escaped name).isIdentifierName = true := by
  unfold nameKind
  split
  · rfl
  · split <;> rfl

/-- A name has no kind that is not one of names. -/
theorem nameKind_ne {escaped : Bool} {name : String} {k : Kind} (hk : k.isIdentifierName = false) :
    nameKind escaped name ≠ k := by
  rintro rfl
  cases (nameKind_isIdentifierName escaped name).symm.trans hk

/-- The kind of a name asks for no more than its characters. -/
theorem nameKind_leastWidth (escaped : Bool) (name : String) :
    (nameKind escaped name).leastWidth ≤ name.length := by
  unfold nameKind
  split
  · exact Nat.zero_le _
  · split
    · next hk =>
      rw [← Keyword.spelling_of_ofSpelling? hk]
      exact Nat.le_refl _
    · exact Nat.zero_le _

/-- What the readers give starts where they did, stops where they stopped and is not
empty: first names, -/
theorem readIdentifier_gives {x : Token × Cursor} (h : readIdentifier c = some x) : c.Gives x := by
  unfold readIdentifier at h
  dsimp only at h
  split at h
  · next r _ =>
    cases h
    exact r.gives
  · next name d hname =>
    split at h
    · cases h
    · next hnonempty =>
      cases h
      cases hhash : c.take? '#' with
      | none =>
        rw [hhash] at hname
        rcases readNameFrom_reaches hname with hpassed | ⟨rfl, rfl⟩
        · refine gives_of_passes hpassed rfl rfl (nameKind_ne rfl) ?_
          show c.offset + (nameKind name.escaped (String.ofList name.chars.reverse)).leastWidth ≤
            d.offset
          have hkind := nameKind_leastWidth name.escaped (String.ofList name.chars.reverse)
          have hwidth := readNameFrom_width hname
          simp only [String.length_ofList, List.length_reverse, List.length_nil] at hkind hwidth
          omega
        · exact absurd rfl hnonempty
      | some body =>
        rw [hhash] at hname
        rcases readNameFrom_reaches hname with hpassed | ⟨rfl, rfl⟩
        · have hthrough := (take?_passes hhash).reaches.passes hpassed
          exact gives_of_passes hthrough rfl rfl (by rintro ⟨⟩) (Nat.le_of_lt hthrough.offset_lt)
        · exact absurd rfl hnonempty

/-! ## Numbers -/

/-- then the parts of numbers, of which some may be empty; -/
theorem readDigitsFrom_reaches {base offset : Nat} {text : Text}
    (h : readDigitsFrom base text offset = .ok d) :
    Reaches ⟨text, offset⟩ d := by
  fun_induction readDigitsFrom base text offset with
  | case1 offset =>
    cases h
    exact .refl _
  | case2 offset x tail hdigit ih =>
    exact (passes_char rfl rfl).reaches.trans ((passes_piece rfl).reaches.trans (ih h))
  | case3 => cases h
  | case4 => cases h
  | case5 p rest offset _ hdigit ih => exact (passes_piece rfl).reaches.trans (ih h)
  | case6 => cases h
  | case7 =>
    cases h
    exact .refl _

theorem readDigits_reaches {base : Nat} (h : readDigits base c = .ok d) : c.Reaches d := by
  unfold readDigits at h
  split at h
  · cases h
    exact .refl c
  · next hrest => exact (passes_piece hrest).reaches.trans (readDigitsFrom_reaches h)

/-- Digits at a digit are more than none. -/
theorem readDigits_passes {base : Nat} {test : Char → Bool} (hat : c.at? test = true)
    (h : readDigits base c = .ok d) :
    c.Passes d := by
  unfold readDigits at h
  split at h
  · next hrest =>
    rw [at?, peek?, hrest] at hat
    cases hat
  · next hrest => exact (passes_piece hrest).then (readDigitsFrom_reaches h)

/-- What was answered before what follows it. -/
theorem except_bind_ok {ε α β : Type} {x : Except ε α} {f : α → Except ε β} {b : β}
    (h : x >>= f = .ok b) :
    ∃ a, x = .ok a ∧ f a = .ok b := by
  cases x with
  | error e => cases h
  | ok a => exact ⟨a, rfl, h⟩

theorem readMarked_reaches {start base : Nat} {kind : Kind}
    (h : readMarked start base c = .ok (kind, d)) :
    c.Reaches d := by
  unfold readMarked at h
  split at h
  · obtain ⟨after, hdigits, h⟩ := except_bind_ok h
    have hread := readDigits_reaches hdigits
    split at h
    · next hn =>
      cases h
      exact hread.trans (take?_passes hn).reaches
    · cases h
      exact hread
  · split at h
    · split at h <;> cases h
    · cases h

/-- a fraction is a proper step where there is a point, -/
theorem readFraction_reaches (h : readFraction c = .ok d) :
    c.Reaches d ∧ ((c.take? '.').isSome = true → c.Passes d) := by
  unfold readFraction at h
  split at h
  · next hdot =>
    cases h
    rw [hdot]
    exact ⟨.refl c, nofun⟩
  · next after hdot =>
    have hpassed : c.Passes d := by
      split at h
      · exact (take?_passes hdot).then (readDigits_reaches h)
      · split at h
        · cases h
        · cases h
          exact take?_passes hdot
    exact ⟨hpassed.reaches, fun _ => hpassed⟩

/-- One of two characters is taken. -/
theorem take?_or_reaches {x y : Char} (h : (c.take? x).or (c.take? y) = some d) : c.Reaches d := by
  rcases Option.or_eq_some_iff.mp h with hx | ⟨_, hy⟩
  · exact (take?_passes hx).reaches
  · exact (take?_passes hy).reaches

theorem readExponentPart_reaches {start : Nat} (h : readExponentPart start c = .ok d) :
    c.Reaches d := by
  unfold readExponentPart at h
  split at h
  · cases h
    exact .refl c
  · next after he =>
    have hsign : after.Reaches (((after.take? '+').or (after.take? '-')).getD after) := by
      cases hs : (after.take? '+').or (after.take? '-') with
      | none => exact .refl after
      | some signed => exact take?_or_reaches hs
    dsimp only at h
    split at h
    · exact (take?_or_reaches he).trans (hsign.trans (readDigits_reaches h))
    · cases h

theorem readDecimalTail_reaches {start : Nat} {kind : Kind}
    (h : readDecimalTail start c = .ok (kind, d)) :
    c.Reaches d ∧ ((c.take? '.').isSome = true → c.Passes d) := by
  obtain ⟨whole, hfraction, h⟩ := except_bind_ok h
  obtain ⟨after, hexponent, h⟩ := except_bind_ok h
  cases h
  obtain ⟨hread, hpassed⟩ := readFraction_reaches hfraction
  have hmore := readExponentPart_reaches hexponent
  exact ⟨hread.trans hmore, fun hdot => (hpassed hdot).then hmore⟩

/-- The letters that mark a base take one byte. -/
theorem utf8Size_of_markedBase? {x : Char} {base : Nat} (h : markedBase? x = some base) :
    x.utf8Size = 1 := by
  unfold markedBase? at h
  split at h
  · next hx =>
    rcases Bool.or_eq_true_iff.mp hx with hx | hx <;> cases beq_iff_eq.mp hx <;> rfl
  · split at h
    · next hx =>
      rcases Bool.or_eq_true_iff.mp hx with hx | hx <;> cases beq_iff_eq.mp hx <;> rfl
    · split at h
      · next hx =>
        rcases Bool.or_eq_true_iff.mp hx with hx | hx <;> cases beq_iff_eq.mp hx <;> rfl
      · cases h

theorem readAfterZero_reaches {start : Nat} {kind : Kind}
    (h : readAfterZero start c = .ok (kind, d)) : c.Reaches d := by
  unfold readAfterZero at h
  split at h
  · next x rest hrest =>
    split at h
    · next hbase =>
        exact (passes_char hrest (utf8Size_of_markedBase? hbase)).reaches.trans
          (readMarked_reaches h)
    · split at h
      · next hn =>
        cases h
        exact (passes_char hrest (by rw [beq_iff_eq.mp hn]; rfl)).reaches
      · split at h
        · cases h
        · split at h
          · cases h
          · exact (readDecimalTail_reaches h).1
  · exact (readDecimalTail_reaches h).1

/-- and a number is one as it starts with a digit or with a point and a digit. -/
theorem readNumberBody_passes {kind : Kind} (hstarts : numberStarts c = true)
    (h : readNumberBody c = .ok (kind, d)) :
    c.Passes d := by
  unfold readNumberBody at h
  split at h
  · next hzero => exact (take?_passes hzero).then (readAfterZero_reaches h)
  · split at h
    · next hat =>
      obtain ⟨after, hdigits, h⟩ := except_bind_ok h
      have hpassed := readDigits_passes hat hdigits
      split at h
      · next hn =>
        cases h
        exact hpassed.then (take?_passes hn).reaches
      · exact hpassed.then (readDecimalTail_reaches h).1
    · next hat =>
      refine (readDecimalTail_reaches h).2 ?_
      unfold numberStarts at hstarts
      split at hstarts
      · next hdot => rw [hdot]; rfl
      · exact absurd hstarts hat

/-- The kinds of numbers. -/
private def Kind.IsNumeric (k : Kind) : Prop :=
  k = .number ∨ k = .bigint

/-- A number is read with a numeric kind, part by part. -/
theorem readDecimalTail_kind {start : Nat} {kind : Kind}
    (h : readDecimalTail start c = .ok (kind, d)) : kind.IsNumeric := by
  obtain ⟨_, _, h⟩ := except_bind_ok h
  obtain ⟨_, _, h⟩ := except_bind_ok h
  cases h
  exact .inl rfl

theorem readMarked_kind {start base : Nat} {kind : Kind}
    (h : readMarked start base c = .ok (kind, d)) : kind.IsNumeric := by
  unfold readMarked at h
  split at h
  · obtain ⟨_, _, h⟩ := except_bind_ok h
    split at h
    · cases h
      exact .inr rfl
    · cases h
      exact .inl rfl
  · split at h
    · split at h <;> cases h
    · cases h

theorem readAfterZero_kind {start : Nat} {kind : Kind} (h : readAfterZero start c = .ok (kind, d)) :
    kind.IsNumeric := by
  unfold readAfterZero at h
  split at h
  · split at h
    · exact readMarked_kind h
    · split at h
      · cases h
        exact .inr rfl
      · split at h
        · cases h
        · split at h
          · cases h
          · exact readDecimalTail_kind h
  · exact readDecimalTail_kind h

theorem readNumberBody_kind {kind : Kind} (h : readNumberBody c = .ok (kind, d)) :
    kind.IsNumeric := by
  unfold readNumberBody at h
  split at h
  · exact readAfterZero_kind h
  · split at h
    · obtain ⟨_, _, h⟩ := except_bind_ok h
      split at h
      · cases h
        exact .inr rfl
      · exact readDecimalTail_kind h
    · exact readDecimalTail_kind h

theorem readNumber_gives {x : Token × Cursor} (h : readNumber c = some x) : c.Gives x := by
  unfold readNumber at h
  split at h
  · next hstarts =>
    split at h
    · next r _ =>
      cases h
      exact r.gives
    · next kind d hbody =>
      dsimp only at h
      split at h
      · cases h
        exact gives_ofFault
      · cases h
        have hpassed := readNumberBody_passes hstarts hbody
        rcases readNumberBody_kind hbody with rfl | rfl
        · exact gives_of_passes hpassed rfl rfl nofun (Nat.le_of_lt hpassed.offset_lt)
        · exact gives_of_passes hpassed rfl rfl nofun (Nat.le_of_lt hpassed.offset_lt)
  · cases h

/-! ## Strings, templates and regular expressions -/

/-- A string without a fault is closed by its quote. -/
theorem readStringFrom_gives {quote : Char} {start : Nat} {value : Text} {escaped : Bool}
    {x : Token × Cursor} (h : readStringFrom quote start value escaped c = x)
    (hx : x.1.fault = none) :
    x.1.kind = .string ∧ x.1.start = start ∧ x.1.stop = x.2.offset ∧ c.Passes x.2 := by
  fun_induction readStringFrom quote start value escaped c with
  | case1 => subst h; cases hx
  | case2 => subst h; cases hx
  | case3 value escaped c p rest hrest next hline hquote =>
    subst h
    exact ⟨rfl, rfl, rfl, passes_piece hrest⟩
  | case4 value escaped c p rest hrest next hline hquote hbackslash text after hescape ih =>
    obtain ⟨hkind, hstart, hstop, hpassed⟩ := ih h
    exact ⟨hkind, hstart, hstop, (passes_piece hrest).then
      ((readEscape_reaches hescape).trans hpassed.reaches)⟩
  | case5 value escaped c p rest hrest next hline hquote hbackslash r hescape =>
    subst h
    cases hx
  | case6 value escaped c p rest hrest next hline hquote hplain ih =>
    obtain ⟨hkind, hstart, hstop, hpassed⟩ := ih h
    exact ⟨hkind, hstart, hstop, (passes_piece hrest).then hpassed.reaches⟩

theorem readString_gives {x : Token × Cursor} (h : readString c = some x) : c.Gives x := by
  intro hx
  unfold readString at h
  split at h
  · next q rest hrest =>
    split at h
    · next hq =>
      have hopen : c.Passes ⟨rest, c.offset + 1⟩ := by
        refine passes_char hrest ?_
        rcases Bool.or_eq_true_iff.mp hq with hq | hq <;> rw [beq_iff_eq.mp hq] <;> rfl
      obtain ⟨hkind, hstart, hstop, hpassed⟩ := readStringFrom_gives (Option.some.inj h) hx
      refine ⟨hstart, hstop, hopen.then hpassed.reaches, ?_, ?_⟩
      · rw [hkind]
        exact nofun
      · have hquote : c.offset + 1 < x.2.offset := hpassed.offset_lt
        rw [hstart, hstop, hkind]
        exact hquote
    · cases h
  · cases h

/-- What was read of a template, and what is read after it. -/
private theorem template_more {sub tail : Kind} {start : Nat} {x : Token × Cursor}
    (hpassed : c.Passes d) (h : (x.1.kind = sub ∨ x.1.kind = tail) ∧ x.1.start = start ∧
      x.1.stop = x.2.offset ∧ d.Passes x.2) :
    (x.1.kind = sub ∨ x.1.kind = tail) ∧ x.1.start = start ∧ x.1.stop = x.2.offset ∧ c.Passes x.2 :=
  ⟨h.1, h.2.1, h.2.2.1, hpassed.then h.2.2.2.reaches⟩

/-- A template without a fault is closed by a backquote or opens a substitution. -/
theorem readTemplateFrom_gives {sub tail : Kind} {start : Nat} {soFar : PartialTemplate}
    {c : Cursor} {x : Token × Cursor} (h : readTemplateFrom sub tail start soFar c = x)
    (hx : x.1.fault = none) :
    (x.1.kind = sub ∨ x.1.kind = tail) ∧ x.1.start = start ∧ x.1.stop = x.2.offset ∧
    c.Passes x.2 := by
  rw [readTemplateFrom] at h
  dsimp only at h
  split at h
  · subst h
    cases hx
  · next p rest hrest =>
    have hpassed := passes_piece hrest
    split at h
    · subst h
      exact ⟨.inr rfl, rfl, rfl, hpassed⟩
    · split at h
      · split at h
        · next after hbrace =>
          subst h
          exact ⟨.inl rfl, rfl, rfl, hpassed.then (take?_passes hbrace).reaches⟩
        · exact template_more hpassed (readTemplateFrom_gives h hx)
      · split at h
        · split at h
          · next after hfeed =>
            have hboth := hpassed.then (take?_passes hfeed).reaches
            exact template_more hboth (readTemplateFrom_gives h hx)
          · exact template_more hpassed (readTemplateFrom_gives h hx)
        · split at h
          · split at h
            · next text after hescape =>
              have hboth := hpassed.then (readEscape_reaches hescape)
              exact template_more hboth (readTemplateFrom_gives h hx)
            · subst h
              cases hx
          · exact template_more hpassed (readTemplateFrom_gives h hx)
termination_by c.rest.length
decreasing_by all_goals first | exact hboth.shorter | exact hpassed.shorter

/-- A part of a template that starts with a given character. -/
private theorem template_gives {sub tail : Kind} {quote : Char} {x : Token × Cursor}
    (h : ((c.take? quote).map fun d => readTemplateFrom sub tail c.offset ⟨[], []⟩ d) = some x)
    (hsub : sub ≠ .eof ∧ sub.leastWidth = 0) (htail : tail ≠ .eof ∧ tail.leastWidth = 0) :
    c.Gives x := by
  intro hx
  obtain ⟨d, hquote, hread⟩ := Option.map_eq_some_iff.mp h
  obtain ⟨hkind, hstart, hstop, hpassed⟩ := readTemplateFrom_gives hread hx
  have hthrough := (take?_passes hquote).then hpassed.reaches
  refine ⟨hstart, hstop, hthrough, ?_, ?_⟩
  · rcases hkind with hkind | hkind <;> rw [hkind]
    · exact hsub.1
    · exact htail.1
  · have hnarrow : x.1.kind.leastWidth = 0 := by
      rcases hkind with hkind | hkind <;> rw [hkind]
      · exact hsub.2
      · exact htail.2
    rw [hnarrow, hstart, hstop]
    exact Nat.le_of_lt hthrough.offset_lt

theorem readTemplate_gives {x : Token × Cursor} (h : readTemplate c = some x) : c.Gives x := by
  unfold readTemplate at h
  exact template_gives h ⟨nofun, rfl⟩ ⟨nofun, rfl⟩

theorem readTemplateContinuation_gives {x : Token × Cursor}
    (h : readTemplateContinuation c = some x) : c.Gives x := by
  unfold readTemplateContinuation at h
  exact template_gives h ⟨nofun, rfl⟩ ⟨nofun, rfl⟩

/-- The body and the flags of a regular expression may be empty; the two slashes are not. -/
theorem readBodyFrom_reaches {state : BodyState} {body read text : Text} {offset : Nat}
    (h : readBodyFrom state body text offset = .ok (read, d)) : Reaches ⟨text, offset⟩ d := by
  fun_induction readBodyFrom state body text offset with
  | case1 => cases h
  | case2 => cases h
  | case3 =>
    cases h
    exact (passes_piece rfl).reaches
  | case4 state body p rest offset next hline hslash ih =>
    exact (passes_piece rfl).reaches.trans (ih h)

theorem readFlagsFrom_reaches {flags read : List Char} {text : Text} {offset : Nat}
    (h : readFlagsFrom flags text offset = .ok (read, d)) : Reaches ⟨text, offset⟩ d := by
  fun_induction readFlagsFrom flags text offset with
  | case1 =>
    cases h
    exact .refl _
  | case2 => cases h
  | case3 => cases h
  | case4 flags p rest offset x hpart next hknown hnew ih =>
    exact (passes_piece rfl).reaches.trans (ih h)
  | case5 =>
    cases h
    exact .refl _

theorem readRegExp_gives {x : Token × Cursor} (h : readRegExp c = some x) : c.Gives x := by
  unfold readRegExp at h
  split at h
  · cases h
  · next inner hslash =>
    split at h
    · cases h
    · split at h
      · cases h
        exact gives_ofFault
      · next body d hbody =>
        split at h
        · next r _ =>
          cases h
          exact r.gives
        · next flags after hflags =>
          cases h
          have hread : inner.Reaches d := readBodyFrom_reaches hbody
          have hmore : d.Reaches after := readFlagsFrom_reaches hflags
          have hthrough : c.Passes after := (take?_passes hslash).then (hread.trans hmore)
          exact gives_of_passes hthrough rfl rfl nofun (Nat.le_of_lt hthrough.offset_lt)

/-! ## Punctuators -/

/-- Where all characters have one byte the width of a text is its length. -/
theorem width_of_scalars {cs : List Char} (hcs : ∀ x ∈ cs, x.utf8Size = 1) {text : Text}
    (h : text.map Piece.scalar = cs) : text.width = cs.length := by
  induction text generalizing cs with
  | nil =>
    subst h
    rfl
  | cons p rest ih =>
    subst h
    have hp := hcs p.scalar List.mem_cons_self
    have hwidth : p.width = 1 := by
      cases p with
      | char x => exact hp
      | stray b => rfl
    have hrest := ih (fun x hx => hcs x (List.mem_cons_of_mem _ hx)) rfl
    rw [width_cons, hwidth, hrest, List.map_cons, List.length_cons, Nat.add_comm]

/-- Punctuators are written in characters of one byte, and there is at least one. -/
theorem spelling_ascii (p : Punct) :
    (∀ x ∈ p.spelling.toList, x.utf8Size = 1) ∧ 0 < p.spelling.length := by
  have hall : p.spelling.toList.all (fun x => x.utf8Size == 1) = true := by cases p <;> rfl
  have hsome : p.spelling.toList ≠ [] := by cases p <;> exact List.cons_ne_nil _ _
  refine ⟨fun x hx => beq_iff_eq.mp (List.all_eq_true.mp hall x hx), ?_⟩
  rw [← String.length_toList]
  exact List.length_pos_iff.mpr hsome

/-- The first pieces of a text, whose characters take one byte each, are read. -/
theorem passes_drop {n : Nat} (hn : 0 < n) (hlength : n ≤ c.rest.length)
    (hone : ∀ x ∈ (c.rest.take n).map Piece.scalar, x.utf8Size = 1) :
    c.Passes ⟨c.rest.drop n, c.offset + n⟩ := by
  refine ⟨⟨c.rest.take n, (List.take_append_drop n c.rest).symm, ?_⟩, ?_⟩
  · rw [width_of_scalars hone rfl, List.length_map, List.length_take, Nat.min_eq_left hlength]
  · rw [List.length_drop]
    omega

/-- The characters of a punctuator that is matched stand at the head of the text. -/
theorem longestMatch?_scalars {text : Text} {p : Punct} {n : Nat}
    (h : Punct.longestMatch? ((text.take 4).map Piece.scalar) = some (p, n)) :
    n = p.spelling.length ∧ n ≤ text.length ∧ (text.take n).map Piece.scalar =
      p.spelling.toList := by
  obtain ⟨q, hfind, hq⟩ := Option.map_eq_some_iff.mp h
  cases hq
  have hfound := List.find?_some hfind
  have hprefix := List.isPrefixOf_iff_prefix.mp hfound
  have hlength := hprefix.length_le
  rw [List.length_map, List.length_take, String.length_toList] at hlength
  have htake := List.prefix_iff_eq_take.mp hprefix
  rw [← List.map_take, List.take_take, String.length_toList, Nat.min_eq_left (by omega)] at htake
  exact ⟨rfl, by omega, htake.symm⟩

/-- A punctuator is as long as its spelling. -/
theorem readPunctuator_gives {x : Token × Cursor} (h : readPunctuator c = some x) : c.Gives x := by
  have hpassed {p : Punct} {n m : Nat}
      (hmatch : Punct.longestMatch? ((c.rest.take 4).map Piece.scalar) = some (p, n))
      (hm : 0 < m) (hmn : m ≤ n) : c.Passes ⟨c.rest.drop m, c.offset + m⟩ := by
    obtain ⟨_, hlength, hscalars⟩ := longestMatch?_scalars hmatch
    refine passes_drop hm (Nat.le_trans hmn hlength) fun x hx => (spelling_ascii p).1 x ?_
    rw [← hscalars]
    rw [← Nat.min_eq_left hmn, ← List.take_take, List.map_take] at hx
    exact List.mem_of_mem_take hx
  unfold readPunctuator at h
  split at h
  · cases h
  · next p n hmatch =>
    have hpositive : 0 < n := by
      rw [(longestMatch?_scalars hmatch).1]
      exact (spelling_ascii p).2
    by_cases hdot : (p == .optionalDot && Cursor.at? ⟨c.rest.drop 2, 0⟩ isDecimalDigit) = true
    · rw [if_pos hdot] at h
      cases h
      have hthrough := hpassed hmatch Nat.one_pos hpositive
      exact gives_of_passes hthrough rfl rfl nofun (Nat.le_of_lt hthrough.offset_lt)
    · rw [if_neg hdot] at h
      cases h
      have hthrough := hpassed hmatch hpositive (Nat.le_refl n)
      exact gives_of_passes hthrough rfl rfl nofun (Nat.le_of_lt hthrough.offset_lt)

/-! ## White space and comments -/

/-- A comment is closed behind where it was opened. -/
theorem closeComment_reaches {text : Text} {offset : Nat} (h : closeComment text offset = .ok d) :
    Reaches ⟨text, offset⟩ d := by
  fun_induction closeComment text offset with
  | case1 => cases h
  | case2 rest offset =>
    cases h
    exact (passes_chars rfl rfl rfl).reaches
  | case3 p rest offset _ ih => exact (passes_piece rfl).reaches.trans (ih h)

theorem readComment_reaches (h : readComment c = some (t, d)) :
    (t.kind = .fault ∧ t.fault.isSome = true) ∨
    (t.kind ≠ .fault ∧ c.Passes d) := by
  unfold readComment at h
  split at h
  · next rest hrest =>
    cases h
    exact .inr (.intro nofun <| (passes_chars hrest rfl rfl).then (skipWhile_reaches _))
  · next rest hrest =>
    split at h
    · next hclose =>
      cases h
      exact .inr (.intro nofun <| (passes_chars hrest rfl rfl).then (closeComment_reaches hclose))
    · cases h
      exact .inl ⟨rfl, rfl⟩
  · cases h

/-- What is skipped is read, up to a comment that never ends. -/
theorem skipTriviaFrom_reaches (newline : Bool) (c : Cursor) :
    (∃ t, (c.skipTriviaFrom newline).fault = some t ∧ t.fault.isSome = true) ∨
      ((c.skipTriviaFrom newline).fault = none ∧ c.Reaches (c.skipTriviaFrom newline).cursor) := by
  fun_induction Cursor.skipTriviaFrom newline c with
  | case1 newline c hrest => exact .inr ⟨rfl, .refl c⟩
  | case2 newline c p rest hrest hblank ih =>
    exact ih.imp_right fun ⟨hnone, hread⟩ => ⟨hnone, (passes_piece hrest).reaches.trans hread⟩
  | case3 newline c p rest hrest hblank hline ih =>
    exact ih.imp_right fun ⟨hnone, hread⟩ => ⟨hnone, (passes_piece hrest).reaches.trans hread⟩
  | case4 newline c p rest hrest hblank hline hcomment => exact .inr ⟨rfl, .refl c⟩
  | case5 newline c p rest hrest hblank hline t d hcomment hfault =>
    rcases readComment_reaches hcomment with ⟨_, hsome⟩ | ⟨hkind, _⟩
    · exact .inl ⟨t, rfl, hsome⟩
    · exact absurd (beq_iff_eq.mp hfault) hkind
  | case6 newline c p rest hrest hblank hline t d hcomment hfault ih =>
    rcases readComment_reaches hcomment with ⟨hkind, _⟩ | ⟨_, hpassed⟩
    · exact absurd (beq_iff_eq.mpr hkind) hfault
    · exact ih.imp_right fun ⟨hnone, hread⟩ => ⟨hnone, hpassed.reaches.trans hread⟩

/-! ## Scanning -/

/-- Whichever reader the first character calls gives a token of this kind. -/
theorem readerFor_gives {x : Char} {y : Token × Cursor} (h : readerFor x c = some y) :
    c.Gives y := by
  unfold readerFor at h
  split at h
  · exact readString_gives h
  · split at h
    · exact readTemplate_gives h
    · split at h
      · exact readNumber_gives h
      · split at h
        · rcases Option.or_eq_some_iff.mp h with h | ⟨_, h⟩
          · exact readNumber_gives h
          · exact readPunctuator_gives h
        · split at h
          · exact readIdentifier_gives h
          · exact readPunctuator_gives h

/-- Where a well-formed token stands: it was read from the place where it starts, or it is the
end of the source and nothing is left at that place. -/
structure Token.StandsAt (t : Token) (place after : Cursor) : Prop where
  start : t.start = place.offset
  stop : t.stop = after.offset
  reaches : place.Reaches after
  ahead : t.kind ≠ .eof → place.Passes after
  ended : t.kind = .eof → place.rest = []
  wide : t.start + t.kind.leastWidth ≤ t.stop

/-- A token that was read stands where its text does. -/
theorem Token.ReadFrom.standsAt (h : t.ReadFrom c d) : t.StandsAt c d :=
  ⟨h.start, h.stop, h.passes.reaches, fun _ => h.passes, fun heof => absurd heof h.kind, h.wide⟩

/-- The next token stands at a place that is reached from the cursor. -/
theorem scanToken_stands (h : (scanToken c).1.fault = none) :
    ∃ place, c.Reaches place ∧ (scanToken c).1.StandsAt place (scanToken c).2 := by
  unfold scanToken at h ⊢
  dsimp only at h ⊢
  have htrivia := skipTriviaFrom_reaches false c
  rw [← Cursor.skipTrivia] at htrivia
  rcases htrivia with ⟨t, hfault, hsome⟩ | ⟨hnone, hread⟩
  · simp only [hfault] at h
    rw [h] at hsome
    cases hsome
  · refine ⟨_, hread, ?_⟩
    simp only [hnone] at h ⊢
    cases hnext : c.skipTrivia.cursor.next? with
    | none =>
      have hrest : c.skipTrivia.cursor.rest = [] := by
        unfold Cursor.next? at hnext
        split at hnext
        · assumption
        · cases hnext
      exact ⟨rfl, rfl, .refl _, fun hkind => absurd rfl hkind, fun _ => hrest, Nat.le_refl _⟩
    | some x =>
      obtain ⟨p, next⟩ := x
      simp only [hnext] at h ⊢
      cases hreader : readerFor p.scalar c.skipTrivia.cursor with
      | none =>
        rw [hreader] at h
        cases h
      | some y =>
        rw [hreader] at h
        have hstands := (readerFor_gives hreader h).standsAt
        exact ⟨hstands.start, hstands.stop, hstands.reaches, hstands.ahead, hstands.ended,
          hstands.wide⟩

/-! ## Places of a source -/

/-- Dropping the bytes of a prefix leaves the rest. -/
theorem dropBytes_width (before rest : Text) : dropBytes before.width (before ++ rest) = rest := by
  induction before with
  | nil => cases rest <;> rfl
  | cons p more ih =>
    have hp := p.width_pos
    obtain ⟨n, hn⟩ : ∃ n, width (p :: more) = n + 1 :=
      ⟨p.width + width more - 1, by rw [width_cons]; omega⟩
    have hmore : n + 1 - p.width = width more := by
      rw [← hn, width_cons, Nat.add_sub_cancel_left]
    rw [hn, List.cons_append, dropBytes, hmore, ih]

variable {source : Text}

/-- A cursor that was reached from the start stands behind a prefix of the source, at its
width. -/
theorem reaches_ofText (h : (ofText source).Reaches c) :
    ∃ before, source = before ++ c.rest ∧ c.offset = width before := by
  obtain ⟨before, hsource, hoffset⟩ := h
  rw [ofText, Nat.zero_add] at hoffset
  exact ⟨before, hsource, hoffset⟩

theorem dropBytes_offset (h : (ofText source).Reaches c) : dropBytes c.offset source = c.rest := by
  obtain ⟨before, hsource, hoffset⟩ := reaches_ofText h
  rw [hoffset, hsource, dropBytes_width]

/-- So its offset alone is enough to get back to it. -/
theorem seek_offset (h : (ofText source).Reaches c) : seek source c.offset = c := by
  rw [seek, dropBytes_offset h]

theorem offset_le (h : (ofText source).Reaches c) : c.offset ≤ width source := by
  obtain ⟨before, hsource, hoffset⟩ := reaches_ofText h
  rw [hoffset, hsource, width_append]
  exact Nat.le_add_right _ _

/-- A token that is read again stands at the place where it stood. -/
theorem rescan_stands {reader : Cursor → Reading} (hreader : ∀ c x, reader c = some x → c.Gives x)
    (hplace : (ofText source).Reaches c) (ht : t.StandsAt c d)
    (hfault : (rescan reader source t).1.fault = none) :
    (rescan reader source t).1.StandsAt c (rescan reader source t).2 := by
  unfold rescan at hfault ⊢
  rw [ht.start, ht.stop, seek_offset hplace] at hfault ⊢
  cases hread : reader c with
  | none =>
    rw [seek_offset (hplace.trans ht.reaches)]
    exact ht
  | some x =>
    rw [hread] at hfault
    have hstands := (hreader c x hread hfault).standsAt
    exact ⟨hstands.start, hstands.stop, hstands.reaches, hstands.ahead, hstands.ended, hstands.wide⟩

theorem readHashbang_reaches (h : readHashbang c = some (t, d)) : c.Reaches d := by
  unfold readHashbang at h
  split at h
  · next rest hoffset hrest =>
    cases h
    have hopen := passes_chars hrest rfl rfl
    rw [hoffset] at hopen
    exact hopen.reaches.trans (skipWhile_reaches _)
  · cases h

theorem readHashbang_stop (h : readHashbang c = some (t, d)) : t.stop = d.offset := by
  unfold readHashbang at h
  split at h
  · cases h
    rfl
  · cases h

end EcmaStack
