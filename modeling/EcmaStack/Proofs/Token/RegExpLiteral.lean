import EcmaStack.Proofs.Token.Reading
import EcmaStack.Token.RegExp

/-!
# The grammar of regular expression literals

A body is made of plain characters, escapes and character classes, and no line ends in it
(`RegExpBody`). The reader goes through a body with two flags and no grammar. What may come in
each of its states is a part of a body too (`BodyState.Left`), and one step of the reader takes
one character of it (`BodyState.left_cons`), so the reader finds the first slash that leaves a
body before it (`readBodyFrom_iff`). With the flags this is the literal (`readRegExp_exact`).
-/

namespace EcmaStack

open Text

/-! ## The grammar -/

/-- The inside of a character class. -/
inductive ClassBody : Text → Prop where
  | nil : ClassBody []
  | plain {p r} : isLineTerminator p.scalar = false → p ≠ .char '\\' → p ≠ .char ']' → ClassBody r →
    ClassBody (p :: r)
  | escaped {p r} : isLineTerminator p.scalar = false → ClassBody r →
    ClassBody (.char '\\' :: p :: r)

/-- The body of a regular expression literal, which may be empty here and start with a star. -/
inductive RegExpBody : Text → Prop where
  | nil : RegExpBody []
  | plain {p r} : isLineTerminator p.scalar = false → p ≠ .char '\\' → p ≠ .char '/' →
    p ≠ .char '[' → RegExpBody r →
      RegExpBody (p :: r)
  | escaped {p r} : isLineTerminator p.scalar = false → RegExpBody r →
    RegExpBody (.char '\\' :: p :: r)
  | charClass {inside r} : ClassBody inside → RegExpBody r →
    RegExpBody (.char '[' :: inside ++ .char ']' :: r)

/-- Flags: no letter stands twice. -/
def RegExpFlags (f : Text) : Prop :=
  ∃ letters : List Char, f = letters.map .char ∧ letters.Nodup ∧ ∀ x ∈ letters, x ∈
    "dgimsuyv".toList

/-- How a literal is spelled. -/
def regExpSpelling (body flags : Text) : Text :=
  .char '/' :: body ++ .char '/' :: flags

/-- A text starts with a regular expression literal: its body, its flags and what is left after
it. -/
structure RegExpLiteral (text body flags after : Text) : Prop where
  spelled : text = regExpSpelling body flags ++ after
  nonempty : body ≠ []
  first : body.head? ≠ some (.char '*')
  wellFormed : RegExpBody body
  distinct : RegExpFlags flags
  follow : ∀ p ∈ after.head?, isIdentifierPart p.scalar = false ∧ p.scalar ≠ '\\'

/-! ## Bodies, from every state -/

section

variable {p q : Piece} {r body rest text : Text} {s : BodyState} {c : Bool} {offset : Nat}
    {d : Cursor}

/-- What is left of a body inside a character class. -/
def ClassLeft (r : Text) : Prop :=
  ∃ inside after, r = inside ++ .char ']' :: after ∧ ClassBody inside ∧ RegExpBody after

/-- What is left of a body in a state of the reader. -/
def BodyState.Left : BodyState → Text → Prop
  | ⟨false, false⟩, r => RegExpBody r
  | ⟨false, true⟩, r => ClassLeft r
  | ⟨true, false⟩, r => ∃ p r', r = p :: r' ∧ isLineTerminator p.scalar = false ∧ RegExpBody r'
  | ⟨true, true⟩, r => ∃ p r', r = p :: r' ∧ isLineTerminator p.scalar = false ∧ ClassLeft r'

/-- A piece is told by its value, unless that is the one that stands for stray bytes. -/
theorem Piece.eq_char_iff {x : Char} (hx : x ≠ replacement) : p.scalar = x ↔ p = .char x :=
  ⟨fun h => Piece.eq_char h hx, fun h => congrArg Piece.scalar h⟩

/-- The grammar of a body, told by its first piece: a pair behind a backslash, a class, or
a plain piece. -/
theorem regExpBody_cons : RegExpBody (p :: r) ↔ isLineTerminator p.scalar = false ∧
    ((p = .char '\\' ∧ ∃ q r', r = q :: r' ∧ isLineTerminator q.scalar = false ∧ RegExpBody r') ∨
      (p = .char '[' ∧ ClassLeft r) ∨ p ≠ .char '\\' ∧ p ≠ .char '/' ∧ p ≠ .char '[' ∧
      RegExpBody r) := by
  constructor
  · intro h
    cases h with
    | plain hline hescape hslash hclass hr =>
      exact ⟨hline, .inr (.inr ⟨hescape, hslash, hclass, hr⟩)⟩
    | escaped hline hr => exact ⟨rfl, .inl ⟨rfl, _, _, rfl, hline, hr⟩⟩
    | charClass hinside hr => exact ⟨rfl, .inr (.inl ⟨rfl, _, _, rfl, hinside, hr⟩)⟩
  · rintro ⟨hline, ⟨rfl, q, r', rfl, hq, hr⟩ | ⟨rfl, inside, after, rfl, hinside,
      hafter⟩ | ⟨hescape, hslash, hclass, hr⟩⟩
    · exact .escaped hq hr
    · exact .charClass hinside hafter
    · exact .plain hline hescape hslash hclass hr

/-- The same for what is left of a class. -/
theorem classLeft_cons : ClassLeft (p :: r) ↔ isLineTerminator p.scalar = false ∧
    ((p = .char '\\' ∧ ∃ q r', r = q :: r' ∧ isLineTerminator q.scalar = false ∧ ClassLeft r') ∨
      (p = .char ']' ∧ RegExpBody r) ∨ p ≠ .char '\\' ∧ p ≠ .char ']' ∧ ClassLeft r) := by
  constructor
  · rintro ⟨inside, after, hr, hinside, hafter⟩
    cases hinside with
    | nil =>
      cases hr
      exact ⟨rfl, .inr (.inl ⟨rfl, hafter⟩)⟩
    | plain hline hescape hclose hmore =>
      cases hr
      exact ⟨hline, .inr (.inr ⟨hescape, hclose, _, after, rfl, hmore, hafter⟩)⟩
    | escaped hline hmore =>
      cases hr
      exact ⟨rfl, .inl ⟨rfl, _, _, rfl, hline, _, after, rfl, hmore, hafter⟩⟩
  · rintro ⟨hline, ⟨rfl, q, r', rfl, hq, inside, after, rfl, hinside, hafter⟩ | ⟨rfl, hr⟩ |
      ⟨hescape, hclose, inside, after, rfl, hinside, hafter⟩⟩
    · exact ⟨_, after, rfl, .escaped hq hinside, hafter⟩
    · exact ⟨[], r, rfl, .nil, hr⟩
    · exact ⟨_, after, rfl, .plain hline hescape hclose hinside, hafter⟩

/-- A body ends in the state it starts in only. -/
theorem BodyState.left_nil : s.Left [] ↔ s.escape = false ∧ s.charClass = false := by
  obtain ⟨_ | _, _ | _⟩ := s
  · exact ⟨fun _ => ⟨rfl, rfl⟩, fun _ => .nil⟩
  · refine ⟨?_, nofun⟩
    rintro ⟨inside, after, hr, -⟩
    cases inside <;> cases hr
  · exact ⟨nofun, nofun⟩
  · exact ⟨nofun, nofun⟩

/-- The reader stays in its state on a character that means nothing there. -/
theorem BodyState.step_plain (hclass : p ≠ .char '[') (hescape : p ≠ .char '\\')
    (hclose : p ≠ .char ']') :
    BodyState.step ⟨false, c⟩ p.scalar = ⟨false, c⟩ := by
  rw [ne_eq, ← Piece.eq_char_iff (by decide)] at hclass hescape hclose
  simp [step, hclass, hescape, hclose]

/-- One more character of a body is no line end and not the slash after it, and the reader is in
step with the rest. -/
theorem BodyState.left_cons : s.Left (p :: r) ↔ isLineTerminator p.scalar = false ∧
    ¬(s.escape = false ∧ s.charClass = false ∧ p = .char '/') ∧ (s.step p.scalar).Left r := by
  obtain ⟨_ | _, _ | _⟩ := s
  -- The four states of the reader: plain, in a class, and behind a backslash in each of the two.
  · show RegExpBody (p :: r) ↔ _
    rw [regExpBody_cons]
    by_cases hclass : p = .char '['
    · subst hclass
      simp [step, Piece.scalar, Left]
    by_cases hescape : p = .char '\\'
    · subst hescape
      simp [step, Piece.scalar, Left]
    by_cases hclose : p = .char ']'
    · subst hclose
      simp [step, Piece.scalar, Left]
    · rw [step_plain hclass hescape hclose]
      simp [Left, hclass, hescape]
  · show ClassLeft (p :: r) ↔ _
    rw [classLeft_cons]
    by_cases hclass : p = .char '['
    · subst hclass
      simp [step, Piece.scalar, Left]
    by_cases hescape : p = .char '\\'
    · subst hescape
      simp [step, Piece.scalar, Left]
    by_cases hclose : p = .char ']'
    · subst hclose
      simp [step, Piece.scalar, Left]
    · rw [step_plain hclass hescape hclose]
      simp [Left, hclose, hescape]
  · constructor
    · rintro ⟨_, _, ⟨⟩, hline, hr⟩
      exact ⟨hline, nofun, hr⟩
    · rintro ⟨hline, -, hr⟩
      exact ⟨p, r, rfl, hline, hr⟩
  · constructor
    · rintro ⟨_, _, ⟨⟩, hline, hr⟩
      exact ⟨hline, nofun, hr⟩
    · rintro ⟨hline, -, hr⟩
      exact ⟨p, r, rfl, hline, hr⟩

/-- A slash ends a body in the state it starts in. -/
theorem closes_iff : (!s.escape && !s.charClass && p == .char '/') = true ↔
    s.escape = false ∧ s.charClass = false ∧ p = .char '/' := by
  rw [Bool.and_eq_true, Bool.and_eq_true, Bool.not_eq_true', Bool.not_eq_true', beq_iff_eq,
    and_assoc]

/-- The reader answers what is left of a body before the first slash that leaves none. -/
theorem readBodyFrom_iff : readBodyFrom s body text offset = .ok (r, d) ↔
    ∃ p, s.Left p ∧ text = p ++ .char '/' :: d.rest ∧ r = p.reverse ++ body ∧ d.offset =
      offset + p.width + 1 := by
  induction text generalizing s body offset with
  -- By induction on the text. Where it ends the body is not closed.
  | nil => simp [readBodyFrom]
  | cons q rest ih =>
    rw [readBodyFrom]
    split
    -- No body goes over the end of a line.
    · next hline =>
      refine ⟨nofun, ?_⟩
      rintro ⟨p, hleft, htext, -, -⟩
      cases p with
      | nil =>
        cases htext
        cases hline
      | cons q' p =>
        cases htext
        rw [(BodyState.left_cons.mp hleft).1] at hline
        cases hline
    · next hline =>
      split
      -- The slash that closes: the body ends here, and by the grammar it cannot go on.
      · next hcloses =>
        obtain ⟨hescape, hclass, rfl⟩ := closes_iff.mp hcloses
        constructor
        · intro h
          cases h
          exact ⟨[], BodyState.left_nil.mpr ⟨hescape, hclass⟩, rfl, rfl, rfl⟩
        · rintro ⟨p, hleft, htext, rfl, hoffset⟩
          cases p with
          | nil =>
            obtain ⟨after, stop⟩ := d
            cases htext
            cases hoffset
            rfl
          | cons q' p =>
            cases htext
            exact absurd ⟨hescape, hclass, rfl⟩ (BodyState.left_cons.mp hleft).2.1
      · next hcloses =>
        rw [ih]
        constructor
        · rintro ⟨p, hleft, rfl, rfl, hoffset⟩
          refine ⟨q :: p, ?_, rfl, ?_, ?_⟩
          · exact BodyState.left_cons.mpr ⟨Bool.eq_false_iff.mpr hline,
              fun h => hcloses (closes_iff.mpr h), hleft⟩
          · rw [List.reverse_cons, List.append_assoc, List.singleton_append]
          · rw [hoffset, width_cons, Nat.add_assoc offset q.width]
        · rintro ⟨p, hleft, htext, rfl, hoffset⟩
          cases p with
          | nil =>
            cases htext
            have hstart := BodyState.left_nil.mp hleft
            exact absurd (closes_iff.mpr ⟨hstart.1, hstart.2, rfl⟩) hcloses
          | cons q' p =>
            cases htext
            refine ⟨p, (BodyState.left_cons.mp hleft).2.2, rfl, ?_, ?_⟩
            · rw [List.reverse_cons, List.append_assoc, List.singleton_append]
            · rw [hoffset, width_cons, Nat.add_assoc offset q.width]

/-! ## Flags -/

/-- The letters that may stand as flags. -/
theorem regExpFlags_eq : regExpFlags = "dgimsuyv".toList := by
  decide

/-- A flag is a letter that could continue a name. -/
theorem flag_letter : ∀ x ∈ regExpFlags, isIdentifierPart x = true ∧ x ≠ replacement := by
  have hall : (regExpFlags.all fun x => isIdentifierPart x && x != replacement) = true := by decide
  intro x hx
  exact (Bool.and_eq_true_iff.mp (List.all_eq_true.mp hall x hx)).imp_right bne_iff_ne.mp

/-- The reader answers flags only that are distinct, and not followed by what could continue a
name. -/
theorem readFlagsFrom_ok {flags read : List Char}
    (h : readFlagsFrom flags text offset = .ok (read, d)) :
    ∃ letters : List Char, text = letters.map .char ++ d.rest ∧ read = letters.reverse ++ flags ∧
    letters.Nodup ∧
      (∀ x ∈ letters, x ∈ regExpFlags ∧ x ∉ flags) ∧ d.identifierFollows = false ∧
      d.offset = offset + width (letters.map .char) := by
  induction text generalizing flags offset with
  | nil =>
    cases h
    exact ⟨[], rfl, rfl, List.nodup_nil, nofun, rfl, rfl⟩
  | cons p rest ih =>
    rw [readFlagsFrom] at h
    split at h
    · split at h
      · cases h
      · next hflag =>
        split at h
        · cases h
        · next hfresh =>
          -- A flag is a plain letter that was not there before.
          have hflag : p.scalar ∈ regExpFlags := by simpa using hflag
          have hfresh : p.scalar ∉ flags := by simpa using hfresh
          obtain ⟨letters, rfl, rfl, hnodup, hletters, hfollow, hoffset⟩ := ih h
          have hp := Piece.eq_char rfl (flag_letter _ hflag).2
          refine ⟨p.scalar :: letters, ?_, ?_, ?_, ?_, hfollow, ?_⟩
          · rw [List.map_cons, ← hp, List.cons_append]
          · rw [List.reverse_cons, List.append_assoc, List.singleton_append]
          · exact List.nodup_cons.mpr ⟨fun hmem => (hletters _ hmem).2 List.mem_cons_self, hnodup⟩
          · refine List.forall_mem_cons.mpr ⟨⟨hflag, hfresh⟩,
              fun x hx => ⟨(hletters x hx).1, fun hmem => ?_⟩⟩
            exact (hletters x hx).2 (List.mem_cons_of_mem _ hmem)
          · rw [hoffset, List.map_cons, ← hp, width_cons, Nat.add_assoc offset p.width]
    · next hpart =>
      cases h
      exact ⟨[], rfl, rfl, List.nodup_nil, nofun, Bool.eq_false_iff.mpr hpart, rfl⟩

/-- It answers all of these. -/
theorem readFlagsFrom_letters {flags letters : List Char} {after : Text} (hnodup : letters.Nodup)
    (hletters : ∀ x ∈ letters, x ∈ regExpFlags ∧ x ∉ flags)
    (hfollow : (Cursor.mk after 0).identifierFollows = false) :
    readFlagsFrom flags (letters.map .char ++ after) offset =
      .ok (letters.reverse ++ flags, ⟨after, offset + width (letters.map .char)⟩) := by
  induction letters generalizing flags offset with
  | nil =>
    cases after with
    | nil => rfl
    | cons p rest => exact if_neg (Bool.eq_false_iff.mp hfollow)
  | cons x letters ih =>
    obtain ⟨⟨hflag, hfresh⟩, hletters⟩ := List.forall_mem_cons.mp hletters
    obtain ⟨hx, hnodup⟩ := List.nodup_cons.mp hnodup
    have hpart : (isIdentifierPart x || x == '\\') = true :=
      Bool.or_eq_true_iff.mpr (.inl (flag_letter x hflag).1)
    have hknown : (!regExpFlags.contains x) = false := by simpa using hflag
    have hnew : flags.contains x = false := by simpa using hfresh
    simp only [List.map_cons, List.cons_append, readFlagsFrom, Piece.scalar, hpart, hknown, hnew,
      if_true, Bool.false_eq_true, if_false]
    rw [ih hnodup fun y hy => ⟨(hletters y hy).1, fun hmem => ?_⟩, List.reverse_cons,
      List.append_assoc, List.singleton_append, width_cons, Nat.add_assoc]
    rcases List.mem_cons.mp hmem with rfl | hmem
    · exact hx hy
    · exact (hletters y hy).2 hmem

/-! ## The literal -/

end

variable {text p f after p' f' after' : Text} {c d : Cursor} {t : Token}

theorem regExpSpelling_append (p f after : Text) :
    regExpSpelling p f ++ after = .char '/' :: (p ++ .char '/' :: (f ++ after)) := by
  rw [regExpSpelling, List.append_assoc, List.cons_append, List.cons_append]

theorem width_regExpSpelling (p f : Text) :
    width (regExpSpelling p f) = 1 + p.width + 1 + width f := by
  rw [regExpSpelling, width_append, width_cons, width_cons, ← Nat.add_assoc]
  rfl

/-- A body does not start with what would make a comment of it. -/
theorem RegExpLiteral.opens (h : RegExpLiteral text p f after) (offset : Nat) :
    (Cursor.mk (p ++ .char '/' :: (f ++ after)) offset).at? (fun x => x == '/' || x == '*') =
      false := by
  cases p with
  | nil => exact absurd rfl h.nonempty
  | cons q p =>
    have hslash : q ≠ .char '/' := by
      rintro rfl
      exact (BodyState.left_cons (s := ⟨false, false⟩).mp h.wellFormed).2.1 ⟨rfl, rfl, rfl⟩
    have hstar : q ≠ .char '*' := fun hq => h.first (congrArg some hq)
    rw [ne_eq, ← Piece.eq_char_iff (by decide)] at hslash hstar
    simp [Cursor.at?, Cursor.peek?, hslash, hstar]

/-- A literal is read as a token that covers it and keeps its body and flags, and reading goes
on behind it. -/
theorem RegExpLiteral.read (h : RegExpLiteral text p f after) (offset : Nat) :
    readRegExp ⟨text, offset⟩ = some
      ({ kind := .regexp, start := offset, stop := offset + width (regExpSpelling p f),
         value := p, raw := f },
        ⟨after, offset + width (regExpSpelling p f)⟩) := by
  obtain ⟨letters, hf, hnodup, hletters⟩ := h.distinct
  have htake : (Cursor.mk text offset).take? '/' =
      some ⟨p ++ .char '/' :: (f ++ after), offset + 1⟩ := by
    rw [h.spelled, regExpSpelling_append]
    rfl
  have hbody : readBodyFrom ⟨false, false⟩ [] (p ++ .char '/' :: (f ++ after)) (offset + 1) =
      .ok (p.reverse ++ [], ⟨f ++ after, offset + 1 + p.width + 1⟩) :=
    readBodyFrom_iff.mpr ⟨p, h.wellFormed, rfl, rfl, rfl⟩
  have hflags : readFlagsFrom [] (letters.map .char ++ after) (offset + 1 + p.width + 1) =
      .ok (letters.reverse ++ [], _) :=
    readFlagsFrom_letters hnodup (fun x hx => ⟨regExpFlags_eq ▸ hletters x hx, List.not_mem_nil⟩)
      (Cursor.identifierFollows_eq_false.mpr h.follow)
  rw [← hf] at hflags
  simp only [readRegExp, htake, h.opens, Bool.false_eq_true, if_false, hbody, hflags,
    List.append_nil, List.reverse_reverse, ← hf, width_regExpSpelling, ← Nat.add_assoc]

/-- A text starts with one literal at most. -/
theorem RegExpLiteral.unique (h : RegExpLiteral text p f after)
    (k : RegExpLiteral text p' f' after') :
    p' = p ∧ f' = f ∧ after' = after := by
  have hread := (k.read 0).symm.trans (h.read 0)
  simp only [Option.some.injEq, Prod.mk.injEq, Token.mk.injEq, Cursor.mk.injEq] at hread
  exact ⟨hread.1.2.2.2.2.2.1, hread.1.2.2.2.2.2.2.1, hread.2.1⟩

/-- What is read as a regular expression is a literal. -/
theorem regExpLiteral_of_read (h : readRegExp c = some (t, d)) (hkind : t.kind = .regexp) :
    RegExpLiteral c.rest t.value t.raw d.rest := by
  rw [readRegExp] at h
  split at h
  · cases h
  · next inner htake =>
    obtain ⟨hrest, -⟩ := Cursor.take?_eq_some htake
    split at h
    · cases h
    · next hopens =>
      split at h
      · cases h
        cases hkind
      · next body closed hbody =>
        obtain ⟨p, hp, hinner, hreverse, -⟩ := readBodyFrom_iff.mp hbody
        rw [List.append_nil] at hreverse
        split at h
        · cases h
          cases hkind
        · next letters after hflags =>
          obtain ⟨ls, hclosed, hread, hnodup, hletters, hfollow, -⟩ := readFlagsFrom_ok hflags
          rw [List.append_nil] at hread
          cases h
          subst hreverse hread
          rw [List.reverse_reverse, List.reverse_reverse]
          refine ⟨?_, ?_, ?_, hp, ⟨ls, rfl, hnodup, fun x hx => regExpFlags_eq ▸ (hletters x hx).1⟩,
            Cursor.identifierFollows_eq_false.mp hfollow⟩
          -- The body is not empty and does not start with a star: both would have opened a
          -- comment.
          · rw [hrest, hinner, hclosed, regExpSpelling_append]
          · rintro rfl
            rw [Cursor.at?, Cursor.peek?, hinner] at hopens
            exact hopens rfl
          · intro hstar
            obtain ⟨more, rfl⟩ := List.head?_eq_some_iff.mp hstar
            rw [Cursor.at?, Cursor.peek?, hinner] at hopens
            exact hopens rfl

/-- Exactly the literals of the grammar are read as regular expressions: the token has a body
and flags if a literal with these starts at the cursor, it covers this literal and no more, and
no other one starts there. -/
theorem readRegExp_exact (c : Cursor) (p f : Text) :
    ((∃ t d, readRegExp c = some (t, d) ∧ t.kind = .regexp ∧ t.value = p ∧ t.raw = f) ↔ ∃ after,
      RegExpLiteral c.rest p f after) ∧
      ∀ after, RegExpLiteral c.rest p f after →
        (∃ t, readRegExp c = some (t, ⟨after, t.stop⟩) ∧ t.kind = .regexp ∧ t.value = p ∧
          t.raw = f ∧ t.start = c.offset ∧
          t.stop = c.offset + width (regExpSpelling p f)) ∧
        ∀ p' f' after', RegExpLiteral c.rest p' f' after' → p' = p ∧ f' = f ∧ after' = after := by
  refine ⟨⟨?_, ?_⟩, ?_⟩
  · rintro ⟨t, d, hread, hkind, rfl, rfl⟩
    exact ⟨d.rest, regExpLiteral_of_read hread hkind⟩
  · rintro ⟨after, h⟩
    exact ⟨_, _, h.read c.offset, rfl, rfl, rfl⟩
  · intro after h
    exact ⟨⟨_, h.read c.offset, rfl, rfl, rfl, rfl, rfl⟩, fun p' f' after' k => h.unique k⟩

/-- A class with both slash and bracket in it, a bracket and an escaped slash after it, and two
flags. -/
theorem readRegExp_exact_slashInClass :
    RegExpLiteral (ofString "/[/\\]]]\\//gy;") (ofString "[/\\]]]\\/") (ofString "gy")
    (ofString ";") ∧
      ∃ t, readRegExp ⟨ofString "/[/\\]]]\\//gy;", 4⟩ = some (t, ⟨ofString ";", 16⟩) ∧ t.value =
        ofString "[/\\]]]\\/" := by
  have hclass : ClassBody [.char '/', .char '\\', .char ']'] :=
    .plain rfl (by decide) (by decide) (.escaped rfl .nil)
  have hbody : RegExpBody (ofString "[/\\]]]\\/") :=
    .charClass hclass (.plain rfl (by decide) (by decide) (by decide) (.escaped rfl .nil))
  have hflags : RegExpFlags (ofString "gy") :=
    ⟨['g', 'y'], rfl, by decide, List.forall_mem_cons.mpr ⟨by
      decide, List.forall_mem_singleton.mpr (by decide)⟩⟩
  have hliteral : RegExpLiteral (ofString "/[/\\]]]\\//gy;") (ofString "[/\\]]]\\/") (ofString "gy")
      (ofString ";") :=
    ⟨rfl, by decide, by decide, hbody, hflags, by rintro p ⟨⟩; decide⟩
  obtain ⟨⟨t, hread, -, hvalue, -, -, hstop⟩, -⟩ :=
    (readRegExp_exact ⟨ofString "/[/\\]]]\\//gy;", 4⟩ (ofString "[/\\]]]\\/") (ofString "gy")).2
      (ofString ";") hliteral
  have hend : t.stop = 16 := hstop
  rw [hend] at hread
  exact ⟨hliteral, t, hread, hvalue⟩

end EcmaStack
