import EcmaStack.Proofs.Token.Reading

/-!
# Reading makes progress

Whatever a reader answers, a token or a fault, the cursor it goes on from is reached from the
cursor where it started, and lies past it (`Cursor.Advances`). Where reading stops inside a
token nothing is read twice and nothing is passed over: each way to stop names a cursor that was
reached on the way.

A fault blames a range of its own, which need not be what was read: it can go one byte past the
cursor, and it can start behind what was read last. It never starts before the cursor where
reading started nor goes past the end of the source (`Cursor.Covers`).
-/

namespace EcmaStack

open Text Cursor

variable {b c d : Cursor} {r : Rejection} {x : Token × Cursor}

namespace Cursor

/-- The end of the source, seen from a cursor. -/
def limit (c : Cursor) : Nat :=
  c.offset + width c.rest

/-- A range lies in what is left of the source. -/
structure Covers (c : Cursor) (start stop : Nat) : Prop where
  starts : c.offset ≤ start
  ordered : start ≤ stop
  stops : stop ≤ c.limit

theorem Reaches.offset_le (h : c.Reaches d) : c.offset ≤ d.offset := by
  obtain ⟨read, _, hoffset⟩ := h
  rw [hoffset]
  exact Nat.le_add_right _ _

/-- A cursor that was reached and stands elsewhere stands behind. -/
theorem passes_of_offset_ne (h : c.Reaches d) (hne : d.offset ≠ c.offset) : c.Passes d := by
  refine ⟨h, ?_⟩
  obtain ⟨read, hrest, hoffset⟩ := h
  cases read with
  | nil => exact absurd hoffset hne
  | cons p read =>
    rw [hrest, List.length_append, List.length_cons]
    omega

/-- Reading does not move the end of the source. -/
theorem Reaches.limit_eq (h : c.Reaches d) : d.limit = c.limit := by
  obtain ⟨read, hrest, hoffset⟩ := h
  rw [limit, limit, hrest, hoffset, width_append, Nat.add_assoc]

/-- What lies in reach of a later cursor lies in reach of the earlier one. -/
theorem Reaches.covers {start stop : Nat} (h : b.Reaches c) (k : c.Covers start stop) :
    b.Covers start stop :=
  ⟨Nat.le_trans h.offset_le k.starts, k.ordered, h.limit_eq ▸ k.stops⟩

/-- What is read between two cursors lies in the source. -/
theorem covers_read (h : c.Reaches d) : c.Covers c.offset d.offset :=
  ⟨Nat.le_refl _, h.offset_le, h.limit_eq ▸ Nat.le_add_right _ _⟩

/-- Where a piece is left, the source goes on for a byte at least. -/
theorem covers_piece {p : Piece} {rest : Text} (h : c.Reaches d) (hrest : d.rest = p :: rest) :
    c.Covers c.offset (d.offset + 1) := by
  refine ⟨Nat.le_refl _, Nat.le_succ_of_le h.offset_le, h.limit_eq ▸ ?_⟩
  have := p.width_pos
  rw [limit, hrest, width_cons]
  omega

theorem exists_rest_of_peek? {y : Char} (h : c.peek? = some y) : ∃ p rest, c.rest = p :: rest := by
  obtain ⟨p, hp, _⟩ := Option.map_eq_some_iff.mp h
  exact ⟨p, List.head?_eq_some_iff.mp hp⟩

theorem exists_rest_of_at? {test : Char → Bool} (h : c.at? test = true) :
    ∃ p rest, c.rest = p :: rest := by
  unfold at? at h
  split at h
  · next hpeek => exact exists_rest_of_peek? hpeek
  · cases h

end Cursor

/-- A token that is read at a cursor is well formed, or else it is of kind `fault`, says what is
wrong and blames a range of what is left of the source. -/
def Token.SoundAt (t : Token) (c : Cursor) : Prop :=
  (t.kind ≠ .fault ∧ t.fault = none) ∨
    (t.kind = .fault ∧ t.fault.isSome = true ∧ c.Covers t.start t.stop)

/-- What a reader answers is sound, and goes on past the cursor. -/
structure Cursor.Advances (c : Cursor) (x : Token × Cursor) : Prop where
  passes : c.Passes x.2
  sound : x.1.SoundAt c

/-- A fault is sound where the bytes that it points at lie in reach. -/
theorem soundAt_ofFault {cause : LexicalFault} {start stop : Nat} (h : c.Covers start stop) :
    (Token.ofFault cause start stop).SoundAt c :=
  .inr ⟨rfl, rfl, h⟩

/-- A refusal that passed something is a step forward. -/
theorem Rejection.advances (h : c.Passes r.cursor ∧ c.Covers r.start r.stop) : c.Advances r.token :=
  ⟨h.1, soundAt_ofFault h.2⟩

/-- A reader that stops in the middle blames what it has read. -/
theorem advances_ofFault {cause : LexicalFault} (h : c.Passes d) :
    c.Advances (.ofFault cause c.offset d.offset, d) :=
  ⟨h, soundAt_ofFault (covers_read h.reaches)⟩

/-- A token without a fault is a step forward, as it is not empty. -/
theorem Cursor.Gives.advances (h : c.Gives x) (hx : x.1.fault = none) (hkind : x.1.kind ≠ .fault) :
    c.Advances x :=
  ⟨(h hx).passes, .inl ⟨hkind, hx⟩⟩

/-! ## Where escapes stop -/

/-- The parts of an escape stop where they can read no further, never in front of where
they started. -/
theorem hexRun_stops {n v : Nat} (h : hexRun n v c = .error d) : c.Reaches d := by
  induction n generalizing v c with
  | zero => cases h
  | succ n ih =>
    rw [hexRun] at h
    split at h
    · next hdigit => exact (hexDigit?_passes hdigit).reaches.trans (ih h)
    · cases h
      exact .refl _

theorem bracedCode_stops {v offset : Nat} {text : Text} (h : bracedCode v text offset = .error d) :
    Reaches ⟨text, offset⟩ d := by
  induction text generalizing v offset with
  | nil =>
    cases h
    exact .refl _
  | cons p rest ih =>
    have hpiece : Reaches ⟨p :: rest, offset⟩ ⟨rest, offset + p.width⟩ := (passes_piece rfl).reaches
    rw [bracedCode] at h
    split at h
    · split at h
      · cases h
        exact hpiece
      · exact hpiece.trans (ih h)
    · split at h
      · cases h
      · cases h
        exact .refl _

theorem readUnicodeEscape_stops (h : readUnicodeEscape c = .error d) : c.Reaches d := by
  unfold readUnicodeEscape at h
  split at h
  · next hrest =>
    have hopen := (passes_char hrest rfl).reaches
    dsimp only at h
    split at h
    · cases h
      exact hopen
    · next hdigit =>
      split at h
      · cases h
      · next hcode =>
        cases h
        exact hopen.trans ((hexDigit?_passes hdigit).reaches.trans (bracedCode_stops hcode))
  · split at h
    · next hrun =>
      cases h
      exact hexRun_stops hrun
    · split at h
      · split at h <;> cases h
      · cases h

/-- An escape is blamed together with its backslash. -/
theorem readEscape_stops (hb : b.Reaches c) (hbackslash : c.offset = b.offset + 1)
    (h : readEscape c = .error r) :
    c.Reaches r.cursor ∧ b.Covers r.start r.stop := by
  have hstart : c.offset - 1 = b.offset := by omega
  unfold readEscape at h
  dsimp only at h
  rw [hstart] at h
  -- Most faults are reported from the backslash up to where the reader stopped; the cases follow
  -- the reader's.
  have hread {d : Cursor} (hd : c.Reaches d) : c.Reaches d ∧ b.Covers b.offset d.offset :=
    ⟨hd, covers_read (hb.trans hd)⟩
  split at h
  · cases h
    exact hread (.refl c)
  · next p rest hrest =>
    have hpiece := (passes_piece hrest).reaches
    split at h
    · cases h
    · split at h
      · cases h
      · split at h
        · split at h
          · next hdigit =>
            cases h
            obtain ⟨q, more, hmore⟩ := exists_rest_of_at? hdigit
            exact ⟨hpiece, covers_piece (hb.trans hpiece) hmore⟩
          · cases h
        · split at h
          · cases h
            exact hread hpiece
          · split at h
            · split at h
              · cases h
              · next hrun =>
                cases h
                exact hread (hpiece.trans (hexRun_stops hrun))
            · split at h
              · split at h
                · cases h
                · next hunicode =>
                  cases h
                  exact hread (hpiece.trans (readUnicodeEscape_stops hunicode))
              · split at h <;> cases h

/-! ## Names -/

/-- A name is refused for an escape, whose backslash is read. -/
theorem readNameFrom_stops {soFar : PartialName} (h : readNameFrom soFar c = .error r) :
    c.Passes r.cursor ∧ c.Covers r.start r.stop := by
  have hread {c d : Cursor} (hd : c.Passes d) : c.Passes d ∧ c.Covers c.offset d.offset :=
    ⟨hd, covers_read hd.reaches⟩
  fun_induction readNameFrom soFar c with
  | case1 => cases h
  | case2 soFar c p rest hrest next hbackslash tail htail x after hescape haccepts ih =>
    have hpassed : c.Passes after := (passes_piece hrest).then
      ((passes_char htail rfl).reaches.trans (readUnicodeEscape_reaches hescape))
    exact ⟨hpassed.then (ih h).1.reaches, hpassed.reaches.covers (ih h).2⟩
  | case3 soFar c p rest hrest next hbackslash tail htail x after hescape haccepts =>
    cases h
    exact hread ((passes_piece hrest).then
      ((passes_char htail rfl).reaches.trans (readUnicodeEscape_reaches hescape)))
  | case4 soFar c p rest hrest next hbackslash tail htail stopped hescape =>
    cases h
    exact hread ((passes_piece hrest).then
      ((passes_char htail rfl).reaches.trans (readUnicodeEscape_stops hescape)))
  | case5 soFar c p rest hrest next =>
    cases h
    exact hread (passes_piece hrest)
  | case6 soFar c p rest hrest next hplain haccepts ih =>
    have hpassed : c.Passes next := passes_piece hrest
    exact ⟨hpassed.then (ih h).1.reaches, hpassed.reaches.covers (ih h).2⟩
  | case7 => cases h

theorem readIdentifier_advances (h : readIdentifier c = some x) : c.Advances x := by
  have hgives := readIdentifier_gives h
  unfold readIdentifier at h
  dsimp only at h
  split at h
  · next r hname =>
    cases h
    refine r.advances ?_
    cases hhash : c.take? '#' with
    | none =>
      rw [hhash] at hname
      exact readNameFrom_stops hname
    | some body =>
      rw [hhash] at hname
      have hopen := take?_passes hhash
      have hstops := readNameFrom_stops hname
      exact ⟨hopen.then hstops.1.reaches, hopen.reaches.covers hstops.2⟩
  · split at h
    · cases h
    · cases h
      refine hgives.advances rfl ?_
      dsimp only
      split
      · rintro ⟨⟩
      · exact nameKind_ne rfl

/-! ## Numbers -/

/-- What was refused, or what followed was. -/
private theorem except_bind_error {ε α β : Type} {x : Except ε α} {f : α → Except ε β} {e : ε}
    (h : x >>= f = .error e) :
    x = .error e ∨ ∃ a, x = .ok a ∧ f a = .error e := by
  cases x with
  | error e' =>
    cases h
    exact .inl rfl
  | ok a => exact .inr ⟨a, rfl, h⟩

/-- A run of digits that is refused stops at the separator at fault, which lies in reach. -/
theorem readDigitsFrom_stops {base offset : Nat} {text : Text}
    (h : readDigitsFrom base text offset = .error r) :
    Reaches ⟨text, offset⟩ r.cursor ∧ Covers ⟨text, offset⟩ r.start r.stop := by
  fun_induction readDigitsFrom base text offset with
  | case1 => cases h
  | case2 offset x tail hdigit ih =>
    have hopen : Reaches ⟨.char '_' :: .char x :: tail, offset⟩ ⟨.char x :: tail, offset + 1⟩ :=
      (passes_char rfl rfl).reaches
    have hread := hopen.trans (passes_piece (c := ⟨.char x :: tail, offset + 1⟩) rfl).reaches
    exact ⟨hread.trans (ih h).1, hread.covers (ih h).2⟩
  | case3 =>
    cases h
    exact ⟨(passes_char rfl rfl).reaches, covers_piece (.refl _) rfl⟩
  | case4 =>
    cases h
    exact ⟨(passes_char rfl rfl).reaches, covers_piece (.refl _) rfl⟩
  | case5 p rest offset _ hdigit ih =>
    have hread : Reaches ⟨p :: rest, offset⟩ ⟨rest, offset + p.width⟩ := (passes_piece rfl).reaches
    exact ⟨hread.trans (ih h).1, hread.covers (ih h).2⟩
  | case6 =>
    cases h
    exact ⟨.refl _, covers_piece (.refl _) rfl⟩
  | case7 => cases h

theorem readDigits_stops {base : Nat} (h : readDigits base c = .error r) :
    c.Passes r.cursor ∧ c.Covers r.start r.stop := by
  unfold readDigits at h
  split at h
  · cases h
  · next hrest =>
    have hpassed := passes_piece hrest
    have hstops := readDigitsFrom_stops h
    exact ⟨hpassed.then hstops.1, hpassed.reaches.covers hstops.2⟩

/-- The readers of a number's parts know where the whole number starts, as the fault of a
part is reported from there. -/
theorem readMarked_stops {base : Nat} (hb : b.Reaches c)
    (h : readMarked b.offset base c = .error r) :
    c.Reaches r.cursor ∧ b.Covers r.start r.stop := by
  unfold readMarked at h
  split at h
  · rcases except_bind_error h with hdigits | ⟨after, _, h⟩
    · have hstops := readDigits_stops hdigits
      exact ⟨hstops.1.reaches, hb.covers hstops.2⟩
    · split at h <;> cases h
  · split at h
    · next hpeek =>
      split at h
      · cases h
        obtain ⟨p, rest, hrest⟩ := exists_rest_of_peek? hpeek
        exact ⟨.refl c, hb.covers (covers_piece (.refl c) hrest)⟩
      · cases h
        exact ⟨.refl c, covers_read hb⟩
    · cases h
      exact ⟨.refl c, covers_read hb⟩

theorem readFraction_stops (h : readFraction c = .error r) :
    c.Passes r.cursor ∧ c.Covers r.start r.stop := by
  unfold readFraction at h
  split at h
  · cases h
  · next hdot =>
    have hpassed := take?_passes hdot
    split at h
    · have hstops := readDigits_stops h
      exact ⟨hpassed.then hstops.1.reaches, hpassed.reaches.covers hstops.2⟩
    · split at h
      · next hseparator =>
        cases h
        obtain ⟨p, rest, hrest⟩ := exists_rest_of_at? hseparator
        exact ⟨hpassed, hpassed.reaches.covers (covers_piece (.refl _) hrest)⟩
      · cases h

theorem readExponentPart_stops (hb : b.Reaches c) (h : readExponentPart b.offset c = .error r) :
    c.Passes r.cursor ∧ b.Covers r.start r.stop := by
  unfold readExponentPart at h
  split at h
  · cases h
  · next after he =>
    have hmark : c.Passes after := by
      rcases Option.or_eq_some_iff.mp he with he | ⟨_, he⟩ <;> exact take?_passes he
    have hsign : after.Reaches (((after.take? '+').or (after.take? '-')).getD after) := by
      cases hs : (after.take? '+').or (after.take? '-') with
      | none => exact .refl after
      | some signed => exact take?_or_reaches hs
    have hpassed := hmark.then hsign
    dsimp only at h
    split at h
    · have hstops := readDigits_stops h
      exact ⟨hpassed.then hstops.1.reaches, (hb.trans hpassed.reaches).covers hstops.2⟩
    · cases h
      exact ⟨hpassed, covers_read (hb.trans hpassed.reaches)⟩

theorem readDecimalTail_stops (hb : b.Reaches c) (h : readDecimalTail b.offset c = .error r) :
    c.Passes r.cursor ∧ b.Covers r.start r.stop := by
  rcases except_bind_error h with hfraction | ⟨whole, hfraction, h⟩
  · have hstops := readFraction_stops hfraction
    exact ⟨hstops.1, hb.covers hstops.2⟩
  · have hwhole := (readFraction_reaches hfraction).1
    rcases except_bind_error h with hexponent | ⟨_, _, h⟩
    · have hstops := readExponentPart_stops (hb.trans hwhole) hexponent
      exact ⟨hwhole.passes hstops.1, hstops.2⟩
    · cases h

theorem readAfterZero_stops (hb : b.Reaches c) (h : readAfterZero b.offset c = .error r) :
    c.Reaches r.cursor ∧ b.Covers r.start r.stop := by
  have htail (h : readDecimalTail b.offset c = .error r) : c.Reaches r.cursor ∧
      b.Covers r.start r.stop :=
    (readDecimalTail_stops hb h).imp_left Passes.reaches
  unfold readAfterZero at h
  split at h
  · next x rest hrest =>
    split at h
    · next hbase =>
      have hmark := (passes_char hrest (utf8Size_of_markedBase? hbase)).reaches
      have hstops := readMarked_stops (hb.trans hmark) h
      exact ⟨hmark.trans hstops.1, hstops.2⟩
    · split at h
      · cases h
      · split at h
        · cases h
          exact ⟨.refl c, hb.covers (covers_piece (.refl c) hrest)⟩
        · split at h
          · cases h
            exact ⟨.refl c, covers_piece hb hrest⟩
          · exact htail h
  · exact htail h

theorem readNumberBody_stops (h : readNumberBody c = .error r) :
    c.Passes r.cursor ∧ c.Covers r.start r.stop := by
  unfold readNumberBody at h
  split at h
  · next hzero =>
    have hpassed := take?_passes hzero
    have hstops := readAfterZero_stops hpassed.reaches h
    exact ⟨hpassed.then hstops.1, hstops.2⟩
  · split at h
    · next hat =>
      rcases except_bind_error h with hdigits | ⟨after, hdigits, h⟩
      · exact readDigits_stops hdigits
      · split at h
        · cases h
        · have hpassed := readDigits_passes hat hdigits
          have hstops := readDecimalTail_stops hpassed.reaches h
          exact ⟨hpassed.then hstops.1.reaches, hstops.2⟩
    · exact readDecimalTail_stops (.refl c) h

/-- The piece at a cursor is read, if there is one. -/
theorem next?_getD_reaches : c.Reaches ((c.next?.map (·.2)).getD c) := by
  unfold next?
  split
  · exact .refl c
  · next hrest => exact (passes_piece hrest).reaches

theorem readNumber_advances (h : readNumber c = some x) : c.Advances x := by
  have hgives := readNumber_gives h
  unfold readNumber at h
  split at h
  · next hstarts =>
    split at h
    · next hbody =>
      cases h
      exact Rejection.advances (readNumberBody_stops hbody)
    · next hbody =>
      dsimp only at h
      split at h
      · cases h
        exact advances_ofFault ((readNumberBody_passes hstarts hbody).then next?_getD_reaches)
      · cases h
        refine hgives.advances rfl ?_
        rcases readNumberBody_kind hbody with rfl | rfl <;> exact nofun
  · cases h

/-! ## Strings, templates and regular expressions -/

/-- What is answered by a reader that has come from one cursor to another: it goes on from
there, and is sound at the first. -/
structure Cursor.EndsAt (b c : Cursor) (x : Token × Cursor) : Prop where
  reaches : c.Reaches x.2
  sound : x.1.SoundAt b

/-- An end that lies behind a cursor lies behind every cursor before it. -/
theorem Cursor.EndsAt.of_reaches (h : c.Reaches d) (k : EndsAt b d x) : EndsAt b c x :=
  ⟨h.trans k.reaches, k.sound⟩

theorem Cursor.EndsAt.advances (h : b.Passes c) (k : EndsAt b c x) : b.Advances x :=
  ⟨h.then k.reaches, k.sound⟩

/-- An escape that is refused ends what it stands in. -/
theorem ends_of_escape {p : Piece} {rest : Text} (hb : b.Reaches c) (hrest : c.rest = p :: rest)
    (hbackslash : (p == .char '\\') = true) (h : readEscape ⟨rest, c.offset + p.width⟩ = .error r) :
    EndsAt b c r.token := by
  have hpiece := (passes_piece hrest).reaches
  have hone : c.offset + p.width = c.offset + 1 := by
    cases beq_iff_eq.mp hbackslash
    rfl
  have hstops := readEscape_stops hpiece hone h
  exact ⟨hpiece.trans hstops.1, soundAt_ofFault (hb.covers hstops.2)⟩

/-- A string ends at its quote or where it is broken off, and in both cases behind where
it started. -/
theorem readStringFrom_ends {quote : Char} {value : Text} {escaped : Bool} {c : Cursor}
    (hb : b.Reaches c) :
    EndsAt b c (readStringFrom quote b.offset value escaped c) := by
  fun_induction readStringFrom quote b.offset value escaped c with
  | case1 value escaped c => exact ⟨.refl c, soundAt_ofFault (covers_read hb)⟩
  | case2 value escaped c => exact ⟨.refl c, soundAt_ofFault (covers_read hb)⟩
  | case3 value escaped c p rest hrest =>
    refine ⟨(passes_piece hrest).reaches, .inl ⟨?_, rfl⟩⟩
    rintro ⟨⟩
  | case4 value escaped c p rest hrest next hline hquote hbackslash text after hescape ih =>
    have hread : c.Reaches after := (passes_piece hrest).reaches.trans (readEscape_reaches hescape)
    exact (ih (hb.trans hread)).of_reaches hread
  | case5 value escaped c p rest hrest next hline hquote hbackslash r hescape =>
    exact ends_of_escape hb hrest hbackslash hescape
  | case6 value escaped c p rest hrest next hline hquote hplain ih =>
    have hread : c.Reaches next := (passes_piece hrest).reaches
    exact (ih (hb.trans hread)).of_reaches hread

theorem readString_advances (h : readString c = some x) : c.Advances x := by
  unfold readString at h
  split at h
  · next q rest hrest =>
    split at h
    · next hq =>
      cases h
      have hopen : c.Passes ⟨rest, c.offset + 1⟩ := by
        refine passes_char hrest ?_
        rcases Bool.or_eq_true_iff.mp hq with hq | hq <;> rw [beq_iff_eq.mp hq] <;> rfl
      exact (readStringFrom_ends hopen.reaches).advances hopen
    · cases h
  · cases h

/-- So does a template, by induction on what is left of the text. -/
theorem readTemplateFrom_ends {sub tail : Kind} (hsub : sub ≠ .fault) (htail : tail ≠ .fault)
    (soFar : PartialTemplate) {c : Cursor} (hb : b.Reaches c) :
    EndsAt b c (readTemplateFrom sub tail b.offset soFar c) := by
  -- What was read of the template, and what is read after it.
  have hmore {d : Cursor} {soFar : PartialTemplate} (hread : c.Reaches d)
      (h : b.Reaches d → EndsAt b d (readTemplateFrom sub tail b.offset soFar d)) :
      EndsAt b c (readTemplateFrom sub tail b.offset soFar d) :=
    (h (hb.trans hread)).of_reaches hread
  rw [readTemplateFrom]
  dsimp only
  split
  · exact ⟨.refl c, soundAt_ofFault (covers_read hb)⟩
  · next p rest hrest =>
    have hpassed := passes_piece hrest
    split
    · exact ⟨hpassed.reaches, .inl ⟨htail, rfl⟩⟩
    · split
      · split
        · next after hbrace =>
          exact ⟨hpassed.reaches.trans (take?_passes hbrace).reaches, .inl ⟨hsub, rfl⟩⟩
        · exact hmore hpassed.reaches (readTemplateFrom_ends hsub htail _)
      · split
        · split
          · next after hfeed =>
            have hboth := hpassed.then (take?_passes hfeed).reaches
            exact hmore hboth.reaches (readTemplateFrom_ends hsub htail _)
          · exact hmore hpassed.reaches (readTemplateFrom_ends hsub htail _)
        · split
          · next hbackslash =>
            split
            · next text after hescape =>
              have hboth := hpassed.then (readEscape_reaches hescape)
              exact hmore hboth.reaches (readTemplateFrom_ends hsub htail _)
            · next r hescape => exact ends_of_escape hb hrest hbackslash hescape
          · exact hmore hpassed.reaches (readTemplateFrom_ends hsub htail _)
termination_by c.rest.length
decreasing_by all_goals first | exact hboth.shorter | exact hpassed.shorter

/-- A part of a template that starts with a given character. -/
private theorem template_advances {sub tail : Kind} {opening : Char}
    (h : ((c.take? opening).map fun d => readTemplateFrom sub tail c.offset ⟨[], []⟩ d) = some x)
    (hsub : sub ≠ .fault) (htail : tail ≠ .fault) : c.Advances x := by
  obtain ⟨d, hopening, rfl⟩ := Option.map_eq_some_iff.mp h
  have hopen := take?_passes hopening
  exact (readTemplateFrom_ends hsub htail ⟨[], []⟩ hopen.reaches).advances hopen

theorem readTemplate_advances (h : readTemplate c = some x) : c.Advances x := by
  unfold readTemplate at h
  exact template_advances h nofun nofun

theorem readTemplateContinuation_advances (h : readTemplateContinuation c = some x) :
    c.Advances x := by
  unfold readTemplateContinuation at h
  exact template_advances h nofun nofun

/-- The body of a regular expression that is not closed is read up to the line's end. -/
theorem readBodyFrom_stops {state : BodyState} {body text : Text} {offset : Nat}
    (h : readBodyFrom state body text offset = .error d) : Reaches ⟨text, offset⟩ d := by
  fun_induction readBodyFrom state body text offset with
  | case1 =>
    cases h
    exact .refl _
  | case2 =>
    cases h
    exact (passes_piece rfl).reaches
  | case3 => cases h
  | case4 state body p rest offset next hline hslash ih =>
    exact (passes_piece rfl).reaches.trans (ih h)

/-- A flag that is refused is read, and blamed alone. -/
theorem readFlagsFrom_stops {flags : List Char} {text : Text} {offset : Nat}
    (h : readFlagsFrom flags text offset = .error r) :
    Reaches ⟨text, offset⟩ r.cursor ∧ Covers ⟨text, offset⟩ r.start r.stop := by
  fun_induction readFlagsFrom flags text offset with
  | case1 => cases h
  | case2 flags p rest offset x hpart next hunknown =>
    cases h
    have hread : Reaches ⟨p :: rest, offset⟩ next := (passes_piece rfl).reaches
    exact ⟨hread, covers_read hread⟩
  | case3 flags p rest offset x hpart next hknown hrepeated =>
    cases h
    have hread : Reaches ⟨p :: rest, offset⟩ next := (passes_piece rfl).reaches
    exact ⟨hread, covers_read hread⟩
  | case4 flags p rest offset x hpart next hknown hnew ih =>
    have hread : Reaches ⟨p :: rest, offset⟩ next := (passes_piece rfl).reaches
    exact ⟨hread.trans (ih h).1, hread.covers (ih h).2⟩
  | case5 => cases h

theorem readRegExp_advances (h : readRegExp c = some x) : c.Advances x := by
  have hgives := readRegExp_gives h
  unfold readRegExp at h
  split at h
  · cases h
  · next inner hslash =>
    have hopen := take?_passes hslash
    split at h
    · cases h
    · split at h
      · next d hbody =>
        cases h
        exact advances_ofFault (hopen.then (readBodyFrom_stops hbody))
      · next body d hbody =>
        have hread : c.Passes d := hopen.then (readBodyFrom_reaches hbody)
        split at h
        · next r hflags =>
          cases h
          have hstops := readFlagsFrom_stops hflags
          exact Rejection.advances ⟨hread.then hstops.1, hread.reaches.covers hstops.2⟩
        · cases h
          exact hgives.advances rfl nofun

/-! ## White space and comments -/

theorem readWhitespace_gives (h : readWhitespace c = some x) : c.Gives x := by
  unfold readWhitespace at h
  dsimp only at h
  split at h
  · cases h
  · next hmoved =>
    cases h
    have hpassed := passes_of_offset_ne (skipWhile_reaches isBlank) fun hsame =>
      hmoved (beq_iff_eq.mpr hsame)
    exact gives_of_passes hpassed rfl rfl nofun (Nat.le_of_lt hpassed.offset_lt)

theorem readWhitespace_advances (h : readWhitespace c = some x) : c.Advances x := by
  have hgives := readWhitespace_gives h
  unfold readWhitespace at h
  dsimp only at h
  split at h
  · cases h
  · cases h
    exact hgives.advances rfl nofun

theorem readLineTerminator_gives (h : readLineTerminator c = some x) : c.Gives x := by
  unfold readLineTerminator at h
  split at h
  · cases h
  · next hrest =>
    have hpassed := passes_piece hrest
    split at h
    · cases h
      split
      · have hboth := hpassed.then (take?_getD_reaches (x := '\n'))
        exact gives_of_passes hboth rfl rfl nofun (Nat.le_of_lt hboth.offset_lt)
      · exact gives_of_passes hpassed rfl rfl nofun (Nat.le_of_lt hpassed.offset_lt)
    · cases h

theorem readLineTerminator_advances (h : readLineTerminator c = some x) : c.Advances x := by
  have hgives := readLineTerminator_gives h
  unfold readLineTerminator at h
  split at h
  · cases h
  · split at h
    · cases h
      exact hgives.advances rfl nofun
    · cases h

/-- A comment that is not closed is read to the end of the text. -/
theorem closeComment_stops {text : Text} {offset : Nat} (h : closeComment text offset = .error d) :
    Reaches ⟨text, offset⟩ d := by
  fun_induction closeComment text offset with
  | case1 =>
    cases h
    exact .refl _
  | case2 => cases h
  | case3 p rest offset _ ih => exact (passes_piece rfl).reaches.trans (ih h)

theorem readComment_gives (h : readComment c = some x) : c.Gives x := by
  unfold readComment at h
  split at h
  · next hrest =>
    cases h
    have hpassed :=
      (passes_chars hrest rfl rfl).then (skipWhile_reaches fun x => !isLineTerminator x)
    exact gives_of_passes hpassed rfl rfl nofun (Nat.le_of_lt hpassed.offset_lt)
  · next hrest =>
    split at h
    · next hclose =>
      cases h
      have hpassed := (passes_chars hrest rfl rfl).then (closeComment_reaches hclose)
      exact gives_of_passes hpassed rfl rfl nofun (Nat.le_of_lt hpassed.offset_lt)
    · cases h
      exact gives_ofFault
  · cases h

theorem readComment_advances (h : readComment c = some x) : c.Advances x := by
  unfold readComment at h
  split at h
  · next hrest =>
    cases h
    exact ⟨(passes_chars hrest rfl rfl).then (skipWhile_reaches _), .inl ⟨nofun, rfl⟩⟩
  · next hrest =>
    have hopen := passes_chars hrest rfl rfl
    split at h
    · next hclose =>
      cases h
      exact ⟨hopen.then (closeComment_reaches hclose), .inl ⟨nofun, rfl⟩⟩
    · next hstop =>
      cases h
      exact advances_ofFault (hopen.then (closeComment_stops hstop))
  · cases h

theorem readHashbang_gives (h : readHashbang c = some x) : c.Gives x := by
  unfold readHashbang at h
  split at h
  · next hstart hrest =>
    cases h
    have hpassed := passes_chars hrest rfl rfl
    rw [hstart] at hpassed
    have hthrough := hpassed.then (skipWhile_reaches fun x => !isLineTerminator x)
    exact gives_of_passes hthrough hstart.symm rfl nofun (Nat.le_of_lt hthrough.offset_lt)
  · cases h

theorem readHashbang_advances (h : readHashbang c = some x) : c.Advances x := by
  have hgives := readHashbang_gives h
  unfold readHashbang at h
  split at h
  · cases h
    exact hgives.advances rfl nofun
  · cases h

/-! ## All readers -/

theorem readPunctuator_advances (h : readPunctuator c = some x) : c.Advances x := by
  have hgives := readPunctuator_gives h
  unfold readPunctuator at h
  split at h
  · cases h
  · cases h
    exact hgives.advances rfl nofun

/-- Whichever reader the first character calls moves on. -/
theorem readerFor_advances {y : Char} (h : readerFor y c = some x) : c.Advances x := by
  unfold readerFor at h
  split at h
  · exact readString_advances h
  · split at h
    · exact readTemplate_advances h
    · split at h
      · exact readNumber_advances h
      · split at h
        · rcases Option.or_eq_some_iff.mp h with h | ⟨_, h⟩
          · exact readNumber_advances h
          · exact readPunctuator_advances h
        · split at h
          · exact readIdentifier_advances h
          · exact readPunctuator_advances h

end EcmaStack
