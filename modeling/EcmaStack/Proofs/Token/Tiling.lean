import EcmaStack.Proofs.Text.Decoding
import EcmaStack.Proofs.Token.Progress

/-!
# Tokens and gaps tile a source

Between tokens stand **gaps**: white space, line ends and complete comments, one after another
(`Gap`). Scanning from any byte of a source on, even from inside a character, passes over a gap,
which is as long as it can be, and reads a token right behind it. So scanning again and again
comes to the end of the source, and what is passed over and what is read, laid side by side, is
the source (`scanFrom_tiles`).

A fault covers the range its cause refers to, which need not be what was read; only how far the
cursor moves is said of it.
-/

namespace EcmaStack

open Text Cursor

/-! ## Gaps -/

/-- One thing that may stand between tokens, before a given text: a character of white space or
one that ends a line, or a complete comment. A line comment is complete at the end of its line
or of the source. -/
inductive Filler : Text → Text → Prop where
  | blank {p after} : isBlank p.scalar = true → Filler [p] after
  | lineEnd {p after} : isLineTerminator p.scalar = true → Filler [p] after
  | lineComment {body after} : (∀ p ∈ body, isLineTerminator p.scalar = false) →
      (∀ p ∈ after.head?, isLineTerminator p.scalar = true) →
        Filler (Piece.char '/' :: Piece.char '/' :: body) after
  | blockComment {body after} : ¬ [Piece.char '*', Piece.char '/'] <:+: body →
      Filler (Piece.char '/' :: Piece.char '*' :: (body ++ [Piece.char '*', Piece.char '/'])) after

/-- White space, line ends and complete comments, one after another, before a given text. -/
inductive Gap : Text → Text → Prop where
  | nil {after} : Gap [] after
  | cons {filler gap after} : Filler filler (gap ++ after) → Gap gap after →
    Gap (filler ++ gap) after

/-- Whether a line ends in a text. -/
def endsLine (text : Text) : Bool :=
  text.any fun p => isLineTerminator p.scalar

/-- A line ends in a text if it ends in one of its parts. -/
theorem endsLine_append (a b : Text) : endsLine (a ++ b) = (endsLine a || endsLine b) :=
  List.any_append

theorem endsLine_singleton (p : Piece) : endsLine [p] = isLineTerminator p.scalar :=
  Bool.or_false _

/-- The four characters that end a line. -/
theorem isLineTerminator_iff {x : Char} :
    isLineTerminator x = true ↔ x = '\n' ∨ x = '\r' ∨ x = '\u2028' ∨ x = '\u2029' := by
  simp only [isLineTerminator, Bool.or_eq_true, beq_iff_eq, or_assoc]

/-- The characters that end a line are four, and no stray byte is one. -/
theorem endsLine_iff {text : Text} :
    endsLine text = true ↔ ∃ x ∈ ['\n', '\r', '\u2028', '\u2029'], Piece.char x ∈ text := by
  rw [endsLine, List.any_eq_true]
  constructor
  · rintro ⟨p, hp, hline⟩
    have hx := isLineTerminator_iff.mp hline
    cases p with
    | char x =>
      refine ⟨x, ?_, hp⟩
      simpa only [List.mem_cons, List.not_mem_nil, or_false, Piece.scalar] using hx
    | stray b => simp [Piece.scalar, replacement] at hx
  · rintro ⟨x, hx, hp⟩
    refine ⟨.char x, hp, isLineTerminator_iff.mpr ?_⟩
    simpa only [List.mem_cons, List.not_mem_nil, or_false, Piece.scalar] using hx

/-- White space ends no line. -/
theorem isLineTerminator_of_isBlank {x : Char} (h : isBlank x = true) :
    isLineTerminator x = false := by
  cases hline : isLineTerminator x with
  | false => rfl
  | true =>
    rcases isLineTerminator_iff.mp hline with rfl | rfl | rfl | rfl <;> revert h <;> decide

/-! ## Comments are read whole -/

variable {c d : Cursor} {t : Token}

/-- Skipping drops the longest prefix that passes, and moves by its width. -/
theorem skipWhileFrom_eq (test : Char → Bool) (text : Text) (offset : Nat) :
    skipWhileFrom test text offset = ⟨text.dropWhile fun p => test p.scalar,
      offset + width (text.takeWhile fun p => test p.scalar)⟩ := by
  induction text generalizing offset with
  | nil => rfl
  | cons p rest ih =>
    rw [skipWhileFrom]
    split
    · next htest =>
        rw [ih, List.dropWhile_cons, List.takeWhile_cons, if_pos htest, if_pos htest, width_cons,
          Nat.add_assoc]
    · next htest =>
        rw [List.dropWhile_cons, List.takeWhile_cons, if_neg htest, if_neg htest, width_nil,
          Nat.add_zero]

/-- A comment is closed by the first star with a slash behind it. -/
theorem closeComment_ok {text : Text} {offset : Nat} (h : closeComment text offset = .ok d) :
    ∃ body, text = body ++ [Piece.char '*', Piece.char '/'] ++ d.rest ∧
    ¬ [Piece.char '*', Piece.char '/'] <:+: body ∧
      d.offset = offset + width (body ++ [Piece.char '*', Piece.char '/']) := by
  fun_induction closeComment text offset with
  | case1 => cases h
  | case2 rest offset =>
    cases h
    exact ⟨[], rfl, by simp, rfl⟩
  | case3 p rest offset hopen ih =>
    obtain ⟨body, hrest, hbody, hoffset⟩ := ih h
    refine ⟨p :: body, ?_, ?_, ?_⟩
    · rw [hrest, List.cons_append, List.cons_append]
    · rw [List.infix_cons_iff]
      rintro (⟨tail, htail⟩ | hinside)
      · -- The two characters that close the comment would have been met here.
        obtain ⟨rfl, hslash⟩ := List.cons.inj htail
        exact hopen (tail ++ [Piece.char '*', Piece.char '/'] ++ d.rest) rfl
          (by rw [hrest, ← hslash]; rfl)
      · exact hbody hinside
    · rw [hoffset, List.cons_append, width_cons, Nat.add_assoc]

/-- Conversely a body without that pair is closed where the pair follows. -/
theorem closeComment_of_body {body rest : Text} {offset : Nat}
    (h : ¬ [Piece.char '*', Piece.char '/'] <:+: body) :
    closeComment (body ++ [Piece.char '*', Piece.char '/'] ++ rest) offset =
      .ok ⟨rest, offset + width (body ++ [Piece.char '*', Piece.char '/'])⟩ := by
  induction body generalizing offset with
  | nil => rfl
  | cons p body ih =>
    rw [List.infix_cons_iff, not_or] at h
    rw [List.cons_append, List.cons_append, closeComment, ih h.2]
    · rw [width_cons, Nat.add_assoc]
    · rintro tail rfl htail
      refine h.1 ?_
      cases body with
      | nil => cases htail
      | cons q body =>
        cases htail
        exact ⟨body, rfl⟩

/-- What lies between two cursors is what was read. -/
theorem between_eq {text : Text} (h : c.rest = text ++ d.rest) : c.between d = text := by
  rw [between, h, List.length_append, Nat.add_sub_cancel, List.take_left]

/-- The rest of a line holds no line end, and the text that is left starts with one. -/
theorem skipLine_rest (text : Text) (offset : Nat) :
    ∃ body, text = body ++ (skipLine ⟨text, offset⟩).rest ∧
    (∀ p ∈ body, isLineTerminator p.scalar = false) ∧
    (∀ p ∈ (skipLine ⟨text, offset⟩).rest.head?, isLineTerminator p.scalar = true) ∧
    (skipLine ⟨text, offset⟩).offset = offset + width body := by
  rw [skipLine, skipWhile, skipWhileFrom_eq]
  refine ⟨text.takeWhile fun p => !isLineTerminator p.scalar, List.takeWhile_append_dropWhile.symm,
    ?_, ?_, rfl⟩
  · intro p hp
    simpa using List.all_eq_true.mp List.all_takeWhile p hp
  · intro p hp
    have hstops := List.head?_dropWhile_not (fun p : Piece => !isLineTerminator p.scalar) text
    rw [Option.mem_def.mp hp] at hstops
    simpa using hstops

/-- A comment of one line runs up to the end of the line, which it leaves. -/
theorem skipLine_body {body after : Text} (hbody : ∀ p ∈ body, isLineTerminator p.scalar = false)
    (hafter : ∀ p ∈ after.head?, isLineTerminator p.scalar = true) (offset : Nat) :
    skipLine ⟨body ++ after, offset⟩ = ⟨after, offset + width body⟩ := by
  have hpass : ∀ p ∈ body, (!isLineTerminator p.scalar) = true :=
    fun p hp => by rw [hbody p hp]; rfl
  have hstop : after.dropWhile (fun p => !isLineTerminator p.scalar) = after ∧
      after.takeWhile (fun p => !isLineTerminator p.scalar) = [] := by
    cases after with
    | nil => exact ⟨rfl, rfl⟩
    | cons q after => simp [hafter q rfl]
  rw [skipLine, skipWhile, skipWhileFrom_eq, List.dropWhile_append_of_pos hpass,
    List.takeWhile_append_of_pos hpass, hstop.1, hstop.2, List.append_nil]

/-- Such a comment ends no line. -/
theorem endsLine_of_line {body : Text} (h : ∀ p ∈ body, isLineTerminator p.scalar = false) :
    endsLine (Piece.char '/' :: Piece.char '/' :: body) = false := by
  rw [endsLine, List.any_eq_false]
  intro p hp
  simp only [List.mem_cons] at hp
  rcases hp with rfl | rfl | hp
  · decide
  · decide
  · rw [h p hp]
    exact Bool.false_ne_true

theorem width_comment (x : Char) (hx : x.utf8Size = 1) {body : Text} {offset : Nat} :
    offset + 2 + width body = offset + width (Piece.char '/' :: .char x :: body) := by
  have hslash : (Piece.char '/').width = 1 := rfl
  have hwidth : (Piece.char x).width = 1 := hx
  rw [width_cons, width_cons, hslash, hwidth]
  omega

/-- A comment that was read is complete, and it tells whether a line ended in it. -/
theorem readComment_filler (h : readComment c = some (t, d)) (ht : t.kind ≠ .fault) :
    ∃ filler, c.rest = filler ++ d.rest ∧ Filler filler d.rest ∧ d.offset =
      c.offset + width filler ∧
      ((c.between d).any fun q => t.kind == .blockComment && isLineTerminator q.scalar) =
        endsLine filler := by
  unfold readComment at h
  split at h
  · next rest hrest =>
    cases h
    -- A comment of one line leaves the line's end, so that this counts as one of the gap.
    obtain ⟨body, htext, hbody, hafter, hoffset⟩ := skipLine_rest rest (c.offset + 2)
    have hfiller : c.rest = Piece.char '/' :: Piece.char '/' :: body ++
        (skipLine ⟨rest, c.offset + 2⟩).rest := by
      rw [hrest, List.cons_append, List.cons_append, ← htext]
    refine ⟨_, hfiller, .lineComment hbody hafter, ?_, ?_⟩
    · rw [hoffset, width_comment '/' rfl]
    · rw [endsLine_of_line hbody]
      exact List.any_eq_false.mpr fun _ _ => Bool.false_ne_true
  · next rest hrest =>
    split at h
    · next hclose =>
      cases h
      obtain ⟨body, htext, hbody, hoffset⟩ := closeComment_ok hclose
      have hfiller : c.rest =
          Piece.char '/' :: Piece.char '*' :: (body ++ [Piece.char '*', Piece.char '/']) ++
          d.rest := by
        rw [hrest, htext]
        rfl
      refine ⟨_, hfiller, .blockComment hbody, ?_, ?_⟩
      · rw [hoffset, width_comment '*' rfl]
      · rw [between_eq hfiller]
        rfl
    · cases h
      exact absurd rfl ht
  · cases h

/-- A complete comment is read. -/
theorem readComment_lineComment {body after : Text}
    (hbody : ∀ p ∈ body, isLineTerminator p.scalar = false)
    (hafter : ∀ p ∈ after.head?, isLineTerminator p.scalar = true) (offset : Nat) :
    ∃ t, readComment ⟨Piece.char '/' :: Piece.char '/' :: body ++ after, offset⟩ =
      some (t, ⟨after, offset + width (Piece.char '/' :: Piece.char '/' :: body)⟩) ∧ t.kind ≠
        .fault := by
  refine ⟨{ kind := .comment, start := offset,
            stop := (skipLine ⟨body ++ after, offset + 2⟩).offset }, ?_, nofun⟩
  rw [← width_comment '/' rfl, ← skipLine_body hbody hafter]
  rfl

/-- A block comment is read to its closing pair. -/
theorem readComment_blockComment {body : Text}
    (hbody : ¬ [Piece.char '*', Piece.char '/'] <:+: body) (after : Text) (offset : Nat) :
    ∃ t, readComment ⟨Piece.char '/' :: Piece.char '*' ::
      (body ++ [Piece.char '*', Piece.char '/']) ++ after, offset⟩ =
      some
      (t, ⟨after, offset + width (Piece.char '/' :: Piece.char '*' ::
        (body ++ [Piece.char '*', Piece.char '/']))⟩) ∧
      t.kind ≠ .fault := by
  refine ⟨{ kind := .blockComment, start := offset,
            stop := offset + 2 + width (body ++ [Piece.char '*', Piece.char '/']) },
    ?_, by rintro ⟨⟩⟩
  rw [← width_comment '*' rfl]
  simp only [readComment, List.cons_append, closeComment_of_body hbody]

/-! ## Gaps are passed over -/

/-- What is passed over is a gap, unless a comment in it never ends. -/
theorem skipTriviaFrom_gap {newline : Bool} {c : Cursor}
    (h : (c.skipTriviaFrom newline).fault = none) :
    ∃ gap, c.rest = gap ++ (c.skipTriviaFrom newline).cursor.rest ∧
    Gap gap (c.skipTriviaFrom newline).cursor.rest ∧
      (c.skipTriviaFrom newline).cursor.offset = c.offset + width gap ∧
      (c.skipTriviaFrom newline).newline = (newline || endsLine gap) := by
  fun_induction Cursor.skipTriviaFrom newline c with
  | case1 newline c hrest => exact ⟨[], rfl, .nil, rfl, (Bool.or_false _).symm⟩
  | case2 newline c p rest hrest hblank ih =>
    obtain ⟨gap, htext, hgap, hoffset, hnewline⟩ := ih h
    refine ⟨[p] ++ gap, ?_, .cons (.blank hblank) hgap, ?_, ?_⟩
    · rw [hrest, List.append_assoc, ← htext, List.singleton_append]
    · rw [hoffset, List.singleton_append, width_cons, Nat.add_assoc]
    · rw [hnewline, endsLine_append, endsLine_singleton, isLineTerminator_of_isBlank hblank,
        Bool.false_or]
  | case3 newline c p rest hrest hblank hline ih =>
    obtain ⟨gap, htext, hgap, hoffset, hnewline⟩ := ih h
    refine ⟨[p] ++ gap, ?_, .cons (.lineEnd hline) hgap, ?_, ?_⟩
    · rw [hrest, List.append_assoc, ← htext, List.singleton_append]
    · rw [hoffset, List.singleton_append, width_cons, Nat.add_assoc]
    · rw [hnewline, endsLine_append, endsLine_singleton, hline, Bool.true_or, Bool.or_true]
  | case4 newline c p rest hrest hblank hline hcomment =>
    exact ⟨[], rfl, .nil, rfl, (Bool.or_false _).symm⟩
  | case5 newline c p rest hrest hblank hline t d hcomment hfault => cases h
  | case6 newline c p rest hrest hblank hline t d hcomment hfault ih =>
    obtain ⟨filler, hread, hfiller, hmoved, hends⟩ :=
      readComment_filler hcomment fun hkind => hfault (beq_iff_eq.mpr hkind)
    obtain ⟨gap, htext, hgap, hoffset, hnewline⟩ := ih h
    refine ⟨filler ++ gap, ?_, .cons (htext ▸ hfiller) hgap, ?_, ?_⟩
    · rw [hread, htext, List.append_assoc]
    · rw [hoffset, hmoved, width_append, Nat.add_assoc]
    · rw [hnewline, hends, endsLine_append, Bool.or_assoc]

/-- A comment that never ends is a fault, and is read. -/
theorem skipTriviaFrom_fault {newline : Bool} {c : Cursor}
    (h : (c.skipTriviaFrom newline).fault = some t) :
    t.kind = .fault ∧ c.Passes (c.skipTriviaFrom newline).cursor := by
  fun_induction Cursor.skipTriviaFrom newline c with
  | case1 => cases h
  | case2 newline c p rest hrest hblank ih =>
    exact ⟨(ih h).1, (passes_piece hrest).then (ih h).2.reaches⟩
  | case3 newline c p rest hrest hblank hline ih =>
    exact ⟨(ih h).1, (passes_piece hrest).then (ih h).2.reaches⟩
  | case4 => cases h
  | case5 newline c p rest hrest hblank hline t d hcomment hfault =>
    cases h
    exact ⟨beq_iff_eq.mp hfault, (readComment_advances hcomment).passes⟩
  | case6 newline c p rest hrest hblank hline t d hcomment hfault ih =>
    exact ⟨(ih h).1, (readComment_advances hcomment).passes.then (ih h).2.reaches⟩

/-- One step of the loop over blanks and comments, at a comment: a line that ends in it
counts. -/
theorem skipTriviaFrom_comment {newline : Bool} {p : Piece} {rest : Text}
    (hrest : c.rest = p :: rest) (hblank : isBlank p.scalar = false)
    (hline : isLineTerminator p.scalar = false) (hread : readComment c = some (t, d))
    (ht : t.kind ≠ .fault) : ∃ newline', c.skipTriviaFrom newline = d.skipTriviaFrom newline' := by
  rw [Cursor.skipTriviaFrom]
  split
  · next hnil =>
    rw [hrest] at hnil
    cases hnil
  · next hcons =>
    rw [hrest] at hcons
    cases hcons
    rw [hblank, hline]
    simp only [Bool.false_eq_true, if_false]
    split
    · next hnone =>
      rw [hread] at hnone
      cases hnone
    · next hsome =>
      rw [hread] at hsome
      cases hsome
      rw [if_neg (by rw [beq_iff_eq]; exact ht)]
      exact ⟨_, rfl⟩

/-- Gaps are passed over. -/
theorem skipTriviaFrom_of_gap {gap after : Text} (h : Gap gap after) (newline : Bool)
    (offset : Nat) :
    ∃ newline', Cursor.skipTriviaFrom newline ⟨gap ++ after, offset⟩ =
      Cursor.skipTriviaFrom newline' ⟨after, offset + width gap⟩ := by
  induction h generalizing newline offset with
  | nil => exact ⟨newline, rfl⟩
  | @cons filler gap after hfiller _ ih =>
    -- It is enough to pass over what comes first.
    suffices hfirst : ∃ newline', Cursor.skipTriviaFrom newline ⟨filler ++ (gap ++ after), offset⟩ =
        Cursor.skipTriviaFrom newline' ⟨gap ++ after, offset + width filler⟩ by
      obtain ⟨first, hfirst⟩ := hfirst
      obtain ⟨last, hlast⟩ := ih first (offset + width filler)
      refine ⟨last, ?_⟩
      rw [List.append_assoc, hfirst, hlast, width_append, Nat.add_assoc]
    cases hfiller with
    | blank hblank =>
      refine ⟨newline, ?_⟩
      rw [Cursor.skipTriviaFrom]
      exact if_pos hblank
    | lineEnd hline =>
      refine ⟨true, ?_⟩
      rw [Cursor.skipTriviaFrom]
      refine (if_neg ?_).trans (if_pos hline)
      intro hblank
      rw [isLineTerminator_of_isBlank hblank] at hline
      cases hline
    | lineComment hbody hafter =>
      obtain ⟨t, hread, ht⟩ := readComment_lineComment hbody hafter offset
      exact skipTriviaFrom_comment rfl (by decide) (by decide) hread ht
    | blockComment hbody =>
      obtain ⟨t, hread, ht⟩ := readComment_blockComment hbody (gap ++ after) offset
      exact skipTriviaFrom_comment rfl (by decide) (by decide) hread ht

/-! ## One step -/

/-- What the next token is: the fault of a comment that never ends, the end of the source, or
what a reader answers right behind the gap. -/
inductive NextToken (c : Cursor) : Token × Cursor → Prop where
  | openComment {t : Token} {d : Cursor} : c.skipTrivia.fault.isSome = true → t.kind = .fault →
    c.Passes d → NextToken c (t, d)
  | ended {t : Token} : c.skipTrivia.fault = none → c.skipTrivia.cursor.rest = [] → t.kind = .eof →
      t.start = c.skipTrivia.cursor.offset → t.stop = c.skipTrivia.cursor.offset → t.newline =
        c.skipTrivia.newline →
      NextToken c (t, c.skipTrivia.cursor)
  | read {t : Token} {d : Cursor} : c.skipTrivia.fault = none → t.kind ≠ .eof →
    c.skipTrivia.cursor.Passes d →
      (t.kind ≠ .fault → t.start = c.skipTrivia.cursor.offset ∧ t.stop = d.offset ∧
        t.newline = c.skipTrivia.newline) →
      NextToken c (t, d)

/-- The next token stands behind the longest filler, and tells whether a line ended in
that. -/
theorem scanToken_next (c : Cursor) : NextToken c (scanToken c) := by
  unfold scanToken
  dsimp only
  cases hfault : c.skipTrivia.fault with
  -- A comment that is not closed is the only fault inside a gap.
  | some t =>
    obtain ⟨hkind, hpassed⟩ := skipTriviaFrom_fault hfault
    exact .openComment (by rw [hfault]; rfl) hkind hpassed
  | none =>
    cases hnext : c.skipTrivia.cursor.next? with
    | none =>
      refine .ended hfault ?_ rfl rfl rfl rfl
      unfold next? at hnext
      split at hnext
      · assumption
      · cases hnext
    | some x =>
      obtain ⟨p, next⟩ := x
      dsimp only
      cases hread : readerFor p.scalar c.skipTrivia.cursor with
      | none =>
        -- No reader knows the piece, so it is taken alone and is a fault.
        rw [Option.getD_none]
        refine .read hfault nofun ?_ fun hkind => absurd rfl hkind
        unfold next? at hnext
        split at hnext
        · cases hnext
        · next hrest =>
          cases hnext
          exact passes_piece hrest
      | some y =>
        rw [Option.getD_some]
        have hadvances := readerFor_advances hread
        rcases hadvances.sound with ⟨-, hfine⟩ | ⟨hkind, -⟩
        · have hgiven := readerFor_gives hread hfine
          exact .read hfault hgiven.kind hadvances.passes fun _ => ⟨hgiven.start, hgiven.stop, rfl⟩
        · refine .read hfault ?_ hadvances.passes fun hne => absurd hkind hne
          change y.1.kind ≠ .eof
          rw [hkind]
          exact nofun

namespace Cursor

/-- The cursor at a byte of a source, which need not be the first of a character. -/
def ofBytes (source : List UInt8) (offset : Nat) : Cursor :=
  ⟨Text.decode (source.drop offset), offset⟩

/-- Reading goes from byte to byte. -/
theorem ofBytes_reaches {source : List UInt8} {i : Nat} (hi : i ≤ source.length)
    (h : (ofBytes source i).Reaches d) :
    d = ofBytes source d.offset ∧ i ≤ d.offset ∧ d.offset ≤ source.length := by
  obtain ⟨read, hrest, hoffset⟩ := h
  obtain ⟨hle, _, hdrop⟩ := decode_split hrest
  change d.offset = i + width read at hoffset
  rw [List.length_drop] at hle
  rw [List.drop_drop, ← hoffset] at hdrop
  refine ⟨?_, by omega, by omega⟩
  rw [ofBytes, hdrop]

end Cursor

/-- What one step of scanning owes at a byte of a source, when it answers a token and goes on at
another byte. -/
structure ScansTo (source : List UInt8) (i : Nat) (t : Token) (j : Nat) : Prop where
  scans : scanToken (.ofBytes source i) = (t, .ofBytes source j)
  ahead : i ≤ j
  within : j ≤ source.length
  /-- The end of the source is met where nothing but a gap is left. -/
  ended : t.kind = .eof ↔ Gap (Text.decode (source.drop i)) []
  finished : t.kind = .eof → t.start = source.length
  progress : t.kind ≠ .eof → i < j
  ordered : t.kind ≠ .fault → i ≤ t.start ∧ t.start ≤ t.stop
  stop : t.kind ≠ .fault → t.stop = j
  gap : t.kind ≠ .fault →
    Gap (Text.decode ((source.drop i).take (t.start - i))) (Text.decode (source.drop t.start))
  newline : t.kind ≠ .fault →
    (t.newline = true ↔ ∃ x ∈ ['\n', '\r', '\u2028', '\u2029'], Piece.char x ∈
      Text.decode ((source.drop i).take (t.start - i)))

/-- What is passed over before a token is the gap from the cursor to the place where the token
starts. -/
theorem skipTrivia_ofBytes {source : List UInt8} {i : Nat}
    (hfault : (ofBytes source i).skipTrivia.fault = none) :
    (ofBytes source i).Reaches (ofBytes source i).skipTrivia.cursor ∧
      Gap (Text.decode ((source.drop i).take ((ofBytes source i).skipTrivia.cursor.offset - i)))
        (ofBytes source i).skipTrivia.cursor.rest ∧
      (ofBytes source i).skipTrivia.newline =
        endsLine
        (Text.decode ((source.drop i).take ((ofBytes source i).skipTrivia.cursor.offset - i))) ∧
      ((ofBytes source i).skipTrivia.cursor.rest = [] → Gap (Text.decode (source.drop i)) []) := by
  obtain ⟨gap, hrest, hgap, hoffset, hnewline⟩ := skipTriviaFrom_gap hfault
  change Text.decode (source.drop i) = _ at hrest
  obtain ⟨_, htake, _⟩ := decode_split hrest
  have hwidth : (ofBytes source i).skipTrivia.cursor.offset - i = width gap := by
    change (ofBytes source i).skipTrivia.cursor.offset = i + width gap at hoffset
    rw [hoffset, Nat.add_sub_cancel_left]
  rw [hwidth, htake]
  refine ⟨⟨gap, hrest, hoffset⟩, hgap, hnewline, fun hnil => ?_⟩
  change (Cursor.skipTriviaFrom false (ofBytes source i)).cursor.rest = [] at hnil
  rw [hrest, hnil, List.append_nil]
  rwa [hnil] at hgap

/-- A source of which only a gap is left is passed over, and then nothing is left. -/
theorem skipTrivia_of_gap {source : List UInt8} {i : Nat}
    (h : Gap (Text.decode (source.drop i)) []) :
    (ofBytes source i).skipTrivia.fault = none ∧ (ofBytes source i).skipTrivia.cursor.rest =
      [] := by
  obtain ⟨newline, hskip⟩ := skipTriviaFrom_of_gap h false i
  rw [List.append_nil] at hskip
  rw [skipTrivia, ofBytes, hskip, Cursor.skipTriviaFrom]
  exact ⟨rfl, rfl⟩

/-- Scanning at any byte of a source answers a token and goes on at another byte. -/
theorem scanToken_scansTo {source : List UInt8} {i : Nat} (hi : i ≤ source.length) :
    ScansTo source i (scanToken (.ofBytes source i)).1
    (scanToken (.ofBytes source i)).2.offset := by
  have hnext := scanToken_next (.ofBytes source i)
  generalize hx : scanToken (.ofBytes source i) = x at hnext
  cases hnext with
  -- An open comment is a fault that covers what is left; the end of the source is not reached
  -- through a gap.
  | @openComment t d hfault hkind hread =>
    obtain ⟨hd, hahead, hwithin⟩ := ofBytes_reaches hi hread.reaches
    have hne : t.kind ≠ .eof := by
      rw [hkind]
      exact nofun
    refine ⟨hx.trans (congrArg (t, ·) hd), hahead, hwithin, ⟨fun h => absurd h hne, fun hgap => ?_⟩,
      fun h => absurd h hne,
      fun _ => hread.offset_lt, fun h => absurd hkind h, fun h => absurd hkind h, fun h =>
      absurd hkind h,
      fun h => absurd hkind h⟩
    rw [(skipTrivia_of_gap hgap).1] at hfault
    cases hfault
  -- Where nothing is left behind the gap, the offset is the length of the source.
  | @ended t hfault hrest hkind hstart hstop hnewline =>
    obtain ⟨hread, hgap, hends, hall⟩ := skipTrivia_ofBytes hfault
    obtain ⟨hplace, hahead, hwithin⟩ := ofBytes_reaches hi hread
    have hlength : (ofBytes source i).skipTrivia.cursor.offset = source.length := by
      rw [hplace] at hrest
      have hwidth := width_decode (source.drop (ofBytes source i).skipTrivia.cursor.offset)
      change Text.decode (source.drop (ofBytes source i).skipTrivia.cursor.offset) = [] at hrest
      rw [hrest, width_nil, List.length_drop] at hwidth
      omega
    refine ⟨hx.trans (congrArg (t, ·) hplace), hahead, hwithin,
      ⟨fun _ => hall hrest, fun _ => hkind⟩, fun _ => ?_,
      fun h => absurd hkind h, fun _ => ?_, fun _ => hstop, fun _ => ?_, fun _ => ?_⟩
    · rw [hstart, hlength]
    · rw [hstart, hstop]
      exact ⟨hahead, Nat.le_refl _⟩
    · rw [hstart]
      rw [hplace] at hgap
      exact hgap
    · rw [hstart, hnewline, hends, endsLine_iff]
  -- Otherwise a token was read behind the gap, and it takes something off the text.
  | @read t d hfault hkind hread hfine =>
    obtain ⟨hskipped, hgap, hends, _⟩ := skipTrivia_ofBytes hfault
    obtain ⟨hplace, hahead, _⟩ := ofBytes_reaches hi hskipped
    have hall := hskipped.passes hread
    obtain ⟨hd, hmore, hwithin⟩ := ofBytes_reaches hi hall.reaches
    refine ⟨hx.trans (congrArg (t, ·) hd), hmore, hwithin, ⟨fun h => absurd h hkind, fun h => ?_⟩,
      fun h => absurd h hkind,
      fun _ => hall.offset_lt, fun h => ?_, fun h => (hfine h).2.1, fun h => ?_, fun h => ?_⟩
    · -- Nothing is left to read there.
      have hshorter := hread.shorter
      rw [(skipTrivia_of_gap h).2] at hshorter
      cases hshorter
    · rw [(hfine h).1, (hfine h).2.1]
      exact ⟨hahead, Nat.le_of_lt hread.offset_lt⟩
    · rw [(hfine h).1]
      rw [hplace] at hgap
      exact hgap
    · rw [(hfine h).1, (hfine h).2.2, hends, endsLine_iff]

/-! ## Scanning to the end -/

/-- Tokens that tile a source from a byte on: each is scanned where scanning went on from the
one before it, and the last one is the end of the source. -/
inductive Tiles (source : List UInt8) : Nat → List Token → Prop where
  | ended {i j t} : ScansTo source i t j → t.kind = .eof → Tiles source i [t]
  | more {i j t tokens} : ScansTo source i t j → t.kind ≠ .eof → Tiles source j tokens →
    Tiles source i (t :: tokens)

/-- Every token but the last takes something off the text, which bounds the scanner's
loop. -/
theorem scanToken_shorter (c : Cursor) (h : (scanToken c).1.kind ≠ .eof) :
    (scanToken c).2.rest.length < c.rest.length := by
  have hnext := scanToken_next c
  generalize scanToken c = x at h hnext
  cases hnext with
  | openComment _ _ hread => exact hread.shorter
  | ended _ _ hkind => exact absurd hkind h
  | read hfault _ hread _ =>
    obtain ⟨gap, hrest, -, hoffset, -⟩ := skipTriviaFrom_gap hfault
    exact (Reaches.passes ⟨gap, hrest, hoffset⟩ hread).shorter

/-- The tokens and the gaps between them tile the source from any offset on, by induction
on what is left. -/
theorem scanFrom_tiles {source : List UInt8} {i fuel : Nat} (hi : i ≤ source.length)
    (hfuel : (Text.decode (source.drop i)).length < fuel) :
    Tiles source i (scanFrom fuel (.ofBytes source i)) := by
  induction fuel generalizing i with
  | zero => cases hfuel
  | succ fuel ih =>
    have hstep := scanToken_scansTo hi
    have hshorter := scanToken_shorter (.ofBytes source i)
    rw [hstep.scans] at hshorter
    rw [scanFrom, hstep.scans]
    dsimp only
    split
    · next hlast =>
      rcases Bool.or_eq_true_iff.mp hlast with heof | hstuck
      · exact .ended hstep (beq_iff_eq.mp heof)
      · obtain ⟨hkind, hoffset⟩ := Bool.and_eq_true_iff.mp hstuck
        have hne : (scanToken (ofBytes source i)).1.kind ≠ .eof := by
          rw [beq_iff_eq.mp hkind]
          exact nofun
        exact absurd (beq_iff_eq.mp hoffset).symm (Nat.ne_of_lt (hstep.progress hne))
    · next hmore =>
      have hne : (scanToken (ofBytes source i)).1.kind ≠ .eof :=
        fun heof => hmore (by rw [heof]; rfl)
      exact .more hstep hne (ih hstep.within
        (Nat.lt_of_lt_of_le (hshorter hne) (Nat.le_of_lt_succ hfuel)))

/-- The tokens of a source tile it. -/
theorem scan_tiles (source : List UInt8) : Tiles source 0 (scan (Text.decode source)) :=
  scanFrom_tiles (Nat.zero_le _) (Nat.lt_succ_self _)

/-- At any byte of a source, even inside a character, the scanner answers a token behind a gap
and goes on further ahead, until it comes to the end of the source, which takes no more steps
than there are pieces left; so what it passes over and what it reads tile the source from there
on. -/
theorem scanning_lossless {source : List UInt8} {i : Nat} (hi : i ≤ source.length) :
    ScansTo source i (scanToken (.ofBytes source i)).1 (scanToken (.ofBytes source i)).2.offset ∧
      Tiles source i (scanFrom ((Text.decode (source.drop i)).length + 1) (.ofBytes source i)) :=
  ⟨scanToken_scansTo hi, scanFrom_tiles hi (Nat.lt_succ_self _)⟩

/-- A letter of two bytes, a comment over two lines, a name, a comment up to the end of the
source. -/
def brokenLetter : List UInt8 :=
  utf8Bytes "é /*\n*/ x // end"

theorem scanning_lossless_brokenLetter :
    (scanFrom ((Text.decode (brokenLetter.drop 1)).length + 1) (.ofBytes brokenLetter 1)).map
        (fun t => (t.kind, t.start, t.stop, t.newline)) =
      [(.fault, 1, 2, false), (.identifier, 9, 10, true), (.eof, 17, 17, false)] ∧
    ScansTo brokenLetter 1 (scanToken (.ofBytes brokenLetter 1)).1
    (scanToken (.ofBytes brokenLetter 1)).2.offset ∧
      Tiles brokenLetter 1 (scanFrom ((Text.decode (brokenLetter.drop 1)).length + 1)
        (.ofBytes brokenLetter 1)) :=
  ⟨by decide +kernel, scanning_lossless (by decide +kernel)⟩

end EcmaStack
