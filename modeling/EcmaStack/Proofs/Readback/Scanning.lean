import EcmaStack.Proofs.Readback.Laws
import EcmaStack.Proofs.Token.Names

/-!
# Lexemes are scanned

A text **spells** lexemes wherever it stands at the end of a source. It is put together from the
end: a lexeme before a text that does not run together with it (`Spelled.cons`), or a space.
What runs together with a word or a number is told by one character; a punctuator runs on where
a longer one begins like that, a slash also into a comment and a point into a number
(`Punct.runsInto`).
-/

namespace EcmaStack

open Text

/-- A text at the end of a source is scanned as the lexemes. -/
def Spelled (cs : List Char) (ls : List Lexeme) : Prop :=
  ∀ before : List Char, Spells ((before ++ cs).map .char) ls ⟨cs.map .char,
    width (before.map .char)⟩

/-- Where a text follows, a lexeme is scanned as it is written. -/
def Lexeme.Scans (l : Lexeme) (cs : List Char) : Prop :=
  ∀ offset, ∃ value, (l.kind = .identifier → value.toString = l.text) ∧
    scanToken ⟨(l.text.toList ++ cs).map .char, offset⟩ =
      ({ kind := l.kind, start := offset, stop := offset + width (ofString l.text), value },
        ⟨cs.map .char, offset + width (ofString l.text)⟩)

/-! ## Texts -/

/-- Taking the bytes of a prefix takes the prefix. -/
theorem takeBytes_width (a b : Text) : takeBytes a.width (a ++ b) = a := by
  induction a with
  | nil => cases b <;> rfl
  | cons p a ih =>
    have hp := p.width_pos
    obtain ⟨n, hn⟩ : ∃ n, width (p :: a) = n + 1 :=
      ⟨p.width + width a - 1, by rw [width_cons]; omega⟩
    have ha : n + 1 - p.width = width a := by
      rw [← hn, width_cons, Nat.add_sub_cancel_left]
    rw [hn, List.cons_append, takeBytes, ha, ih]

/-- A blank before a token is passed. -/
theorem scanToken_blank {rest : Text} {offset : Nat} :
    scanToken ⟨.char ' ' :: rest, offset⟩ = scanToken ⟨rest, offset + 1⟩ := by
  have htrivia : Cursor.skipTrivia ⟨.char ' ' :: rest, offset⟩ =
      Cursor.skipTrivia ⟨rest, offset + 1⟩ := by
    rw [Cursor.skipTrivia, Cursor.skipTriviaFrom]
    rfl
  rw [scanToken, scanToken, htrivia]

namespace Spelled

variable {cs : List Char} {ls : List Lexeme} {l : Lexeme}

/-- Nothing spells no lexemes, -/
theorem nil : Spelled [] [] := by
  intro before
  rw [List.map_nil, Spells, scanToken_nil]
  exact ⟨rfl, rfl⟩

/-- a blank in front adds none, -/
theorem blank (h : Spelled cs ls) : Spelled (' ' :: cs) ls := by
  intro before
  have hcs := h (before ++ [' '])
  simp only [List.map_append, width_append, List.append_assoc] at hcs ⊢
  have hscan : scanToken ⟨(' ' :: cs).map .char, width (before.map .char)⟩ =
      scanToken ⟨cs.map .char, width (before.map .char) + width ([' '].map .char)⟩ :=
        scanToken_blank
  cases ls with
  | nil =>
    rw [Spells, hscan]
    exact hcs
  | cons l ls =>
    rw [Spells, hscan]
    exact hcs

/-- and the text of a lexeme, if the scanner stops behind it, adds that one. -/
theorem cons (hl : l.Scans cs) (h : Spelled cs ls) : Spelled (l.text.toList ++ cs) (l :: ls) := by
  intro before
  obtain ⟨value, hvalue, hscan⟩ := hl (width (before.map .char))
  have hcs := h (before ++ l.text.toList)
  rw [Spells, hscan]
  simp only [List.map_append, width_append, List.append_assoc] at hcs ⊢
  refine ⟨⟨rfl, rfl, rfl, rfl, ?_, hvalue⟩, hcs⟩
  rw [slice, Nat.add_sub_cancel_left, dropBytes_width]
  exact (congrArg Text.toString (takeBytes_width (ofString l.text) _)).trans
    (toString_ofString l.text)

end Spelled

/-! ## Words -/

/-- A name is scanned before what does not go on with it. -/
theorem Lexeme.scans_word {text : String} {cs : List Char}
    (hname : isIdentifierName text.toList = true) (h : Ends cs) :
    (⟨nameKind false text, text⟩ : Lexeme).Scans cs := by
  intro offset
  have hscan := scanToken_written false hname h offset
  rw [writtenKind, if_neg Bool.false_ne_true, String.ofList_toList] at hscan
  exact ⟨ofString text, fun _ => toString_ofString text, hscan⟩

/-! ## Punctuators -/

namespace Punct

/-- The characters with which a longer punctuator goes on after this one. -/
def continuations : Punct → List Char
  | .plus => ['+', '=']
  | .minus => ['-', '=']
  | .star => ['*', '=']
  | .ampersand => ['&', '=']
  | .bar => ['|', '=']
  | .less => ['<', '=']
  | .greater | .shiftRight | .assign => ['>', '=']
  | .question => ['?', '.']
  | .dot => ['.']
  | .power | .slash | .percent | .caret | .shiftLeft | .shiftRightZero | .logicalAnd | .logicalOr
  | .coalesce | .equal | .bang | .notEqual => ['=']
  | _ => []

/-- What the spellings are checked for: none that is tried before another stands at its head,
and where one stands at the head of one tried before it, the character after it is a
continuation. -/
private theorem spellings_checked : longestFirst.Pairwise fun q p =>
    q.spelling.toList.isPrefixOf p.spelling.toList = false ∧
      (p.spelling.toList.isPrefixOf q.spelling.toList = true →
        ((q.spelling.toList.drop p.spelling.toList.length).head?.all p.continuations.contains) =
        true) := by
  decide +kernel

/-- Every punctuator is tried. -/
theorem mem_longestFirst (p : Punct) : p ∈ longestFirst := by
  cases p <;> decide

/-- Every punctuator comes after the longer ones, and none that comes before it stands at its
head. -/
theorem longestFirst_split (p : Punct) : ∃ as bs, longestFirst = as ++ p :: bs ∧
    ∀ q ∈ as, q.spelling.toList.isPrefixOf p.spelling.toList = false := by
  obtain ⟨as, bs, h⟩ := List.append_of_mem p.mem_longestFirst
  have hchecked := spellings_checked
  rw [h, List.pairwise_append] at hchecked
  exact ⟨as, bs, h, fun q hq => (hchecked.2.2 q hq p List.mem_cons_self).1⟩

/-- There are no others. -/
theorem mem_continuations {p q : Punct} {y : Char} {rest : List Char}
    (h : p.spelling.toList ++ y :: rest = q.spelling.toList) :
    y ∈ p.continuations := by
  have hlead : p.spelling.toList.isPrefixOf q.spelling.toList = true :=
    List.isPrefixOf_iff_prefix.mpr ⟨_, h⟩
  obtain ⟨as, bs, hsplit⟩ := List.append_of_mem p.mem_longestFirst
  have hchecked := spellings_checked
  rw [hsplit, List.pairwise_append, List.pairwise_cons] at hchecked
  have hq := q.mem_longestFirst
  rw [hsplit, List.mem_append, List.mem_cons] at hq
  rcases hq with before | rfl | after
  · have hy := (hchecked.2.2 q before p List.mem_cons_self).2 hlead
    rw [← h, List.drop_left] at hy
    exact List.contains_iff_mem.mp hy
  · exact absurd (List.append_right_eq_self.mp h) (List.cons_ne_nil _ _)
  · exact absurd hlead (Bool.eq_false_iff.mp (hchecked.2.1.1 q after).1)

/-- Whether a punctuator is read as something longer, or as something else, before a character. -/
def runsInto (p : Punct) (y : Char) : Bool :=
  p.continuations.contains y || p == .slash && (y == '/' || y == '*') ||
    (p == .dot || p == .optionalDot) && isDecimalDigit y

/-- A punctuator is matched before what it does not go on with. -/
theorem longestMatch?_spelling {p : Punct} {cs : List Char}
    (h : ∀ y ∈ cs.head?, y ∉ p.continuations) :
    longestMatch? (p.spelling.toList ++ cs) = some (p, p.spelling.length) := by
  obtain ⟨as, bs, hsplit, hnone⟩ := longestFirst_split p
  have hfind :
      longestFirst.find? (fun q => q.spelling.toList.isPrefixOf (p.spelling.toList ++ cs)) =
      some p := by
    refine List.find?_eq_some_iff_append.mpr
      ⟨List.isPrefixOf_iff_prefix.mpr (List.prefix_append _ _), as, bs, hsplit, ?_⟩
    intro q hq
    rw [Bool.not_eq_true', Bool.eq_false_iff]
    intro hlead
    have hq' := List.isPrefixOf_iff_prefix.mp hlead
    rcases Nat.le_total q.spelling.toList.length p.spelling.toList.length with hle | hle
    · have :=
        List.isPrefixOf_iff_prefix.mpr (List.prefix_of_prefix_length_le hq'
          (List.prefix_append _ cs) hle)
      exact Bool.eq_false_iff.mp (hnone q hq) this
    · obtain ⟨more, hmore⟩ := List.prefix_of_prefix_length_le (List.prefix_append _ cs) hq' hle
      cases more with
      | nil =>
        refine Bool.eq_false_iff.mp (hnone q hq) ?_
        rw [← hmore, List.append_nil]
        exact List.isPrefixOf_iff_prefix.mpr List.prefix_rfl
      | cons z more =>
        have hz : z ∈ cs.head? := by
          rw [← hmore, List.prefix_append_right_inj] at hq'
          obtain ⟨tail, rfl⟩ := hq'
          rfl
        exact h z hz (mem_continuations hmore)
  rw [longestMatch?, hfind]
  rfl

end Punct

section Punctuators

variable {cs : List Char} {p : Punct} {offset : Nat} {x : Char} {word : List Char}

theorem Punct.width_spelling (p : Punct) : width (ofString p.spelling) = p.spelling.length := by
  cases p <;> rfl

theorem Punct.length_spelling_le (p : Punct) : p.spelling.toList.length ≤ 4 := by
  cases p <;> decide

/-- The first character of a punctuator is no white space, and starts no other token, unless it
is a point. -/
theorem Punct.head_spelling (h : p.spelling.toList = x :: word) :
    isBlank x = false ∧ isLineTerminator x = false ∧
    (x == '\x22' || x == '\x27') = false ∧ (x == '\x60') = false ∧ isDecimalDigit x = false ∧
      (isBasicLetter x || x == '\\' || x == '#' || decide (0x80 ≤ x.toNat)) = false := by
  have hx :
      (p.spelling.toList.head?.all fun x => decide (isBlank x = false ∧ isLineTerminator x = false ∧
      (x == '\x22' || x == '\x27') = false ∧ (x == '\x60') = false ∧ isDecimalDigit x = false ∧
        (isBasicLetter x || x == '\\' || x == '#' || decide (0x80 ≤ x.toNat)) = false)) = true := by
    cases p <;> rfl
  rw [h] at hx
  exact of_decide_eq_true hx

/-- A punctuator is read as itself where it does not run into what follows. -/
theorem readPunctuator_spelling (h : ∀ y ∈ cs.head?, p.runsInto y = false) (offset : Nat) :
    readPunctuator ⟨(p.spelling.toList ++ cs).map .char, offset⟩ =
      some ({ kind := .punct p, start := offset, stop := offset + width (ofString p.spelling) },
        ⟨cs.map .char, offset + width (ofString p.spelling)⟩) := by
  have hmatch :
      Punct.longestMatch? ((((p.spelling.toList ++ cs).map Piece.char).take 4).map Piece.scalar) =
      some (p, p.spelling.length) := by
    rw [← List.map_take, List.map_map, show Piece.scalar ∘ Piece.char = id from rfl, List.map_id,
      List.take_append, List.take_of_length_le p.length_spelling_le]
    refine Punct.longestMatch?_spelling fun y hy => ?_
    rw [List.head?_take] at hy
    split at hy
    · cases hy
    · have hruns := h y hy
      rw [Punct.runsInto, Bool.or_eq_false_iff, Bool.or_eq_false_iff] at hruns
      exact fun hmem => Bool.eq_false_iff.mp hruns.1.1 (List.contains_iff_mem.mpr hmem)
  -- The optional link is not read before a digit, where the question mark stands alone.
  have hdigit : (p == .optionalDot &&
      Cursor.at? ⟨((p.spelling.toList ++ cs).map Piece.char).drop 2, 0⟩ isDecimalDigit) =
      false := by
    refine Bool.and_eq_false_imp.mpr fun hp => ?_
    cases beq_iff_eq.mp hp
    cases cs with
    | nil => rfl
    | cons y cs =>
      have hruns := h y rfl
      rw [Punct.runsInto, Bool.or_eq_false_iff] at hruns
      exact hruns.2
  have hdrop : ((p.spelling.toList ++ cs).map Piece.char).drop p.spelling.length =
      cs.map .char := by
    rw [List.map_append, show p.spelling.length = (p.spelling.toList.map Piece.char).length by
      rw [List.length_map]; rfl,
      List.drop_left]
  rw [readPunctuator]
  simp only [hmatch, hdigit, hdrop, p.width_spelling, Bool.false_eq_true, if_false]

/-- A punctuator starts no comment. -/
theorem readComment_spelling (h : ∀ y ∈ cs.head?, p.runsInto y = false) (offset : Nat) :
    readComment ⟨(p.spelling.toList ++ cs).map .char, offset⟩ = none := by
  cases p
  case slash =>
    cases cs with
    | nil => rfl
    | cons y cs =>
      have hruns := h y rfl
      simp only [Punct.runsInto, Bool.or_eq_false_iff, Bool.and_eq_false_imp, beq_iff_eq,
        beq_eq_false_iff_ne] at hruns
      obtain ⟨hslash, hstar⟩ := hruns.1.2 trivial
      show readComment ⟨.char '/' :: .char y :: cs.map .char, offset⟩ = none
      unfold readComment
      split
      · next hrest => exact absurd (Piece.char.inj (List.cons.inj (List.cons.inj hrest).2).1) hslash
      · next hrest => exact absurd (Piece.char.inj (List.cons.inj (List.cons.inj hrest).2).1) hstar
      · rfl
  case slashAssign => rfl
  all_goals exact readComment_of_ne (by decide)

/-- A point starts no number. -/
theorem readNumber_spelling (h : ∀ y ∈ cs.head?, p.runsInto y = false) (offset : Nat) :
    readNumber ⟨(p.spelling.toList ++ cs).map .char, offset⟩ = none := by
  refine if_neg (Bool.eq_false_iff.mp ?_)
  cases p
  case dot =>
    cases cs with
    | nil => rfl
    | cons y cs =>
      have hruns := h y rfl
      rw [Punct.runsInto, Bool.or_eq_false_iff] at hruns
      exact hruns.2
  all_goals rfl

/-- A punctuator is scanned before what it does not run into. -/
theorem Lexeme.scans_punct (h : ∀ y ∈ cs.head?, p.runsInto y = false) :
    (Lexeme.punct p).Scans cs := by
  refine fun offset => ⟨[], nofun, ?_⟩
  have hread := readPunctuator_spelling h offset
  have hcomment := readComment_spelling h offset
  have hnumber := readNumber_spelling h offset
  show scanToken ⟨(p.spelling.toList ++ cs).map .char, offset⟩ = _
  cases hword : p.spelling.toList with
  | nil => cases p <;> cases hword
  | cons x word =>
    rw [hword] at hread hcomment hnumber
    obtain ⟨hblank, hline, hquote, htemplate, hdigit, hletter⟩ := Punct.head_spelling hword
    refine scanToken_of_readerFor hblank hline hcomment ?_ rfl
    rw [readerFor, hquote, htemplate, hdigit, hletter]
    simp only [Bool.false_eq_true, if_false]
    split
    · exact (congrArg (Option.or · _) hnumber).trans hread
    · exact hread

end Punctuators

end EcmaStack
