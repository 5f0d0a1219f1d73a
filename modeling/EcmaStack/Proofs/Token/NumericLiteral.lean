import EcmaStack.Proofs.Token.NumericGrammar
import EcmaStack.Proofs.Token.Reading

/-!
# Numbers are read as far as the grammar goes

The reader is compared with the grammar in three ways, part by part. What it takes is a literal
(`readNumberBody_literal`). Before a text that continues no name it takes a given literal, and
this only (`Numeral.Literal.read`). It never stops inside a literal, whatever comes after
(`Numeral.Literal.read_le`). So what it takes is the longest literal at the cursor, and where
that one is followed by a name it takes nothing (`readNumber_exact`).
-/

namespace EcmaStack

open Text

/-- The second cursor is reached from the first over characters of one byte. -/
structure Cursor.Takes (c : Cursor) (w : List Char) (d : Cursor) : Prop where
  rest : c.rest = w.map .char ++ d.rest
  offset : d.offset = c.offset + w.length

/-- Digits of a base end here, and none of another follows. -/
def Text.Stops (base : Nat) (rest : Text) : Prop :=
  ∀ p ∈ rest.head?, p ≠ .char '_' ∧ isDigitOf base p.scalar = false ∧
    isDecimalDigit p.scalar = false

variable {base start offset v : Nat} {x : Char} {w f e : List Char} {ds : List Nat}
    {rest text : Text} {c d : Cursor} {k : Kind}

namespace Cursor.Takes

theorem none (c : Cursor) : c.Takes [] c :=
  ⟨rfl, rfl⟩

/-- Taking one word and then another is taking the two together. -/
theorem append {a b : List Char} {m : Cursor} (h : c.Takes a m) (k : m.Takes b d) :
    c.Takes (a ++ b) d := by
  refine ⟨?_, ?_⟩
  · rw [h.rest, k.rest, List.map_append, List.append_assoc]
  · rw [k.offset, h.offset, List.length_append, Nat.add_assoc]

theorem cons (hx : x.utf8Size = 1) (h : Takes ⟨rest, offset + x.utf8Size⟩ w d) :
    Takes ⟨.char x :: rest, offset⟩ (x :: w) d := by
  refine ⟨congrArg (Piece.char x :: ·) h.rest, ?_⟩
  rw [h.offset, hx, List.length_cons, Nat.add_assoc, Nat.add_comm 1]

/-- Taking one character, as the reader does it. -/
theorem ofTake? (hx : x.utf8Size = 1) (h : c.take? x = some d) : c.Takes [x] d := by
  obtain ⟨hrest, hoffset⟩ := take?_eq_some h
  rw [hx] at hoffset
  exact ⟨hrest, hoffset⟩

end Cursor.Takes

/-! ## Digits -/

namespace Numeral

/-- Digits end where the text goes on with neither a digit nor a separator. -/
theorem readDigitsFrom_stops (h : rest.Stops base) :
    readDigitsFrom base rest offset = .ok ⟨rest, offset⟩ := by
  cases rest with
  | nil => rw [readDigitsFrom]
  | cons p rest =>
    obtain ⟨hline, hdigit, hdecimal⟩ := h p rfl
    rw [readDigitsFrom]
    · rw [hdigit, hdecimal]
      rfl
    · exact hline

/-- After the first digit another is taken as the first was. -/
theorem IsDigit.readDigits (h : IsDigit base x v) (rest : Text) (offset : Nat) :
    EcmaStack.readDigits base ⟨.char x :: rest, offset⟩ = readDigitsFrom base rest (offset + 1) ∧
      readDigitsFrom base (.char x :: rest) offset = readDigitsFrom base rest (offset + 1) := by
  have hwidth : (Piece.char x).width = 1 := h.plain.width
  have hdigit : Text.isDigitOf base (Piece.char x).scalar = true := h.isDigitOf
  constructor
  · exact congrArg (fun n => readDigitsFrom base rest (offset + n)) hwidth
  · rw [readDigitsFrom]
    · rw [if_pos hdigit, hwidth]
    · exact fun hline => h.plain.no_separator (Piece.char.inj hline)

/-- A separator between two digits is passed with the digit behind it. -/
theorem IsDigit.readDigitsFrom_separated (h : IsDigit base x v) (rest : Text) (offset : Nat) :
    readDigitsFrom base (.char '_' :: .char x :: rest) offset =
      readDigitsFrom base rest (offset + 2) := by
  have hwidth : x.utf8Size = 1 := h.plain.width
  rw [readDigitsFrom]
  rw [if_pos h.isDigitOf, hwidth]

/-- Digits are read through, and the reader goes on behind them. -/
theorem Digits.readDigits (h : Digits base w ds) (rest : Text) (offset : Nat) :
    EcmaStack.readDigits base ⟨w.map .char ++ rest, offset⟩ =
      readDigitsFrom base rest (offset + w.length) := by
  induction h generalizing offset with
  | last hx => exact (hx.readDigits rest offset).1
  | @next x v xs ds hx hxs ih =>
    obtain ⟨y, u, ys, rfl, hy⟩ := hxs.head
    have hmore := ih (offset + 1)
    rw [List.map_cons, List.cons_append, (hy.readDigits _ _).1] at hmore
    rw [List.map_cons, List.cons_append, (hx.readDigits _ _).1, List.map_cons, List.cons_append,
      (hy.readDigits _ _).2, hmore]
    exact congrArg (readDigitsFrom base rest) (by simp only [List.length_cons]; omega)
  | @separated x v xs ds hx hxs ih =>
    obtain ⟨y, u, ys, rfl, hy⟩ := hxs.head
    have hmore := ih (offset + 2)
    rw [List.map_cons, List.cons_append, (hy.readDigits _ _).1] at hmore
    rw [List.map_cons, List.cons_append, (hx.readDigits _ _).1, List.map_cons, List.cons_append,
      List.map_cons, List.cons_append, hy.readDigitsFrom_separated, Nat.add_right_comm, hmore]
    exact congrArg (readDigitsFrom base rest) (by simp only [List.length_cons]; omega)

/-- A word of digits is read to its end and no further, -/
theorem Digits.readDigits_stops (h : Digits base w ds) (hrest : rest.Stops base) :
    EcmaStack.readDigits base ⟨w.map .char ++ rest, offset⟩ = .ok ⟨rest, offset + w.length⟩ := by
  rw [h.readDigits, readDigitsFrom_stops hrest]

/-- and read at least to its end, whatever follows it. -/
theorem Digits.readDigits_le (h : Digits base w ds)
    (hread : EcmaStack.readDigits base ⟨w.map .char ++ rest, offset⟩ = .ok d) :
    d.rest.length ≤ rest.length := by
  rw [h.readDigits] at hread
  exact (readDigitsFrom_reaches hread).length_le

theorem exists_digit {p : Piece} (h : isDigitOf base p.scalar = true) :
    ∃ x v, p = .char x ∧ IsDigit base x v := by
  obtain ⟨v, hv⟩ := exists_isDigit h
  have hplain : (digitAlphabet.all (· != replacement)) = true := by decide
  have hscalar := List.all_eq_true.mp hplain _ (mem_digitAlphabet_of_isDigitOf h)
  exact ⟨p.scalar, v, Piece.eq_char rfl (bne_iff_ne.mp hscalar), hv⟩

/-- What is taken after a digit goes on with digits. -/
theorem digits_of_readDigitsFrom (h : readDigitsFrom base text offset = .ok d)
    (hx : IsDigit base x v) :
    ∃ w ds, Digits base (x :: w) ds ∧ Cursor.Takes ⟨text, offset⟩ w d := by
  fun_induction readDigitsFrom base text offset generalizing x v with
  | case1 offset =>
    cases h
    exact ⟨[], _, .last hx, .none _⟩
  | case2 offset y tail hy ih =>
    obtain ⟨u, hu⟩ := exists_isDigit hy
    obtain ⟨w, ds, hdigits, htakes⟩ := ih h hu
    exact ⟨'_' :: y :: w, _, .separated hx hdigits, .cons rfl (.cons hu.plain.width htakes)⟩
  | case3 => cases h
  | case4 => cases h
  | case5 p rest offset _ hp ih =>
    obtain ⟨y, u, rfl, hu⟩ := exists_digit hp
    obtain ⟨w, ds, hdigits, htakes⟩ := ih h hu
    exact ⟨y :: w, _, .next hx hdigits, .cons hu.plain.width htakes⟩
  | case6 => cases h
  | case7 =>
    cases h
    exact ⟨[], _, .last hx, .none _⟩

/-- Conversely what is read is a word of digits. -/
theorem digits_of_readDigits (hat : c.at? (isDigitOf base) = true) (h : readDigits base c = .ok d) :
    ∃ w ds, Digits base w ds ∧ c.Takes w d := by
  obtain ⟨text, offset⟩ := c
  cases text with
  | nil => cases hat
  | cons p rest =>
    obtain ⟨x, v, rfl, hx⟩ := exists_digit hat
    obtain ⟨w, ds, hdigits, htakes⟩ := digits_of_readDigitsFrom h hx
    exact ⟨x :: w, ds, hdigits, .cons hx.plain.width htakes⟩

theorem isDecimalDigit_eq (x : Char) : isDecimalDigit x = isDigitOf 10 x := by
  have hall : (digitAlphabet.all fun y => isDecimalDigit y == isDigitOf 10 y) = true := by decide
  rw [Bool.eq_iff_iff]
  refine ⟨isDigitOf_ten, fun h => ?_⟩
  rw [beq_iff_eq.mp (List.all_eq_true.mp hall x (mem_digitAlphabet_of_isDigitOf h)), h]

theorem at?_head {test : Char → Bool} (h : ∀ p ∈ rest.head?, test p.scalar = false) :
    Cursor.at? ⟨rest, offset⟩ test = false := by
  cases rest with
  | nil => rfl
  | cons p rest => exact h p rfl

theorem take?_head (h : ∀ p ∈ rest.head?, p ≠ .char x) : Cursor.take? ⟨rest, offset⟩ x = none := by
  unfold Cursor.take?
  split
  · next y more hrest =>
    split
    · next hy =>
      cases hrest
      exact absurd (congrArg Piece.char (beq_iff_eq.mp hy)) (h _ rfl)
    · rfl
  · rfl

/-- Digits start with a decimal digit where the base is ten. -/
theorem Digits.at?_decimal (h : Digits 10 w ds) (rest : Text) (offset : Nat) :
    Cursor.at? ⟨w.map .char ++ rest, offset⟩ isDecimalDigit = true := by
  obtain ⟨x, v, more, rfl, hx⟩ := h.head
  show isDecimalDigit x = true
  rw [isDecimalDigit_eq]
  exact hx.isDigitOf

theorem digits_of_readDigits_ten (hat : c.at? isDecimalDigit = true) (h : readDigits 10 c = .ok d) :
    ∃ w ds, Digits 10 w ds ∧ c.Takes w d := by
  have htest : isDecimalDigit = isDigitOf 10 := funext isDecimalDigit_eq
  rw [htest] at hat
  exact digits_of_readDigits hat h

/-! ## Fractions and exponents -/

/-- The digits after a point are read as such. -/
theorem Digits.readFraction (h : Digits 10 w ds) :
    EcmaStack.readFraction ⟨('.' :: w).map .char ++ rest, offset⟩ =
      EcmaStack.readDigits 10 ⟨w.map .char ++ rest, offset + 1⟩ :=
  if_pos (h.at?_decimal rest (offset + 1))

/-- A fraction is read to its end; an empty one needs to know that no point follows. -/
theorem Fraction.read (h : Fraction f) (hrest : rest.Stops 10)
    (hpoint : f = [] → ∀ p ∈ rest.head?, p ≠ .char '.') :
    readFraction ⟨f.map .char ++ rest, offset⟩ = .ok ⟨rest, offset + f.length⟩ := by
  cases h with
  | none =>
    rw [List.map_nil, List.nil_append, readFraction, take?_head (hpoint rfl)]
    rfl
  | point =>
    have hdigit : Cursor.at? ⟨rest, offset + 1⟩ isDecimalDigit = false :=
      at?_head fun p hp => (hrest p hp).2.2
    have hline : Cursor.at? ⟨rest, offset + 1⟩ (· == '_') = false :=
      at?_head fun p hp => beq_eq_false_iff_ne.mpr fun hline =>
        (hrest p hp).1 (Piece.eq_char hline (by decide))
    have htake : Cursor.take? ⟨['.'].map .char ++ rest, offset⟩ '.' = some ⟨rest, offset + 1⟩ := rfl
    rw [readFraction, htake]
    dsimp only
    rw [if_neg (Bool.eq_false_iff.mp hdigit), if_neg (Bool.eq_false_iff.mp hline)]
    rfl
  | digits hw =>
    rw [hw.readFraction, hw.readDigits_stops hrest, List.length_cons, Nat.add_assoc, Nat.add_comm 1]

/-- Reading a fraction does not end inside one. -/
theorem Fraction.read_le (h : Fraction f)
    (hread : readFraction ⟨f.map .char ++ rest, offset⟩ = .ok d) :
    d.rest.length ≤ rest.length := by
  cases h with
  | none => exact (readFraction_reaches hread).1.length_le
  | point => exact Nat.le_of_lt_succ ((readFraction_reaches hread).2 rfl).shorter
  | digits hw =>
    rw [hw.readFraction] at hread
    exact hw.readDigits_le hread

/-- Conversely what is read as a fraction is one, if only the empty one. -/
theorem fraction_of_read (h : readFraction c = .ok d) : ∃ f, Fraction f ∧ c.Takes f d := by
  unfold readFraction at h
  split at h
  · cases h
    exact ⟨[], .none, .none c⟩
  · next inner hpoint =>
    have htakes := Cursor.Takes.ofTake? rfl hpoint
    split at h
    · next hat =>
      obtain ⟨w, ds, hw, hmore⟩ := digits_of_readDigits_ten hat h
      exact ⟨'.' :: w, .digits hw, htakes.append hmore⟩
    · split at h
      · cases h
      · cases h
        exact ⟨['.'], .point, htakes⟩

/-- The digits of an exponent are read as such. -/
theorem Digits.readExponentPart {m : Char} {sign : List Char} (h : Digits 10 w ds)
    (hm : m ∈ ['e', 'E']) (hsign : sign ∈ [[], ['+'], ['-']]) :
    EcmaStack.readExponentPart start ⟨(m :: sign ++ w).map .char ++ rest, offset⟩ =
      EcmaStack.readDigits 10 ⟨w.map .char ++ rest, offset + 1 + sign.length⟩ := by
  have hmark : (Cursor.take? ⟨(m :: sign ++ w).map .char ++ rest, offset⟩ 'e').or
      (Cursor.take? ⟨(m :: sign ++ w).map .char ++ rest, offset⟩ 'E') =
        some ⟨(sign ++ w).map .char ++ rest, offset + 1⟩ := by
    rcases List.mem_pair.mp hm with rfl | rfl <;> rfl
  have hsigned : ((Cursor.take? ⟨(sign ++ w).map .char ++ rest, offset + 1⟩ '+').or
      (Cursor.take? ⟨(sign ++ w).map .char ++ rest, offset + 1⟩ '-')).getD ⟨(sign ++ w).map .char ++
        rest, offset + 1⟩ =
        ⟨w.map .char ++ rest, offset + 1 + sign.length⟩ := by
    rw [List.mem_cons, List.mem_pair] at hsign
    rcases hsign with rfl | rfl | rfl
    · obtain ⟨x, v, more, rfl, hx⟩ := h.head
      rw [take?_head, take?_head]
      · rfl
      · rintro p ⟨⟩
        exact fun hp => hx.plain.no_minus (Piece.char.inj hp)
      · rintro p ⟨⟩
        exact fun hp => hx.plain.no_plus (Piece.char.inj hp)
    · rfl
    · rfl
  rw [EcmaStack.readExponentPart, hmark]
  dsimp only
  rw [hsigned]
  exact if_pos (h.at?_decimal _ _)

/-- An exponent is read to its end; an empty one needs to know that no mark follows. -/
theorem Exponent.read (h : Exponent e) (hrest : rest.Stops 10)
    (hmark : e = [] → ∀ p ∈ rest.head?, p ≠ .char 'e' ∧ p ≠ .char 'E') :
    readExponentPart start ⟨e.map .char ++ rest, offset⟩ = .ok ⟨rest, offset + e.length⟩ := by
  cases h with
  | none =>
    rw [List.map_nil, List.nil_append, readExponentPart, take?_head fun p hp => (hmark rfl p hp).1,
      take?_head fun p hp => (hmark rfl p hp).2]
    rfl
  | @digits m sign w ds hm hsign hw =>
    have hoffset : offset + (m :: sign ++ w).length = offset + 1 + sign.length + w.length := by
      simp only [List.length_append, List.length_cons]
      omega
    rw [hw.readExponentPart hm hsign, hw.readDigits_stops hrest, hoffset]

theorem Exponent.read_le (h : Exponent e)
    (hread : readExponentPart start ⟨e.map .char ++ rest, offset⟩ = .ok d) :
    d.rest.length ≤ rest.length := by
  cases h with
  | none => exact (readExponentPart_reaches hread).length_le
  | digits hm hsign hw =>
    rw [hw.readExponentPart hm hsign] at hread
    exact hw.readDigits_le hread

/-- One of two characters is taken. -/
theorem takes_of_or {y : Char} (hx : x.utf8Size = 1) (hy : y.utf8Size = 1)
    (h : (c.take? x).or (c.take? y) = some d) :
    ∃ z ∈ [x, y], c.Takes [z] d := by
  rcases Option.or_eq_some_iff.mp h with h | ⟨-, h⟩
  · exact ⟨x, List.mem_cons_self, .ofTake? hx h⟩
  · exact ⟨y, List.mem_cons_of_mem _ List.mem_cons_self, .ofTake? hy h⟩

/-- Conversely what is read as an exponent is one, if only the empty one. -/
theorem exponent_of_read (h : readExponentPart start c = .ok d) :
    ∃ e, Exponent e ∧ c.Takes e d := by
  unfold readExponentPart at h
  split at h
  · cases h
    exact ⟨[], .none, .none c⟩
  · next inner hmark =>
    obtain ⟨m, hm, hinner⟩ := takes_of_or rfl rfl hmark
    have hsigned :
        ∃ sign ∈ [[], ['+'], ['-']], inner.Takes sign
        (((inner.take? '+').or (inner.take? '-')).getD inner) := by
      cases hs : (inner.take? '+').or (inner.take? '-') with
      | none => exact ⟨[], List.mem_cons_self, .none inner⟩
      | some signed =>
        obtain ⟨z, hz, htakes⟩ := takes_of_or rfl rfl hs
        exact ⟨[z], List.mem_cons_of_mem _ (List.mem_map_of_mem (f := fun z => [z]) hz), htakes⟩
    obtain ⟨sign, hsign, htakes⟩ := hsigned
    dsimp only at h
    split at h
    · next hat =>
      obtain ⟨w, ds, hw, hmore⟩ := digits_of_readDigits_ten hat h
      exact ⟨m :: sign ++ w, .digits hm hsign hw, (hinner.append htakes).append hmore⟩
    · cases h

/-! ## What follows the whole part -/

/-- What continues no name is none of the characters that do. -/
theorem ne_of_part {p : Piece} (hp : isIdentifierPart p.scalar = false)
    (hx : isIdentifierPart x = true) : p ≠ .char x := by
  rintro rfl
  exact Bool.false_ne_true (hp.symm.trans hx)

/-- What is no part of a name is neither a separator nor a digit: the check behind a
number covers both. -/
theorem stop_of_part {p : Piece} (hp : isIdentifierPart p.scalar = false) :
    p ≠ .char '_' ∧ isDigitOf base p.scalar = false ∧ isDecimalDigit p.scalar = false := by
  refine ⟨ne_of_part hp (by decide), ?_, ?_⟩
  · exact Bool.eq_false_iff.mpr fun hdigit =>
      Bool.eq_false_iff.mp hp (isIdentifierPart_of_isDigitOf hdigit)
  · exact Bool.eq_false_iff.mpr fun hdigit =>
      Bool.eq_false_iff.mp hp (isIdentifierPart_of_isDecimalDigit hdigit)

/-- Digits of every base end before what continues no name. -/
theorem stops_of_part (h : ∀ p ∈ rest.head?, isIdentifierPart p.scalar = false) : rest.Stops base :=
  fun p hp => stop_of_part (h p hp)

/-- An exponent that is there starts with its mark. -/
theorem Exponent.head (h : Exponent e) : e = [] ∨ ∃ m more, e = m :: more ∧ m ∈ ['e', 'E'] := by
  cases h with
  | none => exact .inl rfl
  | digits hm _ _ => exact .inr ⟨_, _, rfl, hm⟩

/-- The mark of an exponent ends a fraction. -/
theorem Fraction.read_mark {m : Char} (h : Fraction f) (hm : m ∈ ['e', 'E']) (more : List Char) :
    readFraction ⟨f.map .char ++ ((m :: more).map .char ++ rest), offset⟩ =
      .ok ⟨(m :: more).map .char ++ rest, offset + f.length⟩ := by
  refine h.read ?_ fun _ => ?_
  · rintro p ⟨⟩
    rcases List.mem_pair.mp hm with rfl | rfl <;> decide
  · rintro p ⟨⟩
    rcases List.mem_pair.mp hm with rfl | rfl <;> decide

/-- A fraction and an exponent, one behind the other: the tail of a decimal number. -/
theorem readDecimalTail_read (hf : Fraction f) (he : Exponent e)
    (hrest : ∀ p ∈ rest.head?, isIdentifierPart p.scalar = false)
    (hpoint : f ++ e = [] → ∀ p ∈ rest.head?, p ≠ .char '.') :
    readDecimalTail start ⟨(f ++ e).map .char ++ rest, offset⟩ =
      .ok (.number, ⟨rest, offset + (f ++ e).length⟩) := by
  have hfraction : readFraction ⟨f.map .char ++ (e.map .char ++ rest), offset⟩ =
      .ok ⟨e.map .char ++ rest, offset + f.length⟩ := by
    rcases he.head with rfl | ⟨m, more, rfl, hm⟩
    · exact hf.read (stops_of_part hrest) fun hf => hpoint (by rw [hf]; rfl)
    · exact hf.read_mark hm more
  have hexponent : readExponentPart start ⟨e.map .char ++ rest, offset + f.length⟩ =
      .ok ⟨rest, offset + f.length + e.length⟩ :=
    he.read (stops_of_part hrest) fun _ p hp =>
      ⟨ne_of_part (hrest p hp) (by decide), ne_of_part (hrest p hp) (by decide)⟩
  rw [List.map_append, List.append_assoc, List.length_append, ← Nat.add_assoc, readDecimalTail,
    hfraction]
  show (readExponentPart start ⟨e.map .char ++ rest, offset + f.length⟩ >>= fun c =>
    pure (Kind.number, c)) = _
  rw [hexponent]
  rfl

theorem readDecimalTail_le (hf : Fraction f) (he : Exponent e)
    (hread : readDecimalTail start ⟨(f ++ e).map .char ++ rest, offset⟩ = .ok (k, d)) :
    d.rest.length ≤ rest.length := by
  obtain ⟨m, hfraction, hread⟩ := except_bind_ok hread
  obtain ⟨a, hexponent, hread⟩ := except_bind_ok hread
  cases hread
  rw [List.map_append, List.append_assoc] at hfraction
  rcases he.head with rfl | ⟨mark, more, rfl, hmark⟩
  · exact Nat.le_trans (readExponentPart_reaches hexponent).length_le (hf.read_le hfraction)
  · rw [hf.read_mark hmark] at hfraction
    cases hfraction
    exact he.read_le hexponent

/-- Conversely the tail that is read is a fraction and an exponent, and makes the number
no BigInt. -/
theorem tail_of_read (h : readDecimalTail start c = .ok (k, d)) :
    k = .number ∧ ∃ f e, Fraction f ∧ Exponent e ∧ c.Takes (f ++ e) d := by
  obtain ⟨m, hfraction, h⟩ := except_bind_ok h
  obtain ⟨a, hexponent, h⟩ := except_bind_ok h
  cases h
  obtain ⟨f, hf, hfirst⟩ := fraction_of_read hfraction
  obtain ⟨e, he, hthen⟩ := exponent_of_read hexponent
  exact ⟨rfl, f, e, hf, he, hfirst.append hthen⟩

/-! ## Whole numbers -/

/-- After a leading zero that nothing else is made of, the rest of a decimal is read. -/
theorem readAfterZero_tail (h : ∀ p ∈ rest.head?, isIdentifierPart p.scalar = false ∨
    p = .char 'e' ∨ p = .char 'E') :
    readAfterZero start ⟨rest, offset⟩ = readDecimalTail start ⟨rest, offset⟩ := by
  unfold readAfterZero
  split
  · next x more hrest =>
    cases hrest
    have hx : markedBase? x = none ∧ x ≠ 'n' ∧ x ≠ '_' ∧ isDecimalDigit x = false := by
      rcases h _ rfl with hpart | hmark | hmark
      · have hpart : isIdentifierPart x = false := hpart
        refine ⟨?_, ?_, ?_, ?_⟩
        · rw [← Option.not_isSome_iff_eq_none]
          exact fun hmarked => Bool.eq_false_iff.mp hpart (isIdentifierPart_of_markedBase? hmarked)
        · rintro rfl
          exact absurd hpart (by decide)
        · rintro rfl
          exact absurd hpart (by decide)
        · exact Bool.eq_false_iff.mpr fun hdigit =>
            Bool.eq_false_iff.mp hpart (isIdentifierPart_of_isDecimalDigit hdigit)
      · cases hmark
        decide
      · cases hmark
        decide
    obtain ⟨hbase, hn, hline, hdigit⟩ := hx
    rw [hbase]
    dsimp only
    rw [if_neg (by simpa using hn), if_neg (by simpa using hline),
      if_neg (Bool.eq_false_iff.mp hdigit)]
  · rfl

/-- Digits that do not start with zero are read, and then a suffix or the rest of a decimal. -/
theorem Digits.readNumberBody (h : Digits 10 w ds) (hfirst : w.head? ≠ some '0') :
    readNumberBody ⟨w.map .char ++ rest, offset⟩ = (do
      let d ← EcmaStack.readDigits 10 ⟨w.map .char ++ rest, offset⟩
      match d.take? 'n' with
      | some after => return (.bigint, after)
      | none => readDecimalTail offset d) := by
  have hzero : Cursor.take? ⟨w.map .char ++ rest, offset⟩ '0' = none := by
    refine take?_head fun p hp hx => ?_
    obtain ⟨x, v, more, rfl, -⟩ := h.head
    cases hp
    exact hfirst (congrArg some (Piece.char.inj hx))
  rw [EcmaStack.readNumberBody, hzero]
  exact if_pos (h.at?_decimal rest offset)

/-- After a whole number the rest of a decimal is read. -/
theorem Whole.readNumberBody (h : Whole w ds)
    (hrest : ∀ p ∈ rest.head?, isIdentifierPart p.scalar = false ∨ p = .char 'e' ∨ p = .char 'E') :
    EcmaStack.readNumberBody ⟨w.map .char ++ rest, offset⟩ =
      readDecimalTail offset ⟨rest, offset + w.length⟩ := by
  cases h with
  | zero => exact readAfterZero_tail hrest
  | digits hw hfirst =>
    have hstops : rest.Stops 10 := by
      intro p hp
      rcases hrest p hp with hpart | rfl | rfl
      · exact stop_of_part hpart
      · decide
      · decide
    have hsuffix : Cursor.take? ⟨rest, offset + w.length⟩ 'n' = none := by
      refine take?_head fun p hp => ?_
      rcases hrest p hp with hpart | rfl | rfl
      · exact ne_of_part hpart (by decide)
      · decide
      · decide
    rw [hw.readNumberBody hfirst, hw.readDigits_stops hstops]
    show (match Cursor.take? ⟨rest, offset + w.length⟩ 'n' with
      | some after => _
      | none => _) = _
    rw [hsuffix]

/-- Reading a whole number goes at least to its end: the longest match is no shorter. -/
theorem Whole.readNumberBody_le (h : Whole w ds)
    (hread : EcmaStack.readNumberBody ⟨w.map .char ++ rest, offset⟩ = .ok (k, d)) :
    d.rest.length ≤ rest.length := by
  cases h with
  | zero => exact (readAfterZero_reaches hread).length_le
  | digits hw hfirst =>
    rw [hw.readNumberBody hfirst] at hread
    obtain ⟨m, hdigits, hread⟩ := except_bind_ok hread
    refine Nat.le_trans ?_ (hw.readDigits_le hdigits)
    split at hread
    · next hn =>
      cases hread
      exact (Cursor.take?_passes hn).reaches.length_le
    · exact (readDecimalTail_reaches hread).1.length_le

theorem stops_suffix : Text.Stops base (.char 'n' :: rest) := by
  rintro p ⟨⟩
  exact ⟨by decide, rfl, by decide⟩

theorem suffix_append (w : List Char) (rest : Text) :
    (w ++ ['n']).map .char ++ rest = w.map .char ++ .char 'n' :: rest := by
  rw [List.map_append, List.append_assoc]
  rfl

/-- With the suffix a whole number is a BigInt, and nothing is read behind the suffix. -/
theorem Whole.readNumberBody_suffix (h : Whole w ds) (rest : Text) (offset : Nat) :
    EcmaStack.readNumberBody ⟨(w ++ ['n']).map .char ++ rest, offset⟩ =
      .ok (.bigint, ⟨rest, offset + (w ++ ['n']).length⟩) := by
  cases h with
  | zero => rfl
  | digits hw hfirst =>
    rw [suffix_append, hw.readNumberBody hfirst, hw.readDigits_stops stops_suffix,
      List.length_append, ← Nat.add_assoc]
    rfl

/-! ## Marked bases -/

/-- The grammar's marks of a base are those that the reader knows. -/
theorem marks_iff : Marks x base ↔ markedBase? x = some base := by
  constructor
  · have hall : ∀ mark ∈ [('b', 2), ('B', 2), ('o', 8), ('O', 8), ('x', 16), ('X', 16)],
        markedBase? mark.1 = some mark.2 := by decide
    exact hall (x, base)
  · intro h
    unfold markedBase? at h
    split at h
    · next hx =>
      cases h
      rcases Bool.or_eq_true_iff.mp hx with hx | hx <;> cases beq_iff_eq.mp hx <;> decide
    · split at h
      · next hx =>
        cases h
        rcases Bool.or_eq_true_iff.mp hx with hx | hx <;> cases beq_iff_eq.mp hx <;> decide
      · split at h
        · next hx =>
          cases h
          rcases Bool.or_eq_true_iff.mp hx with hx | hx <;> cases beq_iff_eq.mp hx <;> decide
        · cases h

/-- A zero and a mark send the reader to the digits of the marked base. -/
theorem Marks.readNumberBody (h : Marks x base) (rest : Text) (offset : Nat) :
    EcmaStack.readNumberBody ⟨.char '0' :: .char x :: rest, offset⟩ =
      readMarked offset base ⟨rest, offset + 2⟩ := by
  have hzero : EcmaStack.readNumberBody ⟨.char '0' :: .char x :: rest, offset⟩ =
      readAfterZero offset ⟨.char x :: rest, offset + 1⟩ := rfl
  rw [hzero]
  simp only [readAfterZero, marks_iff.mp h]

/-- Digits in a marked base are read, and then a suffix may come. -/
theorem Digits.readMarked (h : Digits base w ds) :
    readMarked start base ⟨w.map .char ++ rest, offset⟩ = (do
      let d ← EcmaStack.readDigits base ⟨w.map .char ++ rest, offset⟩
      match d.take? 'n' with
      | some after => return (.bigint, after)
      | none => return (.number, d)) := by
  obtain ⟨x, v, more, rfl, hx⟩ := h.head
  have hat : Cursor.at? ⟨(x :: more).map .char ++ rest, offset⟩ (isDigitOf base) = true :=
    hx.isDigitOf
  exact if_pos hat

/-- Behind a mark the digits are read to their end, as a number -/
theorem Digits.readMarked_stops (h : Digits base w ds)
    (hrest : ∀ p ∈ rest.head?, isIdentifierPart p.scalar = false) :
    EcmaStack.readMarked start base ⟨w.map .char ++ rest, offset⟩ =
      .ok (.number, ⟨rest, offset + w.length⟩) := by
  have hsuffix : Cursor.take? ⟨rest, offset + w.length⟩ 'n' = none :=
    take?_head fun p hp => ne_of_part (hrest p hp) (by decide)
  rw [h.readMarked, h.readDigits_stops (stops_of_part hrest)]
  show (match Cursor.take? ⟨rest, offset + w.length⟩ 'n' with
    | some after => _
    | none => _) = _
  rw [hsuffix]
  rfl

/-- or, with the suffix, as a BigInt. -/
theorem Digits.readMarked_suffix (h : Digits base w ds) (rest : Text) (offset : Nat) :
    EcmaStack.readMarked start base ⟨w.map .char ++ .char 'n' :: rest, offset⟩ =
      .ok (.bigint, ⟨rest, offset + w.length + 1⟩) := by
  rw [h.readMarked, h.readDigits_stops stops_suffix]
  rfl

theorem Digits.readMarked_le (h : Digits base w ds)
    (hread : EcmaStack.readMarked start base ⟨w.map .char ++ rest, offset⟩ = .ok (k, d)) :
    d.rest.length ≤ rest.length := by
  rw [h.readMarked] at hread
  obtain ⟨m, hdigits, hread⟩ := except_bind_ok hread
  refine Nat.le_trans ?_ (h.readDigits_le hdigits)
  split at hread
  · next hn =>
    cases hread
    exact (Cursor.take?_passes hn).reaches.length_le
  · cases hread
    exact Nat.le_refl _

/-- What is read in a marked base is digits of it, and a suffix for a big integer. -/
theorem marked_of_read (h : readMarked start base c = .ok (k, d)) : ∃ w ds, Digits base w ds ∧
    (k = .number ∧ c.Takes w d ∨ k = .bigint ∧ c.Takes (w ++ ['n']) d) := by
  unfold EcmaStack.readMarked at h
  split at h
  · next hat =>
    obtain ⟨m, hdigits, h⟩ := except_bind_ok h
    obtain ⟨w, ds, hw, htakes⟩ := digits_of_readDigits hat hdigits
    split at h
    · next hn =>
      cases h
      exact ⟨w, ds, hw, .inr ⟨rfl, htakes.append (.ofTake? rfl hn)⟩⟩
    · cases h
      exact ⟨w, ds, hw, .inl ⟨rfl, htakes⟩⟩
  · split at h
    · split at h <;> cases h
    · cases h

/-! ## Literals -/

/-- What follows the whole part of a decimal starts with a point or the mark of an exponent. -/
theorem tail_head (hf : Fraction f) (he : Exponent e)
    (hrest : f ++ e = [] → ∀ p ∈ rest.head?, isIdentifierPart p.scalar = false) :
    ∀ p ∈ ((f ++ e).map Piece.char ++ rest).head?, isIdentifierPart p.scalar = false ∨
    p = .char 'e' ∨ p = .char 'E' := by
  cases hf with
  | none =>
    rcases he.head with rfl | ⟨m, more, rfl, hm⟩
    · exact fun p hp => .inl (hrest rfl p hp)
    · rintro p ⟨⟩
      rcases List.mem_pair.mp hm with rfl | rfl <;> decide
  | point =>
    rintro p ⟨⟩
    decide
  | digits hw =>
    rintro p ⟨⟩
    decide

/-- Every number of the grammar is read as a number and to its end, unless a longer one
stands there. -/
theorem Number.read (h : Number w) (hrest : ∀ p ∈ rest.head?, isIdentifierPart p.scalar = false)
    (hpoint : (∃ ds, Whole w ds) → ∀ p ∈ rest.head?, p ≠ .char '.') :
    readNumberBody ⟨w.map .char ++ rest, offset⟩ = .ok (.number, ⟨rest, offset + w.length⟩) := by
  cases h with
  | @decimal w ds f e hw hf he =>
    have hnone : f ++ e = [] → ∀ p ∈ rest.head?, p ≠ .char '.' := by
      intro hnone
      rw [hnone, List.append_nil] at hpoint
      exact hpoint ⟨ds, hw⟩
    have hoffset : offset + (w ++ (f ++ e)).length = offset + w.length + (f ++ e).length := by
      rw [List.length_append, ← Nat.add_assoc]
    rw [List.map_append, List.append_assoc, hw.readNumberBody (tail_head hf he fun _ => hrest),
      readDecimalTail_read hf he hrest hnone, hoffset]
  | @point w ds e hw he =>
    exact readDecimalTail_read (.digits hw) he hrest (by rintro ⟨⟩)
  | @marked x base w ds hmark hw =>
    have hoffset : offset + ('0' :: x :: w).length = offset + 2 + w.length := by
      simp only [List.length_cons]
      omega
    rw [List.map_cons, List.map_cons, List.cons_append, List.cons_append, hmark.readNumberBody,
      hw.readMarked_stops hrest, hoffset]

/-- Every BigInt of the grammar is read as one, whatever follows. -/
theorem BigInt.read (h : BigInt w base ds) (rest : Text) (offset : Nat) :
    readNumberBody ⟨w.map .char ++ rest, offset⟩ = .ok (.bigint, ⟨rest, offset + w.length⟩) := by
  cases h with
  | suffixed hw =>
    cases hw with
    | decimal hw => exact hw.readNumberBody_suffix rest offset
    | @marked x base w ds hmark hw =>
      have hoffset : offset + ('0' :: x :: w ++ ['n']).length = offset + 2 + w.length + 1 := by
        simp only [List.length_append, List.length_cons, List.length_nil]
        omega
      rw [suffix_append, List.map_cons, List.map_cons, List.cons_append, List.cons_append,
        hmark.readNumberBody, hw.readMarked_suffix, hoffset]

/-- Reading a number does not end inside a literal. -/
theorem Literal.read_le (h : Literal w)
    (hread : readNumberBody ⟨w.map .char ++ rest, offset⟩ = .ok (k, d)) :
    d.rest.length ≤ rest.length := by
  rcases h with h | ⟨base, ds, h⟩
  · cases h with
    | @decimal w ds f e hw hf he =>
      by_cases hnone : f ++ e = []
      · rw [hnone, List.append_nil] at hread
        exact hw.readNumberBody_le hread
      · rw [List.map_append, List.append_assoc,
          hw.readNumberBody (tail_head hf he fun h => absurd h hnone)] at hread
        exact readDecimalTail_le hf he hread
    | point hw he => exact readDecimalTail_le (.digits hw) he hread
    | marked hmark hw =>
      rw [List.map_cons, List.map_cons, List.cons_append, List.cons_append,
        hmark.readNumberBody] at hread
      exact hw.readMarked_le hread
  · rw [h.read] at hread
    cases hread
    exact Nat.le_refl _

/-- What is read after a leading zero is the rest of a literal. -/
theorem literal_of_readAfterZero (h : readAfterZero start c = .ok (k, d)) : ∃ w, c.Takes w d ∧
    (k = .number ∧ Number ('0' :: w) ∨ k = .bigint ∧ ∃ base ds, BigInt ('0' :: w) base ds) := by
  have htail : readDecimalTail start c = .ok (k, d) → ∃ w, c.Takes w d ∧
      (k = .number ∧ Number ('0' :: w) ∨ k = .bigint ∧ ∃ base ds, BigInt ('0' :: w) base ds) := by
    intro h
    obtain ⟨rfl, f, e, hf, he, htakes⟩ := tail_of_read h
    exact ⟨f ++ e, htakes, .inl ⟨rfl, .decimal .zero hf he⟩⟩
  obtain ⟨text, offset⟩ := c
  unfold readAfterZero at h
  split at h
  · next x rest hrest =>
    cases hrest
    split at h
    · next base hbase =>
      have hmark := marks_iff.mpr hbase
      have hx := utf8Size_of_markedBase? hbase
      obtain ⟨w, ds, hw, ⟨rfl, htakes⟩ | ⟨rfl, htakes⟩⟩ := marked_of_read h
      · exact ⟨x :: w, .cons hx (hx.symm ▸ htakes), .inl ⟨rfl, .marked hmark hw⟩⟩
      · exact ⟨x :: w ++ ['n'], .cons hx (hx.symm ▸ htakes),
          .inr ⟨rfl, base, ds, .suffixed (.marked hmark hw)⟩⟩
    · split at h
      · next hn =>
        cases h
        cases beq_iff_eq.mp hn
        exact ⟨['n'], .cons rfl (.none _), .inr ⟨rfl, 10, [0], .suffixed (.decimal .zero)⟩⟩
      · split at h
        · cases h
        · split at h
          · cases h
          · exact htail h
  · exact htail h

/-- What is read is a literal. -/
theorem literal_of_read (hstarts : numberStarts c = true) (hread : readNumberBody c = .ok (k, d)) :
    ∃ w, c.Takes w d ∧ (k = .number ∧ Number w ∨ k = .bigint ∧ ∃ base ds, BigInt w base ds) := by
  unfold readNumberBody at hread
  split at hread
  -- A number starts with a zero, with another digit, or with a point; each has its own readers.
  · next inner hzero =>
    obtain ⟨w, htakes, hw⟩ := literal_of_readAfterZero hread
    exact ⟨'0' :: w, (Cursor.Takes.ofTake? rfl hzero).append htakes, hw⟩
  · next hzero =>
    split at hread
    · next hat =>
      obtain ⟨m, hdigits, hread⟩ := except_bind_ok hread
      obtain ⟨w, ds, hw, htakes⟩ := digits_of_readDigits_ten hat hdigits
      -- Digits that do not start with a zero are a whole number.
      have hwhole : Whole w ds := by
        refine .digits hw fun hfirst => ?_
        obtain ⟨more, rfl⟩ := List.head?_eq_some_iff.mp hfirst
        rw [Cursor.take?, htakes.rest] at hzero
        cases hzero
      split at hread
      · next hn =>
        cases hread
        exact ⟨w ++ ['n'], htakes.append (.ofTake? rfl hn),
          .inr ⟨rfl, 10, ds, .suffixed (.decimal hwhole)⟩⟩
      · obtain ⟨rfl, f, e, hf, he, hmore⟩ := tail_of_read hread
        exact ⟨w ++ (f ++ e), htakes.append hmore, .inl ⟨rfl, .decimal hwhole hf he⟩⟩
    · next hat =>
      obtain ⟨m, hfraction, hread⟩ := except_bind_ok hread
      obtain ⟨a, hexponent, hread⟩ := except_bind_ok hread
      cases hread
      unfold numberStarts at hstarts
      split at hstarts
      · next inner hpoint =>
        rw [readFraction, hpoint] at hfraction
        dsimp only at hfraction
        rw [if_pos hstarts] at hfraction
        obtain ⟨w, ds, hw, htakes⟩ := digits_of_readDigits_ten hstarts hfraction
        obtain ⟨e, he, hmore⟩ := exponent_of_read hexponent
        exact ⟨'.' :: w ++ e, ((Cursor.Takes.ofTake? rfl hpoint).append htakes).append hmore,
          .inl ⟨rfl, .point hw he⟩⟩
      · exact absurd hstarts hat

/-! ## The longest literal -/

/-- A text starts with a decimal digit, or with a point before one. -/
inductive Starts : Text → Prop where
  | digit {x d more} : IsDigit 10 x d → Starts (.char x :: more)
  | point {x d more} : IsDigit 10 x d → Starts (.char '.' :: .char x :: more)

/-- A text starts with a literal, and with no longer one. -/
structure Longest (text : Text) (w : List Char) (after : Text) : Prop where
  spelled : text = w.map .char ++ after
  literal : Literal w
  longest : ∀ v rest, Literal v → text = v.map .char ++ rest → v.length ≤ w.length

/-- Where a number of the grammar starts the reader sees one start. -/
theorem Starts.numberStarts (h : Starts c.rest) : numberStarts c = true := by
  obtain ⟨text, offset⟩ := c
  cases h with
  | @digit x d more hx =>
    have hpoint : Cursor.take? ⟨.char x :: more, offset⟩ '.' = none := by
      refine take?_head fun p hp hpoint => ?_
      cases hp
      exact hx.plain.no_point (Piece.char.inj hpoint)
    rw [EcmaStack.numberStarts, hpoint]
    exact (isDecimalDigit_eq x).trans hx.isDigitOf
  | @point x d more hx => exact (isDecimalDigit_eq x).trans hx.isDigitOf

/-- A decimal digit is a literal, and so is one after a point. -/
theorem Starts.literal (h : Starts text) : ∃ w rest, Literal w ∧ text = w.map .char ++ rest := by
  cases h with
  | @digit x d more hx =>
    by_cases hzero : x = '0'
    · exact ⟨['0'], more, .inl (.decimal .zero .none .none), by rw [hzero]; rfl⟩
    · have hfirst : [x].head? ≠ some '0' := fun hx => hzero (Option.some.inj hx)
      exact ⟨[x], more, .inl (.decimal (.digits (.last hx) hfirst) .none .none), rfl⟩
  | @point x d more hx =>
    exact ⟨['.', x], more, .inl (.point (.last hx) .none), rfl⟩

/-- Where there is a literal there is a longest one. -/
theorem Literal.exists_longest (h : Literal w) (htext : text = w.map .char ++ rest) :
    ∃ w after, Longest text w after := by
  induction hroom : text.length - w.length using Nat.strongRecOn generalizing w rest with
  | ind room ih =>
    by_cases hlongest : ∀ v rest, Literal v → text = v.map .char ++ rest → v.length ≤ w.length
    · exact ⟨w, rest, htext, h, hlongest⟩
    · push Not at hlongest
      obtain ⟨v, more, hv, hspelled, hlonger⟩ := hlongest
      have hfits : v.length ≤ text.length := by
        rw [hspelled, List.length_append, List.length_map]
        exact Nat.le_add_right _ _
      exact ih (text.length - v.length) (by omega) hv hspelled rfl

/-- No point follows a longest literal that a fraction could go on with. -/
theorem Longest.no_point (h : Longest text w rest) (hw : ∃ ds, Whole w ds) :
    ∀ p ∈ rest.head?, p ≠ .char '.' := by
  rintro p hp rfl
  obtain ⟨ds, hw⟩ := hw
  obtain ⟨more, rfl⟩ := List.head?_eq_some_iff.mp hp
  have hlonger : Literal (w ++ (['.'] ++ [])) := .inl (.decimal hw .point .none)
  have hle := h.longest _ more hlonger (by rw [h.spelled, List.map_append, List.append_assoc]; rfl)
  rw [List.length_append] at hle
  exact absurd hle (Nat.not_succ_le_self _)

/-- Before what continues no name the longest literal is read. -/
theorem Longest.read (h : Longest c.rest w rest)
    (hrest : ∀ p ∈ rest.head?, isIdentifierPart p.scalar = false) :
    ∃ k, readNumberBody c = .ok (k, ⟨rest, c.offset + w.length⟩) ∧
      (k = .number ∧ Number w ∨ k = .bigint ∧ ∃ base ds, BigInt w base ds) := by
  obtain ⟨text, offset⟩ := c
  cases h.spelled
  rcases h.literal with hw | ⟨base, ds, hw⟩
  · exact ⟨.number, hw.read hrest h.no_point, .inl ⟨rfl, hw⟩⟩
  · exact ⟨.bigint, hw.read rest offset, .inr ⟨rfl, base, ds, hw⟩⟩

/-- The characters of a literal take one byte each. -/
theorem Longest.width (h : Longest c.rest w rest) (hstarts : numberStarts c = true)
    (hrest : ∀ p ∈ rest.head?, isIdentifierPart p.scalar = false) :
    Text.width (w.map .char) = w.length := by
  obtain ⟨k, hbody, -⟩ := h.read hrest
  obtain ⟨⟨read, htext, hoffset⟩, -⟩ := readNumberBody_passes hstarts hbody
  have hread : w.map .char = read := List.append_cancel_right (h.spelled.symm.trans htext)
  rw [hread]
  exact (Nat.add_left_cancel hoffset).symm

/-- What is read, if anything is, is the longest literal. -/
theorem Longest.of_read (h : Longest c.rest w rest) (hstarts : numberStarts c = true)
    (hread : readNumberBody c = .ok (k, d)) :
    d.rest = rest := by
  obtain ⟨v, htakes, hv⟩ := literal_of_read hstarts hread
  have hliteral : Literal v := by
    rcases hv with ⟨-, hv⟩ | ⟨-, hv⟩
    · exact .inl hv
    · exact .inr hv
  have hlong := h.longest v d.rest hliteral htakes.rest
  have hplace : c = ⟨w.map .char ++ rest, c.offset⟩ := congrArg (Cursor.mk · c.offset) h.spelled
  rw [hplace] at hread
  have hle := h.literal.read_le hread
  have hrest : w.map .char ++ rest = v.map .char ++ d.rest := h.spelled.symm.trans htakes.rest
  have hlength : (w.map Piece.char).length = (v.map Piece.char).length := by
    have hsize := congrArg List.length hrest
    simp only [List.length_append, List.length_map] at hsize ⊢
    omega
  exact (List.append_inj_right hrest hlength).symm

/-- No number has the suffix among its letters, so the suffix tells the two kinds apart. -/
theorem Whole.no_suffix (h : Whole w ds) : 'n' ∉ w := by
  cases h with
  | zero => decide
  | digits hw _ => exact hw.no_suffix

theorem Fraction.no_suffix (h : Fraction f) : 'n' ∉ f := by
  cases h with
  | none => exact List.not_mem_nil
  | point => decide
  | digits hw =>
    intro hn
    rcases List.mem_cons.mp hn with hn | hn
    · cases hn
    · exact hw.no_suffix hn

theorem Exponent.no_suffix (h : Exponent e) : 'n' ∉ e := by
  cases h with
  | none => exact List.not_mem_nil
  | digits hm hsign hw =>
    intro hn
    rcases List.mem_append.mp hn with hn | hn
    · rcases List.mem_cons.mp hn with rfl | hn
      · exact absurd hm (by decide)
      · rw [List.mem_cons, List.mem_pair] at hsign
        rcases hsign with rfl | rfl | rfl
        · cases hn
        · exact absurd hn (by decide)
        · exact absurd hn (by decide)
    · exact hw.no_suffix hn

/-- The suffix of a big integer is no part of a number. -/
theorem Number.no_suffix (h : Number w) : 'n' ∉ w := by
  cases h with
  | decimal hw hf he =>
    intro hn
    rcases List.mem_append.mp hn with hn | hn
    · exact hw.no_suffix hn
    · rcases List.mem_append.mp hn with hn | hn
      · exact hf.no_suffix hn
      · exact he.no_suffix hn
  | point hw he =>
    intro hn
    rcases List.mem_append.mp hn with hn | hn
    · exact (Fraction.digits hw).no_suffix hn
    · exact he.no_suffix hn
  | marked hmark hw =>
    intro hn
    rcases List.mem_cons.mp hn with hn | hn
    · cases hn
    · rcases List.mem_cons.mp hn with rfl | hn
      · cases marks_iff.mp hmark
      · exact hw.no_suffix hn

/-- The longest literal is read if nothing behind it continues a name, and its kind is told by
its suffix. -/
theorem Longest.readNumber (h : Longest c.rest w rest) (hstarts : numberStarts c = true)
    (hend : ∀ p ∈ rest.head?, isIdentifierPart p.scalar = false ∧ p.scalar ≠ '\\') : ∃ k,
    EcmaStack.readNumber c = some ({ kind := k, start := c.offset, stop := c.offset + w.length },
      ⟨rest, c.offset + w.length⟩) ∧
      (k = .number ∧ Number w ∨ k = .bigint ∧ ∃ base ds, BigInt w base ds) := by
  obtain ⟨k, hbody, hk⟩ := h.read fun p hp => (hend p hp).1
  refine ⟨k, ?_, hk⟩
  have hfollow : (Cursor.mk rest (c.offset + w.length)).identifierFollows = false :=
    Cursor.identifierFollows_eq_false.mpr hend
  rw [EcmaStack.readNumber, if_pos hstarts, hbody]
  dsimp only
  rw [hfollow]
  rfl

/-- Else what is read is malformed. -/
theorem Longest.readNumber_fault (h : Longest c.rest w rest) (hstarts : numberStarts c = true)
    (hend : ¬∀ p ∈ rest.head?, isIdentifierPart p.scalar = false ∧ p.scalar ≠ '\\') :
    ∃ t d, EcmaStack.readNumber c = some (t, d) ∧ t.kind = .fault := by
  rw [EcmaStack.readNumber, if_pos hstarts]
  split
  · exact ⟨_, _, rfl, rfl⟩
  · next k d hbody =>
    cases h.of_read hstarts hbody
    have hfollow : d.identifierFollows = true := by
      rw [← Bool.not_eq_false]
      exact fun hno => hend (Cursor.identifierFollows_eq_false.mp hno)
    rw [hfollow]
    exact ⟨_, _, rfl, rfl⟩

end Numeral

open Numeral

/-- What is read as a number starts at the longest literal: with none behind it that a name
could go on with, it is this literal, and else nothing. -/
theorem readNumber_exact (c : Cursor) (h : Starts c.rest) : ∃ w after, Longest c.rest w after ∧
    ∃ t d, readNumber c = some (t, d) ∧
      (t.kind ≠ .fault ↔ ∀ p ∈ after.head?, isIdentifierPart p.scalar = false ∧ p.scalar ≠ '\\') ∧
      (t.kind ≠ .fault → t.start = c.offset ∧ t.stop = c.offset + width (w.map .char) ∧
        d = ⟨after, t.stop⟩ ∧
        (t.kind = .number ∨ t.kind = .bigint) ∧ (t.kind = .bigint ↔ w.getLast? = some 'n') ∧
        (t.kind = .bigint → ∃ u base ds, w = u ++ ['n'] ∧ Integer u base ds ∧
          bigIntValue? (String.ofList w) = some (Nat.ofDigits base ds.reverse : Nat))) := by
  obtain ⟨v, rest, hv, htext⟩ := h.literal
  obtain ⟨w, after, hlongest⟩ := hv.exists_longest htext
  refine ⟨w, after, hlongest, ?_⟩
  by_cases hend : ∀ p ∈ after.head?, isIdentifierPart p.scalar = false ∧ p.scalar ≠ '\\'
  · obtain ⟨k, hread, hk⟩ := hlongest.readNumber h.numberStarts hend
    have hwidth := hlongest.width h.numberStarts fun p hp => (hend p hp).1
    refine ⟨_, _, hread, ?_, fun _ => ⟨rfl, by rw [hwidth], rfl, ?_⟩⟩
    · refine ⟨fun _ => hend, fun _ => ?_⟩
      rcases hk with ⟨rfl, -⟩ | ⟨rfl, -⟩ <;> exact nofun
    · rcases hk with ⟨rfl, hw⟩ | ⟨rfl, base, ds, hw⟩
      · refine ⟨.inl rfl, ⟨nofun, fun hlast => ?_⟩, nofun⟩
        exact absurd (List.mem_of_getLast? hlast) hw.no_suffix
      · have hvalue := hw.value
        cases hw with
        | suffixed hw =>
          exact ⟨.inr rfl, ⟨fun _ => List.getLast?_concat, fun _ => rfl⟩,
            fun _ => ⟨_, base, ds, rfl, hw, hvalue⟩⟩
  · obtain ⟨t, d, hread, hfault⟩ := hlongest.readNumber_fault h.numberStarts hend
    exact ⟨t, d, hread, ⟨fun hkind => absurd hfault hkind, fun hend' => absurd hend' hend⟩,
      fun hkind => absurd hfault hkind⟩

/-- A big integer in base sixteen with a separator, before a semicolon. -/
theorem readNumber_exact_separatedHex : Starts (ofString "0x1F_ffn;") ∧
    Longest (ofString "0x1F_ffn;") "0x1F_ffn".toList (ofString ";") ∧ bigIntValue? "0x1F_ffn" =
      some 0x1FFF ∧
    ∃ t, readNumber ⟨ofString "0x1F_ffn;", 4⟩ = some (t, ⟨ofString ";", 12⟩) ∧ t.kind =
      .bigint := by
  have hzero : IsDigit 10 '0' 0 := ⟨by decide, .inl rfl⟩
  have hstarts : Starts (ofString "0x1F_ffn;") := .digit hzero
  obtain ⟨w, after, hlongest, t, d, hread, -, hfacts⟩ :=
    readNumber_exact ⟨ofString "0x1F_ffn;", 4⟩ hstarts
  have heval : readNumber ⟨ofString "0x1F_ffn;", 4⟩ =
      some ({ kind := .bigint, start := 4, stop := 12 }, ⟨ofString ";", 12⟩) := rfl
  cases heval.symm.trans hread
  obtain ⟨-, -, hafter, -⟩ := hfacts nofun
  cases hafter
  have hw : w = "0x1F_ffn".toList := by
    have htext : ofString "0x1F_ffn" ++ ofString ";" = w.map .char ++ ofString ";" :=
      hlongest.spelled
    exact ((List.map_inj_right fun _ _ => Piece.char.inj).mp (List.append_cancel_right htext)).symm
  exact ⟨hstarts, hw ▸ hlongest, by decide, _, rfl, rfl⟩

end EcmaStack
