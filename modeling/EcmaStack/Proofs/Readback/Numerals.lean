import EcmaStack.Proofs.Readback.Scanning

/-!
# Numbers before other text

A number on its own is read to its end; before a text that no name and no number goes on with,
it is read just as far. The readers are run side by side, one with the text after the number and
one without (`Cursor.Extends`): where the one without is at its end, the other is before a
character that none of them takes. The one exception is a point, which goes on with digits
alone, so after digits alone none may come (`readDigits_plain`).
-/

namespace EcmaStack

open Text

/-- The second cursor has more to read than the first, after the same text. -/
def Cursor.Extends (more : Text) (c d : Cursor) : Prop :=
  d.rest = c.rest ++ more

/-! ## Characters -/

section

variable {x : Char} {base : Nat}

/-- The characters that have a value as digits. -/
def digitAlphabet : List Char :=
  "0123456789abcdefABCDEF".toList

/-- The characters that can have a value as digits, so that a fact about all of them can
be decided. -/
theorem mem_digitAlphabet (h : (digitValue? x).isSome = true) : x ∈ digitAlphabet := by
  have hall : ∀ n ∈ List.range' 48 10 ++ List.range' 97 6 ++ List.range' 65 6, Char.ofNat n ∈
      digitAlphabet := by decide
  have hmem := hall x.toNat
  rw [Char.ofNat_toNat] at hmem
  refine hmem ?_
  unfold digitValue? at h
  simp only [List.mem_append, List.mem_range'_1]
  split at h
  · next hx =>
    simp only [isDecimalDigit, Bool.and_eq_true, decide_eq_true_eq, Char.le_def,
      UInt32.le_iff_toNat_le] at hx
    exact .inl (.inl ⟨hx.1, Nat.lt_succ_of_le hx.2⟩)
  · split at h
    · next hx =>
      simp only [Bool.and_eq_true, decide_eq_true_eq, Char.le_def, UInt32.le_iff_toNat_le] at hx
      exact .inl (.inr ⟨hx.1, Nat.lt_succ_of_le hx.2⟩)
    · split at h
      · next hx =>
        simp only [Bool.and_eq_true, decide_eq_true_eq, Char.le_def, UInt32.le_iff_toNat_le] at hx
        exact .inr ⟨hx.1, Nat.lt_succ_of_le hx.2⟩
      · cases h

theorem mem_digitAlphabet_of_isDigitOf (h : isDigitOf base x = true) : x ∈ digitAlphabet := by
  refine mem_digitAlphabet ?_
  unfold isDigitOf at h
  split at h
  · next hx => rw [hx]; rfl
  · cases h

/-- The digits of every base continue a name. -/
theorem isIdentifierPart_of_isDigitOf (h : isDigitOf base x = true) :
    isIdentifierPart x = true := by
  have hall : digitAlphabet.all isIdentifierPart = true := by decide
  exact List.all_eq_true.mp hall x (mem_digitAlphabet_of_isDigitOf h)

theorem isDigitOf_ten (h : isDecimalDigit x = true) : isDigitOf 10 x = true := by
  simp only [isDecimalDigit, Bool.and_eq_true, decide_eq_true_eq, Char.le_def,
    UInt32.le_iff_toNat_le] at h
  have hx : x.toNat - '0'.toNat < 10 := by
    have := h.2
    simp only [Char.reduceToNat]
    show x.val.toNat - 48 < 10
    exact Nat.lt_of_le_of_lt (Nat.sub_le_sub_right this 48) (by decide)
  rw [isDigitOf, digitValue?, if_pos
    (by simpa [isDecimalDigit, Char.le_def, UInt32.le_iff_toNat_le] using h)]
  exact decide_eq_true hx

/-- What can go on a number is part of a name, which is why a text that ends a name ends a
number too. -/
theorem isIdentifierPart_of_isDecimalDigit (h : isDecimalDigit x = true) :
    isIdentifierPart x = true :=
  isIdentifierPart_of_isDigitOf (isDigitOf_ten h)

theorem isIdentifierPart_of_markedBase? (h : (markedBase? x).isSome = true) :
    isIdentifierPart x = true := by
  unfold markedBase? at h
  split at h
  · next hx => rcases Bool.or_eq_true_iff.mp hx with hx | hx <;> cases beq_iff_eq.mp hx <;> decide
  · split at h
    · next hx => rcases Bool.or_eq_true_iff.mp hx with hx | hx <;> cases beq_iff_eq.mp hx <;> decide
    · split at h
      · next hx => rcases Bool.or_eq_true_iff.mp hx with hx | hx <;> cases beq_iff_eq.mp hx <;>
          decide
      · cases h

/-- What stands after a number is no digit and nothing else that a number goes on with, but for
a point. -/
theorem Ends.head {cs : List Char} (h : Ends cs) (test : Char → Bool)
    (htest : ∀ x, test x = true → isIdentifierPart x = true) {y : Char} (hy : y ∈ cs.head?) :
    test y = false :=
  Bool.eq_false_iff.mpr fun hx => Bool.eq_false_iff.mp (h y hy).1 (htest y hx)

end

/-- The check behind a number passes where the text goes on in this way. -/
theorem Ends.no_identifierFollows {cs : List Char} {offset : Nat} (h : Ends cs) :
    Cursor.identifierFollows ⟨cs.map .char, offset⟩ = false := by
  cases cs with
  | nil => rfl
  | cons y cs =>
    obtain ⟨hpart, hescape⟩ := h y rfl
    exact Bool.or_eq_false_iff.mpr ⟨hpart, beq_eq_false_iff_ne.mpr hescape⟩

/-! ## Readers side by side -/

section

variable {cs : List Char} {c d : Cursor} {x : Char} {test : Char → Bool} {base start : Nat}

namespace Cursor.Extends

/-- A test that only parts of names pass does not see past the end of a text. -/
theorem at? (hc : c.Extends (cs.map .char) d) (h : Ends cs) (test : Char → Bool)
    (htest : ∀ x, test x = true → isIdentifierPart x = true) :
    d.at? test = c.at? test := by
  rw [Cursor.at?, Cursor.at?, peek?, peek?, hc]
  cases c.rest with
  | cons p rest => rfl
  | nil =>
    cases cs with
    | nil => rfl
    | cons y cs => exact h.head test htest rfl

/-- Taking a character that is there does not look at what was put behind. -/
theorem take?_of_ne_nil (hc : c.Extends (cs.map .char) d) (hsome : c.rest ≠ []) :
    Option.Rel (Extends (cs.map .char)) (c.take? x) (d.take? x) := by
  rw [Cursor.take?, Cursor.take?, hc]
  split
  · next y rest hrest =>
    rw [hrest]
    simp only [List.cons_append]
    split
    · exact .some rfl
    · exact .none
  · next hno =>
    cases hrest : c.rest with
    | nil => exact absurd hrest hsome
    | cons p rest =>
      cases p with
      | char y => exact absurd hrest (hno y rest)
      | _ => exact .none

theorem take?_of_head_ne (hc : c.Extends (cs.map .char) d) (hx : x ∉ cs.head?) :
    Option.Rel (Extends (cs.map .char)) (c.take? x) (d.take? x) := by
  cases hrest : c.rest with
  | cons p rest => exact hc.take?_of_ne_nil (hrest ▸ List.cons_ne_nil p rest)
  | nil =>
    rw [Cursor.take?, Cursor.take?, hc, hrest]
    cases cs with
    | nil => exact .none
    | cons y cs =>
      have hy : ¬(y == x) = true := fun hy => hx (congrArg some (beq_iff_eq.mp hy))
      simp only [List.map_cons, List.nil_append, if_neg hy]
      exact .none

theorem take? (hc : c.Extends (cs.map .char) d) (h : Ends cs) (hx : isIdentifierPart x = true) :
    Option.Rel (Extends (cs.map .char)) (c.take? x) (d.take? x) :=
  hc.take?_of_head_ne fun hy => Bool.eq_false_iff.mp (h x hy).1 hx

end Cursor.Extends

/-- So a run of digits ends where it did, whatever is put behind that ends a name; -/
theorem readDigitsFrom_extends (h : Ends cs) {rest : Text} {offset : Nat} (offset' : Nat)
    {c : Cursor} (hread : readDigitsFrom base rest offset = .ok c) :
    ∃ d, readDigitsFrom base (rest ++ cs.map .char) offset' = .ok d ∧
    c.Extends (cs.map .char) d := by
  fun_induction readDigitsFrom base rest offset generalizing offset' with
  -- Only at the end of the text does the reader look at what was put behind: it starts with no
  -- separator and no digit.
  | case1 offset =>
    cases hread
    cases cs with
    | nil => exact ⟨⟨[], offset'⟩, by rw [List.map_nil, List.append_nil, readDigitsFrom], rfl⟩
    | cons y cs =>
      have hline : y ≠ '_' := by
        rintro rfl
        exact absurd (h _ rfl).1 (by decide)
      have hdigit := h.head (isDigitOf base) (fun _ => isIdentifierPart_of_isDigitOf) rfl
      have hdecimal := h.head isDecimalDigit (fun _ => isIdentifierPart_of_isDecimalDigit) rfl
      refine ⟨⟨(y :: cs).map .char, offset'⟩, ?_, rfl⟩
      rw [List.nil_append, List.map_cons, readDigitsFrom]
      · simp only [Piece.scalar, hdigit, hdecimal, Bool.false_eq_true, if_false]
      · exact fun hy => hline (Piece.char.inj hy)
  | case2 offset d tail hdigit ih =>
    obtain ⟨e, he, hext⟩ := ih (offset' + 1 + d.utf8Size) hread
    refine ⟨e, ?_, hext⟩
    rw [List.cons_append, List.cons_append, readDigitsFrom]
    simp only [hdigit, if_true]
    exact he
  | case3 => cases hread
  | case4 => cases hread
  | case5 p rest offset hline hdigit ih =>
    obtain ⟨e, he, hext⟩ := ih (offset' + p.width) hread
    refine ⟨e, ?_, hext⟩
    rw [List.cons_append, readDigitsFrom]
    · simp only [hdigit, if_true]
      exact he
    · exact hline
  | case6 => cases hread
  | case7 p rest offset hline hdigit hdecimal =>
    cases hread
    refine ⟨⟨p :: rest ++ cs.map Piece.char, offset'⟩, ?_, rfl⟩
    rw [List.cons_append, readDigitsFrom]
    · simp only [hdigit, hdecimal, Bool.false_eq_true, if_false]
    · exact hline

theorem ne_nil_of_at? (hat : c.at? test = true) : c.rest ≠ [] := fun hrest => by
  rw [Cursor.at?, Cursor.peek?, hrest] at hat
  cases hat

/-- and so does every part of a number that is read. -/
theorem readDigits_extends (h : Ends cs) {a : Cursor} (hc : c.Extends (cs.map .char) d)
    (hsome : c.rest ≠ []) (hread : readDigits base c = .ok a) :
    ∃ b, readDigits base d = .ok b ∧ a.Extends (cs.map .char) b := by
  rw [readDigits] at hread ⊢
  rw [hc]
  cases hrest : c.rest with
  | nil => exact absurd hrest hsome
  | cons p rest =>
    rw [hrest] at hread
    exact readDigitsFrom_extends h _ hread

/-- Digits to the end of a text are no other characters than digits and what separates them. -/
theorem readDigitsFrom_plain {rest : Text} {offset : Nat} {a : Cursor}
    (hread : readDigitsFrom base rest offset = .ok a) (hend : a.rest = []) :
    ∀ p ∈ rest, isDigitOf base p.scalar = true ∨ p = .char '_' := by
  fun_induction readDigitsFrom base rest offset with
  | case1 => exact fun p hp => absurd hp List.not_mem_nil
  | case2 offset y tail hdigit ih =>
    intro p hp
    rcases List.mem_cons.mp hp with rfl | hp
    · exact .inr rfl
    · rcases List.mem_cons.mp hp with rfl | hp
      · exact .inl hdigit
      · exact ih hread p hp
  | case3 => cases hread
  | case4 => cases hread
  | case5 q rest offset hline hdigit ih =>
    intro p hp
    rcases List.mem_cons.mp hp with rfl | hp
    · exact .inl hdigit
    · exact ih hread p hp
  | case6 => cases hread
  | case7 =>
    cases hread
    cases hend

theorem readMarked_extends (h : Ends cs) (start' : Nat) {k : Kind} {a : Cursor}
    (hc : c.Extends (cs.map .char) d) (hread : readMarked start base c = .ok (k, a)) :
    ∃ b, readMarked start' base d = .ok (k, b) ∧ a.Extends (cs.map .char) b := by
  rw [readMarked] at hread ⊢
  rw [hc.at? h (isDigitOf base) fun _ => isIdentifierPart_of_isDigitOf]
  split at hread
  · next hdigit =>
    obtain ⟨e, hdigits, hread⟩ := except_bind_ok hread
    obtain ⟨e', hdigits', he⟩ := readDigits_extends h hc (ne_nil_of_at? hdigit) hdigits
    have hrel := he.take? h (by decide : isIdentifierPart 'n' = true)
    rw [if_pos hdigit, hdigits']
    simp only [bind, Except.bind]
    revert hread hrel
    generalize e.take? 'n' = o
    generalize e'.take? 'n' = o'
    rintro hread (hafter | _)
    · cases hread
      exact ⟨_, rfl, hafter⟩
    · cases hread
      exact ⟨e', rfl, he⟩
  · split at hread
    · split at hread <;> cases hread
    · cases hread

/-- Without a point the fraction is empty. -/
theorem readFraction_extends (h : Ends cs) {a : Cursor} (hc : c.Extends (cs.map .char) d)
    (hpoint : c.rest = [] → '.' ∉ cs.head?) (hread : readFraction c = .ok a) :
    ∃ b, readFraction d = .ok b ∧ a.Extends (cs.map .char) b := by
  rw [readFraction] at hread ⊢
  have hrel : Option.Rel (Cursor.Extends (cs.map .char)) (c.take? '.') (d.take? '.') := by
    by_cases hrest : c.rest = []
    · exact hc.take?_of_head_ne (hpoint hrest)
    · exact hc.take?_of_ne_nil hrest
  revert hread hrel
  generalize c.take? '.' = o
  generalize d.take? '.' = o'
  rintro hread (hafter | _)
  case none =>
    cases hread
    exact ⟨d, rfl, hc⟩
  case some =>
    dsimp only at hread ⊢
    rw [hafter.at? h isDecimalDigit fun _ => isIdentifierPart_of_isDecimalDigit]
    rw [hafter.at? h (· == '_') fun x hx => beq_iff_eq.mp hx ▸ by decide]
    split at hread
    · next hdigit =>
      rw [if_pos hdigit]
      exact readDigits_extends h hafter (ne_nil_of_at? hdigit) hread
    · next hdigit =>
      rw [if_neg hdigit]
      split at hread
      · cases hread
      · next hline =>
        cases hread
        rw [if_neg hline]
        exact ⟨_, rfl, hafter⟩

private theorem rel_or {α : Type} {R : α → α → Prop} {a a' b b' : Option α} (h : Option.Rel R a b)
    (h' : Option.Rel R a' b') :
    Option.Rel R (a.or a') (b.or b') := by
  cases h with
  | some h => exact .some h
  | none => exact h'

theorem readExponentPart_extends (h : Ends cs) (start' : Nat) {a : Cursor}
    (hc : c.Extends (cs.map .char) d) (hread : readExponentPart start c = .ok a) :
    ∃ b, readExponentPart start' d = .ok b ∧ a.Extends (cs.map .char) b := by
  rw [readExponentPart] at hread ⊢
  have hsmall := hc.take? h (by decide : isIdentifierPart 'e' = true)
  have hrel := rel_or hsmall (hc.take? h (by decide : isIdentifierPart 'E' = true))
  revert hread hrel
  generalize (c.take? 'e').or (c.take? 'E') = o
  generalize (d.take? 'e').or (d.take? 'E') = o'
  rintro hread (hafter | _)
  case none =>
    cases hread
    exact ⟨d, rfl, hc⟩
  case some f g =>
    have hsigned : Cursor.Extends (cs.map .char) (((f.take? '+').or (f.take? '-')).getD f)
        (((g.take? '+').or (g.take? '-')).getD g) := by
      by_cases hrest : f.rest = []
      · exact absurd hread (by simp [Cursor.take?, Cursor.at?, Cursor.peek?, hrest])
      · have hsign :=
          rel_or (hafter.take?_of_ne_nil hrest (x := '+')) (hafter.take?_of_ne_nil hrest (x := '-'))
        revert hsign
        generalize (f.take? '+').or (f.take? '-') = o
        generalize (g.take? '+').or (g.take? '-') = o'
        rintro (hsign | _)
        · exact hsign
        · exact hafter
    dsimp only at hread ⊢
    rw [hsigned.at? h isDecimalDigit fun _ => isIdentifierPart_of_isDecimalDigit]
    split at hread
    · next hdigit =>
      rw [if_pos hdigit]
      exact readDigits_extends h hsigned (ne_nil_of_at? hdigit) hread
    · cases hread

/-- An empty tail needs to know that no point is put behind it. -/
theorem readDecimalTail_extends (h : Ends cs) (start' : Nat) {k : Kind} {a : Cursor}
    (hc : c.Extends (cs.map .char) d) (hpoint : c.rest = [] → '.' ∉ cs.head?)
    (hread : readDecimalTail start c = .ok (k, a)) :
    ∃ b, readDecimalTail start' d = .ok (k, b) ∧ a.Extends (cs.map .char) b := by
  obtain ⟨whole, hfraction, hread⟩ := except_bind_ok hread
  obtain ⟨after, hexponent, hread⟩ := except_bind_ok hread
  cases hread
  obtain ⟨whole', hfraction', hwhole⟩ := readFraction_extends h hc hpoint hfraction
  obtain ⟨after', hexponent', hafter⟩ := readExponentPart_extends h start' hwhole hexponent
  refine ⟨after', ?_, hafter⟩
  rw [readDecimalTail, hfraction']
  simp only [bind, Except.bind, hexponent']
  rfl

theorem readAfterZero_extends (h : Ends cs) (start' : Nat) {k : Kind} {a : Cursor}
    (hc : c.Extends (cs.map .char) d) (hpoint : c.rest = [] → '.' ∉ cs.head?)
    (hread : readAfterZero start c = .ok (k, a)) :
    ∃ b, readAfterZero start' d = .ok (k, b) ∧ a.Extends (cs.map .char) b := by
  rw [readAfterZero.eq_def] at hread ⊢
  split at hread
  · next x rest hrest =>
    have hd : d.rest = .char x :: (rest ++ cs.map .char) := by
      rw [hc, hrest, List.cons_append]
    simp only [hd]
    split at hread
    · exact readMarked_extends (c := ⟨rest, c.offset + 1⟩) h _ rfl hread
    · split at hread
      · next hn =>
        cases hread
        exact ⟨_, if_pos hn, rfl⟩
      · next hn =>
        rw [if_neg hn]
        split at hread
        · cases hread
        · next hline =>
          rw [if_neg hline]
          split at hread
          · cases hread
          · next hdigit =>
            rw [if_neg hdigit]
            exact readDecimalTail_extends h _ hc hpoint hread
  -- Behind a zero at the end of the text the reader now sees what was put there, and none of it
  -- goes on the number.
  · next hno =>
    obtain ⟨b, htail, hb⟩ := readDecimalTail_extends h start' hc hpoint hread
    refine ⟨b, ?_, hb⟩
    split
    · next x rest hrest =>
      have hhead : x ∈ cs.head? := by
        cases hc' : c.rest with
        | cons p more =>
          rw [hc, hc', List.cons_append] at hrest
          exact absurd (hc'.trans (by rw [(List.cons.inj hrest).1])) (hno x more)
        | nil =>
          rw [hc, hc', List.nil_append] at hrest
          cases cs with
          | nil => cases hrest
          | cons y cs => exact congrArg some (Piece.char.inj (List.cons.inj hrest).1)
      have hbase : markedBase? x = none := by
        have hnot :=
          h.head (fun y => (markedBase? y).isSome) (fun _ => isIdentifierPart_of_markedBase?) hhead
        exact Option.isSome_eq_false_iff.mp hnot |> Option.isNone_iff_eq_none.mp
      have hn := h.head (· == 'n') (fun y hy => beq_iff_eq.mp hy ▸ by decide) hhead
      have hline := h.head (· == '_') (fun y hy => beq_iff_eq.mp hy ▸ by decide) hhead
      have hdigit := h.head isDecimalDigit (fun _ => isIdentifierPart_of_isDecimalDigit) hhead
      simp only [hbase]
      rw [if_neg (Bool.eq_false_iff.mp hn), if_neg (Bool.eq_false_iff.mp hline),
        if_neg (Bool.eq_false_iff.mp hdigit)]
      exact htail
    · exact htail

/-- The characters of a number after which a point is not read as part of it. -/
def pointMarks : List Char :=
  ".eExXoObBn".toList

/-- Digits and separators are not among the marks that keep a number from taking a point. -/
theorem not_pointMark {p : Piece} (h : isDigitOf 10 p.scalar = true ∨ p = .char '_') :
    p.scalar ∉ pointMarks := by
  intro hp
  have hmarks : (pointMarks.all fun x => !isDigitOf 10 x && x != '_') = true := by decide
  obtain ⟨hdigit, hline⟩ := Bool.and_eq_true_iff.mp (List.all_eq_true.mp hmarks _ hp)
  rcases h with h | rfl
  · rw [h] at hdigit
    cases hdigit
  · exact bne_iff_ne.mp hline rfl

/-- A number of digits alone has none of the marks. -/
theorem readDigits_plain {a : Cursor} (hdigit : c.at? isDecimalDigit = true)
    (hread : readDigits 10 c = .ok a) (hend : a.rest = []) :
    ∀ p ∈ c.rest, p.scalar ∉ pointMarks := by
  rw [readDigits] at hread
  rw [Cursor.at?, Cursor.peek?] at hdigit
  cases hrest : c.rest with
  | nil => exact fun p hp => absurd hp List.not_mem_nil
  | cons q rest =>
    rw [hrest] at hread hdigit
    intro p hp
    rcases List.mem_cons.mp hp with rfl | hp
    · exact not_pointMark (.inl (isDigitOf_ten hdigit))
    · exact not_pointMark (readDigitsFrom_plain hread hend p hp)

/-- A whole number may be followed by a point only if it has one of the marks. -/
theorem readNumberBody_extends (h : Ends cs) {k : Kind} {a : Cursor}
    (hc : c.Extends (cs.map .char) d) (hstarts : numberStarts c = true)
    (hpoint : '.' ∈ cs.head? → ∃ p ∈ c.rest, p.scalar ∈ pointMarks)
    (hread : readNumberBody c = .ok (k, a)) :
    ∃ b, readNumberBody d = .ok (k, b) ∧ a.Extends (cs.map .char) b := by
  rw [readNumberBody] at hread ⊢
  rw [hc.at? h isDecimalDigit fun _ => isIdentifierPart_of_isDecimalDigit]
  have hzero := hc.take? h (by decide : isIdentifierPart '0' = true)
  cases htake : c.take? '0' with
  | some f =>
    rw [htake] at hread hzero
    -- A zero alone has none of the marks, so no point may follow it.
    have hmark : f.rest = [] → '.' ∉ cs.head? := by
      intro hend hdot
      obtain ⟨p, hp, hmark⟩ := hpoint hdot
      have hrest : c.rest = [.char '0'] := by
        rw [Cursor.take?] at htake
        split at htake
        · next y rest hrest =>
          split at htake
          · next hy =>
            cases htake
            rw [hrest, beq_iff_eq.mp hy, show rest = [] from hend]
          · cases htake
        · cases htake
      rw [hrest, List.mem_singleton] at hp
      exact not_pointMark (.inl (by rw [hp]; decide)) hmark
    revert hzero
    generalize d.take? '0' = o
    rintro (hf | _)
    exact readAfterZero_extends h _ hf hmark hread
  | none =>
    rw [htake] at hread hzero
    revert hzero
    generalize d.take? '0' = o
    rintro (_ | _)
    dsimp only at hread ⊢
    split at hread
    -- Not a zero: a digit starts the whole part, and anything else is a point with digits behind
    -- it.
    · next hdigit =>
      rw [if_pos hdigit]
      obtain ⟨e, hdigits, hread⟩ := except_bind_ok hread
      obtain ⟨e', hdigits', he⟩ := readDigits_extends h hc (ne_nil_of_at? hdigit) hdigits
      have hmark : e.rest = [] → '.' ∉ cs.head? := by
        intro hend hdot
        obtain ⟨p, hp, hmark⟩ := hpoint hdot
        exact readDigits_plain hdigit hdigits hend p hp hmark
      have hrel := he.take? h (by decide : isIdentifierPart 'n' = true)
      rw [hdigits']
      simp only [bind, Except.bind]
      -- The suffix is part of a name, so it is there in both texts or in neither.
      revert hread hrel
      generalize e.take? 'n' = o
      generalize e'.take? 'n' = o'
      rintro hread (hafter | _)
      · cases hread
        exact ⟨_, rfl, hafter⟩
      · exact readDecimalTail_extends h _ he hmark hread
    · next hdigit =>
      rw [if_neg hdigit]
      refine readDecimalTail_extends h _ hc ?_ hread
      intro hrest
      simp [numberStarts, Cursor.take?, Cursor.at?, Cursor.peek?, hrest] at hstarts

theorem numberStarts_ne_nil (h : numberStarts c = true) : c.rest ≠ [] := by
  intro hrest
  simp [numberStarts, Cursor.take?, Cursor.at?, Cursor.peek?, hrest] at h

/-- A number that starts in the text starts in the longer one too. -/
theorem numberStarts_extends (h : Ends cs) (hc : c.Extends (cs.map .char) d) (hsome : c.rest ≠ []) :
    numberStarts d = numberStarts c := by
  have hrel := hc.take?_of_ne_nil hsome (x := '.')
  rw [numberStarts, numberStarts]
  revert hrel
  generalize c.take? '.' = o
  generalize d.take? '.' = o'
  rintro (hafter | _)
  · exact hafter.at? h isDecimalDigit fun _ => isIdentifierPart_of_isDecimalDigit
  · exact hc.at? h isDecimalDigit fun _ => isIdentifierPart_of_isDecimalDigit

/-- A number is read before other text as it is on its own. -/
theorem readNumber_before {raw : String} {value : Binary64} (hraw : IsNumeral raw value)
    (h : Ends cs) (hpoint : '.' ∈ cs.head? → ∃ x ∈ raw.toList, x ∈ pointMarks) (offset : Nat) :
    readNumber ⟨(raw.toList ++ cs).map .char, offset⟩ =
      some ({ kind := .number, start := offset, stop := offset + width (ofString raw) },
        ⟨cs.map .char, offset + width (ofString raw)⟩) := by
  obtain ⟨⟨t, n, hread, hkind⟩, -⟩ := hraw
  have hext : Cursor.Extends (cs.map .char) (.ofText (ofString raw)) ⟨(raw.toList ++ cs).map .char,
      offset⟩ :=
    List.map_append
  have hmark : '.' ∈ cs.head? → ∃ p ∈ (Cursor.ofText (ofString raw)).rest, p.scalar ∈
      pointMarks := by
    intro hdot
    obtain ⟨x, hx, hmark⟩ := hpoint hdot
    exact ⟨.char x, List.mem_map_of_mem hx, hmark⟩
  rw [readNumber] at hread ⊢
  split at hread
  · next hstarts =>
    have hstarts' := (numberStarts_extends h hext (numberStarts_ne_nil hstarts)).trans hstarts
    rw [if_pos hstarts']
    split at hread
    · cases hkind.symm.trans (congrArg (·.1.kind) (Option.some.inj hread).symm)
    · next k f hbody =>
      obtain ⟨⟨rest, o⟩, hbody', hg⟩ := readNumberBody_extends h hext hstarts hmark hbody
      rw [hbody']
      split at hread
      · cases hkind.symm.trans (congrArg (·.1.kind) (Option.some.inj hread).symm)
      · cases hread
        cases hg
        cases hkind
        -- The reader stops where the other text starts, so what it passed is the numeral.
        obtain ⟨read, hread, ho⟩ := (readNumberBody_passes hstarts' hbody').reaches
        have hread : ofString raw = read :=
          List.append_cancel_right (List.map_append.symm.trans hread)
        simp only [h.no_identifierFollows, Bool.false_eq_true, if_false] at ho ⊢
        rw [ho, hread]
  · cases hread

/-! ## Numbers as lexemes -/

/-- A number starts with a digit or a point. -/
theorem head_of_numberStarts {word : List Char} {offset : Nat}
    (h : numberStarts ⟨word.map .char, offset⟩ = true) :
    ∃ x rest, word = x :: rest ∧ (x = '.' ∨ isDecimalDigit x = true) := by
  cases word with
  | nil => cases h
  | cons x rest =>
    refine ⟨x, rest, rfl, ?_⟩
    rw [numberStarts] at h
    split at h
    · next htake =>
      refine .inl (by_contra fun hx => ?_)
      cases (if_neg (mt beq_iff_eq.mp hx)).symm.trans htake
    · exact .inr h

/-- A numeral starts with a digit or with a point. -/
theorem IsNumeral.head {raw : String} {value : Binary64} (hraw : IsNumeral raw value) :
    ∃ x word, raw.toList = x :: word ∧ (x = '.' ∨ isDecimalDigit x = true) := by
  obtain ⟨⟨t, n, hwhole, -⟩, -⟩ := hraw
  rw [readNumber] at hwhole
  split at hwhole
  · next hstarts => exact head_of_numberStarts hstarts
  · cases hwhole

/-- Such a character is no white space and starts no comment. -/
theorem blank_of_digit (h : x = '.' ∨ isDecimalDigit x = true) :
    isBlank x = false ∧ isLineTerminator x = false ∧
    x ≠ '/' ∧ (x == '\x22' || x == '\x27') = false ∧ (x == '\x60') = false := by
  have hall : ∀ n ∈ 46 :: List.range' 48 10, isBlank (Char.ofNat n) = false ∧
      isLineTerminator (Char.ofNat n) = false ∧
      Char.ofNat n ≠ '/' ∧ (Char.ofNat n == '\x22' || Char.ofNat n == '\x27') = false ∧
      (Char.ofNat n == '\x60') = false := by
    decide
  have hx := hall x.toNat
  rw [Char.ofNat_toNat] at hx
  refine hx ?_
  rcases h with rfl | h
  · exact List.mem_cons_self
  · simp only [isDecimalDigit, Bool.and_eq_true, decide_eq_true_eq, Char.le_def,
      UInt32.le_iff_toNat_le] at h
    exact List.mem_cons_of_mem _ (List.mem_range'_1.mpr ⟨h.1, Nat.lt_succ_of_le h.2⟩)

/-- A number is scanned before what does not go on with it. -/
theorem Lexeme.scans_number {raw : String} {value : Binary64} (hraw : IsNumeral raw value)
    (h : Ends cs) (hpoint : '.' ∈ cs.head? → ∃ x ∈ raw.toList, x ∈ pointMarks) :
    (Lexeme.number raw).Scans cs := by
  refine fun offset => ⟨[], nofun, ?_⟩
  have hread := readNumber_before hraw h hpoint offset
  show scanToken ⟨(raw.toList ++ cs).map .char, offset⟩ = _
  obtain ⟨x, word, hword, hx⟩ := hraw.head
  obtain ⟨hblank, hline, hslash, hquote, htemplate⟩ := blank_of_digit hx
  rw [hword] at hread ⊢
  refine scanToken_of_readerFor hblank hline (readComment_of_ne hslash) ?_ rfl
  rw [readerFor, hquote, htemplate]
  simp only [Bool.false_eq_true, if_false]
  rcases hx with rfl | hdigit
  · exact congrArg (Option.or · _) hread
  · rw [if_pos hdigit]
    exact hread

end

end EcmaStack
