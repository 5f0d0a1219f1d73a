import EcmaStack.Number.Literal
import EcmaStack.Proofs.Readback.Numerals
import Mathlib.Data.List.TakeWhile
import Mathlib.Data.Nat.Digits.Defs

/-!
# The grammar of numeric literals

Numbers are decimals, with an optional fraction and exponent and without a leading zero, and
digits in a base that a letter after a zero marks (`Numeral.Number`); big integers are whole
numbers of either form with the suffix `n` (`Numeral.BigInt`). One underscore may stand between
two digits (`Numeral.Digits`). The value of a big integer is what its digits stand for in its
base (`Numeral.BigInt.value`).
-/

namespace EcmaStack

open Text

namespace Numeral

/-- A digit of a base, in either case, and its value. -/
def IsDigit (base : Nat) (x : Char) (d : Nat) : Prop :=
  d < base ∧ ("0123456789abcdef".toList[d]? = some x ∨ "0123456789ABCDEF".toList[d]? = some x)

/-- Digits of a base, which single underscores may separate, and their values. -/
inductive Digits (base : Nat) : List Char → List Nat → Prop where
  | last {x d} : IsDigit base x d → Digits base [x] [d]
  | next {x d xs ds} : IsDigit base x d → Digits base xs ds → Digits base (x :: xs) (d :: ds)
  | separated {x d xs ds} : IsDigit base x d → Digits base xs ds →
    Digits base (x :: '_' :: xs) (d :: ds)

/-- A whole number in base ten: zero, or digits that do not start with it. -/
inductive Whole : List Char → List Nat → Prop where
  | zero : Whole ['0'] [0]
  | digits {w ds} : Digits 10 w ds → w.head? ≠ some '0' → Whole w ds

/-- A letter that marks a base. -/
def Marks (x : Char) (base : Nat) : Prop :=
  (x, base) ∈ [('b', 2), ('B', 2), ('o', 8), ('O', 8), ('x', 16), ('X', 16)]

instance (x : Char) (base : Nat) : Decidable (Marks x base) :=
  inferInstanceAs (Decidable ((x, base) ∈ [('b', 2), ('B', 2), ('o', 8), ('O', 8), ('x', 16),
    ('X', 16)]))

/-- A whole number, its base and the values of its digits. -/
inductive Integer : List Char → Nat → List Nat → Prop where
  | decimal {w ds} : Whole w ds → Integer w 10 ds
  | marked {x base w ds} : Marks x base → Digits base w ds → Integer ('0' :: x :: w) base ds

/-- An optional fraction. Its digits may be missing after a point. -/
inductive Fraction : List Char → Prop where
  | none : Fraction []
  | point : Fraction ['.']
  | digits {w ds} : Digits 10 w ds → Fraction ('.' :: w)

/-- An optional exponent. -/
inductive Exponent : List Char → Prop where
  | none : Exponent []
  | digits {e sign w ds} : e ∈ ['e', 'E'] → sign ∈ [[], ['+'], ['-']] → Digits 10 w ds →
    Exponent (e :: sign ++ w)

/-- A number that is no big integer. -/
inductive Number : List Char → Prop where
  | decimal {w ds f e} : Whole w ds → Fraction f → Exponent e → Number (w ++ (f ++ e))
  | point {w ds e} : Digits 10 w ds → Exponent e → Number ('.' :: w ++ e)
  | marked {x base w ds} : Marks x base → Digits base w ds → Number ('0' :: x :: w)

/-- A big integer, its base and the values of its digits. -/
inductive BigInt : List Char → Nat → List Nat → Prop where
  | suffixed {w base ds} : Integer w base ds → BigInt (w ++ ['n']) base ds

/-- A numeric literal. -/
def Literal (w : List Char) : Prop :=
  Number w ∨ ∃ base ds, BigInt w base ds

/-! ## Digits -/

variable {base v : Nat} {x : Char} {w : List Char} {ds : List Nat}

/-- The digits of the grammar are those that the reader takes for digits. -/
theorem isDigit_iff : IsDigit base x v ↔ v < base ∧ digitValue? x = some v := by
  have hlower : ∀ d < 16, "0123456789abcdef".toList[d]?.bind digitValue? = some d := by decide
  have hupper : ∀ d < 16, "0123456789ABCDEF".toList[d]?.bind digitValue? = some d := by decide
  have hall : (digitAlphabet.all fun y => (digitValue? y).all fun d =>
      "0123456789abcdef".toList[d]? == some y || "0123456789ABCDEF".toList[d]? == some y) = true :=
      by decide
  refine and_congr_right fun _ => ⟨?_, fun h => ?_⟩
  · rintro (h | h)
    · simpa only [h, Option.bind_some] using hlower v (List.getElem?_eq_some_iff.mp h).1
    · simpa only [h, Option.bind_some] using hupper v (List.getElem?_eq_some_iff.mp h).1
  · have hx := List.all_eq_true.mp hall x (mem_digitAlphabet (h ▸ rfl))
    simpa only [h, Option.all_some, Bool.or_eq_true, beq_iff_eq] using hx

theorem IsDigit.isDigitOf (h : IsDigit base x v) : isDigitOf base x = true := by
  obtain ⟨hbase, hvalue⟩ := isDigit_iff.mp h
  rw [Text.isDigitOf, hvalue]
  exact decide_eq_true hbase

/-- Whatever passes as a digit of the base has a value in it. -/
theorem exists_isDigit (h : isDigitOf base x = true) : ∃ v, IsDigit base x v := by
  unfold Text.isDigitOf at h
  split at h
  · next d hd => exact ⟨d, isDigit_iff.mpr ⟨of_decide_eq_true h, hd⟩⟩
  · cases h

/-- A character of one byte that is no other part of a number. -/
structure PlainDigit (x : Char) : Prop where
  no_separator : x ≠ '_'
  no_suffix : x ≠ 'n'
  no_point : x ≠ '.'
  no_plus : x ≠ '+'
  no_minus : x ≠ '-'
  width : x.utf8Size = 1

theorem IsDigit.plain (h : IsDigit base x v) : PlainDigit x := by
  have hall : (digitAlphabet.all fun y => y ≠ '_' ∧ y ≠ 'n' ∧ y ≠ '.' ∧ y ≠ '+' ∧ y ≠ '-' ∧
      y.utf8Size = 1) = true := by
    decide
  obtain ⟨hline, hn, hpoint, hplus, hminus, hwidth⟩ :=
    of_decide_eq_true (List.all_eq_true.mp hall x (mem_digitAlphabet_of_isDigitOf h.isDigitOf))
  exact ⟨hline, hn, hpoint, hplus, hminus, hwidth⟩

/-- No digit is taken out with the separators. -/
theorem IsDigit.withoutSeparators_cons (h : IsDigit base x v) (w : List Char) :
    withoutSeparators (x :: w) = x :: withoutSeparators w :=
  List.filter_cons_of_pos (bne_iff_ne.mpr h.plain.no_separator)

/-- What holds of digits without their separators goes on with one more digit in front. -/
theorem IsDigit.unseparated_cons (h : IsDigit base x v)
    (hw : (∀ y ∈ withoutSeparators w, Text.isDigitOf base y = true) ∧
      (withoutSeparators w).filterMap digitValue? = ds) :
    (∀ y ∈ withoutSeparators (x :: w), Text.isDigitOf base y = true) ∧
      (withoutSeparators (x :: w)).filterMap digitValue? = v :: ds := by
  rw [h.withoutSeparators_cons]
  refine ⟨List.forall_mem_cons.mpr ⟨h.isDigitOf, hw.1⟩, ?_⟩
  rw [List.filterMap_cons_some (isDigit_iff.mp h).2, hw.2]

namespace Digits

/-- Digits start with one. -/
theorem head (h : Digits base w ds) : ∃ x v rest, w = x :: rest ∧ IsDigit base x v := by
  cases h with
  | last hx => exact ⟨_, _, _, rfl, hx⟩
  | next hx _ => exact ⟨_, _, _, rfl, hx⟩
  | separated hx _ => exact ⟨_, _, _, rfl, hx⟩

/-- The suffix of a big integer is no part of its digits. -/
theorem no_suffix (h : Digits base w ds) : 'n' ∉ w := by
  induction h with
  | last hx => exact fun hn => hx.plain.no_suffix (List.mem_singleton.mp hn).symm
  | next hx _ ih =>
    intro hn
    rcases List.mem_cons.mp hn with hn | hn
    · exact hx.plain.no_suffix hn.symm
    · exact ih hn
  | separated hx _ ih =>
    intro hn
    rcases List.mem_cons.mp hn with hn | hn
    · exact hx.plain.no_suffix hn.symm
    · rcases List.mem_cons.mp hn with hn | hn
      · cases hn
      · exact ih hn

/-- Without separators there are digits and nothing else, one for each value. -/
theorem unseparated (h : Digits base w ds) : (∀ y ∈ withoutSeparators w, isDigitOf base y = true) ∧
    (withoutSeparators w).filterMap digitValue? = ds := by
  induction h with
  | last hx => exact hx.unseparated_cons ⟨nofun, rfl⟩
  | next hx _ ih => exact hx.unseparated_cons ih
  | separated hx _ ih => exact hx.unseparated_cons ih

/-- At least one digit is left without separators. -/
theorem unseparated_ne_nil (h : Digits base w ds) : withoutSeparators w ≠ [] := by
  obtain ⟨x, v, rest, rfl, hx⟩ := h.head
  rw [hx.withoutSeparators_cons]
  exact List.cons_ne_nil x _

end Digits

/-! ## Values -/

/-- The positional value is the library's, which counts from the last digit. -/
theorem positionalValue_eq (base : Nat) (ds : List Nat) :
    positionalValue base ds = Nat.ofDigits base ds.reverse := by
  rw [Nat.ofDigits_eq_foldr, List.foldr_reverse, positionalValue]
  congr 1
  funext n d
  rw [Nat.mul_comm, Nat.add_comm]
  rfl

/-- Digits without separators are read as the number they stand for. -/
theorem readInteger?_digits {ys : List Char} (hne : ys ≠ [])
    (hdigits : ∀ y ∈ ys, isDigitOf base y = true) (hvalues : ys.filterMap digitValue? = ds) :
    readInteger? base ys = some (Nat.ofDigits base ds.reverse : Nat) := by
  obtain ⟨y, more, rfl⟩ := List.exists_cons_of_ne_nil hne
  obtain ⟨d, hd⟩ := exists_isDigit (hdigits y List.mem_cons_self)
  have hsplit : splitDigits base (y :: more) = (d :: more.filterMap digitValue?, []) := by
    rw [splitDigits, List.takeWhile_eq_self_iff.mpr hdigits, List.dropWhile_eq_nil_iff.mpr hdigits,
      List.filterMap_cons_some (isDigit_iff.mp hd).2]
  rw [List.filterMap_cons_some (isDigit_iff.mp hd).2] at hvalues
  unfold readInteger?
  split
  · next hsign =>
    split at hsign
    · next h => exact absurd (List.cons.inj h).1 hd.plain.no_plus
    · next h => exact absurd (List.cons.inj h).1 hd.plain.no_minus
    · cases hsign
      rw [hsplit]
      dsimp only
      rw [hvalues, positionalValue_eq]
      rfl

/-- Without its separators a whole number is made of decimal digits, with the values that
the grammar gives them. -/
theorem Whole.unseparated (h : Whole w ds) : withoutSeparators w ≠ [] ∧
    (∀ y ∈ withoutSeparators w, isDigitOf 10 y = true) ∧
    (withoutSeparators w).filterMap digitValue? = ds := by
  cases h with
  | zero => exact ⟨nofun, List.forall_mem_singleton.mpr rfl, rfl⟩
  | digits hw _ => exact ⟨hw.unseparated_ne_nil, hw.unseparated⟩

/-- No base is marked in a whole number in base ten. -/
theorem Whole.splitRadix (h : Whole w ds) :
    EcmaStack.splitRadix (withoutSeparators w) = (withoutSeparators w, 10) := by
  cases h with
  | zero => rfl
  | digits hw hfirst =>
    obtain ⟨x, v, rest, rfl, hx⟩ := hw.head
    rw [hx.withoutSeparators_cons]
    unfold EcmaStack.splitRadix
    split
    · next h => exact absurd (congrArg some (List.cons.inj h).1) hfirst
    · rfl

/-- The digits of a whole number are split from the mark of its base. -/
theorem Integer.splitRadix (h : Integer w base ds) :
    ∃ ys, EcmaStack.splitRadix (withoutSeparators w) = (ys, base) ∧
    ys ≠ [] ∧ (∀ y ∈ ys, isDigitOf base y = true) ∧ ys.filterMap digitValue? = ds := by
  cases h with
  | decimal hw => exact ⟨_, hw.splitRadix, hw.unseparated⟩
  | @marked x _ w _ hmark hw =>
    refine ⟨withoutSeparators w, ?_, hw.unseparated_ne_nil, hw.unseparated⟩
    obtain ⟨y, more, hy⟩ := List.exists_cons_of_ne_nil hw.unseparated_ne_nil
    have hsplit : ∀ mark ∈ [('b', 2), ('B', 2), ('o', 8), ('O', 8), ('x', 16), ('X', 16)],
        mark.1 ≠ '_' ∧ EcmaStack.splitRadix ('0' :: mark.1 :: y :: more) = (y :: more, mark.2) := by
      simp [EcmaStack.splitRadix]
    obtain ⟨hx, hsplit⟩ := hsplit _ hmark
    have hkeep : withoutSeparators ('0' :: x :: w) = '0' :: x :: withoutSeparators w := by
      rw [withoutSeparators, List.filter_cons_of_pos (by decide),
        List.filter_cons_of_pos (by simpa using hx)]
      rfl
    rw [hkeep, hy]
    exact hsplit

/-- A big integer has the value that its digits stand for in its base. -/
theorem BigInt.value (h : BigInt w base ds) :
    bigIntValue? (String.ofList w) = some (Nat.ofDigits base ds.reverse : Nat) := by
  cases h with
  | @suffixed w _ _ hw =>
    obtain ⟨ys, hsplit, hne, hdigits, hvalues⟩ := hw.splitRadix
    have hsuffix : withoutBigIntMark (withoutSeparators (w ++ ['n'])) = withoutSeparators w := by
      have hkeep : withoutSeparators (w ++ ['n']) = withoutSeparators w ++ ['n'] :=
        List.filter_append ..
      rw [hkeep, withoutBigIntMark, List.getLast?_concat, if_pos (beq_self_eq_true _),
        List.dropLast_concat]
    rw [bigIntValue?, String.toList_ofList, hsuffix, hsplit]
    exact readInteger?_digits hne hdigits hvalues

end Numeral

end EcmaStack
