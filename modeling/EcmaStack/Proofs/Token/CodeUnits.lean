import EcmaStack.Proofs.Token.StringLiteral
import EcmaStack.Token.Quotation
import Mathlib.Data.List.Chain

/-!
# Escaped code units

A string or a template that spells 16-bit units, each as one escape, has the characters that
these units decode to as a source in UTF-16 would (`readString_units`, `readTemplate_units`).
The reader looks one escape ahead for this: a surrogate takes a low one that follows it along.

It does so for low surrogates too, and of two that stand for nothing one character is left.
Where no low surrogate follows another, pairs of a high one and a low one are all that is joined
(`decodeUnits_eq_pairUnits`).
-/

namespace EcmaStack

open Text

/-- A unit is spelled by four hexadecimal digits. -/
structure SpellsUnit (u : Nat) (ds : List Char) : Prop where
  four : ds.length = 4
  value : ∃ vs : List Nat, ds.map digitValue? = vs.map some ∧ u = positional 0 vs

/-- Units are spelled by an escape each. -/
inductive SpellsUnits : List Nat → List Char → Prop where
  | nil : SpellsUnits [] []
  | cons {u us ds code} : SpellsUnit u ds → SpellsUnits us code →
    SpellsUnits (u :: us) ('\\' :: 'u' :: ds ++ code)

/-- The second cursor is reached from the first over escapes, each of which stands for one
character. -/
inductive Cursor.Escapes : Cursor → List Char → Cursor → Prop where
  | none {c} : Escapes c [] c
  | more {c rest x d xs e} : c.rest = .char '\\' :: rest → readEscape ⟨rest, c.offset + 1⟩ =
    .ok ([.char x], d) →
      Escapes d xs e → Escapes c (x :: xs) e

variable {u v start offset : Nat} {us : List Nat} {code ds : List Char} {x quote : Char}
    {xs : List Char} {rest tail : Text}
  {c d e : Cursor}

/-! ## Decoding -/

/-- Whether a 16-bit unit is the first half of a surrogate pair. -/
def isHighSurrogate (u : Nat) : Bool :=
  isSurrogate u && !isLowSurrogate u

/-- Read 16-bit units, joining a high surrogate with a low one right after it and nothing else. -/
def pairUnits : List Nat → List Char
  | [] => []
  | [u] => [charOfCode u]
  | u :: v :: rest =>
    if isHighSurrogate u && isLowSurrogate v then joinSurrogates u v :: pairUnits rest
    else charOfCode u :: pairUnits (v :: rest)

/-- A surrogate takes along a low one that follows. -/
theorem decodeUnits_pair (hu : isSurrogate u = true) (hv : isLowSurrogate v = true) :
    decodeUnits (u :: v :: us) = joinSurrogates u v :: decodeUnits us := by
  rw [decodeUnits, if_pos hu, if_pos hv]

/-- A unit that takes no other along is decoded by itself. -/
theorem decodeUnits_cons (h : isSurrogate u = true → ∀ v ∈ us.head?, isLowSurrogate v = false) :
    decodeUnits (u :: us) = charOfCode u :: decodeUnits us := by
  cases us with
  | nil => rfl
  | cons v us =>
    rw [decodeUnits, charOfCode]
    by_cases hu : isSurrogate u = true
    · rw [if_pos hu, if_pos hu, if_neg (Bool.eq_false_iff.mp (h hu v rfl))]
    · rw [if_neg hu, if_neg hu]

/-- Where no low surrogate follows another, only pairs are joined. -/
theorem decodeUnits_eq_pairUnits
    (h : us.IsChain fun u v => ¬(isLowSurrogate u = true ∧ isLowSurrogate v = true)) :
    decodeUnits us = pairUnits us := by
  induction us using pairUnits.induct with
  | case1 => rfl
  | case2 u => rfl
  | case3 u v rest hpair ih =>
    rw [pairUnits, if_pos hpair]
    rw [isHighSurrogate, Bool.and_eq_true, Bool.and_eq_true] at hpair
    rw [decodeUnits_pair hpair.1.1 hpair.2, ih h.of_cons.of_cons]
  | case4 u v rest hpair ih =>
    rw [pairUnits, if_neg hpair, ← ih h.of_cons]
    refine decodeUnits_cons fun hu w hw => ?_
    obtain rfl := Option.some.inj hw
    rw [Bool.eq_false_iff]
    intro hv
    have hlow : isLowSurrogate u = false :=
      Bool.eq_false_iff.mpr fun hlow => (List.isChain_cons_cons.mp h).1 ⟨hlow, hv⟩
    rw [isHighSurrogate, hu, hlow, hv] at hpair
    exact hpair rfl

/-- Two low surrogates leave one character. -/
example : decodeUnits [0xDC00, 0xDC00] = [replacement] ∧ pairUnits [0xDC00, 0xDC00] =
    [replacement, replacement] := by
  decide

/-! ## Reading an escaped unit -/

namespace SpellsUnit

/-- Four digits are read back as the code unit that they spell. -/
theorem hexRun (h : SpellsUnit u ds) :
    Cursor.hexRun 4 0 ⟨ds.map .char ++ rest, offset⟩ =
      .ok (u, ⟨rest, offset + width (ds.map .char)⟩) := by
  obtain ⟨hfour, vs, hvs, rfl⟩ := h
  rw [← hfour]
  exact Cursor.hexRun_digits hvs

/-- No brace follows the letter, and so the digits are read. -/
theorem readUnicodeEscape (h : SpellsUnit u ds) : readUnicodeEscape ⟨ds.map .char ++ rest, offset⟩ =
    if isSurrogate u then match Cursor.lowSurrogate? ⟨rest, offset + width (ds.map .char)⟩ with
      | some (low, after) => .ok (joinSurrogates u low, after)
      | none => .ok (replacement, ⟨rest, offset + width (ds.map .char)⟩)
    else .ok (charOfCode u, ⟨rest, offset + width (ds.map .char)⟩) := by
  unfold EcmaStack.readUnicodeEscape
  split
  · next more hbrace =>
    obtain ⟨hfour, vs, hvs, -⟩ := h
    cases ds with
    | nil => cases hfour
    | cons x ds =>
      cases hbrace
      cases vs <;> cases hvs
  · rewrite [h.hexRun]
    rfl

/-- A second escape is looked at only for a low surrogate: anything else is left for the
next character. -/
theorem lowSurrogate?_escape : Cursor.lowSurrogate? ⟨.char '\\' :: .char 'u' :: rest, offset⟩ =
    match Cursor.hexRun 4 0 ⟨rest, offset + 2⟩ with
      | .ok (low, next) => if isLowSurrogate low then some (low, next) else none
      | .error _ => none :=
  rfl

/-- The reader looks ahead for a low surrogate only. -/
theorem lowSurrogate? (h : SpellsUnit v ds) :
    Cursor.lowSurrogate? ⟨.char '\\' :: .char 'u' :: (ds.map .char ++ rest), offset⟩ =
      if isLowSurrogate v then some (v, ⟨rest, offset + 2 + width (ds.map .char)⟩) else none := by
  rw [lowSurrogate?_escape, h.hexRun]

end SpellsUnit

/-- An escape that starts with a u is read as a code point, whatever comes of it. -/
theorem readEscape_unicode :
    readEscape ⟨.char 'u' :: rest, offset⟩ = match readUnicodeEscape ⟨rest, offset + 1⟩ with
    | .ok (x, after) => .ok ([.char x], after)
    | .error stopped => .error ⟨.invalidUnicodeEscape, offset - 1, stopped.offset, stopped⟩ :=
  rfl

/-- A surrogate and the low one after it are one character. -/
theorem SpellsUnit.readEscape_pair {ds' : List Char} (h : SpellsUnit u ds) (h' : SpellsUnit v ds')
    (hu : isSurrogate u = true) (hv : isLowSurrogate v = true) :
    readEscape ⟨.char 'u' :: (ds.map .char ++ .char '\\' :: .char 'u' :: (ds'.map .char ++ rest)),
      offset⟩ =
      .ok ([.char (joinSurrogates u v)],
        ⟨rest, offset + 1 + width (ds.map .char) + 2 + width (ds'.map .char)⟩) := by
  rw [readEscape_unicode, h.readUnicodeEscape, if_pos hu, h'.lowSurrogate?, if_pos hv]

/-- A unit with no low surrogate to take along is a character of its own. -/
theorem SpellsUnit.readEscape_single (h : SpellsUnit u ds)
    (halone : isSurrogate u = true →
      Cursor.lowSurrogate? ⟨rest, offset + 1 + width (ds.map .char)⟩ = none) :
    readEscape ⟨.char 'u' :: (ds.map .char ++ rest), offset⟩ =
      .ok ([.char (charOfCode u)], ⟨rest, offset + 1 + width (ds.map .char)⟩) := by
  rw [readEscape_unicode, h.readUnicodeEscape]
  by_cases hu : isSurrogate u = true
  · rw [if_pos hu, halone hu, charOfCode, if_pos hu]
  · rw [if_neg hu]

/-- The letters of an escape, one by one in front of what follows it. -/
theorem escape_append (ds code : List Char) (rest : Text) :
    ('\\' :: 'u' :: ds ++ code).map .char ++ rest =
    .char '\\' :: .char 'u' :: (ds.map .char ++ (code.map .char ++ rest)) := by
  rw [List.map_append, List.append_assoc]
  rfl

theorem width_escape (ds code : List Char) : width (('\\' :: 'u' :: ds ++ code).map .char) =
    1 + 1 + width (ds.map .char) + width (code.map .char) := by
  rw [List.map_append, width_append, List.map_cons, List.map_cons, width_cons,
    width_cons, ← Nat.add_assoc]
  rfl

/-- Nothing is taken along from what is no low surrogate. -/
theorem SpellsUnits.lowSurrogate?_none (h : SpellsUnits us code) (hquote : quote ≠ '\\')
    (hfirst : ∀ v ∈ us.head?, isLowSurrogate v = false) :
    Cursor.lowSurrogate? ⟨code.map .char ++ .char quote :: tail, offset⟩ = none := by
  cases h with
  | nil =>
    unfold Cursor.lowSurrogate?
    split
    · next h =>
      cases h
      exact absurd rfl hquote
    · rfl
  | cons hu hcode =>
    rw [escape_append, hu.lowSurrogate?, if_neg (Bool.eq_false_iff.mp (hfirst _ rfl))]

/-- The escape of a unit that takes no other along stands for one character. -/
theorem SpellsUnit.escapes (hu : SpellsUnit u ds) (hcode : SpellsUnits us code)
    (hquote : quote ≠ '\\') (halone : isSurrogate u = true →
      ∀ v ∈ us.head?, isLowSurrogate v = false)
    (hmore : ∀ offset, Cursor.Escapes ⟨code.map .char ++ .char quote :: tail, offset⟩
      (decodeUnits us)
      ⟨.char quote :: tail, offset + width (code.map .char)⟩) :
    Cursor.Escapes ⟨('\\' :: 'u' :: ds ++ code).map .char ++ .char quote :: tail, offset⟩
    (decodeUnits (u :: us))
      ⟨.char quote :: tail, offset + width (('\\' :: 'u' :: ds ++ code).map .char)⟩ := by
  have hread : readEscape ⟨.char 'u' :: (ds.map .char ++ (code.map .char ++ .char quote :: tail)),
      offset + 1⟩ = .ok _ :=
    hu.readEscape_single fun hsurrogate => hcode.lowSurrogate?_none hquote (halone hsurrogate)
  rw [decodeUnits_cons halone, escape_append, width_escape]
  simp only [← Nat.add_assoc]
  exact .more rfl hread (hmore _)

/-- The escapes of units stand for the characters the units decode to. -/
theorem SpellsUnits.escapes (h : SpellsUnits us code) (hquote : quote ≠ '\\') (offset : Nat) :
    Cursor.Escapes ⟨code.map .char ++ .char quote :: tail, offset⟩ (decodeUnits us)
      ⟨.char quote :: tail, offset + width (code.map .char)⟩ := by
  -- By induction on how the units are decoded: a high surrogate with a low one behind it is read
  -- as a pair, everything else alone.
  induction us using decodeUnits.induct generalizing code offset with
  | case1 =>
    cases h
    exact .none
  | case2 u =>
    cases h with
    | cons hu hcode =>
      cases hcode
      exact hu.escapes .nil hquote nofun fun _ => .none
  | case3 u v us hsurrogate hlow ih =>
    cases h with
    | cons hu hcode =>
      cases hcode with
      | cons hv hcode =>
        rw [decodeUnits_pair hsurrogate hlow, escape_append, escape_append, width_escape,
          width_escape]
        simp only [← Nat.add_assoc]
        exact .more rfl (hu.readEscape_pair hv hsurrogate hlow) (ih hcode _)
  | case4 u v us _ hlow ih =>
    cases h with
    | cons hu hcode =>
      refine hu.escapes hcode hquote (fun _ w hw => ?_) (ih hcode)
      obtain rfl := Option.some.inj hw
      exact Bool.eq_false_iff.mpr hlow
  | case5 u v us hsurrogate ih =>
    cases h with
    | cons hu hcode => exact hu.escapes hcode hquote (fun h => absurd h hsurrogate) (ih hcode)

/-! ## Strings and templates -/

theorem reverse_cons_append (x : Char) (xs : List Char) (value : Text) :
    (((x :: xs).map .char).reverse ++ value : Text) =
    (xs.map .char).reverse ++ (List.reverse [.char x] ++ value) := by
  rw [List.map_cons, List.reverse_cons, List.append_assoc]
  rfl

/-- A string takes over what its escapes stand for. -/
theorem Cursor.Escapes.readString (h : c.Escapes xs d) (hquote : quote ≠ '\\') {value : Text}
    {escaped : Bool} :
    readStringFrom quote start value escaped c =
      readStringFrom quote start ((xs.map .char).reverse ++ value) (escaped || !xs.isEmpty) d := by
  induction h generalizing value escaped with
  | none =>
    rw [List.map_nil, List.reverse_nil, List.nil_append, List.isEmpty_nil, Bool.not_true,
      Bool.or_false]
  | @more c rest x d xs e hrest hread _ ih =>
    obtain ⟨text, offset⟩ := c
    cases hrest
    rw [readStringFrom_escape hquote hread, ih, List.isEmpty_cons, Bool.not_false, Bool.or_true,
      Bool.true_or, reverse_cons_append]

/-- A template goes on behind an escape with what the escape stands for and the letters it
was written with. -/
theorem readTemplateFrom_escape {sub last : Kind} {soFar : PartialTemplate} {text : Text}
    (hread : readEscape ⟨rest, offset + 1⟩ = .ok (text, d)) :
    readTemplateFrom sub last start soFar ⟨.char '\\' :: rest, offset⟩ =
      readTemplateFrom sub last start
      ⟨text.reverse ++
        soFar.cooked, (joinLineEnds (Cursor.between ⟨.char '\\' :: rest, offset⟩ d)).reverse ++
        soFar.raw⟩ d := by
  have hwidth : (Piece.char '\\').width = 1 := rfl
  rw [readTemplateFrom]
  split
  · next h => cases h
  · next q more h =>
    cases h
    dsimp only
    rw [if_neg (by decide), if_neg (by decide), if_neg (by decide), if_pos (beq_self_eq_true _)]
    split
    · next he =>
      rw [hwidth, hread] at he
      cases he
      rfl
    · next he =>
      rw [hwidth, hread] at he
      cases he

/-- A backquote ends the template, and what was collected is turned round. -/
theorem readTemplateFrom_close {sub last : Kind} {soFar : PartialTemplate} :
    readTemplateFrom sub last start soFar ⟨.char '\x60' :: rest, offset⟩ =
      ({ kind := last, start, stop := offset + 1,
         value := soFar.cooked.reverse, raw := soFar.raw.reverse },
        ⟨rest, offset + 1⟩) := by
  rw [readTemplateFrom]
  split
  · next h => cases h
  · next q more h =>
    cases h
    rfl

/-- A template takes over what its escapes stand for. -/
theorem Cursor.Escapes.readTemplate (h : c.Escapes xs d) {sub last : Kind} (cooked raw : Text) :
    ∃ raw', readTemplateFrom sub last start ⟨cooked, raw⟩ c =
      readTemplateFrom sub last start ⟨(xs.map .char).reverse ++ cooked, raw'⟩ d := by
  induction h generalizing cooked raw with
  | none => exact ⟨raw, rfl⟩
  | @more c rest x d xs e hrest hread _ ih =>
    obtain ⟨text, offset⟩ := c
    cases hrest
    rw [readTemplateFrom_escape hread, reverse_cons_append]
    exact ih _ _

/-- A string that spells units has the characters they decode to. -/
theorem readString_units (h : SpellsUnits us code) (hquote : quote = '\x22' ∨ quote = '\x27')
    (offset : Nat) (tail : Text) :
    ∃ t, readString ⟨.char quote :: code.map .char ++ .char quote :: tail, offset⟩ =
      some (t, ⟨tail, t.stop⟩) ∧
      t.kind = .string ∧ t.start = offset ∧ t.stop = offset + width (code.map .char) + 2 ∧
      t.value = (decodeUnits us).map .char := by
  have hplain : quote ≠ '\\' ∧ isLineTerminator quote = false ∧ quote.utf8Size = 1 := by
    rcases hquote with rfl | rfl <;> decide
  have hopen : readString ⟨.char quote :: code.map .char ++ .char quote :: tail, offset⟩ =
      some (readStringFrom quote offset [] false ⟨code.map .char ++ .char quote :: tail,
        offset + 1⟩) := by
    rcases hquote with rfl | rfl <;> rfl
  rw [hopen, (h.escapes hplain.1 (offset + 1)).readString hplain.1, readStringFrom_close hplain.2.1,
    hplain.2.2, List.append_nil, List.reverse_reverse]
  exact ⟨_, rfl, rfl, rfl, by dsimp only; omega, rfl⟩

/-- A template that spells units has the characters they decode to. -/
theorem readTemplate_units (h : SpellsUnits us code) (offset : Nat) (tail : Text) :
    ∃ t, readTemplate ⟨.char '\x60' :: code.map .char ++ .char '\x60' :: tail, offset⟩ =
      some (t, ⟨tail, t.stop⟩) ∧
      t.kind = .template ∧ t.start = offset ∧ t.stop = offset + width (code.map .char) + 2 ∧
      t.value = (decodeUnits us).map .char := by
  have hopen : readTemplate ⟨.char '\x60' :: code.map .char ++ .char '\x60' :: tail, offset⟩ =
      some (readTemplateFrom .templateHead .template offset ⟨[], []⟩
        ⟨code.map .char ++ .char '\x60' :: tail, offset + 1⟩) := rfl
  have hquote : '\x60' ≠ '\\' := by decide
  obtain ⟨raw, hread⟩ := (h.escapes hquote (offset + 1)).readTemplate [] []
  rw [hopen, hread, readTemplateFrom_close, List.append_nil, List.reverse_reverse]
  exact ⟨_, rfl, rfl, rfl, by dsimp only; omega, rfl⟩

end EcmaStack
