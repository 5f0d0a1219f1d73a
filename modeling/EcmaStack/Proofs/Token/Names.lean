import EcmaStack.Proofs.Token.Reading

/-!
# Names and how they are written

A name may be written with escapes; its token carries the characters that are meant. They are a
name themselves, and written as they stand they are scanned as one token that carries the same
name (`readIdentifier_canonical`), which need not be of the same kind: a word that was written
with an escape is an identifier, and without the escape it may be a keyword.

Reading adds a character only where a name may have it, so what has been read is always a name
(`PartialName.Valid`). The other way round, the characters of a name are all taken, and reading
stops where no name goes on (`readIdentifier_written`).
-/

namespace EcmaStack

open Text

/-- No name and no number goes on with a text. -/
def Ends (cs : List Char) : Prop :=
  ∀ y ∈ cs.head?, isIdentifierPart y = false ∧ y ≠ '\\'

/-- A name ends where the text does. -/
theorem Ends.nil : Ends [] :=
  nofun

/-- How a name is written without escapes. -/
def writtenName (hidden : Bool) (word : List Char) : List Char :=
  if hidden then '#' :: word else word

/-- The kind of a name that is written without escapes. -/
def writtenKind (hidden : Bool) (word : List Char) : Kind :=
  if hidden then .privateName else nameKind false (String.ofList word)

/-- What kind a name is of without escapes: a private name's, or the keyword's that is spelled
so, or else an identifier's. -/
inductive WrittenAs (name : String) : Bool → Kind → Prop
  | hidden : WrittenAs name true .privateName
  | reserved (k : Keyword) (h : k.spelling = name) : WrittenAs name false (.keyword k)
  | other (h : ∀ k : Keyword, k.spelling ≠ name) : WrittenAs name false .identifier

/-- The name of a token as it is written without escapes. -/
def Token.written (t : Token) : Text :=
  (writtenName (t.kind == .privateName) t.name.toList).map .char

/-- The token carries an identifier name, and that name, written without escapes, is scanned as
a token that carries it. -/
structure Token.Canonical (t : Token) : Prop where
  value : t.value = ofString t.name
  identifier : isIdentifierName t.name.toList = true
  scanned : ∃ k, WrittenAs t.name (t.kind == .privateName) k ∧ scan t.written =
    [{ kind := k, start := 0, stop := width t.written, escaped := false, value := t.value },
      { kind := .eof, start := width t.written, stop := width t.written }]

/-! ## Texts -/

/-- A text made of a string spells that string again. -/
theorem toString_ofString (s : String) : (ofString s).toString = s := by
  rw [Text.toString, ofString, List.map_map, show Piece.scalar ∘ Piece.char = id from rfl,
    List.map_id, String.ofList_toList]

theorem ofString_ofList (cs : List Char) : ofString (String.ofList cs) = cs.map .char := by
  rw [ofString, String.toList_ofList]

/-! ## What stands before a token -/

section

variable {x : Char} {rest : Text} {offset : Nat} {t : Token} {d : Cursor}

/-- Nothing is skipped before a token. -/
theorem scanToken_of_readerFor (hblank : isBlank x = false) (hline : isLineTerminator x = false)
    (hcomment : readComment ⟨.char x :: rest, offset⟩ = none)
    (hread : readerFor x ⟨.char x :: rest, offset⟩ = some (t, d)) (hnewline : t.newline = false) :
    scanToken ⟨.char x :: rest, offset⟩ = (t, d) := by
  have htrivia : Cursor.skipTrivia ⟨.char x :: rest, offset⟩ =
      ⟨false, ⟨.char x :: rest, offset⟩, none⟩ := by
    rw [Cursor.skipTrivia, Cursor.skipTriviaFrom]
    simp only [Piece.scalar, hblank, hline, Bool.false_eq_true, if_false]
    split
    · rfl
    · next h => cases hcomment.symm.trans h
  rw [scanToken, htrivia]
  show ({ ((readerFor x ⟨.char x :: rest, offset⟩).getD _).1 with newline := false },
    ((readerFor x ⟨.char x :: rest, offset⟩).getD _).2) = (t, d)
  rw [hread, ← hnewline]
  rfl

/-- Without a slash there is no comment. -/
theorem readComment_of_ne (hx : x ≠ '/') : readComment ⟨.char x :: rest, offset⟩ = none := by
  unfold readComment
  split
  · next h => exact absurd (Piece.char.inj (List.cons.inj h).1) hx
  · next h => exact absurd (Piece.char.inj (List.cons.inj h).1) hx
  · rfl

theorem scanToken_nil :
    scanToken ⟨[], offset⟩ = ({ kind := .eof, start := offset, stop := offset }, ⟨[], offset⟩) := by
  rw [scanToken, Cursor.skipTrivia, Cursor.skipTriviaFrom]
  rfl

/-- A token after which nothing is left is scanned alone. -/
theorem scan_single (hscan : scanToken (.ofText (.char x :: rest)) = (t, ⟨[], offset⟩))
    (heof : t.kind ≠ .eof) (hfault : t.kind ≠ .fault) :
    scan (.char x :: rest) = [t, { kind := .eof, start := offset, stop := offset }] := by
  rw [scan, List.length_cons, scanFrom, hscan]
  simp only [beq_eq_false_iff_ne.mpr heof, beq_eq_false_iff_ne.mpr hfault, Bool.false_and,
    Bool.or_false, Bool.false_eq_true, if_false]
  rw [scanFrom, scanToken_nil]
  rfl

end

/-! ## Characters of a name -/

section Characters

variable {x : Char} {word : List Char}

/-- The code points of white space and line ends. -/
private def blanks : List Nat :=
  [9, 0xb, 0xc, 0x20, 0xfeff, 0xa, 0xd, 0x2028, 0x2029, 0xa0, 0x1680, 0x202f, 0x205f, 0x3000] ++
    List.range' 0x2000 11

/-- No character that starts a name is white space or ends a line. -/
theorem isBlank_of_isIdentifierStart (h : isIdentifierStart x = true) :
    isBlank x = false ∧ isLineTerminator x = false := by
  have hnone : ∀ n ∈ blanks, isIdentifierStart (Char.ofNat n) = false := by decide +kernel
  have hpoint : ¬(isBlank x = true ∨ isLineTerminator x = true) := by
    intro hx
    have hmem : x.toNat ∈ blanks := by
      simp only [isBlank, isLineTerminator, spaceRanges, inRanges, List.any_cons, List.any_nil,
        Bool.or_eq_true, Bool.and_eq_true, beq_iff_eq, decide_eq_true_eq,
        Bool.or_false, ← Char.toNat_inj, Char.reduceToNat] at hx
      simp only [blanks, List.mem_append, List.mem_cons, List.mem_range'_1, List.not_mem_nil,
        or_false]
      omega
    have hno := hnone _ hmem
    rw [Char.ofNat_toNat, h] at hno
    cases hno
  simpa using hpoint

/-- No character that starts a name is a digit. -/
theorem isDecimalDigit_of_isIdentifierStart (h : isIdentifierStart x = true) :
    isDecimalDigit x = false := by
  have hnone : ∀ n ∈ List.range' 48 10, isIdentifierStart (Char.ofNat n) = false := by decide
  refine Bool.eq_false_iff.mpr fun hx => ?_
  have hmem : x.toNat ∈ List.range' 48 10 := by
    simp only [isDecimalDigit, Bool.and_eq_true, decide_eq_true_eq, Char.le_def,
      UInt32.le_iff_toNat_le] at hx
    exact List.mem_range'_1.mpr ⟨hx.1, Nat.lt_succ_of_le hx.2⟩
  have hno := hnone _ hmem
  rw [Char.ofNat_toNat, h] at hno
  cases hno

/-- A character that starts a name has the reader of names. -/
theorem readerFor_of_isIdentifierStart (h : isIdentifierStart x = true) :
    readerFor x = readIdentifier := by
  have hne {y : Char} (hy : isIdentifierStart y = false) : (x == y) = false := by
    refine beq_eq_false_iff_ne.mpr ?_
    rintro rfl
    cases h.symm.trans hy
  have hletter : isBasicLetter x = true ∨ 0x80 ≤ x.toNat := by
    unfold isIdentifierStart at h
    split at h
    · exact .inl h
    · next hx => exact .inr (Nat.le_of_not_lt hx)
  have hword : (isBasicLetter x || x == '\\' || x == '#' || decide (0x80 ≤ x.toNat)) = true := by
    rcases hletter with hx | hx
    · rw [hx]
      rfl
    · rw [decide_eq_true hx, Bool.or_true]
  rw [readerFor, hne (by decide : isIdentifierStart '\x22' = false),
    hne (by decide : isIdentifierStart '\x27' = false),
    hne (by decide : isIdentifierStart '\x60' = false),
    hne (by decide : isIdentifierStart '.' = false), isDecimalDigit_of_isIdentifierStart h, hword]
  rfl

/-- A backslash is no part of a name, so an escape in a name is told by it. -/
theorem isIdentifierPart_ne_escape (h : isIdentifierPart x = true) : x ≠ '\\' := by
  rintro rfl
  exact absurd h (by decide)

theorem isIdentifierName_cons (h : isIdentifierName (x :: word) = true) :
    isIdentifierStart x = true ∧ word.all isIdentifierPart = true :=
  Bool.and_eq_true_iff.mp h

/-- The first character of a name is part of one like the others. -/
theorem isIdentifierName_all (h : isIdentifierName word = true) :
    word.all isIdentifierPart = true := by
  cases word with
  | nil => rfl
  | cons x word =>
    obtain ⟨hx, hword⟩ := isIdentifierName_cons h
    rw [List.all_cons, isIdentifierPart_of_isIdentifierStart hx, hword]
    rfl

/-- A name goes on with any character that may stand inside one. -/
theorem isIdentifierName_concat (h : isIdentifierName word = true)
    (hx : isIdentifierPart x = true) :
    isIdentifierName (word ++ [x]) = true := by
  cases word with
  | nil => cases h
  | cons y word =>
    obtain ⟨hy, hword⟩ := isIdentifierName_cons h
    rw [List.cons_append, isIdentifierName, hy, List.all_append, hword, List.all_cons, hx]
    rfl

/-- A name has no byte that is no character. -/
theorem map_char_scalar {s : Text} (h : (s.map Piece.scalar).all isIdentifierPart = true) :
    (s.map Piece.scalar).map .char = s := by
  rw [List.map_map]
  refine (List.map_congr_left fun p hp => ?_).trans (List.map_id s)
  have hpart : isIdentifierPart p.scalar = true := List.all_eq_true.mp h _ (List.mem_map_of_mem hp)
  refine (Piece.eq_char rfl fun hstray => ?_).symm
  rw [hstray] at hpart
  exact absurd hpart (by decide +kernel)

end Characters

/-! ## Reading a name -/

/-- What has been read is a name, or nothing yet. -/
def PartialName.Valid (soFar : PartialName) : Prop :=
  soFar.chars.isEmpty = false → isIdentifierName soFar.chars.reverse = true

section Reading

variable {x : Char} {rest : Text} {offset : Nat} {cs word : List Char} {soFar name : PartialName}
    {c d : Cursor}

/-- What was read of a name stays a name with each character that is accepted. -/
theorem PartialName.Valid.next (h : soFar.Valid) (hx : nameAccepts soFar.chars.isEmpty x = true)
    (escaped : Bool) :
    PartialName.Valid ⟨x :: soFar.chars, escaped⟩ := by
  intro _
  rw [List.reverse_cons]
  obtain ⟨chars, _⟩ := soFar
  cases chars with
  | nil =>
    rw [List.reverse_nil, List.nil_append, isIdentifierName, List.all_nil, Bool.and_true]
    exact hx
  | cons y chars => exact isIdentifierName_concat (h rfl) hx

theorem PartialName.valid_nil : PartialName.Valid ⟨[], false⟩ := by
  intro h
  cases h

/-- Escaped or not, a character is added only where a name may have it. -/
theorem readNameFrom_valid (hvalid : soFar.Valid) (h : readNameFrom soFar c = .ok (name, d)) :
    name.Valid := by
  fun_induction readNameFrom soFar c with
  | case1 =>
    cases h
    exact hvalid
  | case2 soFar c p rest hrest next hbackslash tail htail x after hescape haccepts ih =>
    exact ih (hvalid.next haccepts _) h
  | case3 => cases h
  | case4 => cases h
  | case5 => cases h
  | case6 soFar c p rest hrest next hplain haccepts ih => exact ih (hvalid.next haccepts _) h
  | case7 =>
    cases h
    exact hvalid

/-- One step of the reader over a character that belongs to the name, -/
theorem readNameFrom_next (hx : nameAccepts soFar.chars.isEmpty x = true) (hescape : x ≠ '\\') :
    readNameFrom soFar ⟨.char x :: rest, offset⟩ =
      readNameFrom ⟨x :: soFar.chars, soFar.escaped⟩ ⟨rest, offset + x.utf8Size⟩ := by
  rw [readNameFrom]
  simp only
  rw [if_neg (fun h => hescape (Piece.char.inj (beq_iff_eq.mp h)))]
  exact if_pos hx

/-- and its end at the first that does not. -/
theorem readNameFrom_stop (hsome : soFar.chars.isEmpty = false) (h : Ends cs) :
    readNameFrom soFar ⟨cs.map .char, offset⟩ = .ok (soFar, ⟨cs.map .char, offset⟩) := by
  cases cs with
  | nil =>
    rw [List.map_nil, readNameFrom]
  | cons y cs =>
    obtain ⟨hpart, hescape⟩ := h y rfl
    rw [List.map_cons, readNameFrom]
    simp only
    rw [if_neg (fun hy => hescape (Piece.char.inj (beq_iff_eq.mp hy))), hsome]
    exact if_neg (Bool.eq_false_iff.mp hpart)

/-- The characters of a name are read as far as it goes. -/
theorem readNameFrom_word (hword : word.all isIdentifierPart = true)
    (hsome : soFar.chars.isEmpty = false) (h : Ends cs) :
    readNameFrom soFar ⟨(word ++ cs).map .char, offset⟩ =
      .ok (⟨word.reverse ++ soFar.chars, soFar.escaped⟩,
        ⟨cs.map .char, offset + width (word.map .char)⟩) := by
  induction word generalizing soFar offset with
  | nil => exact readNameFrom_stop hsome h
  | cons x word ih =>
    obtain ⟨hx, hrest⟩ := Bool.and_eq_true_iff.mp ((List.all_cons).symm.trans hword)
    rw [List.cons_append, List.map_cons, readNameFrom_next ?_ (isIdentifierPart_ne_escape hx),
      ih hrest rfl, List.reverse_cons, List.append_assoc, List.map_cons,
      width_cons, ← Nat.add_assoc]
    · rfl
    · rw [hsome]
      exact hx

/-- A name is read from its first character on. -/
theorem readNameFrom_name (hname : isIdentifierName word = true) (h : Ends cs) :
    readNameFrom ⟨[], false⟩ ⟨(word ++ cs).map .char, offset⟩ =
      .ok (⟨word.reverse, false⟩, ⟨cs.map .char, offset + width (word.map .char)⟩) := by
  cases word with
  | nil => cases hname
  | cons x word =>
    obtain ⟨hx, hword⟩ := isIdentifierName_cons hname
    have hfirst : nameAccepts (PartialName.chars ⟨[], false⟩).isEmpty x = true := hx
    rw [List.cons_append, List.map_cons,
      readNameFrom_next hfirst (isIdentifierPart_ne_escape
        (isIdentifierPart_of_isIdentifierStart hx)),
      readNameFrom_word hword rfl h, List.reverse_cons, List.map_cons, width_cons, ← Nat.add_assoc]
    rfl

end Reading

/-! ## Names without escapes -/

section Written

variable {hidden : Bool} {word cs : List Char}

/-- The list of keywords leaves none out. -/
theorem Keyword.mem_all (k : Keyword) : k ∈ all := by
  cases k <;> decide

/-- The kind that a word is written with is a kind that it can be read with. -/
theorem writtenKind_writtenAs (hidden : Bool) (word : List Char) :
    WrittenAs (String.ofList word) hidden (writtenKind hidden word) := by
  cases hidden with
  | true => exact .hidden
  | false =>
    rw [writtenKind, nameKind]
    simp only [Bool.false_eq_true, if_false]
    split
    · next k hk => exact .reserved k (Keyword.spelling_of_ofSpelling? hk)
    · next hk =>
      refine .other fun k hspelling => ?_
      exact List.find?_eq_none.mp hk k k.mem_all (beq_iff_eq.mpr hspelling)

theorem WrittenAs.ne {name : String} {k : Kind} (h : WrittenAs name hidden k) :
    k ≠ .eof ∧ k ≠ .fault := by
  cases h <;> exact ⟨nofun, nofun⟩

/-- Without escapes a name is read to its end. -/
theorem readIdentifier_written (hidden : Bool) (hname : isIdentifierName word = true) (h : Ends cs)
    (offset : Nat) :
    readIdentifier ⟨(writtenName hidden word ++ cs).map .char, offset⟩ =
      some ({ kind := writtenKind hidden word, start := offset,
              stop := offset + width ((writtenName hidden word).map .char), value :=
              word.map .char },
        ⟨cs.map .char, offset + width ((writtenName hidden word).map .char)⟩) := by
  have hsome : word.reverse.isEmpty = false := by
    rw [List.isEmpty_reverse]
    cases word with
    | nil => cases hname
    | cons x word => rfl
  cases hidden with
  | true =>
    have hhash : Cursor.take? ⟨(writtenName true word ++ cs).map .char, offset⟩ '#' =
        some ⟨(word ++ cs).map .char, offset + 1⟩ := rfl
    have hwidth : offset + width ((writtenName true word).map .char) =
        offset + 1 + width (word.map .char) := by
      rw [Nat.add_assoc]
      rfl
    simp only [readIdentifier, hhash, readNameFrom_name hname h, hsome, hwidth,
      List.reverse_reverse, Bool.false_eq_true, if_false]
    rfl
  | false =>
    have hnone : Cursor.take? ⟨(word ++ cs).map .char, offset⟩ '#' = none := by
      cases word with
      | nil => cases hname
      | cons x word =>
        refine if_neg (mt beq_iff_eq.mp ?_)
        rintro ⟨⟩
        cases (isIdentifierName_cons hname).1
    simp only [readIdentifier, writtenName, Bool.false_eq_true, if_false, hnone,
      readNameFrom_name hname h, hsome, List.reverse_reverse]
    rfl

/-- With the first character of a written name, the reader of names is reached at once. -/
theorem writtenName_head (hidden : Bool) (hname : isIdentifierName word = true) :
    ∃ x rest, writtenName hidden word = x :: rest ∧ isBlank x = false ∧ isLineTerminator x = false ∧
    x ≠ '/' ∧
      readerFor x = readIdentifier := by
  cases hidden with
  | true => exact ⟨'#', word, rfl, by decide, by decide, by decide, rfl⟩
  | false =>
    cases word with
    | nil => cases hname
    | cons x word =>
      obtain ⟨hx, -⟩ := isIdentifierName_cons hname
      obtain ⟨hblank, hline⟩ := isBlank_of_isIdentifierStart hx
      refine ⟨x, word, rfl, hblank, hline, ?_, readerFor_of_isIdentifierStart hx⟩
      rintro rfl
      cases hx

/-- A name is scanned before what does not go on with it. -/
theorem scanToken_written (hidden : Bool) (hname : isIdentifierName word = true) (h : Ends cs)
    (offset : Nat) :
    scanToken ⟨(writtenName hidden word ++ cs).map .char, offset⟩ =
      ({ kind := writtenKind hidden word, start := offset,
         stop := offset + width ((writtenName hidden word).map .char), value := word.map .char },
        ⟨cs.map .char, offset + width ((writtenName hidden word).map .char)⟩) := by
  have hread := readIdentifier_written hidden hname h offset
  obtain ⟨x, rest, hword, hblank, hline, hslash, hreader⟩ := writtenName_head hidden hname
  rw [hword] at hread ⊢
  rw [← hreader] at hread
  exact scanToken_of_readerFor hblank hline (readComment_of_ne hslash) hread rfl

/-- A name that stands alone is scanned as one token. -/
theorem scan_written (hidden : Bool) (hname : isIdentifierName word = true) {text : Text}
    (htext : text = (writtenName hidden word).map .char) :
    scan text =
      [{ kind := writtenKind hidden word, start := 0, stop := width text, escaped := false,
                   value := word.map .char },
      { kind := .eof, start := width text, stop := width text }] := by
  have hscan := scanToken_written hidden hname .nil 0
  rw [List.append_nil, ← htext, Nat.zero_add] at hscan
  obtain ⟨x, rest, hword, -⟩ := writtenName_head hidden hname
  obtain ⟨heof, hfault⟩ := (writtenKind_writtenAs hidden word).ne
  rw [hword] at htext
  subst htext
  exact scan_single hscan heof hfault

end Written

/-! ## The name of a token -/

section Canonical

variable {c d : Cursor} {t : Token} {word : List Char}

/-- However it was written, a name is a name. -/
theorem readIdentifier_carries (h : readIdentifier c = some (t, d)) (hkind : t.kind ≠ .fault) :
    ∃ word, isIdentifierName word = true ∧ t.value = word.map .char := by
  unfold readIdentifier at h
  dsimp only at h
  split at h
  · cases h
    exact absurd rfl hkind
  · next name _ hread =>
    split at h
    · cases h
    · next hsome =>
      cases h
      have hvalid : name.Valid := readNameFrom_valid PartialName.valid_nil hread
      exact ⟨name.chars.reverse, hvalid (Bool.eq_false_iff.mpr hsome), rfl⟩

/-- A token whose value is a name is printed in its canonical form. -/
theorem Token.Canonical.of_value (hname : isIdentifierName word = true)
    (hvalue : t.value = word.map .char) :
    t.Canonical := by
  have hstring : t.name = String.ofList word := by
    rw [Token.name, hvalue, ← ofString_ofList, toString_ofString]
  have hlist : t.name.toList = word := by
    rw [hstring, String.toList_ofList]
  refine ⟨?_, hlist.symm ▸ hname, writtenKind (t.kind == .privateName) word,
    hstring ▸ writtenKind_writtenAs _ _, ?_⟩
  · rw [hvalue, hstring, ofString_ofList]
  · rw [hvalue]
    exact scan_written (t.kind == .privateName) hname (by rw [Token.written, hlist])

/-- The token of a name carries the name that is meant, which is scanned alone as it stands. And
every identifier name is read to its end, and carried. -/
theorem readIdentifier_canonical :
    (∀ {c : Cursor} {t : Token} {d : Cursor}, readIdentifier c = some (t, d) → t.kind ≠ .fault →
      t.Canonical) ∧
      ∀ {s : Text}, isIdentifierName (s.map Piece.scalar) = true →
      ∃ k, WrittenAs s.toString false k ∧
        readIdentifier (.ofText s) =
          some ({ kind := k, start := 0, stop := s.width, escaped := false, value := s },
            ⟨[], s.width⟩) := by
  constructor
  · intro c t d h hkind
    obtain ⟨word, hname, hvalue⟩ := readIdentifier_carries h hkind
    exact .of_value hname hvalue
  · intro s hname
    have hchars := map_char_scalar (isIdentifierName_all hname)
    have hread := readIdentifier_written false hname .nil 0
    rw [List.append_nil, Nat.zero_add, writtenName, if_neg Bool.false_ne_true, hchars] at hread
    exact ⟨_, writtenKind_writtenAs false _, hread⟩

/-- With an escape in it a keyword is an identifier of that name; a private name may have
escapes too. -/
theorem readIdentifier_canonical_escapes :
    (∃ t d, readIdentifier (.ofText (ofString "\\u\x7b69\x7df")) = some (t, d) ∧
      t.kind = .identifier ∧ t.name = "if" ∧
      t.Canonical) ∧
    (∃ t d, readIdentifier (.ofText (ofString "#\\u0061b")) = some (t, d) ∧ t.kind = .privateName ∧
      t.name = "ab" ∧
      t.Canonical) ∧
    isIdentifierName ((ofString "été").map Piece.scalar) = true ∧
    ∃ k, WrittenAs (ofString "été").toString false k ∧
      readIdentifier (.ofText (ofString "été")) =
        some ({ kind := k, start := 0, stop := 5, escaped := false, value := ofString "été" },
          ⟨[], 5⟩) := by
  have hkeyword :
      (readIdentifier (.ofText (ofString "\\u\x7b69\x7df"))).map (fun x => (x.1.kind, x.1.name)) =
      some (.identifier, "if") := by decide +kernel
  have hprivate :
      (readIdentifier (.ofText (ofString "#\\u0061b"))).map (fun x => (x.1.kind, x.1.name)) =
      some (.privateName, "ab") := by decide +kernel
  have hname : isIdentifierName ((ofString "été").map Piece.scalar) = true := by decide +kernel
  obtain ⟨⟨t, d⟩, hread, ht⟩ := Option.map_eq_some_iff.mp hkeyword
  obtain ⟨⟨u, e⟩, hreadPrivate, hu⟩ := Option.map_eq_some_iff.mp hprivate
  obtain ⟨htkind, htname⟩ := Prod.mk.inj ht
  obtain ⟨hukind, huname⟩ := Prod.mk.inj hu
  obtain ⟨k, hkind, hwhole⟩ := readIdentifier_canonical.2 hname
  have hcanonical : t.Canonical := readIdentifier_canonical.1 hread fun hfault =>
    nomatch htkind.symm.trans hfault
  have hcanonicalPrivate : u.Canonical :=
    readIdentifier_canonical.1 hreadPrivate fun hfault => nomatch hukind.symm.trans hfault
  exact ⟨⟨t, d, hread, htkind, htname, hcanonical⟩,
    ⟨u, e, hreadPrivate, hukind, huname, hcanonicalPrivate⟩, hname, k, hkind,
    hwhole⟩

end Canonical

end EcmaStack
