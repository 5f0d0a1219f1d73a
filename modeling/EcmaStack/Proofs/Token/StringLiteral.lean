import EcmaStack.Printer.Layout
import EcmaStack.Proofs.Token.Reading
import Mathlib.Algebra.Group.Nat.Defs

/-!
# Strings are read as they were quoted

The reader takes a string character by character and escape by escape, and each has a law of its
own (`readStringFrom_char`, `readStringFrom_escape`, `readStringFrom_close`). A quoted character
is one or the other (`quoteChar_reads`), so a quoted string is read to its end, and its value is
the string again (`readString_quoteString`).
-/

namespace EcmaStack

open Text

variable {quote x : Char} {start offset v w n : Nat} {value text rest : Text} {escaped : Bool}
    {p : Piece} {cs : List Char}
  {after : Cursor}

/-! ## Hexadecimal digits -/

/-- The number that digits go on to after a first number. -/
def positional (v : Nat) (ds : List Nat) : Nat :=
  ds.foldl (fun v d => 16 * v + d) v

/-- A run of hexadecimal digits is read as the value that they spell. -/
theorem Cursor.hexRun_digits {ds : List Nat} (h : cs.map digitValue? = ds.map some) :
    Cursor.hexRun cs.length v ⟨cs.map .char ++ rest, offset⟩ =
      .ok (positional v ds, ⟨rest, offset + width (cs.map .char)⟩) := by
  induction cs generalizing ds v offset with
  | nil =>
    cases ds with
    | nil => rfl
    | cons d ds => cases h
  | cons x cs ih =>
    cases ds with
    | nil => cases h
    | cons d ds =>
      obtain ⟨hx, hcs⟩ := List.cons.inj h
      have hdigit : Cursor.hexDigit? ⟨(x :: cs).map .char ++ rest, offset⟩ =
          some (d, ⟨cs.map .char ++ rest, offset + x.utf8Size⟩) := by
        rw [Cursor.hexDigit?]
        exact congrArg (Option.map _) hx
      rw [List.length_cons, Cursor.hexRun, hdigit]
      dsimp only
      rw [ih hcs, List.map_cons, width_cons, ← Nat.add_assoc]
      rfl

/-- The digits of a number give it back. -/
theorem hexDigits_values (w n : Nat) :
    (hexDigits w n).length = w ∧ width ((hexDigits w n).map .char) = w ∧
    ∃ ds : List Nat, (hexDigits w n).map digitValue? = ds.map some ∧ ∀ v, positional v ds =
      16 ^ w * v + n % 16 ^ w := by
  have hdigits : ∀ d < 16, digitValue? (Nat.digitChar d) = some d ∧ (Nat.digitChar d).utf8Size =
      1 := by decide
  obtain ⟨hvalue, hsize⟩ := hdigits (n % 16) (Nat.mod_lt n (by decide))
  induction w generalizing n with
  | zero => exact ⟨rfl, rfl, [], rfl, fun v => by simp [positional, Nat.mod_one]⟩
  | succ w ih =>
    obtain ⟨hvalue', hsize'⟩ := hdigits (n / 16 % 16) (Nat.mod_lt _ (by decide))
    obtain ⟨hlength, hwidth, ds, hds, hpositional⟩ := ih (n / 16) hvalue' hsize'
    refine ⟨?_, ?_, ds ++ [n % 16], ?_, fun v => ?_⟩
    · rw [hexDigits, List.length_append, hlength, List.length_singleton]
    · rw [hexDigits, List.map_append, width_append, hwidth]
      exact congrArg (w + ·) hsize
    · rw [hexDigits, List.map_append, List.map_append, hds]
      exact congrArg (ds.map some ++ [·]) hvalue
    · have hmod : n % 16 ^ (w + 1) = n % 16 + 16 * (n / 16 % 16 ^ w) :=
        by rw [Nat.pow_succ, Nat.mul_comm, Nat.mod_mul]
      have hfold : positional v (ds ++ [n % 16]) = 16 * positional v ds + n % 16 :=
        List.foldl_append
      rw [hfold, hpositional, hmod, Nat.pow_succ, Nat.mul_add, ← Nat.mul_assoc,
        Nat.mul_comm 16 (16 ^ w), Nat.add_assoc, Nat.add_comm (n % 16)]

/-- A number is read from its digits. -/
theorem Cursor.hexRun_hexDigits (hn : n < 16 ^ w) :
    Cursor.hexRun w 0 ⟨(hexDigits w n).map .char ++ rest, offset⟩ =
    .ok (n, ⟨rest, offset + w⟩) := by
  obtain ⟨hlength, hwidth, ds, hds, hpositional⟩ := hexDigits_values w n
  have hrun : Cursor.hexRun (hexDigits w n).length 0 ⟨(hexDigits w n).map .char ++ rest, offset⟩ =
      .ok _ :=
    Cursor.hexRun_digits hds
  rw [hlength, hwidth, hpositional, Nat.mul_zero, Nat.zero_add, Nat.mod_eq_of_lt hn] at hrun
  exact hrun

/-! ## One step of the reader -/

/-- One step of the reader, told by the next piece. -/
theorem readStringFrom_cons : readStringFrom quote start value escaped ⟨p :: rest, offset⟩ =
    if isLineTerminator p.scalar then (.ofFault .unterminatedString start offset,
      ⟨p :: rest, offset⟩)
    else if p == .char quote then
      ({ kind := .string, start, stop := offset + p.width, escaped, value := value.reverse },
        ⟨rest, offset + p.width⟩)
    else if p == .char '\\' then
      match readEscape ⟨rest, offset + p.width⟩ with
      | .ok (text, after) => readStringFrom quote start (text.reverse ++ value) true after
      | .error r => r.token
    else readStringFrom quote start (p :: value) escaped ⟨rest, offset + p.width⟩ := by
  rw [readStringFrom]
  split
  · next h => cases h
  · next q tail h =>
    cases h
    refine ite_congr rfl (fun _ => rfl) fun _ => ite_congr rfl (fun _ => rfl) fun _ =>
      ite_congr rfl (fun _ => ?_) fun _ => rfl
    split
    · next hread => rw [hread]
    · next hread => rw [hread]

/-- A plain character is kept, -/
theorem readStringFrom_char (hline : isLineTerminator x = false) (hquote : x ≠ quote)
    (hescape : x ≠ '\\') :
    readStringFrom quote start value escaped ⟨.char x :: rest, offset⟩ =
      readStringFrom quote start (.char x :: value) escaped ⟨rest, offset + x.utf8Size⟩ := by
  have hscalar : (Piece.char x).scalar = x := rfl
  rw [readStringFrom_cons, hscalar, if_neg (Bool.eq_false_iff.mp hline),
    if_neg (fun h => hquote (Piece.char.inj (beq_iff_eq.mp h))),
    if_neg (fun h => hescape (Piece.char.inj (beq_iff_eq.mp h)))]
  rfl

/-- an escape is kept as what it stands for, -/
theorem readStringFrom_escape (hquote : quote ≠ '\\')
    (hread : readEscape ⟨rest, offset + 1⟩ = .ok (text, after)) :
    readStringFrom quote start value escaped ⟨.char '\\' :: rest, offset⟩ =
      readStringFrom quote start (text.reverse ++ value) true after := by
  have hplain : (Piece.char '\\').width = 1 := rfl
  rw [readStringFrom_cons, if_neg (by decide),
    if_neg (fun h => hquote (Piece.char.inj (beq_iff_eq.mp h)).symm), if_pos (beq_self_eq_true _),
    hplain, hread]

/-- and the quote ends the string. -/
theorem readStringFrom_close (hline : isLineTerminator quote = false) :
    readStringFrom quote start value escaped ⟨.char quote :: rest, offset⟩ =
      ({ kind := .string, start, stop := offset + quote.utf8Size, escaped, value := value.reverse },
        ⟨rest, offset + quote.utf8Size⟩) := by
  have hscalar : (Piece.char quote).scalar = quote := rfl
  rw [readStringFrom_cons, hscalar, if_neg (Bool.eq_false_iff.mp hline),
    if_pos (beq_self_eq_true _)]
  rfl

/-! ## Quoted characters -/

/-- An escape with two digits stands for the character of that code. -/
theorem readEscape_hex :
    readEscape ⟨.char 'x' :: rest, offset⟩ = match Cursor.hexRun 2 0 ⟨rest, offset + 1⟩ with
    | .ok (n, after) => .ok ([.char (charOfCode n)], after)
    | .error stopped => .error ⟨.invalidEscape, offset - 1, stopped.offset, stopped⟩ :=
  rfl

/-- A quoted character stands for itself and means nothing to the reader, or it is an escape
that the reader takes back. -/
theorem quoteChar_reads (x : Char) :
    (quoteChar x = [x] ∧ isLineTerminator x = false ∧ x ≠ '\x22' ∧ x ≠ '\\') ∨
      ∃ code, quoteChar x = '\\' :: code ∧ ∀ rest offset,
        readEscape ⟨code.map .char ++ rest, offset⟩ =
          .ok ([.char x], ⟨rest, offset + width (code.map .char)⟩) := by
  unfold quoteChar
  split
  · exact .inr ⟨_, rfl, fun rest offset => rfl⟩
  · exact .inr ⟨_, rfl, fun rest offset => rfl⟩
  · exact .inr ⟨_, rfl, fun rest offset => rfl⟩
  · exact .inr ⟨_, rfl, fun rest offset => rfl⟩
  · exact .inr ⟨_, rfl, fun rest offset => rfl⟩
  · exact .inr ⟨_, rfl, fun rest offset => rfl⟩
  · exact .inr ⟨_, rfl, fun rest offset => rfl⟩
  · next hquote hescape hnewline hreturn _ hline hparagraph =>
    split
    -- Other control characters are written by their code, with two digits, and everything else as
    -- it is.
    · next hcontrol =>
      refine .inr ⟨_, rfl, fun rest offset => ?_⟩
      have hwidth := (hexDigits_values 2 x.toNat).2.1
      have hcode : charOfCode x.toNat = x := by
        rw [charOfCode, if_neg, Char.ofNat_toNat]
        simp [isSurrogate]
        omega
      rw [List.map_cons, List.cons_append, readEscape_hex, Cursor.hexRun_hexDigits (by omega),
        width_cons, hwidth, ← Nat.add_assoc]
      dsimp only
      rw [hcode]
      rfl
    · refine .inl ⟨rfl, ?_, hquote, hescape⟩
      rw [isLineTerminator, beq_eq_false_iff_ne.mpr hnewline, beq_eq_false_iff_ne.mpr hreturn,
        beq_eq_false_iff_ne.mpr hline, beq_eq_false_iff_ne.mpr hparagraph]
      rfl

/-! ## Quoted strings -/

/-- A quoted string is read to its closing quote, and gives its characters. -/
theorem readStringFrom_quoted (cs : List Char) :
    readStringFrom '\x22' start value escaped ⟨(cs.flatMap quoteChar).map .char ++
      .char '\x22' :: rest, offset⟩ =
      ({ kind := .string, start, stop := offset + width ((cs.flatMap quoteChar).map .char) + 1,
          escaped := escaped || cs.any fun x => quoteChar x != [x], value :=
          value.reverse ++ cs.map .char },
        ⟨rest, offset + width ((cs.flatMap quoteChar).map .char) + 1⟩) := by
  induction cs generalizing value escaped offset with
  | nil =>
    rw [List.flatMap_nil, List.map_nil, List.nil_append, readStringFrom_close rfl, width_nil,
      List.any_nil, Bool.or_false, List.append_nil]
    rfl
  | cons x cs ih =>
    rw [List.flatMap_cons, List.map_append, List.append_assoc, width_append, ← Nat.add_assoc,
      List.any_cons, List.map_cons]
    rcases quoteChar_reads x with ⟨hquoted, hline, hquote, hescape⟩ | ⟨code, hquoted, hread⟩
    · have hplain : (quoteChar x != [x]) = false := bne_eq_false_iff_eq.mpr hquoted
      rw [hplain, hquoted, List.map_singleton, List.singleton_append,
        readStringFrom_char hline hquote hescape, ih, List.reverse_cons, List.append_assoc]
      rfl
    · have hspelled : (quoteChar x != [x]) = true := by
        rw [bne_iff_ne, hquoted]
        rintro ⟨⟩
        cases hread [] 0
      rw [hspelled, hquoted, List.map_cons, List.cons_append, readStringFrom_escape (by decide)
        (hread _ _), ih, List.reverse_append, List.append_assoc, width_cons, ← Nat.add_assoc,
        Bool.true_or, Bool.or_true]
      rfl

/-- A quoted string is read back, whatever comes after it: the token covers what was quoted, and
its value is the string. -/
theorem readString_quoteString (s : String) (tail : Text) (offset : Nat) :
    readString ⟨ofString (quoteString s) ++ tail, offset⟩ = some
      ({ kind := .string, start := offset, stop := offset + width (ofString (quoteString s)),
          escaped := s.toList.any fun x => quoteChar x != [x], value := ofString s },
        ⟨tail, offset + width (ofString (quoteString s))⟩) := by
  have hspelled : ofString (quoteString s) =
      .char '\x22' :: (s.toList.flatMap quoteChar).map .char ++ [.char '\x22'] := by
    rw [ofString, quoteString, String.toList_ofList, List.map_append, List.map_cons,
      List.map_singleton]
  have hopen : readString ⟨ofString (quoteString s) ++ tail, offset⟩ =
      some (readStringFrom '\x22' offset [] false
      ⟨(s.toList.flatMap quoteChar).map .char ++ .char '\x22' :: tail, offset + 1⟩) := by
    rw [hspelled, List.cons_append, List.cons_append, List.append_assoc, List.singleton_append]
    rfl
  have hwidth : width (ofString (quoteString s)) =
      1 + width ((s.toList.flatMap quoteChar).map .char) + 1 := by
    rw [hspelled, width_append, width_cons]
    rfl
  rw [hopen, readStringFrom_quoted, hwidth, ← Nat.add_assoc, ← Nat.add_assoc]
  rfl

end EcmaStack
