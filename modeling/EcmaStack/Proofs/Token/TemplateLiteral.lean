import EcmaStack.Proofs.Token.Unescaping
import EcmaStack.Proofs.Token.Tiling

/-!
# The texts of templates

A template token carries what stands between its delimiters as written, with line ends
normalized, and what that stands for when its escapes are decoded. The reader normalizes the
plain text piece by piece and each escape by itself, and the two do not agree: a CR that is no
part of a CR LF becomes LF, unless a backslash stands right before it (`writtenText`). What the
text stands for is not touched by this: it is what the normalized text stands for
(`readTemplate_texts`).
-/

namespace EcmaStack

open Text

/-! ## Line ends -/

/-- A text with each CR LF and each other CR as one LF. -/
def joinReturns : Text → Text
  | [] => []
  | .char '\r' :: .char '\n' :: rest => .char '\n' :: joinReturns rest
  | .char '\r' :: rest => .char '\n' :: joinReturns rest
  | p :: rest => p :: joinReturns rest

/-- A text with each CR LF and each other CR as one LF, but for a single CR that a backslash
escapes. -/
def writtenText : Text → Text
  | [] => []
  | .char '\\' :: .char '\r' :: .char '\n' :: rest => .char '\\' :: .char '\n' :: writtenText rest
  | .char '\\' :: p :: rest => .char '\\' :: p :: writtenText rest
  | .char '\r' :: .char '\n' :: rest => .char '\n' :: writtenText rest
  | .char '\r' :: rest => .char '\n' :: writtenText rest
  | p :: rest => p :: writtenText rest

variable {c d : Cursor} {p q : Piece} {e e' r rest text body value : Text} {n v offset : Nat}
    {t : Token}

/-- Only a carriage return is joined with what follows. -/
theorem joinReturns_cons (h : p ≠ .char '\r') :
    joinReturns (p :: rest) = p :: joinReturns rest := by
  rw [joinReturns.eq_def]
  split <;> rename_i heq <;> cases heq
  · exact absurd rfl h
  · exact absurd rfl h
  · rfl

/-- What holds no CR stays as it is. -/
theorem joinReturns_append (h : .char '\r' ∉ r) :
    joinReturns (r ++ rest) = r ++ joinReturns rest := by
  induction r with
  | nil => rfl
  | cons p r ih =>
    rw [List.mem_cons, not_or] at h
    rw [List.cons_append, joinReturns_cons (Ne.symm h.1), ih h.2, List.cons_append]

/-- A CR that is no part of a CR LF. -/
theorem joinReturns_return (h : rest.head? ≠ some (.char '\n')) :
    joinReturns (.char '\r' :: rest) = .char '\n' :: joinReturns rest := by
  rw [joinReturns.eq_def]
  split
  · next heq => cases heq
  · next heq =>
    cases heq
    exact absurd rfl h
  · next heq =>
    cases heq
    rfl
  · next hne heq =>
    cases heq
    exact (hne rfl).elim

/-- What a carriage return becomes is a line feed, alone or for two. -/
theorem joinReturns_head (rest : Text) :
    ∃ joined, joinReturns (.char '\r' :: rest) = .char '\n' :: joined := by
  by_cases h : rest.head? = some (.char '\n')
  · obtain ⟨rest, rfl⟩ := List.head?_eq_some_iff.mp h
    exact ⟨_, rfl⟩
  · exact ⟨_, joinReturns_return h⟩

/-- The written text goes on with every piece that is neither a carriage return nor a
backslash. -/
theorem writtenText_cons (h : p ≠ .char '\r') (hescape : p ≠ .char '\\') :
    writtenText (p :: rest) = p :: writtenText rest := by
  rw [writtenText.eq_def]
  split <;> rename_i heq <;> cases heq
  · exact absurd rfl hescape
  · exact absurd rfl hescape
  · exact absurd rfl h
  · exact absurd rfl h
  · rfl

theorem writtenText_return (h : rest.head? ≠ some (.char '\n')) :
    writtenText (.char '\r' :: rest) = .char '\n' :: writtenText rest := by
  rw [writtenText.eq_def]
  split <;> rename_i heq <;> cases heq
  · exact absurd rfl h
  · rfl
  · next hne _ _ _ => exact (hne rfl).elim

/-- A backslash keeps the piece behind it, unless that is a CR LF. -/
theorem writtenText_escape (h : p = .char '\r' → rest.head? ≠ some (.char '\n')) :
    writtenText (.char '\\' :: p :: rest) = .char '\\' :: p :: writtenText rest := by
  rw [writtenText.eq_def]
  split <;> rename_i heq <;> cases heq
  · exact absurd rfl (h rfl)
  · rfl
  · simp_all

example : writtenText [.char '\\', .char '\r', .char '\r', .char '\n'] =
    [.char '\\', .char '\r', .char '\n'] := rfl

/-- Where no CR is left, the line ends were joined throughout. -/
theorem writtenText_eq_joinReturns (h : .char '\r' ∉ writtenText body) :
    writtenText body = joinReturns body := by
  fun_induction writtenText body with
  | case1 => rfl
  | case2 rest ih =>
    rw [joinReturns_cons (by decide), joinReturns, ih (by simpa using h)]
  | case3 p rest hpair ih =>
    simp only [List.mem_cons, not_or] at h
    rw [joinReturns_cons (by decide), joinReturns_cons (Ne.symm h.2.1), ih h.2.2]
  | case4 rest ih => rw [joinReturns, ih (by simpa using h)]
  | case5 rest hpair ih =>
    have hhead : rest.head? ≠ some (.char '\n') := by
      intro hfeed
      obtain ⟨rest, rfl⟩ := List.head?_eq_some_iff.mp hfeed
      exact hpair _ rfl
    rw [joinReturns_return hhead, ih (by simpa using h)]
  | case6 p rest _ _ _ _ ih =>
    simp only [List.mem_cons, not_or] at h
    rw [joinReturns_cons (Ne.symm h.1), ih h.2]

/-- Where there is no CR, an escape is written as it is. -/
theorem joinLineEnds_eq (h : .char '\r' ∉ r) : joinLineEnds r = r := by
  fun_induction joinLineEnds r with
  | case1 => rfl
  | case2 => simp at h
  | case3 p rest _ ih => rw [ih (fun hmem => h (List.mem_cons_of_mem p hmem))]

/-- The text up to the first CR. -/
theorem exists_return (body : Text) :
    ∃ r z, body = r ++ z ∧ .char '\r' ∉ r ∧ ∀ p ∈ z.head?, p = .char '\r' := by
  induction body with
  | nil => exact ⟨[], [], rfl, nofun, nofun⟩
  | cons p body ih =>
    by_cases hp : p = .char '\r'
    · exact ⟨[], p :: body, rfl, nofun, by simp [hp]⟩
    · obtain ⟨r, z, rfl, hr, hz⟩ := ih
      exact ⟨p :: r, z, rfl, by simp [Ne.symm hp, hr], hz⟩

/-- What a text does not start with, its part at the front does not start with either. -/
theorem head?_left (h : (r ++ rest).head? ≠ some p) : r.head? ≠ some p := by
  intro hhead
  rw [List.head?_append, hhead] at h
  exact h rfl

theorem take?_eq_none {x : Char} (h : c.take? x = none) : c.rest.head? ≠ some (.char x) := by
  intro hhead
  obtain ⟨rest, hrest⟩ := List.head?_eq_some_iff.mp hhead
  simp [Cursor.take?, hrest] at h

/-! ## What an escape takes over -/

/-- A text that the normalization of line ends keeps, whatever follows. -/
structure Steady (e : Text) : Prop where
  plain : .char '\r' ∉ e
  written : ∀ rest, writtenText (e ++ rest) = e ++ writtenText rest

/-- What stands between the cursors is kept. -/
def Cursor.Keeps (c d : Cursor) : Prop :=
  ∃ e, c.rest = e ++ d.rest ∧ Steady e

namespace Steady

theorem nil : Steady [] :=
  ⟨nofun, fun _ => rfl⟩

/-- Two steady texts make one, as the first does not end inside a pair. -/
theorem append (h : Steady e) (h' : Steady e') : Steady (e ++ e') where
  plain := by
    rw [List.mem_append, not_or]
    exact ⟨h.plain, h'.plain⟩
  written rest := by rw [List.append_assoc, h.written, h'.written, List.append_assoc]

theorem piece (h : p ≠ .char '\r') (hescape : p ≠ .char '\\') : Steady [p] where
  plain := by simpa using h.symm
  written rest := writtenText_cons h hescape

/-- A backslash is steady with the piece behind it, and not without. -/
theorem escaped (h : p ≠ .char '\r') : Steady [.char '\\', p] where
  plain := by simpa using h.symm
  written rest := writtenText_escape fun hp => absurd hp h

end Steady

theorem Cursor.Keeps.refl (c : Cursor) : c.Keeps c :=
  ⟨[], rfl, .nil⟩

theorem Cursor.Keeps.trans {c d e : Cursor} (h : c.Keeps d) (k : d.Keeps e) : c.Keeps e := by
  obtain ⟨read, hrest, hread⟩ := h
  obtain ⟨more, krest, hmore⟩ := k
  exact ⟨read ++ more, by rw [hrest, krest, List.append_assoc], hread.append hmore⟩

/-- The readers of an escape pass no carriage return and no backslash, part by part. -/
theorem hexDigit?_keeps (h : c.hexDigit? = some (n, d)) : c.Keeps d := by
  unfold Cursor.hexDigit? at h
  split at h
  · cases h
  · next p rest hrest =>
    obtain ⟨v, hv, hd⟩ := Option.map_eq_some_iff.mp h
    cases hd
    refine ⟨[p], hrest, .piece ?_ ?_⟩
    · rintro rfl
      cases hv
    · rintro rfl
      cases hv

theorem hexRun_keeps {m : Nat} (h : Cursor.hexRun n v c = .ok (m, d)) : c.Keeps d := by
  induction n generalizing v c with
  | zero =>
    cases h
    exact .refl _
  | succ n ih =>
    rw [Cursor.hexRun] at h
    split at h
    · next hdigit => exact (hexDigit?_keeps hdigit).trans (ih h)
    · cases h

theorem bracedCode_keeps (h : bracedCode v text offset = .ok (n, d)) :
    Cursor.Keeps ⟨text, offset⟩ d := by
  induction text generalizing v offset with
  | nil => cases h
  | cons p rest ih =>
    rw [bracedCode] at h
    split at h
    · next digit hdigit =>
      split at h
      · cases h
      · have hp : Cursor.hexDigit? ⟨p :: rest, offset⟩ = some (digit, ⟨rest, offset + p.width⟩) :=
          congrArg (Option.map _) hdigit
        exact (hexDigit?_keeps hp).trans (ih h)
    · split at h
      · next hbrace =>
        cases h
        cases beq_iff_eq.mp hbrace
        exact ⟨[_], rfl, .piece (by decide) (by decide)⟩
      · cases h

theorem lowSurrogate?_keeps (h : c.lowSurrogate? = some (n, d)) : c.Keeps d := by
  unfold Cursor.lowSurrogate? at h
  split at h
  · next rest hrest =>
    split at h
    · next hrun =>
      split at h
      · cases h
        have hopen : c.Keeps ⟨rest, c.offset + 2⟩ :=
          ⟨_, hrest, .escaped (p := .char 'u') (by decide)⟩
        exact hopen.trans (hexRun_keeps hrun)
      · cases h
    · cases h
  · cases h

theorem readUnicodeEscape_keeps {x : Char} (h : readUnicodeEscape c = .ok (x, d)) : c.Keeps d := by
  unfold readUnicodeEscape at h
  split at h
  · next rest hrest =>
    dsimp only at h
    split at h
    · cases h
    · next hdigit =>
      split at h
      · next hcode =>
        cases h
        have hbrace : c.Keeps ⟨rest, c.offset + 1⟩ :=
          ⟨_, hrest, .piece (p := .char '\x7b') (by decide) (by decide)⟩
        exact (hbrace.trans (hexDigit?_keeps hdigit)).trans (bracedCode_keeps hcode)
      · cases h
  · split at h
    · cases h
    · next hrun =>
      have hread := hexRun_keeps hrun
      split at h
      · split at h
        · next hlow =>
          cases h
          exact hread.trans (lowSurrogate?_keeps hlow)
        · cases h
          exact hread
      · cases h
        exact hread

/-- What is read of an escape behind its first character is kept. -/
theorem readEscape_keeps (h : readEscape ⟨p :: rest, offset⟩ = .ok (text, d))
    (hp : p ≠ .char '\r') :
    Cursor.Keeps ⟨rest, offset + p.width⟩ d := by
  unfold readEscape at h
  dsimp only at h
  split at h
  · next hcr => exact absurd (beq_iff_eq.mp hcr) hp
  · split at h
    · cases h
      exact .refl _
    · split at h
      · split at h
        · cases h
        · cases h
          exact .refl _
      · split at h
        · cases h
        · split at h
          · split at h
            · next hrun =>
              cases h
              exact hexRun_keeps hrun
            · cases h
          · split at h
            · split at h
              · next hunicode =>
                cases h
                exact readUnicodeEscape_keeps hunicode
              · cases h
            · split at h <;> cases h <;> exact .refl _

/-- An LF that is escaped stands for nothing. -/
theorem readEscape_feed (rest : Text) :
    readEscape ⟨.char '\n' :: rest, 0⟩ = .ok ([], ⟨rest, 1⟩) := rfl

/-- A CR that is escaped stands for nothing, nor does the LF of a CR LF. -/
theorem readEscape_return (h : readEscape ⟨.char '\r' :: rest, offset⟩ = .ok (text, d)) :
    text = [] ∧ (rest = .char '\n' :: d.rest ∨ rest = d.rest ∧ rest.head? ≠ some (.char '\n')) := by
  have hd : (Cursor.take? ⟨rest, offset + 1⟩ '\n').getD ⟨rest, offset + 1⟩ = d :=
    (Prod.mk.inj (Except.ok.inj h)).2
  refine ⟨(Prod.mk.inj (Except.ok.inj h)).1.symm, ?_⟩
  cases hfeed : Cursor.take? ⟨rest, offset + 1⟩ '\n' with
  | none =>
    rw [hfeed] at hd
    exact .inr ⟨congrArg Cursor.rest hd, take?_eq_none hfeed⟩
  | some after =>
    rw [hfeed] at hd
    exact .inl (hd ▸ (Cursor.take?_eq_some hfeed).1)

/-- An escape that is no CR stands for the same before the text that follows it with its line
ends joined. -/
theorem readEscape_joined {closing : Text}
    (hread : readEscape ⟨p :: e ++ (body ++ closing), offset⟩ = .ok (text, d))
    (hd : d.rest = body ++ closing) (hp : p ≠ .char '\r') (hclosing : Quiet closing) :
    ∃ d', readEscape ⟨p :: e ++ joinReturns body, 0⟩ = .ok (text, d') ∧ d'.rest =
      joinReturns body := by
  obtain ⟨r, z, rfl, hr, hz⟩ := exists_return body
  have hbehind : Quiet (z ++ closing) := by
    cases z with
    | nil => exact hclosing
    | cons q z =>
      cases hz q rfl
      simp [Quiet]
  have hjoined : Quiet (joinReturns z) := by
    cases z with
    | nil => exact .nil
    | cons q z =>
      cases hz q rfl
      obtain ⟨rest, hrest⟩ := joinReturns_head z
      simp [Quiet, hrest]
  have hline (s : Text) : (p :: e).head? = some (.char '\r') → s.head? ≠ some (.char '\n') := by
    intro hhead
    exact absurd (Option.some.inj hhead) hp
  rw [joinReturns_append hr, ← List.append_assoc]
  rw [List.append_assoc] at hd
  rw [List.append_assoc r, ← List.append_assoc] at hread
  exact readEscape_local hread hd (List.cons_ne_nil p e) hbehind hjoined (hline _) (hline _) 0

/-! ## Templates -/

/-- What a template token takes over of a text, after what it had so far. -/
structure Token.Takes (t : Token) (soFar : PartialTemplate) (body : Text) : Prop where
  raw : t.raw = soFar.raw.reverse ++ writtenText body
  value : ∃ value, unescape? (joinReturns body) = some value ∧ t.value =
    soFar.cooked.reverse ++ value

namespace Token.Takes

variable {soFar : PartialTemplate}

/-- At the delimiter nothing more is taken over. -/
theorem nil (hraw : t.raw = soFar.raw.reverse) (hvalue : t.value = soFar.cooked.reverse) :
    t.Takes soFar [] where
  raw := by rw [hraw, writtenText, List.append_nil]
  value := ⟨[], by rw [joinReturns, unescape?], by rw [hvalue, List.append_nil]⟩

/-- One piece is taken over as it is. -/
theorem push (h : t.Takes (soFar.push q) body) (hq : q ≠ .char '\\')
    (hwritten : writtenText text = q :: writtenText body)
    (hjoined : joinReturns text = q :: joinReturns body) : t.Takes soFar text where
  raw := by
    rw [h.raw, hwritten, PartialTemplate.push, List.reverse_cons, List.append_assoc]
    rfl
  value := by
    obtain ⟨value, hvalue, ht⟩ := h.value
    refine ⟨q :: value, ?_, ?_⟩
    · rw [hjoined]
      exact unescape?_plain hq hvalue
    · rw [ht, PartialTemplate.push, List.reverse_cons, List.append_assoc]
      rfl

/-- An escape is taken over: `e` as it is written, and `decoded` for what it stands for. -/
theorem escape (decoded : Text)
    (h : t.Takes ⟨decoded.reverse ++ soFar.cooked, e.reverse ++ soFar.raw⟩ body)
    (hwritten : writtenText text = e ++ writtenText body)
    (hvalue : ∀ value, unescape? (joinReturns body) = some value →
      unescape? (joinReturns text) = some (decoded ++ value)) : t.Takes soFar text where
  raw := by rw [h.raw, hwritten, List.reverse_append, List.reverse_reverse, List.append_assoc]
  value := by
    obtain ⟨value, hbody, ht⟩ := h.value
    refine ⟨decoded ++ value, hvalue value hbody, ?_⟩
    rw [ht, List.reverse_append, List.reverse_reverse, List.append_assoc]

end Token.Takes

/-- The token is what is read of a template from one cursor to another, after what was read so
far: its text, and a delimiter that says whether a substitution follows. -/
def TemplateRead (sub tail : Kind) (soFar : PartialTemplate) (t : Token) (c d : Cursor) : Prop :=
  ∃ body closing, c.rest = body ++ (closing ++ d.rest) ∧
    (t.kind = tail ∧ closing = [.char '\x60'] ∨ t.kind = sub ∧
      closing = [.char '$', .char '\x7b']) ∧
    t.Takes soFar body

namespace TemplateRead

variable {sub tail : Kind} {soFar soFar' : PartialTemplate} {c' : Cursor}

/-- What was read before is taken over as well. -/
theorem more (h : TemplateRead sub tail soFar' t c' d) (hread : c.rest = e ++ c'.rest)
    (htakes : ∀ body closing, c'.rest = body ++ closing → Quiet closing →
      t.Takes soFar' body → t.Takes soFar (e ++ body)) :
    TemplateRead sub tail soFar t c d := by
  obtain ⟨body, closing, hrest, hkind, hbody⟩ := h
  refine ⟨e ++ body, closing, ?_, hkind, htakes body (closing ++ d.rest) hrest ?_ hbody⟩
  · rw [hread, hrest, List.append_assoc]
  · rcases hkind with ⟨-, rfl⟩ | ⟨-, rfl⟩ <;> simp [Quiet]

/-- One piece that stands for itself, in front of a template that was read. -/
theorem plain (h : TemplateRead sub tail (soFar.push p) t c' d) (hread : c.rest = p :: c'.rest)
    (hp : p ≠ .char '\r') (hescape : p ≠ .char '\\') : TemplateRead sub tail soFar t c d := by
  refine h.more (e := [p]) hread ?_
  intro body closing _ _ hbody
  exact hbody.push hescape (writtenText_cons hp hescape) (joinReturns_cons hp)

/-- A CR, with the LF after it if there is one. -/
theorem lineEnd (h : TemplateRead sub tail (soFar.push (.char '\n')) t c' d)
    (hread : c.rest = .char '\r' :: rest) (hnext : rest = .char '\n' :: c'.rest ∨ rest = c'.rest ∧
      rest.head? ≠ some (.char '\n')) :
    TemplateRead sub tail soFar t c d := by
  rcases hnext with rfl | ⟨rfl, hhead⟩
  · refine h.more (e := [.char '\r', .char '\n']) hread ?_
    intro body closing _ _ hbody
    exact hbody.push (by decide) rfl rfl
  · refine h.more (e := [.char '\r']) hread ?_
    intro body closing hrest _ hbody
    have hbare := head?_left (hrest ▸ hhead)
    exact hbody.push (by decide) (writtenText_return hbare) (joinReturns_return hbare)

/-- A CR that a backslash escapes, with the LF after it if there is one. -/
theorem escapedLineEnd
    (h : TemplateRead sub tail ⟨soFar.cooked, (joinLineEnds (c.between c')).reverse ++ soFar.raw⟩
      t c' d)
    (hread : c.rest = .char '\\' :: .char '\r' :: rest)
    (hnext : rest = .char '\n' :: c'.rest ∨ rest = c'.rest ∧ rest.head? ≠ some (.char '\n')) :
    TemplateRead sub tail soFar t c d := by
  rcases hnext with rfl | ⟨rfl, hhead⟩
  · refine h.more (e := [.char '\\', .char '\r', .char '\n']) hread ?_
    intro body closing _ _ hbody
    have hbetween : c.between c' = [.char '\\', .char '\r', .char '\n'] := between_eq hread
    rw [hbetween] at hbody
    refine hbody.escape [] rfl ?_
    intro value hvalue
    exact unescape?_escape (readEscape_feed _) hvalue
  · refine h.more (e := [.char '\\', .char '\r']) hread ?_
    intro body closing hrest _ hbody
    have hbare := head?_left (hrest ▸ hhead)
    have hbetween : c.between c' = [.char '\\', .char '\r'] := between_eq hread
    rw [hbetween] at hbody
    refine hbody.escape [] ?_ ?_
    · exact writtenText_escape fun _ => hbare
    · intro value hvalue
      have hjoined : joinReturns (.char '\\' :: .char '\r' :: body) =
          .char '\\' :: .char '\n' :: joinReturns body := by
        rw [joinReturns_cons (by decide), joinReturns_return hbare]
      rw [List.cons_append, List.cons_append, List.nil_append, hjoined]
      exact unescape?_escape (readEscape_feed _) hvalue

/-- Any other escape. -/
theorem escape {decoded : Text} (h : TemplateRead sub tail
      ⟨decoded.reverse ++ soFar.cooked, (joinLineEnds (c.between c')).reverse ++ soFar.raw⟩ t c' d)
    (hread : c.rest = .char '\\' :: p :: rest) (hp : p ≠ .char '\r')
    (hescape : readEscape ⟨p :: rest, offset⟩ = .ok (decoded, c')) :
    TemplateRead sub tail soFar t c d := by
  obtain ⟨e, he, hsteady⟩ := readEscape_keeps hescape hp
  have hall : Steady (.char '\\' :: p :: e) := (Steady.escaped hp).append hsteady
  have hwhole : c.rest = (.char '\\' :: p :: e) ++ c'.rest := by
    rw [hread]
    exact congrArg _ (congrArg _ he)
  refine h.more hwhole ?_
  intro body closing hrest hclosing hbody
  rw [between_eq hwhole, joinLineEnds_eq hall.plain] at hbody
  refine hbody.escape decoded (hall.written body) ?_
  intro value hvalue
  have hread' : readEscape ⟨p :: e ++ (body ++ closing), offset⟩ = .ok (decoded, c') := by
    rw [← hrest, ← hescape]
    exact congrArg (fun text => readEscape ⟨p :: text, offset⟩) he.symm
  obtain ⟨after, hjoined, hafter⟩ := readEscape_joined hread' hrest hp hclosing
  rw [joinReturns_append hall.plain]
  exact unescape?_escape hjoined (hafter ▸ hvalue)

end TemplateRead

/-- Every template that is read without a fault is read this way, by induction on what is
left of the text. -/
theorem readTemplateFrom_read {sub tail : Kind} {start : Nat} {soFar : PartialTemplate} {c : Cursor}
    (h : readTemplateFrom sub tail start soFar c = (t, d)) (ht : t.fault = none) :
    TemplateRead sub tail soFar t c d := by
  -- By recursion on what is left of the text: one case for each way the reader goes on.
  rw [readTemplateFrom] at h
  dsimp only at h
  split at h
  · cases h
    cases ht
  · next p rest hrest =>
    have hpassed := Cursor.passes_piece hrest
    split at h
    · next hquote =>
      cases beq_iff_eq.mp hquote
      cases h
      exact ⟨[], _, hrest, .inl ⟨rfl, rfl⟩, .nil rfl rfl⟩
    · split at h
      · next hdollar =>
        cases beq_iff_eq.mp hdollar
        split at h
        · next after hbrace =>
          obtain ⟨rfl, rfl⟩ := Prod.mk.inj h
          refine ⟨[], _, ?_, .inr ⟨rfl, rfl⟩, ?_⟩
          · rw [hrest]
            exact congrArg _ (Cursor.take?_eq_some hbrace).1
          · exact .nil rfl rfl
        · exact (readTemplateFrom_read h ht).plain hrest (by decide) (by decide)
      · split at h
        -- A carriage return is one line feed in the value, with the line feed behind it or alone.
        · next hreturn =>
          cases beq_iff_eq.mp hreturn
          split at h
          · next after hfeed =>
            have hboth := hpassed.then (Cursor.take?_passes hfeed).reaches
            exact (readTemplateFrom_read h ht).lineEnd hrest (.inl (Cursor.take?_eq_some hfeed).1)
          · next hfeed =>
            exact (readTemplateFrom_read h ht).lineEnd hrest (.inr ⟨rfl, take?_eq_none hfeed⟩)
        · next hreturn =>
          split at h
          · next hbackslash =>
            cases beq_iff_eq.mp hbackslash
            split at h
            · next text after hescape =>
              have hboth := hpassed.then (readEscape_reaches hescape)
              have hafter := readTemplateFrom_read h ht
              cases rest with
              | nil => cases hescape
              | cons p rest =>
                -- Behind a backslash a carriage return is kept in the raw text, unlike elsewhere.
                by_cases hp : p = .char '\r'
                · subst hp
                  obtain ⟨rfl, hnext⟩ := readEscape_return hescape
                  exact hafter.escapedLineEnd hrest hnext
                · exact hafter.escape hrest hp hescape
            · cases h
              cases ht
          · next hbackslash =>
            exact (readTemplateFrom_read h ht).plain hrest (by simpa using hreturn)
              (by simpa using hbackslash)
termination_by c.rest.length
decreasing_by all_goals first | exact hboth.shorter | exact hpassed.shorter

/-- What a part of a template holds that starts with `opening`: between the delimiters stands a
text, which the token carries as written and decoded. -/
def HoldsTemplate (opening : Char) (sub tail : Kind) (t : Token) (c d : Cursor) : Prop :=
  ∃ body closing, c.rest = .char opening :: (body ++ (closing ++ d.rest)) ∧
    (t.kind = tail ∧ closing = [.char '\x60'] ∨ t.kind = sub ∧
      closing = [.char '$', .char '\x7b']) ∧
    t.raw = writtenText body ∧ unescape? (joinReturns body) = some t.value

/-- Where the text as written holds no CR, the token stands for what that text stands for. -/
theorem HoldsTemplate.unescape?_raw {opening : Char} {sub tail : Kind}
    (h : HoldsTemplate opening sub tail t c d) (hraw : .char '\r' ∉ t.raw) :
    unescape? t.raw = some t.value := by
  obtain ⟨body, closing, -, -, hwritten, hvalue⟩ := h
  rw [hwritten] at hraw ⊢
  rw [writtenText_eq_joinReturns hraw]
  exact hvalue

private theorem holdsTemplate {opening : Char} {sub tail : Kind} {start : Nat}
    (h : ((c.take? opening).map fun after => readTemplateFrom sub tail start ⟨[], []⟩ after) =
      some (t, d))
    (ht : t.fault = none) : HoldsTemplate opening sub tail t c d := by
  obtain ⟨after, hopening, hread⟩ := Option.map_eq_some_iff.mp h
  obtain ⟨body, closing, hrest, hkind, hbody⟩ := readTemplateFrom_read hread ht
  obtain ⟨value, hvalue, hcooked⟩ := hbody.value
  refine ⟨body, closing, ?_, hkind, hbody.raw, ?_⟩
  · rw [(Cursor.take?_eq_some hopening).1, hrest]
  · rw [hvalue, hcooked]
    rfl

/-- A whole template, or its head. -/
theorem readTemplate_texts (h : readTemplate c = some (t, d)) (ht : t.fault = none) :
    HoldsTemplate '\x60' .templateHead .template t c d :=
  holdsTemplate h ht

/-- What follows a substitution. -/
theorem readTemplateContinuation_texts (h : readTemplateContinuation c = some (t, d))
    (ht : t.fault = none) :
    HoldsTemplate '\x7d' .templateMiddle .templateTail t c d :=
  holdsTemplate h ht

end EcmaStack
