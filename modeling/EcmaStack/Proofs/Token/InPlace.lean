import EcmaStack.Proofs.Token.Tiling

/-!
# Readers in place

A reader answers a token and the cursor behind it, or `none`, and then no cursor at all. A
scanner has one cursor, which its readers move as they go: a reader of names has passed a `#`
before it sees that no name follows, and a reader of regular expressions a slash before it sees
a comment. Where a token turns out not to start, what was moved stays moved unless the reader
puts it back. The two do the same (`Reader.inPlace_eq`).

So every reader matches or stays (`Reader.matches_or_stays`), at any byte of a source, even
inside a character. A reader that matches moves ahead and no further than the end of the source.
Its token covers what was read, or it is a fault, which says what is wrong and blames a range of
the source from that byte on. -/

namespace EcmaStack

open Text Cursor

/-- A source, and the position of the one cursor that moves through it. -/
structure Scanner where
  source : List UInt8
  position : Nat

namespace Scanner

/-- What is left to read: the bytes from the position on, read as UTF-8. -/
def cursor (s : Scanner) : Cursor :=
  .ofBytes s.source s.position

/-- Put the cursor at a position, ahead or back. -/
def seek (s : Scanner) (position : Nat) : Scanner :=
  { s with position }

/-- Move over the next piece, if there is one. -/
def skip (s : Scanner) : Scanner :=
  match s.cursor.next? with
  | some (_, d) => s.seek d.offset
  | none => s

/-- Move over a character, if it comes next. -/
def accept (s : Scanner) (x : Char) : Bool × Scanner :=
  match s.cursor.take? x with
  | some d => (true, s.seek d.offset)
  | none => (false, s)

/-- Move over pieces while their characters pass a test. -/
def skipWhile (s : Scanner) (test : Char → Bool) : Scanner :=
  s.seek (s.cursor.skipWhile test).offset

/-- Move to where reading goes on, and answer a token. -/
def answer (s : Scanner) (x : Token × Cursor) : Option Token × Scanner :=
  (some x.1, s.seek x.2.offset)

/-! ## The readers -/

/-- A run of white space. That there was none is seen when the run has ended. -/
def whitespace (s : Scanner) : Option Token × Scanner :=
  let t := s.skipWhile isBlank
  if t.position == s.position then (none, t)
  else (some { kind := .whitespace, start := s.position, stop := t.position }, t)

/-- One line end. -/
def lineTerminator (s : Scanner) : Option Token × Scanner :=
  match s.cursor.peek? with
  | none => (none, s)
  | some x =>
    if isLineTerminator x then
      let t := if x == '\r' then (s.skip.accept '\n').2 else s.skip
      (some { kind := .lineTerminator, start := s.position, stop := t.position }, t)
    else (none, s)

/-- A comment, up to its end or the end of the source. -/
def comment (s : Scanner) : Option Token × Scanner :=
  let inner := s.seek (s.position + 2)
  if s.cursor.startsWith ['/', '/'] then
    let t := inner.skipWhile fun x => !isLineTerminator x
    (some { kind := .comment, start := s.position, stop := t.position }, t)
  else if s.cursor.startsWith ['/', '*'] then
    match closeComment inner.cursor.rest inner.position with
    | .ok d => inner.answer ({ kind := .blockComment, start := s.position, stop := d.offset }, d)
    | .error d => inner.answer (.ofFault .unterminatedComment s.position d.offset, d)
  else (none, s)

/-- The interpreter line. -/
def hashbang (s : Scanner) : Option Token × Scanner :=
  if s.position == 0 && s.cursor.startsWith ['#', '!'] then
    let inner := s.seek 2
    let t := inner.skipWhile fun x => !isLineTerminator x
    (some { kind := .hashbang, start := s.position, stop := t.position,
            value := inner.cursor.between t.cursor }, t)
  else (none, s)

/-- A name. Without one the cursor goes back, before a `#` that was read. -/
def identifier (s : Scanner) : Option Token × Scanner :=
  let (hidden, t) := s.accept '#'
  match readNameFrom ⟨[], false⟩ t.cursor with
  | .error r => t.answer r.token
  | .ok (name, d) =>
    let u := t.seek d.offset
    if name.chars.isEmpty then (none, u.seek s.position)
    else
      let chars := name.chars.reverse
      let kind := if hidden then .privateName else nameKind name.escaped (String.ofList chars)
      (some { kind, start := s.position, stop := u.position, escaped := name.escaped,
              value := chars.map .char }, u)

/-- A numeric literal, with the character that may not follow it. -/
def number (s : Scanner) : Option Token × Scanner :=
  if numberStarts s.cursor then
    match readNumberBody s.cursor with
    | .error r => s.answer r.token
    | .ok (kind, d) =>
      let t := s.seek d.offset
      if t.cursor.identifierFollows then
        (some (.ofFault .invalidNumberEnd s.position t.skip.position), t.skip)
      else (some { kind, start := s.position, stop := t.position }, t)
  else (none, s)

/-- A string literal. -/
def string (s : Scanner) : Option Token × Scanner :=
  match s.cursor.peek? with
  | none => (none, s)
  | some quote =>
    if quote == '\x22' || quote == '\x27' then
      s.skip.answer (readStringFrom quote s.position [] false s.skip.cursor)
    else (none, s)

/-- A part of a template that starts with a given character. -/
def template (opening : Char) (sub tail : Kind) (s : Scanner) : Option Token × Scanner :=
  match s.accept opening with
  | (true, t) => t.answer (readTemplateFrom sub tail s.position ⟨[], []⟩ t.cursor)
  | (false, t) => (none, t)

/-- A regular expression literal. Without a slash, or before a comment, the cursor goes back. -/
def regexp (s : Scanner) : Option Token × Scanner :=
  let (slash, t) := s.accept '/'
  if !slash || t.cursor.startsWith ['/'] || t.cursor.startsWith ['*'] then (none, t.seek s.position)
  else match readBodyFrom ⟨false, false⟩ [] t.cursor.rest t.position with
    | .error d => t.answer (.ofFault .unterminatedRegExp s.position d.offset, d)
    | .ok (body, d) =>
      let u := t.seek d.offset
      match readFlagsFrom [] u.cursor.rest u.position with
      | .error r => u.answer r.token
      | .ok (flags, after) =>
        u.answer ({ kind := .regexp, start := s.position, stop := after.offset,
                    value := body.reverse,
                    raw := flags.reverse.map .char }, after)

/-- The longest punctuator. -/
def punctuator (s : Scanner) : Option Token × Scanner :=
  match Punct.longestMatch? ((s.cursor.rest.take 4).map Piece.scalar) with
  | none => (none, s)
  | some (p, n) =>
    let (p, n) : Punct × Nat :=
      if p == .optionalDot && Cursor.at? ⟨s.cursor.rest.drop 2, 0⟩ isDecimalDigit then (.question,
        1) else (p, n)
    (some { kind := .punct p, start := s.position, stop := s.position + n },
      s.seek (s.position + n))

end Scanner

/-- The readers. -/
inductive Reader where
  | whitespace | lineTerminator | comment | hashbang | identifier | number | string
  | template | templateContinuation | regexp | punctuator

namespace Reader

/-- What a reader answers at a cursor. -/
def read : Reader → Cursor → Reading
  | whitespace => readWhitespace
  | lineTerminator => readLineTerminator
  | comment => readComment
  | hashbang => readHashbang
  | identifier => readIdentifier
  | number => readNumber
  | string => readString
  | template => readTemplate
  | templateContinuation => readTemplateContinuation
  | regexp => readRegExp
  | punctuator => readPunctuator

/-- What a reader answers in a scanner, and where it leaves the cursor. -/
def inPlace : Reader → Scanner → Option Token × Scanner
  | whitespace => Scanner.whitespace
  | lineTerminator => Scanner.lineTerminator
  | comment => Scanner.comment
  | hashbang => Scanner.hashbang
  | identifier => Scanner.identifier
  | number => Scanner.number
  | string => Scanner.string
  | template => Scanner.template '\x60' .templateHead .template
  | templateContinuation => Scanner.template '\x7d' .templateMiddle .templateTail
  | regexp => Scanner.regexp
  | punctuator => Scanner.punctuator

end Reader

/-! ## Characters at a cursor -/

section

variable {c : Cursor} {p : Piece} {x y : Char}

/-- A piece has the value of a character, other than the one that stands for stray bytes,
only if it is that character. -/
theorem scalar_beq (hx : x ≠ replacement) : (p.scalar == x) = (p == .char x) := by
  rw [Bool.eq_iff_iff, beq_iff_eq, beq_iff_eq]
  exact ⟨fun h => Piece.eq_char h hx, fun h => h ▸ rfl⟩

/-- To start with two characters is to have them at the front, in their order. -/
theorem startsWith_pair :
    c.startsWith [x, y] = true ↔ ∃ rest, c.rest = .char x :: .char y :: rest := by
  rw [startsWith, List.isPrefixOf_iff_prefix]
  exact ⟨fun ⟨rest, h⟩ => ⟨rest, h.symm⟩, fun ⟨rest, h⟩ => ⟨rest, h.symm⟩⟩

theorem startsWith_singleton (hx : x ≠ replacement) : c.startsWith [x] = c.at? (· == x) := by
  unfold startsWith at? peek?
  cases c.rest with
  | nil => rfl
  | cons p rest =>
    show (Piece.char x == p && true) = (p.scalar == x)
    rw [scalar_beq hx, Bool.and_true, BEq.comm]

end

/-! ## A reader in place and at a cursor -/

namespace Scanner

variable {s : Scanner} {d : Cursor} {x y : Char} {p : Piece} {rest : Text}

/-- The cursor stands in the source, or at its end. -/
def Within (s : Scanner) : Prop :=
  s.position ≤ s.source.length

/-- The scanner that takes over what is answered at its cursor: behind the token, or else where
it was. -/
def after (s : Scanner) : Reading → Option Token × Scanner
  | some x => s.answer x
  | none => (none, s)

/-- Only the last move counts. -/
theorem seek_seek {m n : Nat} : (s.seek m).seek n = s.seek n :=
  rfl

/-- The position alone puts the cursor where reading has come to. -/
theorem cursor_seek (hs : s.Within) (h : s.cursor.Reaches d) : (s.seek d.offset).cursor = d :=
  (ofBytes_reaches hs h).1.symm

/-- Skipping moves behind the next piece, and stays at the end. -/
theorem skip_eq : s.skip = s.seek ((s.cursor.next?.map (·.2)).getD s.cursor).offset := by
  unfold skip
  cases s.cursor.next? <;> rfl

theorem skip_piece (h : s.cursor.rest = p :: rest) : s.skip = s.seek (s.position + p.width) := by
  unfold skip next?
  rw [h]
  rfl

/-- Within the source, what is left after a skip is what is left of the text without its
first piece. -/
theorem cursor_skip (hs : s.Within) (h : s.cursor.rest = p :: rest) :
    s.skip.cursor = ⟨rest, s.position + p.width⟩ := by
  rw [skip_piece h]
  exact cursor_seek hs (passes_piece h).reaches

theorem cursor_pair (hs : s.Within) (h : s.cursor.rest = .char x :: .char y :: rest)
    (hx : x.utf8Size = 1) (hy : y.utf8Size = 1) :
    (s.seek (s.position + 2)).cursor = ⟨rest, s.position + 2⟩ :=
  cursor_seek hs (passes_chars h hx hy).reaches

/-- A character that is there is passed, -/
theorem accept_eq_some (h : s.cursor.take? x = some d) : s.accept x = (true, s.seek d.offset) := by
  rw [accept, h]

/-- and one that is not leaves the scanner where it is. -/
theorem accept_eq_none (h : s.cursor.take? x = none) : s.accept x = (false, s) := by
  rw [accept, h]

theorem accept_snd : (s.accept x).2 = s.seek ((s.cursor.take? x).getD s.cursor).offset := by
  cases h : s.cursor.take? x with
  | none => rw [accept_eq_none h]; rfl
  | some d => rw [accept_eq_some h]; rfl

/-- The readers in place, one by one: each does what its counterpart over a text answers,
and is back where it started if that answers nothing. -/
theorem whitespace_eq : whitespace s = s.after (readWhitespace s.cursor) := by
  unfold whitespace readWhitespace
  dsimp only
  have hstart : s.cursor.offset = s.position := rfl
  have hstop : (s.skipWhile isBlank).position = (s.cursor.skipWhile isBlank).offset := rfl
  rw [hstart, hstop]
  split
  · next hsame =>
    rw [skipWhile, beq_iff_eq.mp hsame]
    rfl
  · rfl

theorem lineTerminator_eq (hs : s.Within) :
    lineTerminator s = s.after (readLineTerminator s.cursor) := by
  unfold lineTerminator readLineTerminator peek?
  cases hrest : s.cursor.rest with
  | nil => rfl
  | cons p rest =>
    dsimp only [List.head?_cons, Option.map_some]
    split
    · rw [scalar_beq (by decide), accept_snd, cursor_skip hs hrest, skip_piece hrest]
      split <;> rfl
    · rfl

theorem comment_eq (hs : s.Within) : comment s = s.after (readComment s.cursor) := by
  unfold comment
  dsimp only
  split
  · next h =>
    obtain ⟨rest, hrest⟩ := startsWith_pair.mp h
    rw [skipWhile, cursor_pair hs hrest rfl rfl]
    simp only [readComment, hrest]
    rfl
  · next hline =>
    split
    · next h =>
      obtain ⟨rest, hrest⟩ := startsWith_pair.mp h
      rw [cursor_pair hs hrest rfl rfl]
      simp only [readComment, hrest]
      have hstart : s.cursor.offset = s.position := rfl
      have hposition : (s.seek (s.position + 2)).position = s.position + 2 := rfl
      rw [hstart, hposition]
      cases closeComment rest (s.position + 2) with
      | ok d => rfl
      | error d => rfl
    · next hblock =>
      have hnone : readComment s.cursor = none := by
        unfold readComment
        split
        · next hrest => exact absurd (startsWith_pair.mpr ⟨_, hrest⟩) hline
        · next hrest => exact absurd (startsWith_pair.mpr ⟨_, hrest⟩) hblock
        · rfl
      rw [hnone]
      rfl

theorem hashbang_eq (hs : s.Within) : hashbang s = s.after (readHashbang s.cursor) := by
  unfold hashbang
  split
  · next h =>
    obtain ⟨hzero, hopen⟩ := Bool.and_eq_true_iff.mp h
    have hzero : s.position = 0 := beq_iff_eq.mp hzero
    obtain ⟨rest, hrest⟩ := startsWith_pair.mp hopen
    have hpassed := (passes_chars hrest rfl rfl).reaches
    have hstart : s.cursor.offset = 0 := hzero
    rw [hstart] at hpassed
    have hinner : (s.seek 2).cursor = ⟨rest, 2⟩ := cursor_seek hs hpassed
    have hline : (s.seek (skipLine ⟨rest, 2⟩).offset).cursor = skipLine ⟨rest, 2⟩ :=
      cursor_seek hs (hpassed.trans (skipWhile_reaches _))
    have hskip : (s.seek 2).skipWhile (fun x => !isLineTerminator x) =
        s.seek (skipLine ⟨rest, 2⟩).offset := by
      rw [skipWhile, hinner]
      rfl
    have hread : readHashbang s.cursor = some
        ({ kind := .hashbang, start := 0, stop := (skipLine ⟨rest, 2⟩).offset,
           value := Cursor.between ⟨rest, 2⟩ (skipLine ⟨rest, 2⟩) }, skipLine ⟨rest, 2⟩) := by
      unfold readHashbang
      rw [hstart, hrest]
      rfl
    rw [hread]
    dsimp only
    rw [hskip, hinner, hline, hzero]
    rfl
  · next h =>
    have hnone : readHashbang s.cursor = none := by
      unfold readHashbang
      split
      · next hoffset hrest =>
        have hzero : s.position = 0 := hoffset
        exact absurd (by rw [hzero, startsWith_pair.mpr ⟨_, hrest⟩]; rfl) h
      · rfl
    rw [hnone]
    rfl

/-- A name may stop inside an escape that is broken; the scanner is then behind the
letters that were looked at, as the fault says. -/
theorem identifier_eq (hs : s.Within) : identifier s = s.after (readIdentifier s.cursor) := by
  -- The name is read behind a hash, or else where the reader started.
  have hname (hidden : Bool) (c : Cursor) (hread : s.cursor.Reaches c)
      (h : s.accept '#' = (hidden, s.seek c.offset))
      (k : readIdentifier s.cursor = match readNameFrom ⟨[], false⟩ c with
        | .error r => some r.token
        | .ok (name, d) => if name.chars.isEmpty then none
          else some
            ({ kind :=
                 if hidden then .privateName
                 else nameKind name.escaped (String.ofList name.chars.reverse),
               start := s.position, stop := d.offset, escaped := name.escaped,
               value := name.chars.reverse.map .char }, d)) :
      identifier s = s.after (readIdentifier s.cursor) := by
    rw [identifier, k, h]
    simp only [cursor_seek hs hread]
    cases readNameFrom ⟨[], false⟩ c with
    | error r => rfl
    | ok x =>
      obtain ⟨name, d⟩ := x
      dsimp only
      split <;> rfl
  cases hhash : s.cursor.take? '#' with
  | none =>
    refine hname false s.cursor (.refl _) (accept_eq_none hhash) ?_
    unfold readIdentifier
    rw [hhash]
    rfl
  | some body =>
    refine hname true body (take?_passes hhash).reaches (accept_eq_some hhash) ?_
    unfold readIdentifier
    rw [hhash]
    rfl

theorem number_eq (hs : s.Within) : number s = s.after (readNumber s.cursor) := by
  unfold number readNumber
  split
  · next hstarts =>
    cases hbody : readNumberBody s.cursor with
    | error r => rfl
    | ok x =>
      obtain ⟨kind, d⟩ := x
      have hd := cursor_seek hs (readNumberBody_passes hstarts hbody).reaches
      dsimp only
      rw [hd, skip_eq, hd]
      split <;> rfl
  · rfl

theorem string_eq (hs : s.Within) : string s = s.after (readString s.cursor) := by
  unfold string readString peek?
  cases hrest : s.cursor.rest with
  | nil => rfl
  | cons p rest =>
    cases p with
    | stray b => rfl
    | char q =>
      dsimp only [List.head?_cons, Option.map_some, Piece.scalar]
      split
      · next hq =>
        have hone : (Piece.char q).width = 1 := by
          rcases Bool.or_eq_true_iff.mp hq with hq | hq <;> cases beq_iff_eq.mp hq <;> rfl
        rw [cursor_skip hs hrest, skip_piece hrest, hone]
        rfl
      · rfl

/-- The two readers of templates differ in the character that opens them. -/
theorem template_eq {opening : Char} {sub tail : Kind} (hs : s.Within) :
    template opening sub tail s =
    s.after ((s.cursor.take? opening).map fun d => readTemplateFrom sub tail s.position ⟨[], []⟩
      d) := by
  unfold template
  cases hopening : s.cursor.take? opening with
  | none =>
    rw [accept_eq_none hopening]
    rfl
  | some d =>
    rw [accept_eq_some hopening]
    dsimp only
    rw [cursor_seek hs (take?_passes hopening).reaches]
    rfl

theorem regexp_eq (hs : s.Within) : regexp s = s.after (readRegExp s.cursor) := by
  unfold regexp readRegExp
  cases hslash : s.cursor.take? '/' with
  | none =>
    rw [accept_eq_none hslash]
    rfl
  | some inner =>
    rw [accept_eq_some hslash]
    have hopen := (take?_passes hslash).reaches
    have hcomment : (inner.startsWith ['/'] || inner.startsWith ['*']) = inner.at? fun x =>
        x == '/' || x == '*' := by
      rw [startsWith_singleton (by decide), startsWith_singleton (by decide)]
      unfold at?
      cases inner.peek? <;> rfl
    dsimp only
    rw [cursor_seek hs hopen, Bool.not_true, Bool.false_or, hcomment]
    split
    · rfl
    · have hposition : (s.seek inner.offset).position = inner.offset := rfl
      rw [hposition]
      cases hbody : readBodyFrom ⟨false, false⟩ [] inner.rest inner.offset with
      | error d => rfl
      | ok x =>
        obtain ⟨body, d⟩ := x
        have hd : (s.seek d.offset).cursor = d :=
          cursor_seek hs (hopen.trans (readBodyFrom_reaches hbody))
        have hposition : (s.seek d.offset).position = d.offset := rfl
        dsimp only
        rw [seek_seek, hd, hposition]
        cases readFlagsFrom [] d.rest d.offset with
        | error r => rfl
        | ok x => rfl

theorem punctuator_eq : punctuator s = s.after (readPunctuator s.cursor) := by
  unfold punctuator readPunctuator
  cases Punct.longestMatch? ((s.cursor.rest.take 4).map Piece.scalar) with
  | none => rfl
  | some x => rfl

end Scanner

namespace Reader

variable {c : Cursor} {x : Token × Cursor}

/-- A reader does the same in place and at a cursor. -/
theorem inPlace_eq (r : Reader) {s : Scanner} (hs : s.Within) :
    r.inPlace s = s.after (r.read s.cursor) := by
  cases r with
  | whitespace => exact Scanner.whitespace_eq
  | lineTerminator => exact Scanner.lineTerminator_eq hs
  | comment => exact Scanner.comment_eq hs
  | hashbang => exact Scanner.hashbang_eq hs
  | identifier => exact Scanner.identifier_eq hs
  | number => exact Scanner.number_eq hs
  | string => exact Scanner.string_eq hs
  | template => exact Scanner.template_eq hs
  | templateContinuation => exact Scanner.template_eq hs
  | regexp => exact Scanner.regexp_eq hs
  | punctuator => exact Scanner.punctuator_eq

/-- What any reader gives starts where the reader did and stops behind it. -/
theorem read_gives (r : Reader) (h : r.read c = some x) : c.Gives x := by
  cases r with
  | whitespace => exact readWhitespace_gives h
  | lineTerminator => exact readLineTerminator_gives h
  | comment => exact readComment_gives h
  | hashbang => exact readHashbang_gives h
  | identifier => exact readIdentifier_gives h
  | number => exact readNumber_gives h
  | string => exact readString_gives h
  | template => exact readTemplate_gives h
  | templateContinuation => exact readTemplateContinuation_gives h
  | regexp => exact readRegExp_gives h
  | punctuator => exact readPunctuator_gives h

theorem read_advances (r : Reader) (h : r.read c = some x) : c.Advances x := by
  cases r with
  | whitespace => exact readWhitespace_advances h
  | lineTerminator => exact readLineTerminator_advances h
  | comment => exact readComment_advances h
  | hashbang => exact readHashbang_advances h
  | identifier => exact readIdentifier_advances h
  | number => exact readNumber_advances h
  | string => exact readString_advances h
  | template => exact readTemplate_advances h
  | templateContinuation => exact readTemplateContinuation_advances h
  | regexp => exact readRegExp_advances h
  | punctuator => exact readPunctuator_advances h

/-! ## Matching or staying -/

/-- What a reader owes that matches at a byte of a source, when it leaves the cursor at another
byte. -/
structure Match (source : List UInt8) (i : Nat) (t : Token) (j : Nat) : Prop where
  ahead : i < j
  within : j ≤ source.length
  covers : t.kind ≠ .fault → t.start = i ∧ t.stop = j
  /-- A fault has a cause and a range, which lies in the source. -/
  blames : t.kind = .fault → t.fault.isSome = true ∧ i ≤ t.start ∧ t.start ≤ t.stop ∧ t.stop ≤
    source.length

/-- The scanner's limit is the length of the source, from wherever it starts. -/
theorem limit_ofBytes {source : List UInt8} {i : Nat} (hi : i ≤ source.length) :
    (ofBytes source i).limit = source.length := by
  show i + width (Text.decode (source.drop i)) = source.length
  rw [width_decode, List.length_drop]
  omega

/-- A token that is read is a match, and the cursor behind it is the one at its position. -/
theorem read_match (r : Reader) {source : List UInt8} {i : Nat} (hi : i ≤ source.length) {t : Token}
    {d : Cursor} (h : r.read (.ofBytes source i) = some (t, d)) :
    d = .ofBytes source d.offset ∧ Match source i t d.offset := by
  have hadvances := r.read_advances h
  obtain ⟨hd, -, hwithin⟩ := ofBytes_reaches hi hadvances.passes.reaches
  refine ⟨hd, hadvances.passes.offset_lt, hwithin, fun hkind => ?_, fun hkind => ?_⟩
  · rcases hadvances.sound with ⟨-, hfine⟩ | ⟨hfault, -⟩
    · have hread := r.read_gives h hfine
      exact ⟨hread.start, hread.stop⟩
    · exact absurd hfault hkind
  · rcases hadvances.sound with ⟨hfine, -⟩ | ⟨-, hcause, hcovers⟩
    · exact absurd hkind hfine
    · exact ⟨hcause, hcovers.starts, hcovers.ordered, limit_ofBytes hi ▸ hcovers.stops⟩

/-- At any byte of a source, a reader in place leaves the scanner as it was, and answers no
token, or it answers a token that matches and moves the cursor behind it; and so it is answered
at the cursor. -/
theorem matches_or_stays (r : Reader) {source : List UInt8} {i : Nat} (hi : i ≤ source.length) :
    (∀ s, r.inPlace ⟨source, i⟩ = (none, s) → s = ⟨source, i⟩ ∧ r.read (.ofBytes source i) = none) ∧
      ∀ t s, r.inPlace ⟨source, i⟩ = (some t, s) → s.source = source ∧
        r.read (.ofBytes source i) = some (t, .ofBytes source s.position) ∧
        Match source i t s.position := by
  have heq : r.inPlace ⟨source, i⟩ = Scanner.after ⟨source, i⟩ (r.read (.ofBytes source i)) :=
    r.inPlace_eq hi
  rw [heq]
  cases hread : r.read (.ofBytes source i) with
  | none =>
    refine ⟨fun s h => ?_, fun t s h => ?_⟩
    · cases h
      exact ⟨rfl, rfl⟩
    · cases h
  | some x =>
    obtain ⟨u, d⟩ := x
    refine ⟨fun s h => ?_, fun t s h => ?_⟩
    · cases h
    · cases h
      obtain ⟨hd, hmatch⟩ := r.read_match hi hread
      exact ⟨rfl, congrArg (fun c => some (u, c)) hd, hmatch⟩

/-- A letter of two bytes, the beginning of a comment, and a private name that ends inside an
escape. -/
def openEscape : List UInt8 :=
  utf8Bytes "é/*#\\u\x7b1"

/-- No regular expression starts at the comment, and the slash is given back. The name is a
fault: its escape is to blame. -/
theorem matches_or_stays_openEscape : 2 ≤ openEscape.length ∧ 4 ≤ openEscape.length ∧
    Reader.regexp.inPlace ⟨openEscape, 2⟩ = (none, ⟨openEscape, 2⟩) ∧
    ∃ t, Reader.identifier.inPlace ⟨openEscape, 4⟩ = (some t, ⟨openEscape, 9⟩) ∧ t.kind = .fault ∧
    t.start = 5 ∧
      Match openEscape 4 t 9 := by
  have hslash : 2 ≤ openEscape.length := by decide
  have hhash : 4 ≤ openEscape.length := by decide
  have hnone : (Reader.regexp.inPlace ⟨openEscape, 2⟩).1 = none := by
    rw [← Option.isNone_iff_eq_none]
    decide +kernel
  have hname : (Reader.identifier.inPlace ⟨openEscape, 4⟩).1.map (fun t => (t.kind, t.start)) =
      some (.fault, 5) ∧
      (Reader.identifier.inPlace ⟨openEscape, 4⟩).2.position = 9 := by decide +kernel
  obtain ⟨t, ht, hfacts⟩ := Option.map_eq_some_iff.mp hname.1
  obtain ⟨hstays, -⟩ := (matches_or_stays .regexp hslash).1 _ (Prod.ext hnone rfl)
  obtain ⟨hsource, -, hmatch⟩ := (matches_or_stays .identifier hhash).2 t _ (Prod.ext ht rfl)
  have hplace : (Reader.identifier.inPlace ⟨openEscape, 4⟩).2 = ⟨openEscape, 9⟩ :=
    congr (congrArg Scanner.mk hsource) hname.2
  rw [hname.2] at hmatch
  exact ⟨hslash, hhash, Prod.ext hnone hstays, t, Prod.ext ht hplace, congrArg Prod.fst hfacts,
    congrArg Prod.snd hfacts, hmatch⟩

end Reader

end EcmaStack
