import EcmaStack.Token.Basic

/-!
# White space, line ends and comments

What may stand between tokens. `Cursor.skipTrivia` reads it all and tells whether a line ended
in it, directly or inside a block comment.
-/

namespace EcmaStack

open Text

/-- A run of white space that ends no line. -/
def readWhitespace (c : Cursor) : Reading :=
  let d := c.skipWhile isBlank
  if d.offset == c.offset then none
  else some ({ kind := .whitespace, start := c.offset, stop := d.offset }, d)

/-- One line end; CR LF counts as one. -/
def readLineTerminator (c : Cursor) : Reading :=
  match c.rest with
  | [] => none
  | p :: rest =>
    if isLineTerminator p.scalar then
      let d : Cursor := ⟨rest, c.offset + p.width⟩
      let d := if p == .char '\r' then (d.take? '\n').getD d else d
      some ({ kind := .lineTerminator, start := c.offset, stop := d.offset }, d)
    else none

/-- Skip to the next line end. -/
def Cursor.skipLine (c : Cursor) : Cursor :=
  c.skipWhile fun x => !isLineTerminator x

/-- Skip past the end of a block comment; on the left, the cursor at the end of the source. -/
def closeComment : Text → Nat → Except Cursor Cursor
  | [], offset => .error ⟨[], offset⟩
  | .char '*' :: .char '/' :: rest, offset => .ok ⟨rest, offset + 2⟩
  | p :: rest, offset => closeComment rest (offset + p.width)

/-- A comment. The line end after a line comment is not part of it. -/
def readComment (c : Cursor) : Reading :=
  match c.rest with
  | .char '/' :: .char '/' :: rest =>
    let d := Cursor.skipLine ⟨rest, c.offset + 2⟩
    some ({ kind := .comment, start := c.offset, stop := d.offset }, d)
  | .char '/' :: .char '*' :: rest =>
    match closeComment rest (c.offset + 2) with
    | .ok d => some ({ kind := .blockComment, start := c.offset, stop := d.offset }, d)
    | .error d => some (.ofFault .unterminatedComment c.offset d.offset, d)
  | _ => none

/-- The interpreter line. It can only stand at the very start of a source. -/
def readHashbang (c : Cursor) : Reading :=
  match c.offset, c.rest with
  | 0, .char '#' :: .char '!' :: rest =>
    let inner : Cursor := ⟨rest, 2⟩
    let d := inner.skipLine
    some ({ kind := .hashbang, start := 0, stop := d.offset, value := inner.between d }, d)
  | _, _ => none

theorem closeComment_length {text : Text} {offset : Nat} {d : Cursor} :
    (closeComment text offset = .ok d → d.rest.length ≤ text.length) ∧
    (closeComment text offset = .error d → d.rest.length ≤ text.length) := by
  fun_induction closeComment text offset with
  | case1 offset => exact ⟨nofun, fun h => by cases h; exact Nat.le_refl _⟩
  | case2 rest offset => exact ⟨fun h => by cases h; simp; omega, nofun⟩
  | case3 p rest offset _ ih =>
    exact ⟨fun h => Nat.le_trans (ih.1 h) (Nat.le_succ _), fun h => Nat.le_trans (ih.2 h)
      (Nat.le_succ _)⟩

theorem readComment_length {c d : Cursor} {t : Token} (h : readComment c = some (t, d)) :
    d.rest.length < c.rest.length := by
  unfold readComment at h
  split at h
  · next rest hr =>
    cases h
    have := Cursor.skipWhileFrom_length (fun x => !isLineTerminator x) rest (c.offset + 2)
    simp only [Cursor.skipLine, Cursor.skipWhile, hr, List.length_cons]
    omega
  · next rest hr =>
    rw [hr]
    simp only [List.length_cons]
    split at h
    · next d' hd =>
      cases h
      have := (closeComment_length (d := d)).1 hd
      omega
    · next d' hd =>
      cases h
      have := (closeComment_length (d := d)).2 hd
      omega
  · cases h

/-- What stands before a token: whether a line ended in it, the place after it, and the token of a
comment that never ends. -/
structure Trivia where
  newline : Bool
  cursor : Cursor
  fault : Option Token

/-- Read everything that is no token, given whether a line ended before. -/
def Cursor.skipTriviaFrom (newline : Bool) (c : Cursor) : Trivia :=
  match _hr : c.rest with
  | [] => ⟨newline, c, none⟩
  | p :: rest =>
    if isBlank p.scalar then skipTriviaFrom newline ⟨rest, c.offset + p.width⟩
    else if isLineTerminator p.scalar then skipTriviaFrom true ⟨rest, c.offset + p.width⟩
    else match _hc : readComment c with
      | none => ⟨newline, c, none⟩
      | some (t, d) =>
        if t.kind == .fault then ⟨newline, d, some t⟩
        else skipTriviaFrom (newline || (c.between d).any fun q =>
          t.kind == .blockComment && isLineTerminator q.scalar) d
termination_by c.rest.length
decreasing_by
  · simp [_hr]
  · simp [_hr]
  · exact readComment_length _hc

/-- Read everything that is no token. -/
def Cursor.skipTrivia (c : Cursor) : Trivia :=
  c.skipTriviaFrom false

end EcmaStack
