import EcmaStack.Token.Escape

/-!
# String and template literals

A string stands between two quotes of one kind, on one line. An escape sequence stands for what
`readEscape` says.
-/

namespace EcmaStack

open Text

/-- Read a string up to its closing quote; `value` is what was read so far, latest piece first. -/
def readStringFrom (quote : Char) (start : Nat) (value : Text) (escaped : Bool) (c : Cursor) :
    Token × Cursor :=
  match _hr : c.rest with
  | [] => (.ofFault .unterminatedString start c.offset, c)
  | p :: rest =>
    let next : Cursor := ⟨rest, c.offset + p.width⟩
    if isLineTerminator p.scalar then (.ofFault .unterminatedString start c.offset, c)
    else if p == .char quote then
      ({ kind := .string, start, stop := next.offset, escaped, value := value.reverse }, next)
    else if p == .char '\\' then
      match _he : readEscape next with
      | .ok (text, after) => readStringFrom quote start (text.reverse ++ value) true after
      | .error r => r.token
    else readStringFrom quote start (p :: value) escaped next
termination_by c.rest.length
decreasing_by
  · have h := readEscape_length _he
    simp only [_hr, List.length_cons]
    simp only [next] at h
    omega
  · simp [_hr]

/-- A string literal in single or double quotes. -/
def readString (c : Cursor) : Reading :=
  match c.rest with
  | .char q :: rest =>
    if q == '\x22' || q == '\x27' then some (readStringFrom q c.offset [] false
      ⟨rest, c.offset + 1⟩) else none
  | _ => none

end EcmaStack

/-!
## Template literals

A template stands between backquotes. A substitution cuts it into a head, middles and a tail,
each a token of its own. A token carries the text with its escapes decoded and the text as
written; in both, a line end written CR or CR LF is LF, except that a lone CR right after a
backslash stays in the text as written.
-/

namespace EcmaStack

open Text

/-- Write each CR LF as LF. -/
def joinLineEnds : Text → Text
  | [] => []
  | .char '\r' :: .char '\n' :: rest => .char '\n' :: joinLineEnds rest
  | p :: rest => p :: joinLineEnds rest

/-- A template token under construction: both texts, latest piece first. -/
structure PartialTemplate where
  cooked : Text
  raw : Text

/-- Add one piece to both texts. -/
def PartialTemplate.push (t : PartialTemplate) (p : Piece) : PartialTemplate :=
  ⟨p :: t.cooked, p :: t.raw⟩

/-- Read a template up to a substitution, which gives a token of kind `sub`, or to its end,
which gives one of kind `tail`. -/
def readTemplateFrom (sub tail : Kind) (start : Nat) (soFar : PartialTemplate) (c : Cursor) :
    Token × Cursor :=
  let finish (kind : Kind) (d : Cursor) : Token × Cursor :=
    ({ kind, start, stop := d.offset, value := soFar.cooked.reverse, raw := soFar.raw.reverse }, d)
  match _hr : c.rest with
  | [] => (.ofFault .unterminatedTemplate start c.offset, c)
  | p :: rest =>
    let next : Cursor := ⟨rest, c.offset + p.width⟩
    if p == .char '\x60' then finish tail next
    else if p == .char '$' then
      match next.take? '\x7b' with
      | some after => finish sub after
      | none => readTemplateFrom sub tail start (soFar.push p) next
    else if p == .char '\r' then
      match _hn : next.take? '\n' with
      | some after => readTemplateFrom sub tail start (soFar.push (.char '\n')) after
      | none => readTemplateFrom sub tail start (soFar.push (.char '\n')) next
    else if p == .char '\\' then
      match _he : readEscape next with
      | .ok (text, after) =>
        let written := joinLineEnds (c.between after)
        readTemplateFrom sub tail start ⟨text.reverse ++ soFar.cooked, written.reverse ++
          soFar.raw⟩ after
      | .error r => r.token
    else readTemplateFrom sub tail start (soFar.push p) next
termination_by c.rest.length
decreasing_by
  · simp [_hr]
  · have h := Cursor.take?_length _hn
    simp only [_hr, List.length_cons]
    simp only [next] at h
    omega
  · simp [_hr]
  · have h := readEscape_length _he
    simp only [_hr, List.length_cons]
    simp only [next] at h
    omega
  · simp [_hr]

/-- A whole template, or its head. -/
def readTemplate (c : Cursor) : Reading :=
  (c.take? '\x60').map fun d => readTemplateFrom .templateHead .template c.offset ⟨[], []⟩ d

/-- The part of a template after a substitution, from the brace that closes it. -/
def readTemplateContinuation (c : Cursor) : Reading :=
  (c.take? '\x7d').map fun d => readTemplateFrom .templateMiddle .templateTail c.offset ⟨[], []⟩ d

end EcmaStack
