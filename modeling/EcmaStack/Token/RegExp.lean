import EcmaStack.Token.Basic

/-!
# Regular expression literals

A body between slashes and flags after it. A slash that is escaped or inside a character class
does not end the body. Flags are distinct letters of `dgimsuyv`.
-/

namespace EcmaStack

open Text

/-- The letters that may stand as flags. -/
def regExpFlags : List Char :=
  ['d', 'g', 'i', 'm', 's', 'u', 'y', 'v']

/-- Where in a body the reader is. -/
structure BodyState where
  escape : Bool
  charClass : Bool

/-- Where the reader is after one more character that does not end the body. -/
def BodyState.step (s : BodyState) (c : Char) : BodyState :=
  if s.escape then { s with escape := false }
  else if c == '[' then { s with charClass := true }
  else if c == '\\' then { s with escape := true }
  else if c == ']' then { s with charClass := false }
  else s

/-- Read a body, latest piece first, past the slash that ends it; on the left, where reading
stopped. A line end is read before it is refused. -/
def readBodyFrom (s : BodyState) (body : Text) : Text → Nat → Except Cursor (Text × Cursor)
  | [], offset => .error ⟨[], offset⟩
  | p :: rest, offset =>
    let next := offset + p.width
    if isLineTerminator p.scalar then .error ⟨rest, next⟩
    else if !s.escape && !s.charClass && p == .char '/' then .ok (body, ⟨rest, next⟩)
    else readBodyFrom (s.step p.scalar) (p :: body) rest next

/-- Read flags, latest first. -/
def readFlagsFrom (flags : List Char) : Text → Nat → Except Rejection (List Char × Cursor)
  | [], offset => .ok (flags, ⟨[], offset⟩)
  | p :: rest, offset =>
    let x := p.scalar
    if isIdentifierPart x || x == '\\' then
      let next : Cursor := ⟨rest, offset + p.width⟩
      if !regExpFlags.contains x then .error ⟨.unknownFlag x, offset, next.offset, next⟩
      else if flags.contains x then .error ⟨.repeatedFlag x, offset, next.offset, next⟩
      else readFlagsFrom (x :: flags) rest next.offset
    else .ok (flags, ⟨p :: rest, offset⟩)

/-- A regular expression literal. Two slashes, or a slash and a star, start a comment instead. -/
def readRegExp (c : Cursor) : Reading :=
  match c.take? '/' with
  | none => none
  | some inner =>
    if inner.at? fun x => x == '/' || x == '*' then none
    else match readBodyFrom ⟨false, false⟩ [] inner.rest inner.offset with
      | .error d => some (.ofFault .unterminatedRegExp c.offset d.offset, d)
      | .ok (body, d) =>
        match readFlagsFrom [] d.rest d.offset with
        | .error r => some r.token
        | .ok (flags, after) =>
          some ({ kind := .regexp, start := c.offset, stop := after.offset, value := body.reverse,
                  raw := flags.reverse.map .char }, after)

end EcmaStack
