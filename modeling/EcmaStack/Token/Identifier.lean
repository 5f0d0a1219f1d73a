import EcmaStack.Token.Escape

/-!
# Identifiers

An identifier name, a reserved word or a private name. Characters may be written as Unicode
escapes; a reserved word written with one is an identifier that only looks like it.
-/

namespace EcmaStack

open Text

/-- Whether a character may stand at this point of a name. -/
def nameAccepts (first : Bool) (c : Char) : Bool :=
  if first then isIdentifierStart c else isIdentifierPart c

/-- A name under construction, latest character first. -/
structure PartialName where
  chars : List Char
  escaped : Bool

/-- Read the characters of a name as far as it goes. -/
def readNameFrom (soFar : PartialName) (c : Cursor) : Except Rejection (PartialName × Cursor) :=
  match _hr : c.rest with
  | [] => .ok (soFar, c)
  | p :: rest =>
    let next : Cursor := ⟨rest, c.offset + p.width⟩
    if p == .char '\\' then
      match _hn : next.rest with
      | .char 'u' :: tail =>
        match _hu : readUnicodeEscape ⟨tail, next.offset + 1⟩ with
        | .ok (x, after) =>
          if nameAccepts soFar.chars.isEmpty x then readNameFrom ⟨x :: soFar.chars, true⟩ after
          else .error ⟨.invalidUnicodeEscape, c.offset, after.offset, after⟩
        | .error stopped => .error ⟨.invalidUnicodeEscape, c.offset, stopped.offset, stopped⟩
      | _ => .error ⟨.invalidUnicodeEscape, c.offset, next.offset, next⟩
    else if nameAccepts soFar.chars.isEmpty p.scalar then
      readNameFrom ⟨p.scalar :: soFar.chars, soFar.escaped⟩ next
    else .ok (soFar, c)
termination_by c.rest.length
decreasing_by
  · have h := readUnicodeEscape_length _hu
    simp only [next] at _hn
    simp only [_hr, _hn, List.length_cons]
    simp only at h
    omega
  · simp [_hr]

/-- The kind of a name that carries no `#`. -/
def nameKind (escaped : Bool) (name : String) : Kind :=
  if escaped then .identifier
  else match Keyword.ofSpelling? name with
    | some k => .keyword k
    | none => .identifier

/-- An identifier name, reserved word or private name. -/
def readIdentifier (c : Cursor) : Reading :=
  let (hidden, body) : Bool × Cursor := match c.take? '#' with
    | some d => (true, d)
    | none => (false, c)
  match readNameFrom ⟨[], false⟩ body with
  | .error r => some r.token
  | .ok (name, d) =>
    if name.chars.isEmpty then none
    else
      let chars := name.chars.reverse
      let kind := if hidden then .privateName else nameKind name.escaped (String.ofList chars)
      some ({ kind, start := c.offset, stop := d.offset, escaped := name.escaped,
              value := chars.map .char }, d)

end EcmaStack
