import EcmaStack.Text.Encoding
import EcmaStack.Token.Basic

/-!
# Escape sequences

What may follow a backslash, in identifiers (`readUnicodeEscape` only) and in strings and
templates (`readEscape`). A code unit escape that is a surrogate joins with a low surrogate
escape right after it; a surrogate without a partner is written as U+FFFD. Legacy octal escapes
are refused.
-/

namespace EcmaStack

open Text

/-- The character of a code point; a surrogate becomes U+FFFD. -/
def charOfCode (n : Nat) : Char :=
  if isSurrogate n then replacement else Char.ofNat n

/-- A hexadecimal digit. -/
def Cursor.hexDigit? (c : Cursor) : Option (Nat × Cursor) :=
  match c.rest with
  | [] => none
  | p :: rest => (digitValue? p.scalar).map fun d => (d, ⟨rest, c.offset + p.width⟩)

/-- A fixed number of hexadecimal digits, after a value already read; on the left, where it
stopped. -/
def Cursor.hexRun : Nat → Nat → Cursor → Except Cursor (Nat × Cursor)
  | 0, value, c => .ok (value, c)
  | n + 1, value, c =>
    match c.hexDigit? with
    | some (d, next) => hexRun n (16 * value + d) next
    | none => .error c

/-- The digits of a braced code point after the first, up to and including the brace. -/
def bracedCode : Nat → Text → Nat → Except Cursor (Nat × Cursor)
  | _, [], offset => .error ⟨[], offset⟩
  | value, p :: rest, offset =>
    match digitValue? p.scalar with
    | some d =>
      if 0x10FFFF < 16 * value + d then .error ⟨rest, offset + p.width⟩
      else bracedCode (16 * value + d) rest (offset + p.width)
    | none =>
      if p == .char '\x7d' then .ok (value, ⟨rest, offset + 1⟩) else .error ⟨p :: rest, offset⟩

/-- The low surrogate escape at the cursor. -/
def Cursor.lowSurrogate? (c : Cursor) : Option (Nat × Cursor) :=
  match c.rest with
  | .char '\\' :: .char 'u' :: rest =>
    match Cursor.hexRun 4 0 ⟨rest, c.offset + 2⟩ with
    | .ok (low, next) => if isLowSurrogate low then some (low, next) else none
    | .error _ => none
  | _ => none

/-- What follows backslash and `u`; on the left, where reading stopped. -/
def readUnicodeEscape (c : Cursor) : Except Cursor (Char × Cursor) :=
  match c.rest with
  | .char '\x7b' :: rest =>
    let inner : Cursor := ⟨rest, c.offset + 1⟩
    match inner.hexDigit? with
    | none => .error inner
    | some (d, next) =>
      match bracedCode d next.rest next.offset with
      | .ok (n, after) => .ok (charOfCode n, after)
      | .error stopped => .error stopped
  | _ =>
    match c.hexRun 4 0 with
    | .error stopped => .error stopped
    | .ok (high, next) =>
      if isSurrogate high then
        match next.lowSurrogate? with
        | some (low, after) => .ok (joinSurrogates high low, after)
        | none => .ok (replacement, next)
      else .ok (charOfCode high, next)

/-- The character a one-letter escape stands for. -/
def simpleEscape? (c : Char) : Option Char :=
  match c with
  | 'b' => some '\x08'
  | 'f' => some '\x0c'
  | 'n' => some '\n'
  | 'r' => some '\r'
  | 't' => some '\t'
  | 'v' => some '\x0b'
  | _ => none

/-- What follows a backslash in a string or template. The backslash stands just before the
cursor. A line end after a backslash adds nothing. -/
def readEscape (c : Cursor) : Except Rejection (Text × Cursor) :=
  let start := c.offset - 1
  match c.rest with
  | [] => .error ⟨.unterminatedString, start, c.offset, c⟩
  | p :: rest =>
    let next : Cursor := ⟨rest, c.offset + p.width⟩
    if p == .char '\r' then .ok ([], (next.take? '\n').getD next)
    else if isLineTerminator p.scalar then .ok ([], next)
    else if p == .char '0' then
      if next.at? isDecimalDigit then .error ⟨.octalEscape, start, next.offset + 1, next⟩
      else .ok ([.char '\x00'], next)
    else if isDecimalDigit p.scalar then .error ⟨.octalEscape, start, next.offset, next⟩
    else if p == .char 'x' then
      match next.hexRun 2 0 with
      | .ok (n, after) => .ok ([.char (charOfCode n)], after)
      | .error stopped => .error ⟨.invalidEscape, start, stopped.offset, stopped⟩
    else if p == .char 'u' then
      match readUnicodeEscape next with
      | .ok (x, after) => .ok ([.char x], after)
      | .error stopped => .error ⟨.invalidUnicodeEscape, start, stopped.offset, stopped⟩
    else match simpleEscape? p.scalar with
      | some x => .ok ([.char x], next)
      | none => .ok ([.char p.scalar], next)

/-! ## Reading an escape moves forward -/

theorem Cursor.hexDigit?_length {c d : Cursor} {n : Nat} (h : c.hexDigit? = some (n, d)) :
    d.rest.length < c.rest.length := by
  unfold Cursor.hexDigit? at h
  split at h
  · cases h
  · next p rest hr =>
    obtain ⟨v, _, hv⟩ := Option.map_eq_some_iff.1 h
    cases hv
    simp [hr]

theorem Cursor.hexRun_length {n v : Nat} {c : Cursor} {r : Nat} {d : Cursor}
    (h : Cursor.hexRun n v c = .ok (r, d)) : d.rest.length ≤ c.rest.length := by
  induction n generalizing v c with
  | zero =>
    simp only [Cursor.hexRun] at h
    cases h
    exact Nat.le_refl _
  | succ n ih =>
    simp only [Cursor.hexRun] at h
    split at h
    · next hd => exact Nat.le_of_lt (Nat.lt_of_le_of_lt (ih h) (Cursor.hexDigit?_length hd))
    · cases h

theorem bracedCode_length {v : Nat} {text : Text} {offset r : Nat} {d : Cursor}
    (h : bracedCode v text offset = .ok (r, d)) : d.rest.length ≤ text.length := by
  induction text generalizing v offset with
  | nil => simp [bracedCode] at h
  | cons p rest ih =>
    simp only [bracedCode] at h
    split at h
    · split at h
      · cases h
      · exact Nat.le_trans (ih h) (Nat.le_succ _)
    · split at h
      · cases h
        simp
      · cases h

theorem Cursor.lowSurrogate?_length {c d : Cursor} {n : Nat} (h : c.lowSurrogate? = some (n, d)) :
    d.rest.length ≤ c.rest.length := by
  unfold Cursor.lowSurrogate? at h
  split at h
  · next rest hr =>
    split at h
    · next hx =>
      split at h
      · cases h
        have := Cursor.hexRun_length hx
        simp only [hr, List.length_cons]
        exact Nat.le_trans this (by simp; omega)
      · cases h
    · cases h
  · cases h

theorem readUnicodeEscape_length {c d : Cursor} {x : Char} (h : readUnicodeEscape c = .ok (x, d)) :
    d.rest.length ≤ c.rest.length := by
  unfold readUnicodeEscape at h
  split at h
  · next rest hr =>
    simp only at h
    split at h
    · cases h
    · next n next hd =>
      have h₁ := Cursor.hexDigit?_length hd
      split at h
      · next hb =>
        cases h
        have h₂ := bracedCode_length hb
        simp only [hr, List.length_cons]
        simp only at h₁
        omega
      · cases h
  · split at h
    · cases h
    · next high next hx =>
      have h₁ := Cursor.hexRun_length hx
      split at h
      · split at h
        · next hl =>
          cases h
          exact Nat.le_trans (Cursor.lowSurrogate?_length hl) h₁
        · cases h
          exact h₁
      · cases h
        exact h₁

theorem readEscape_length {c d : Cursor} {t : Text} (h : readEscape c = .ok (t, d)) :
    d.rest.length < c.rest.length := by
  unfold readEscape at h
  simp only at h
  split at h
  · cases h
  · next p rest hr =>
    have step : rest.length < c.rest.length := by simp [hr]
    split at h
    · cases h
      cases ht : Cursor.take? ⟨rest, c.offset + p.width⟩ '\n' with
      | none => simpa using step
      | some d' =>
        have := Cursor.take?_length ht
        simp only [Option.getD_some]
        simp only at this
        omega
    · split at h
      · cases h
        exact step
      · split at h
        · split at h
          · cases h
          · cases h
            exact step
        · split at h
          · cases h
          · split at h
            · split at h
              · next hx =>
                cases h
                exact Nat.lt_of_le_of_lt (Cursor.hexRun_length hx) step
              · cases h
            · split at h
              · split at h
                · next hu =>
                  cases h
                  exact Nat.lt_of_le_of_lt (readUnicodeEscape_length hu) step
                · cases h
              · split at h <;> cases h <;> exact step

end EcmaStack
