import EcmaStack.Text.Piece
import Mathlib.Tactic.Common

/-!
# Decoding follows the bytes

Every byte belongs to exactly one piece. A character is read from as many bytes as its encoding
takes (`headChar?_takes`), whatever follows them, so a text that is cut between two pieces cuts
the bytes in two that decode into the halves (`decode_take`, `decode_drop`), and a text is as
wide as the bytes it was read from (`width_decode`).

The bytes of a character are read as that character, whatever follows them
(`headChar?_utf8EncodeChar`), so the bytes of a string are read as its text
(`decode_utf8Bytes`).
-/

namespace EcmaStack

/-! ## The character at the head -/

/-! How many bytes a code point takes. -/

section Size

variable {n : Nat}

/-- How many bytes a code point takes, told by its size. -/
theorem utf8Size_ofNat (h : n.isValidChar) : (Char.ofNat n).utf8Size =
    if n ≤ 0x7f then 1 else if n ≤ 0x7ff then 2 else if n ≤ 0xffff then 3 else 4 := by
  have hval : (Char.ofNat n).val.toNat = n := by
    rw [Char.ofNat, dif_pos h]
    rfl
  generalize Char.ofNat n = c at hval
  simp only [Char.utf8Size, UInt32.le_iff_toNat_le, hval]
  rfl

theorem utf8Size_one (h : n < 0x80) : (Char.ofNat n).utf8Size = 1 := by
  rw [utf8Size_ofNat (.inl (by omega)), if_pos (by omega)]

theorem utf8Size_two (h : 0x80 ≤ n) (hn : n < 0x800) : (Char.ofNat n).utf8Size = 2 := by
  rw [utf8Size_ofNat (.inl (by omega)), if_neg (by omega), if_pos (by omega)]

theorem utf8Size_three (h : 0x800 ≤ n) (hn : n < 0xD800 ∨ 0xE000 ≤ n ∧ n < 0x10000) :
    (Char.ofNat n).utf8Size = 3 := by
  rw [utf8Size_ofNat (by unfold Nat.isValidChar; omega), if_neg (by omega), if_neg (by omega),
    if_pos (by omega)]

theorem utf8Size_four (h : 0x10000 ≤ n) (hn : n < 0x110000) : (Char.ofNat n).utf8Size = 4 := by
  rw [utf8Size_ofNat (.inr (by omega)), if_neg (by omega), if_neg (by omega), if_neg (by omega)]

end Size

/-- A continuation carries six bits. -/
theorem payload_lt (b : UInt8) : payload b < 64 :=
  Nat.mod_lt _ (by decide)

/-- A lead byte with a well-formed second byte starts a code point that needs as many bytes as
the lead byte announces, and that is no surrogate. -/
theorem leadRange_bounds {b b₁ lo hi : UInt8} {follow : Nat}
    (h : leadRange b = some (lo, hi, follow)) (hrange : (lo ≤ b₁ && b₁ ≤ hi) = true) :
    (follow = 1 ∧ 2 ≤ b.toNat % 32) ∨
      (follow = 2 ∧ 32 ≤ b.toNat % 16 * 64 + payload b₁ ∧
        (b.toNat % 16 * 64 + payload b₁ < 0x360 ∨ 0x380 ≤ b.toNat % 16 * 64 + payload b₁)) ∨
      (follow = 3 ∧ 16 ≤ b.toNat % 8 * 64 + payload b₁ ∧
        b.toNat % 8 * 64 + payload b₁ < 0x110) := by
  have hb := b.toNat_lt
  simp only [leadRange, payload, Bool.and_eq_true, decide_eq_true_eq, beq_iff_eq,
    UInt8.le_iff_toNat_le, ← UInt8.toNat_inj] at *
  repeat' split at h
  all_goals cases h
  all_goals simp at *
  all_goals omega

/-- A character is read from the bytes its encoding takes, and from these alone. -/
theorem headChar?_takes {bytes : List UInt8} {c : Char} (h : headChar? bytes = some c) :
    c.utf8Size ≤ bytes.length ∧ ∀ tail, headChar? (bytes.take c.utf8Size ++ tail) = some c := by
  -- It is enough to know how many bytes were looked at.
  suffices hread : ∃ head rest, bytes = head ++ rest ∧ head.length = c.utf8Size ∧
      ∀ tail, headChar? (head ++ tail) = some c by
    obtain ⟨head, rest, rfl, hlength, hhead⟩ := hread
    rw [← hlength, List.take_left', List.length_append]
    · exact ⟨Nat.le_add_right _ _, hhead⟩
    · rfl
  unfold headChar? at h
  split at h
  · cases h
  · next b rest =>
    split at h
    · next hascii =>
      cases h
      refine ⟨[b], rest, rfl, (utf8Size_one hascii).symm, fun tail => ?_⟩
      simp only [List.cons_append, headChar?, if_pos hascii]
    · next hascii =>
      split at h
      · next lo hi b₁ rest hlead =>
        split at h
        · next hrange =>
          cases h
          have hbounds := leadRange_bounds hlead hrange
          have h₁ := payload_lt b₁
          refine ⟨[b, b₁], rest, rfl, (utf8Size_two (by omega) (by omega)).symm, fun tail => ?_⟩
          simp only [List.cons_append, List.nil_append, headChar?, if_neg hascii, hlead,
            if_pos hrange]
        · cases h
      · next lo hi b₁ b₂ rest hlead =>
        split at h
        · next hrange =>
          cases h
          have hbounds := leadRange_bounds hlead (Bool.and_eq_true_iff.mp hrange).1
          have h₁ := payload_lt b₁
          have h₂ := payload_lt b₂
          refine ⟨[b, b₁, b₂], rest, rfl, (utf8Size_three (by omega) (by omega)).symm,
            fun tail => ?_⟩
          simp only [List.cons_append, List.nil_append, headChar?, if_neg hascii, hlead,
            if_pos hrange]
        · cases h
      · next lo hi b₁ b₂ b₃ rest hlead =>
        split at h
        · next hrange =>
          cases h
          have hbounds :=
            leadRange_bounds hlead (Bool.and_eq_true_iff.mp (Bool.and_eq_true_iff.mp hrange).1).1
          have h₁ := payload_lt b₁
          have h₂ := payload_lt b₂
          have h₃ := payload_lt b₃
          refine ⟨[b, b₁, b₂, b₃], rest, rfl, (utf8Size_four (by omega) (by omega)).symm,
            fun tail => ?_⟩
          simp only [List.cons_append, List.nil_append, headChar?, if_neg hascii, hlead,
            if_pos hrange]
        · cases h
      · cases h

/-- More bytes do not change the character at the head. -/
theorem headChar?_append {bytes : List UInt8} {c : Char} (h : headChar? bytes = some c)
    (tail : List UInt8) :
    headChar? (bytes ++ tail) = some c := by
  obtain ⟨_, hread⟩ := headChar?_takes h
  have hmore := hread (bytes.drop c.utf8Size ++ tail)
  rwa [← List.append_assoc, List.take_append_drop] at hmore

namespace Text

/-! ## Texts -/

/-- Bytes that belong to the character before are skipped. -/
theorem decodeFrom_eq (pending : Nat) (bytes : List UInt8) :
    decodeFrom pending bytes = decode (bytes.drop pending) := by
  induction bytes generalizing pending with
  | nil => cases pending <;> rfl
  | cons b rest ih =>
    cases pending with
    | zero => rfl
    | succ pending => exact ih pending

/-- A character at the front takes its bytes, -/
theorem decode_char {bytes : List UInt8} {c : Char} (h : headChar? bytes = some c) :
    decode bytes = .char c :: decode (bytes.drop c.utf8Size) := by
  cases bytes with
  | nil => cases h
  | cons b rest =>
    obtain ⟨n, hn⟩ : ∃ n, c.utf8Size = n + 1 := ⟨c.utf8Size - 1, by have := c.utf8Size_pos; omega⟩
    simp only [decode, decodeFrom, h]
    rw [decodeFrom_eq, hn, Nat.add_sub_cancel, List.drop_succ_cons, decode]

/-- and a byte that starts none takes itself. -/
theorem decode_stray {b : UInt8} {rest : List UInt8} (h : headChar? (b :: rest) = none) :
    decode (b :: rest) = .stray b :: decode rest := by
  simp only [decode, decodeFrom, h]

/-- The piece at the head of bytes: it stands there whatever is cut off behind it, and the text
goes on behind it. -/
theorem decode_head {bytes : List UInt8} (h : bytes ≠ []) : ∃ p : Piece, p.width ≤ bytes.length ∧
    decode bytes = p :: decode (bytes.drop p.width) ∧
    ∀ n, p.width ≤ n → decode (bytes.take n) = p :: decode ((bytes.take n).drop p.width) := by
  cases hhead : headChar? bytes with
  | some c =>
    obtain ⟨hsize, hread⟩ := headChar?_takes hhead
    refine ⟨.char c, hsize, decode_char hhead, fun n hn => decode_char ?_⟩
    have hsplit := List.take_append_drop c.utf8Size (bytes.take n)
    rw [List.take_take, Nat.min_eq_left (show c.utf8Size ≤ n from hn)] at hsplit
    rw [← hsplit]
    exact hread _
  | none =>
    obtain ⟨b, rest, rfl⟩ := List.exists_cons_of_ne_nil h
    refine ⟨.stray b, Nat.succ_le_succ (Nat.zero_le _), decode_stray hhead, fun n hn => ?_⟩
    obtain ⟨m, rfl⟩ : ∃ m, n = m + 1 := ⟨n - 1, by change 1 ≤ n at hn; omega⟩
    refine decode_stray ?_
    rw [← List.take_succ_cons]
    -- More bytes would have found the character as well.
    cases hcut : headChar? ((b :: rest).take (m + 1)) with
    | none => rfl
    | some c =>
      have hmore := headChar?_append hcut ((b :: rest).drop (m + 1))
      rw [List.take_append_drop, hhead] at hmore
      cases hmore

theorem decode_nil : decode [] = [] := rfl

/-- A text that is cut between two pieces cuts the bytes it was read from. -/
theorem decode_split {bytes : List UInt8} {a b : Text} (h : decode bytes = a ++ b) :
    a.width ≤ bytes.length ∧ decode (bytes.take a.width) = a ∧ decode (bytes.drop a.width) = b := by
  induction a generalizing bytes with
  | nil => exact ⟨Nat.zero_le _, rfl, h⟩
  | cons p a ih =>
    have hne : bytes ≠ [] := by
      rintro rfl
      cases h
    obtain ⟨q, hq, hdecode, hcut⟩ := decode_head hne
    rw [hdecode] at h
    obtain ⟨rfl, hrest⟩ := List.cons.inj h
    obtain ⟨hle, htake, hdrop⟩ := ih hrest
    rw [List.length_drop] at hle
    rw [width_cons]
    refine ⟨by omega, ?_, ?_⟩
    · rw [hcut _ (Nat.le_add_right _ _), List.drop_take, Nat.add_sub_cancel_left, htake]
    · rw [← List.drop_drop, hdrop]

/-- A text is as wide as the bytes it was read from. -/
theorem width_decode (bytes : List UInt8) : (decode bytes).width = bytes.length := by
  obtain ⟨hle, _, hdrop⟩ := decode_split (List.append_nil (decode bytes)).symm
  refine Nat.le_antisymm hle (Nat.le_of_not_lt fun hlt => ?_)
  have hne : bytes.drop (decode bytes).width ≠ [] := by
    rw [ne_eq, List.drop_eq_nil_iff]
    omega
  obtain ⟨p, _, hdecode, _⟩ := decode_head hne
  rw [hdecode] at hdrop
  cases hdrop

end Text

/-! ## Encoded characters -/

/-- A lead byte and a second byte are well formed unless they make an overlong form, a surrogate
or too great a code point. -/
theorem leadRange_of_bounds (b b₁ : UInt8) (follow : Nat) (h₁ : 0x80 ≤ b₁.toNat ∧ b₁.toNat ≤ 0xBF)
    (h : follow = 1 ∧ 0xC2 ≤ b.toNat ∧ b.toNat ≤ 0xDF ∨
      follow = 2 ∧ 0xE0 ≤ b.toNat ∧ b.toNat ≤ 0xEF ∧ (b.toNat = 0xE0 → 0xA0 ≤ b₁.toNat) ∧
        (b.toNat = 0xED → b₁.toNat ≤ 0x9F) ∨
      follow = 3 ∧ 0xF0 ≤ b.toNat ∧ b.toNat ≤ 0xF4 ∧ (b.toNat = 0xF0 → 0x90 ≤ b₁.toNat) ∧
        (b.toNat = 0xF4 → b₁.toNat ≤ 0x8F)) :
    ∃ lo hi, leadRange b = some (lo, hi, follow) ∧ (lo ≤ b₁ && b₁ ≤ hi) = true := by
  simp only [leadRange, Bool.and_eq_true, decide_eq_true_eq, beq_iff_eq,
    UInt8.le_iff_toNat_le, ← UInt8.toNat_inj, UInt8.reduceToNat]
  rcases h with ⟨rfl, h⟩ | ⟨rfl, h⟩ | ⟨rfl, h⟩
  · rw [if_pos h]
    exact ⟨_, _, rfl, h₁⟩
  · rw [if_neg (by omega)]
    by_cases hleast : b.toNat = 0xE0
    · rw [if_pos hleast]
      exact ⟨_, _, rfl, h.2.2.1 hleast, h₁.2⟩
    rw [if_neg hleast]
    by_cases hsurrogate : b.toNat = 0xED
    · rw [if_pos hsurrogate]
      exact ⟨_, _, rfl, h₁.1, h.2.2.2 hsurrogate⟩
    · rw [if_neg hsurrogate, if_pos (by omega)]
      exact ⟨_, _, rfl, h₁⟩
  · rw [if_neg (by omega), if_neg (by omega), if_neg (by omega), if_neg (by omega)]
    by_cases hleast : b.toNat = 0xF0
    · rw [if_pos hleast]
      exact ⟨_, _, rfl, h.2.2.1 hleast, h₁.2⟩
    rw [if_neg hleast]
    by_cases hgreatest : b.toNat = 0xF4
    · rw [if_neg (by omega), if_pos hgreatest]
      exact ⟨_, _, rfl, h₁.1, h.2.2.2 hgreatest⟩
    · rw [if_pos (by omega)]
      exact ⟨_, _, rfl, h₁⟩

section Continuation

variable (n : Nat)

private theorem toNat_continuation : (UInt8.ofNat (n % 64 + 128)).toNat = n % 64 + 128 :=
  UInt8.toNat_ofNat_of_lt (show _ < 256 by omega)

/-- What is written behind a lead byte is a continuation, -/
theorem isContinuation_ofNat : isContinuation (UInt8.ofNat (n % 64 + 128)) = true := by
  simp only [isContinuation, Bool.and_eq_true, decide_eq_true_eq, UInt8.le_iff_toNat_le,
    toNat_continuation, UInt8.reduceToNat]
  omega

/-- which carries the six bits that it was made of. -/
theorem payload_ofNat : payload (UInt8.ofNat (n % 64 + 128)) = n % 64 := by
  rw [payload, toNat_continuation]
  omega

end Continuation

/-- The bytes of a character are read as the character, whatever follows them. -/
theorem headChar?_utf8EncodeChar (c : Char) (tail : List UInt8) :
    headChar? (String.utf8EncodeChar c ++ tail) = some c := by
  have hvalid : c.val.toNat < 0xD800 ∨ 0xDFFF < c.val.toNat ∧ c.val.toNat < 0x110000 := c.valid
  have hofNat : Char.ofNat c.val.toNat = c := Char.ofNat_toNat c
  unfold String.utf8EncodeChar
  generalize c.val.toNat = v at *
  have hlead {n : Nat} (hn : n < 256) : (UInt8.ofNat n).toNat = n := UInt8.toNat_ofNat_of_lt hn
  have hhigh {n : Nat} (hn : n < 256) (h : 128 ≤ n) : ¬UInt8.ofNat n < 0x80 := by
    rw [UInt8.lt_iff_toNat_lt, hlead hn]
    exact Nat.not_lt_of_le h
  dsimp only
  split
  · next h =>
    have hsmall : UInt8.ofNat v < 0x80 := by
      rw [UInt8.lt_iff_toNat_lt, hlead (by omega)]
      exact Nat.lt_succ_of_le h
    simp only [List.cons_append, headChar?, if_pos hsmall, hlead (n := v) (by omega), hofNat]
  split
  · obtain ⟨lo, hi, hrange, hsecond⟩ := leadRange_of_bounds (UInt8.ofNat (v / 64 % 32 + 192))
      (UInt8.ofNat (v % 64 + 128)) 1 (by rw [hlead (by omega)]; omega)
        (by rw [hlead (by omega)]; omega)
    simp only [List.cons_append, headChar?,
      if_neg (hhigh (n := v / 64 % 32 + 192) (by omega) (by omega)), hrange,
      if_pos hsecond, payload_ofNat, hlead (n := v / 64 % 32 + 192) (by omega)]
    rw [show (v / 64 % 32 + 192) % 32 * 64 + v % 64 = v by omega, hofNat]
  split
  · obtain ⟨lo, hi, hrange, hsecond⟩ := leadRange_of_bounds (UInt8.ofNat (v / 4096 % 16 + 224))
      (UInt8.ofNat (v / 64 % 64 + 128)) 2 (by rw [hlead (by omega)]; omega)
      (by rw [hlead (by omega), hlead (by omega)]; omega)
    simp only [List.cons_append, headChar?,
      if_neg (hhigh (n := v / 4096 % 16 + 224) (by omega) (by omega)), hrange,
      hsecond, isContinuation_ofNat, Bool.and_self, if_true, payload_ofNat,
      hlead (n := v / 4096 % 16 + 224) (by omega)]
    rw [show ((v / 4096 % 16 + 224) % 16 * 64 + v / 64 % 64) * 64 + v % 64 = v by omega, hofNat]
  · obtain ⟨lo, hi, hrange, hsecond⟩ := leadRange_of_bounds (UInt8.ofNat (v / 262144 % 8 + 240))
      (UInt8.ofNat (v / 4096 % 64 + 128)) 3 (by rw [hlead (by omega)]; omega)
      (by rw [hlead (by omega), hlead (by omega)]; omega)
    simp only [List.cons_append, headChar?,
      if_neg (hhigh (n := v / 262144 % 8 + 240) (by omega) (by omega)), hrange,
      hsecond, isContinuation_ofNat, Bool.and_self, if_true, payload_ofNat,
      hlead (n := v / 262144 % 8 + 240) (by omega)]
    rw [show (((v / 262144 % 8 + 240) % 8 * 64 + v / 4096 % 64) * 64 + v / 64 % 64) * 64 + v % 64 =
      v by omega, hofNat]

/-- The bytes of a string are read as its text. -/
theorem Text.decode_utf8Bytes (s : String) : decode (utf8Bytes s) = ofString s := by
  rw [utf8Bytes, ofString]
  induction s.toList with
  | nil => rfl
  | cons c cs ih =>
    rw [List.map_cons, encode, List.flatMap_cons, Piece.bytes,
      decode_char (headChar?_utf8EncodeChar c _),
      List.drop_left' (String.length_utf8EncodeChar c), ← encode, ih]

end EcmaStack
