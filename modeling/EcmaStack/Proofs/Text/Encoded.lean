import EcmaStack.Proofs.Text.Decoding

/-!
# The bytes a text was read from

A character is read from the bytes of its encoding (`headChar?_bytes`), so the bytes of a text
are the bytes it was read from (`encode_decode`). Of a character that is cut short every byte is
a stray one (`decode_cut`).
-/

namespace EcmaStack

/-- What a lead byte looks like, and between what bounds its second byte lies. -/
theorem leadRange_form {b lo hi : UInt8} {follow : Nat} (h : leadRange b = some (lo, hi, follow)) :
    ((follow = 1 ∧ b.toNat / 32 = 6) ∨ (follow = 2 ∧ b.toNat / 16 = 14) ∨
      (follow = 3 ∧ b.toNat / 8 = 30)) ∧
      0x80 ≤ lo.toNat ∧ hi.toNat ≤ 0xBF := by
  have hb := b.toNat_lt
  simp only [leadRange, Bool.and_eq_true, decide_eq_true_eq, beq_iff_eq,
    UInt8.le_iff_toNat_le, ← UInt8.toNat_inj] at h
  repeat' split at h
  all_goals cases h
  all_goals simp at *
  all_goals omega

/-- No character starts with a byte that continues one. -/
theorem leadRange_continuation {b : UInt8} (hlow : 0x80 ≤ b.toNat) (hhigh : b.toNat ≤ 0xBF) :
    leadRange b = none := by
  cases h : leadRange b with
  | none => rfl
  | some x =>
    obtain ⟨lo, hi, follow⟩ := x
    have := (leadRange_form h).1
    omega

/-- Continuations are the bytes whose two highest bits are one and zero. -/
theorem isContinuation_iff {b : UInt8} :
    isContinuation b = true ↔ 0x80 ≤ b.toNat ∧ b.toNat ≤ 0xBF := by
  simp [isContinuation, UInt8.le_iff_toNat_le]

/-- A continuation byte, by its low bits. -/
theorem payload_eq {b : UInt8} (h : isContinuation b = true) : b.toNat = payload b + 128 := by
  obtain ⟨hlow, hhigh⟩ := isContinuation_iff.mp h
  rw [payload]
  omega

/-- A code point that is one is kept. -/
theorem toNat_ofNat_val {n : Nat} (h : n.isValidChar) : (Char.ofNat n).val.toNat = n := by
  rw [Char.ofNat, dif_pos h]
  rfl

/-- The bytes of a code point. -/
theorem utf8EncodeChar_ofNat {n : Nat} (h : n.isValidChar) : String.utf8EncodeChar (Char.ofNat n) =
    if n ≤ 0x7f then [UInt8.ofNat n]
    else if n ≤ 0x7ff then [UInt8.ofNat (n / 64 % 32 + 192), UInt8.ofNat (n % 64 + 128)]
    else if n ≤ 0xffff then
      [UInt8.ofNat (n / 4096 % 16 + 224), UInt8.ofNat (n / 64 % 64 + 128),
        UInt8.ofNat (n % 64 + 128)]
    else [UInt8.ofNat (n / 262144 % 8 + 240), UInt8.ofNat (n / 4096 % 64 + 128),
      UInt8.ofNat (n / 64 % 64 + 128),
      UInt8.ofNat (n % 64 + 128)] := by
  rw [String.utf8EncodeChar, toNat_ofNat_val h]

theorem ofNat_eq {b : UInt8} {n : Nat} (h : n = b.toNat) : UInt8.ofNat n = b := by
  rw [h, UInt8.ofNat_toNat]

/-- The second byte of a character continues it. -/
theorem leadRange_second {b b₁ lo hi : UInt8} {follow : Nat}
    (h : leadRange b = some (lo, hi, follow)) (hrange : (lo ≤ b₁ && b₁ ≤ hi) = true) :
    isContinuation b₁ = true := by
  obtain ⟨-, hlo, hhi⟩ := leadRange_form h
  simp only [Bool.and_eq_true, decide_eq_true_eq, UInt8.le_iff_toNat_le] at hrange
  rw [isContinuation_iff]
  omega

section

variable {b b₁ b₂ b₃ : UInt8}

/-- A character read from two bytes is written with the same two, -/
theorem utf8EncodeChar_two (hb : b.toNat / 32 = 6) (hmin : 2 ≤ b.toNat % 32)
    (h₁ : isContinuation b₁ = true) :
    String.utf8EncodeChar (Char.ofNat (b.toNat % 32 * 64 + payload b₁)) = [b, b₁] := by
  have hpayload₁ := payload_eq h₁
  have hlt₁ := payload_lt b₁
  rw [utf8EncodeChar_ofNat (.inl (by omega)), if_neg (by omega), if_pos (by omega),
    ofNat_eq (b := b) (by omega),
    ofNat_eq (b := b₁) (by omega)]

/-- one of three with the same three, if it is no surrogate and not overlong, -/
theorem utf8EncodeChar_three (hb : b.toNat / 16 = 14) (hmin : 32 ≤ b.toNat % 16 * 64 + payload b₁)
    (hvalid : b.toNat % 16 * 64 + payload b₁ < 0x360 ∨ 0x380 ≤ b.toNat % 16 * 64 + payload b₁)
    (h₁ : isContinuation b₁ = true) (h₂ : isContinuation b₂ = true) :
    String.utf8EncodeChar (Char.ofNat ((b.toNat % 16 * 64 + payload b₁) * 64 + payload b₂)) =
      [b, b₁, b₂] := by
  have hpayload₁ := payload_eq h₁
  have hpayload₂ := payload_eq h₂
  have hlt₁ := payload_lt b₁
  have hlt₂ := payload_lt b₂
  rw [utf8EncodeChar_ofNat (by unfold Nat.isValidChar; omega), if_neg (by omega), if_neg (by omega),
    if_pos (by omega),
    ofNat_eq (b := b) (by omega), ofNat_eq (b := b₁) (by omega), ofNat_eq (b := b₂) (by omega)]

/-- and one of four with the same four, if it is in range and not overlong. -/
theorem utf8EncodeChar_four (hb : b.toNat / 8 = 30) (hmin : 16 ≤ b.toNat % 8 * 64 + payload b₁)
    (hmax : b.toNat % 8 * 64 + payload b₁ < 0x110) (h₁ : isContinuation b₁ = true)
    (h₂ : isContinuation b₂ = true) (h₃ : isContinuation b₃ = true) : String.utf8EncodeChar
      (Char.ofNat (((b.toNat % 8 * 64 + payload b₁) * 64 + payload b₂) * 64 + payload b₃)) =
        [b, b₁, b₂, b₃] := by
  have hpayload₁ := payload_eq h₁
  have hpayload₂ := payload_eq h₂
  have hpayload₃ := payload_eq h₃
  have hlt₁ := payload_lt b₁
  have hlt₂ := payload_lt b₂
  have hlt₃ := payload_lt b₃
  rw [utf8EncodeChar_ofNat (.inr (by omega)), if_neg (by omega), if_neg (by omega),
    if_neg (by omega),
    ofNat_eq (b := b) (by omega), ofNat_eq (b := b₁) (by omega), ofNat_eq (b := b₂) (by omega),
    ofNat_eq (b := b₃) (by omega)]

end

/-- A character is read from the bytes of its encoding. -/
theorem headChar?_bytes {bytes : List UInt8} {c : Char} (h : headChar? bytes = some c) :
    bytes.take c.utf8Size = String.utf8EncodeChar c := by
  rw [← String.length_utf8EncodeChar c]
  suffices hread : ∃ rest, bytes = String.utf8EncodeChar c ++ rest by
    obtain ⟨rest, rfl⟩ := hread
    rw [List.take_left']
    rfl
  unfold headChar? at h
  split at h
  · cases h
  · next b rest =>
    split at h
    · next hascii =>
      cases h
      have hsmall : b.toNat < 128 := UInt8.lt_iff_toNat_lt.mp hascii
      refine ⟨rest, ?_⟩
      rw [utf8EncodeChar_ofNat (.inl (by omega)), if_pos (by omega), UInt8.ofNat_toNat]
      rfl
    · split at h
      -- The lead byte tells how many continuations follow, and the range of the first of them
      -- excludes surrogates and overlong forms.
      · next lo hi b₁ rest hlead =>
        split at h
        · next hrange =>
          cases h
          have hbounds := leadRange_bounds hlead hrange
          have hform := (leadRange_form hlead).1
          refine ⟨rest, ?_⟩
          rw [utf8EncodeChar_two (by omega) (by omega) (leadRange_second hlead hrange)]
          rfl
        · cases h
      · next lo hi b₁ b₂ rest hlead =>
        split at h
        · next hrange =>
          cases h
          obtain ⟨hsecond, hthird⟩ := Bool.and_eq_true_iff.mp hrange
          have hbounds := leadRange_bounds hlead hsecond
          have hform := (leadRange_form hlead).1
          refine ⟨rest, ?_⟩
          rw [utf8EncodeChar_three (by omega) (by omega) (by omega) (leadRange_second hlead hsecond)
            hthird]
          rfl
        · cases h
      · next lo hi b₁ b₂ b₃ rest hlead =>
        split at h
        · next hrange =>
          cases h
          obtain ⟨hthird, hfourth⟩ := Bool.and_eq_true_iff.mp hrange
          obtain ⟨hsecond, hthird⟩ := Bool.and_eq_true_iff.mp hthird
          have hbounds := leadRange_bounds hlead hsecond
          have hform := (leadRange_form hlead).1
          refine ⟨rest, ?_⟩
          rw [utf8EncodeChar_four (by omega) (by omega) (by omega) (leadRange_second hlead hsecond)
            hthird hfourth]
          rfl
        · cases h
      · cases h

/-- Behind the first byte of a character stand bytes that continue it. -/
theorem continuation_of_mem_tail (c : Char) :
    ∀ b ∈ (String.utf8EncodeChar c).tail, isContinuation b = true := by
  intro b hb
  unfold String.utf8EncodeChar at hb
  dsimp only at hb
  repeat' split at hb
  all_goals
    simp only [List.tail_cons, List.mem_cons, List.not_mem_nil, or_false] at hb
  · rw [hb]
    exact isContinuation_ofNat _
  · rcases hb with rfl | rfl <;> exact isContinuation_ofNat _
  · rcases hb with rfl | rfl | rfl <;> exact isContinuation_ofNat _

namespace Text

/-- The bytes of a text are the bytes it was read from. -/
theorem encode_decode (bytes : List UInt8) : (decode bytes).encode = bytes := by
  induction hn : bytes.length using Nat.strongRecOn generalizing bytes with
  | _ n ih =>
    cases bytes with
    | nil => rfl
    | cons b rest =>
      cases hhead : headChar? (b :: rest) with
      | none =>
        rw [decode_stray hhead, encode, List.flatMap_cons, ← encode,
          ih rest.length (by simp [← hn]) rest rfl]
        rfl
      | some c =>
        have hsize := c.utf8Size_pos
        have hdrop : ((b :: rest).drop c.utf8Size).length < n := by
          rw [List.length_drop, ← hn, List.length_cons]
          omega
        rw [decode_char hhead, encode, List.flatMap_cons, ← encode, ih _ hdrop _ rfl,
          Piece.bytes, ← headChar?_bytes hhead, List.take_append_drop]

/-- Bytes that continue characters start none. -/
theorem decode_continuations {bytes : List UInt8} (h : ∀ b ∈ bytes, isContinuation b = true) :
    decode bytes = bytes.map .stray := by
  induction bytes with
  | nil => rfl
  | cons b rest ih =>
    obtain ⟨hlow, hhigh⟩ := isContinuation_iff.mp (h b List.mem_cons_self)
    have hascii : ¬b < 0x80 := by
      rw [UInt8.lt_iff_toNat_lt]
      exact Nat.not_lt_of_le hlow
    have hnone : headChar? (b :: rest) = none := by
      simp only [headChar?, if_neg hascii, leadRange_continuation hlow hhigh]
    rw [decode_stray hnone, List.map_cons, ih fun x hx => h x (List.mem_cons_of_mem b hx)]

/-- Of a character that is cut short every byte is a stray one. -/
theorem decode_cut {bytes : List UInt8} {c : Char} {n : Nat} (h : headChar? bytes = some c)
    (hn : n < c.utf8Size) :
    decode (bytes.take n) = (bytes.take n).map .stray := by
  have hnone : headChar? (bytes.take n) = none := by
    cases hcut : headChar? (bytes.take n) with
    | none => rfl
    | some d =>
      have hmore := headChar?_append hcut (bytes.drop n)
      rw [List.take_append_drop, h] at hmore
      cases hmore
      have hlength := (headChar?_takes hcut).1
      rw [List.length_take] at hlength
      omega
  have hbytes : bytes.take n = (String.utf8EncodeChar c).take n := by
    rw [← headChar?_bytes h, List.take_take, Nat.min_eq_left (Nat.le_of_lt hn)]
  have htail : ∀ b ∈ (bytes.take n).tail, isContinuation b = true := by
    intro b hb
    rw [hbytes] at hb
    refine continuation_of_mem_tail c b ?_
    rw [← List.drop_one] at hb ⊢
    rw [List.drop_take] at hb
    exact List.mem_of_mem_take hb
  cases hcut : bytes.take n with
  | nil => rfl
  | cons b rest =>
    rw [hcut] at hnone htail
    rw [decode_stray hnone, decode_continuations (show ∀ x ∈ rest, isContinuation x =
      true from htail), List.map_cons]

end Text

end EcmaStack
