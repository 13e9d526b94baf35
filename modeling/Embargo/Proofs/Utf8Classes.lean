import Embargo.Proofs.Utf8

/-!
# What a sequence of bytes says

`Utf8.decode` sorts all sequences of bytes into three classes. This file says which they are, in
terms of the encoding alone: a sequence is complete if it is the encoding of a text, cut off if it
is such an encoding with a beginning of a further character behind it (`Utf8.IsCutOff`), and ill
formed if it is neither (`Utf8.IsIllFormed`).

| bytes | class | theorem |
|---|---|---|
| `encode t` | `.complete t` | `decode_eq_complete_iff` |
| `encode t ++ tail` with a tail that is cut off | `.cutOff t` | `decode_eq_cutOff_iff` |
| all others | `.illFormed` | `decode_eq_illFormed_iff` |

One tail is cut off though no character begins like it: the first two of the three bytes that would
stand for a surrogate (`ne_encodeChar_of_surrogate`). Any third byte makes them ill formed.

That the classes are as wide as that is read off the decoder, case by case (`tells_decode`); for
this each row of bytes that it takes for a character must be the encoding of one (`encodeChar_two`
and its siblings). That they are no wider follows from two facts: the decoder reads an encoding off
the front of what follows it (`decode_encode_append`), and what is ill formed stays so whatever
follows (`decode_append_of_illFormed`).
-/

namespace Embargo.Utf8

/-! ### The bytes of characters -/

section Characters

variable {a b c d : UInt8}

theorem ofNat_eq {n : Nat} (h : n = a.toNat) : UInt8.ofNat n = a := h ▸ UInt8.ofNat_toNat

theorem val_ofNat {n : Nat} (h : n.isValidChar) : (Char.ofNat n).val.toNat = n := by
  rw [Char.ofNat, dif_pos h]
  rfl

theorem isContinuation_iff : isContinuation b = true ↔ 0x80 ≤ b.toNat ∧ b.toNat ≤ 0xBF :=
  and_le_iff 0x80 0xBF b

/-- The second of three bytes, in terms of natural numbers. -/
theorem bounds_of_isSecondOfThree (h : isSecondOfThree a b = true) :
    (0x80 ≤ b.toNat ∧ b.toNat ≤ 0xBF) ∧ (a.toNat = 0xE0 → 0xA0 ≤ b.toNat) ∧
      (a.toNat = 0xED → b.toNat ≤ 0x9F) := by
  unfold isSecondOfThree at h
  split at h
  · next ha =>
    have hb : 0xA0 ≤ b.toNat ∧ b.toNat ≤ 0xBF := (and_le_iff 0xA0 0xBF b).1 h
    have ha : a.toNat = 0xE0 := congrArg UInt8.toNat ha
    omega
  · next hlow =>
    have hlow : a.toNat ≠ 0xE0 := fun ha => hlow (UInt8.toNat_inj.1 ha)
    split at h
    · next ha =>
      have hb : 0x80 ≤ b.toNat ∧ b.toNat ≤ 0x9F := (and_le_iff 0x80 0x9F b).1 h
      omega
    · next hhigh =>
      have hhigh : a.toNat ≠ 0xED := fun ha => hhigh (UInt8.toNat_inj.1 ha)
      have hb := isContinuation_iff.1 h
      omega

/-- The second of four bytes, in terms of natural numbers. -/
theorem bounds_of_isSecondOfFour (h : isSecondOfFour a b = true) :
    (0x80 ≤ b.toNat ∧ b.toNat ≤ 0xBF) ∧ (a.toNat = 0xF0 → 0x90 ≤ b.toNat) ∧
      (a.toNat = 0xF4 → b.toNat ≤ 0x8F) := by
  unfold isSecondOfFour at h
  split at h
  · next ha =>
    have hb : 0x90 ≤ b.toNat ∧ b.toNat ≤ 0xBF := (and_le_iff 0x90 0xBF b).1 h
    have ha : a.toNat = 0xF0 := congrArg UInt8.toNat ha
    omega
  · next hlow =>
    have hlow : a.toNat ≠ 0xF0 := fun ha => hlow (UInt8.toNat_inj.1 ha)
    split at h
    · next ha =>
      have hb : 0x80 ≤ b.toNat ∧ b.toNat ≤ 0x8F := (and_le_iff 0x80 0x8F b).1 h
      omega
    · next hhigh =>
      have hhigh : a.toNat ≠ 0xF4 := fun ha => hhigh (UInt8.toNat_inj.1 ha)
      have hb := isContinuation_iff.1 h
      omega

theorem encodeChar_one (ha : a < 0x80) : String.utf8EncodeChar (Char.ofNat a.toNat) = [a] := by
  have ha : a.toNat < 0x80 := UInt8.lt_iff_toNat_lt.1 ha
  unfold String.utf8EncodeChar
  dsimp only
  rw [val_ofNat (.inl (by omega)), if_pos (by omega), ofNat_eq rfl]

theorem encodeChar_two (ha : (0xC2 ≤ a && a ≤ 0xDF) = true) (hb : isContinuation b = true) :
    String.utf8EncodeChar (Char.ofNat (a.toNat % 0x20 * 0x40 + payload b)) = [a, b] := by
  have ha : 0xC2 ≤ a.toNat ∧ a.toNat ≤ 0xDF := (and_le_iff 0xC2 0xDF a).1 ha
  have hb := isContinuation_iff.1 hb
  unfold String.utf8EncodeChar payload
  dsimp only
  rw [val_ofNat (.inl (by omega)), if_neg (by omega), if_pos (by omega), ofNat_eq (a := a)
    (by omega), ofNat_eq (a := b) (by omega)]

theorem encodeChar_three (ha : (0xE0 ≤ a && a ≤ 0xEF) = true) (hb : isSecondOfThree a b = true)
    (hc : isContinuation c = true) : String.utf8EncodeChar
      (Char.ofNat (a.toNat % 0x10 * 0x1000 + payload b * 0x40 + payload c)) = [a, b, c] := by
  have ha : 0xE0 ≤ a.toNat ∧ a.toNat ≤ 0xEF := (and_le_iff 0xE0 0xEF a).1 ha
  obtain ⟨hb, hlow, hhigh⟩ := bounds_of_isSecondOfThree hb
  have hc := isContinuation_iff.1 hc
  unfold String.utf8EncodeChar payload
  dsimp only
  rw [val_ofNat (by unfold Nat.isValidChar; omega), if_neg (by omega), if_neg (by omega),
    if_pos (by omega), ofNat_eq (a := a) (by omega), ofNat_eq (a := b) (by omega),
    ofNat_eq (a := c) (by omega)]

theorem encodeChar_four (ha : (0xF0 ≤ a && a ≤ 0xF4) = true) (hb : isSecondOfFour a b = true)
    (hc : isContinuation c = true) (hd : isContinuation d = true) :
    String.utf8EncodeChar (Char.ofNat (a.toNat % 0x08 * 0x40000 + payload b * 0x1000 +
      payload c * 0x40 + payload d)) = [a, b, c, d] := by
  have ha : 0xF0 ≤ a.toNat ∧ a.toNat ≤ 0xF4 := (and_le_iff 0xF0 0xF4 a).1 ha
  obtain ⟨hb, hlow, hhigh⟩ := bounds_of_isSecondOfFour hb
  have hc := isContinuation_iff.1 hc
  have hd := isContinuation_iff.1 hd
  unfold String.utf8EncodeChar payload
  dsimp only
  rw [val_ofNat (by unfold Nat.isValidChar; omega), if_neg (by omega), if_neg (by omega),
    if_neg (by omega), ofNat_eq (a := a) (by omega), ofNat_eq (a := b) (by omega),
    ofNat_eq (a := c) (by omega), ofNat_eq (a := d) (by omega)]

end Characters

/-! ### Tails that are cut off -/

/-- **The tail is cut off**: it is a beginning of the bytes of a character, and some are missing.
The decoder also takes the first two of the three bytes that would stand for a surrogate for such a
tail. -/
inductive IsCutOff : Bytes → Prop
  /-- Some bytes of a character are there, and some are missing. -/
  | char {c : Char} {tail missing : Bytes} (h : tail ++ missing = String.utf8EncodeChar c)
      (hne : tail ≠ []) (hmissing : missing ≠ []) : IsCutOff tail
  /-- Two bytes of a surrogate are there. -/
  | surrogate {b : UInt8} (h : 0xA0 ≤ b ∧ b ≤ 0xBF) : IsCutOff [0xED, b]

section Tails

variable {a b c : UInt8}

/-- The first of two bytes lacks the second. -/
theorem isCutOff_one_of_two (ha : (0xC2 ≤ a && a ≤ 0xDF) = true) : IsCutOff [a] :=
  .char (encodeChar_two (b := 0x80) ha (by decide)).symm (by simp) (by simp)

/-- Two of three bytes lack the third. -/
theorem isCutOff_two_of_three (ha : (0xE0 ≤ a && a ≤ 0xEF) = true)
    (hb : isSecondOfThree a b = true) : IsCutOff [a, b] :=
  .char (encodeChar_three (c := 0x80) ha hb (by decide)).symm (by simp) (by simp)

theorem isCutOff_one_of_three (ha : (0xE0 ≤ a && a ≤ 0xEF) = true) : IsCutOff [a] := by
  have hsecond : ∃ b, isSecondOfThree a b = true := by
    unfold isSecondOfThree
    split
    · exact ⟨0xA0, by decide⟩
    · split <;> exact ⟨0x80, by decide⟩
  obtain ⟨b, hb⟩ := hsecond
  exact .char (encodeChar_three (c := 0x80) ha hb (by decide)).symm (by simp) (by simp)

/-- Three of four bytes lack the fourth. -/
theorem isCutOff_three_of_four (ha : (0xF0 ≤ a && a ≤ 0xF4) = true)
    (hb : isSecondOfFour a b = true) (hc : isContinuation c = true) : IsCutOff [a, b, c] :=
  .char (encodeChar_four (d := 0x80) ha hb hc (by decide)).symm (by simp) (by simp)

theorem isCutOff_two_of_four (ha : (0xF0 ≤ a && a ≤ 0xF4) = true)
    (hb : isSecondOfFour a b = true) : IsCutOff [a, b] :=
  .char (encodeChar_four (c := 0x80) (d := 0x80) ha hb (by decide) (by decide)).symm (by simp)
    (by simp)

theorem isCutOff_one_of_four (ha : (0xF0 ≤ a && a ≤ 0xF4) = true) : IsCutOff [a] := by
  have hsecond : ∃ b, isSecondOfFour a b = true := by
    unfold isSecondOfFour
    split
    · exact ⟨0x90, by decide⟩
    · split <;> exact ⟨0x80, by decide⟩
  obtain ⟨b, hb⟩ := hsecond
  exact .char (encodeChar_four (c := 0x80) (d := 0x80) ha hb (by decide) (by decide)).symm
    (by simp) (by simp)

end Tails

/-! ### The classes are no narrower -/

/-- The class tells what the bytes are. -/
def Decoding.Tells (bytes : Bytes) : Decoding → Prop
  | .complete t => bytes = encode t
  | .cutOff t => ∃ tail, bytes = encode t ++ tail ∧ IsCutOff tail
  | .illFormed => True

/-- One more character in front. -/
theorem Decoding.Tells.cons {d : Decoding} {rest : Bytes} (h : d.Tells rest) (c : Char) :
    (d.cons c).Tells (String.utf8EncodeChar c ++ rest) := by
  have hencode (t : Text) : encode (CodePoint.char c :: t) = String.utf8EncodeChar c ++ encode t :=
    List.flatMap_cons
  cases d with
  | complete t =>
    obtain rfl : rest = encode t := h
    exact (hencode t).symm
  | cutOff t =>
    obtain ⟨tail, rfl, htail⟩ := h
    exact ⟨tail, by rw [hencode, List.append_assoc], htail⟩
  | illFormed => trivial

theorem tells_decode (bytes : Bytes) : (decode bytes).Tells bytes := by
  fun_induction decode bytes with
  | case1 => rfl
  | case2 a r ha ih =>
    have htells := ih.cons (Char.ofNat a.toNat)
    rwa [encodeChar_one ha] at htells
  | case3 a ha htwo => exact ⟨_, rfl, isCutOff_one_of_two htwo⟩
  | case4 a ha htwo b r hb ih =>
    have htells := ih.cons (Char.ofNat (a.toNat % 0x20 * 0x40 + payload b))
    rwa [encodeChar_two htwo hb] at htells
  | case6 a ha htwo hthree => exact ⟨_, rfl, isCutOff_one_of_three hthree⟩
  | case7 a ha htwo hthree b hb =>
    refine ⟨_, rfl, ?_⟩
    rcases Bool.or_eq_true_iff.1 hb with hb | hb
    · exact isCutOff_two_of_three hthree hb
    · simp only [isSurrogateStart, Bool.and_eq_true, decide_eq_true_eq] at hb
      obtain ⟨rfl, hbounds⟩ := hb
      exact .surrogate hbounds
  | case9 a ha htwo hthree b c r hbc ih =>
    obtain ⟨hb, hc⟩ := Bool.and_eq_true_iff.1 hbc
    have htells := ih.cons
      (Char.ofNat (a.toNat % 0x10 * 0x1000 + payload b * 0x40 + payload c))
    rwa [encodeChar_three hthree hb hc] at htells
  | case11 a ha htwo hthree hfour => exact ⟨_, rfl, isCutOff_one_of_four hfour⟩
  | case12 a ha htwo hthree hfour b hb => exact ⟨_, rfl, isCutOff_two_of_four hfour hb⟩
  | case14 a ha htwo hthree hfour b c hbc =>
    obtain ⟨hb, hc⟩ := Bool.and_eq_true_iff.1 hbc
    exact ⟨_, rfl, isCutOff_three_of_four hfour hb hc⟩
  | case16 a ha htwo hthree hfour b c d r hbcd ih =>
    obtain ⟨hbc, hd⟩ := Bool.and_eq_true_iff.1 hbcd
    obtain ⟨hb, hc⟩ := Bool.and_eq_true_iff.1 hbc
    have htells := ih.cons (Char.ofNat (a.toNat % 0x08 * 0x40000 + payload b * 0x1000 +
      payload c * 0x40 + payload d))
    rwa [encodeChar_four hfour hb hc hd] at htells
  | case5 | case8 | case10 | case13 | case15 | case17 | case18 => trivial

/-! ### The classes are no wider -/

/-- A text in front. -/
def Decoding.prepend (front : Text) : Decoding → Decoding
  | .complete t => .complete (front ++ t)
  | .cutOff t => .cutOff (front ++ t)
  | .illFormed => .illFormed

/-- **An encoding is read off the front** of what follows it. -/
theorem decode_encode_append {t : Text} (h : isEncodable t = true) (rest : Bytes) :
    decode (encode t ++ rest) = (decode rest).prepend t := by
  induction t with
  | nil => cases hrest : decode rest <;> simp [encode, hrest, Decoding.prepend]
  | cons c t ih =>
    rw [isEncodable, List.all_cons, Bool.and_eq_true] at h
    obtain ⟨hc, ht⟩ := h
    cases c with
    | char c =>
      rw [encode, List.flatMap_cons, List.append_assoc, ← encode, encodeOne, decode_encodeChar,
        ih ht]
      cases decode rest <;> rfl
    | surrogate c => cases hc

theorem Decoding.cons_eq_illFormed {c : CodePoint} {d : Decoding} :
    d.cons c = .illFormed ↔ d = .illFormed := by
  cases d <;> simp [cons]

/-- **What is ill formed stays so**, whatever follows. -/
theorem decode_append_of_illFormed {bytes : Bytes} (h : decode bytes = .illFormed) (rest : Bytes) :
    decode (bytes ++ rest) = .illFormed := by
  fun_induction decode bytes with
  | case1 | case3 | case6 | case7 | case11 | case12 | case14 => cases h
  | case2 a r ha ih =>
    have hr := ih (Decoding.cons_eq_illFormed.1 h)
    rw [List.cons_append, decode.eq_def]
    simp [ha, hr, Decoding.cons]
  | case4 a ha htwo b r hb ih =>
    have hr := ih (Decoding.cons_eq_illFormed.1 h)
    simp [decode, ha, htwo, hb, hr, Decoding.cons]
  | case5 a ha htwo b r hb => simp [decode, ha, htwo, hb]
  | case8 a ha htwo hthree b hb =>
    obtain ⟨hsecond, hstart⟩ := Bool.or_eq_false_iff.1 (Bool.eq_false_iff.2 hb)
    cases rest <;> simp [decode, ha, htwo, hthree, hsecond, hstart]
  | case9 a ha htwo hthree b c r hbc ih =>
    have hr := ih (Decoding.cons_eq_illFormed.1 h)
    simp [decode, ha, htwo, hthree, hbc, hr, Decoding.cons]
  | case10 a ha htwo hthree b c r hbc => simp [decode, ha, htwo, hthree, hbc]
  | case13 a ha htwo hthree hfour b hb =>
    rcases rest with - | ⟨c, - | ⟨d, rest⟩⟩ <;> simp [decode, ha, htwo, hthree, hfour, hb]
  | case15 a ha htwo hthree hfour b c hbc =>
    cases rest <;> simp [decode, ha, htwo, hthree, hfour, hbc]
  | case16 a ha htwo hthree hfour b c d r hbcd ih =>
    have hr := ih (Decoding.cons_eq_illFormed.1 h)
    simp [decode, ha, htwo, hthree, hfour, hbcd, hr, Decoding.cons]
  | case17 a ha htwo hthree hfour b c d r hbcd => simp [decode, ha, htwo, hthree, hfour, hbcd]
  | case18 a r ha htwo hthree hfour =>
    rw [List.cons_append, decode.eq_def]
    simp [ha, htwo, hthree, hfour]

/-- Nothing says nothing. -/
theorem eq_nil_of_decode {bytes : Bytes} (h : decode bytes = .complete []) : bytes = [] := by
  have htells := tells_decode bytes
  rw [h] at htells
  exact htells

theorem decode_char (c : Char) : decode (String.utf8EncodeChar c) = .complete [.char c] := by
  rw [← List.append_nil (String.utf8EncodeChar c), decode_encodeChar]
  rfl

/-- Before the last byte of a character no other one ends. -/
theorem eq_nil_of_encode_append {c : Char} {t : Text} {rest : Bytes} (ht : isEncodable t = true)
    (h : encode t ++ rest = String.utf8EncodeChar c) (hrest : rest ≠ []) : t = [] := by
  have hchar := h ▸ decode_char c
  rw [decode_encode_append ht] at hchar
  cases hd : decode rest with
  | cutOff u | illFormed =>
    rw [hd] at hchar
    cases hchar
  | complete u =>
    rw [hd] at hchar
    have hlength : (t ++ u).length = 1 := by rw [Decoding.complete.inj hchar]; rfl
    have hu : u ≠ [] := by
      rintro rfl
      exact hrest (eq_nil_of_decode hd)
    have hpos := List.length_pos_iff.2 hu
    rw [List.length_append] at hlength
    exact List.eq_nil_of_length_eq_zero (by omega)

/-- **A tail that is cut off is taken for one.** -/
theorem decode_of_isCutOff {tail : Bytes} (h : IsCutOff tail) : decode tail = .cutOff [] := by
  cases h with
  | @surrogate b hb =>
    have hstart : isSurrogateStart 0xED b = true := by simp [isSurrogateStart, hb]
    simp [decode, hstart]
  | @char c _ missing hc hne hmissing =>
    have htells := tells_decode tail
    have hencodable := isEncodable_decode tail
    cases hd : decode tail with
    | illFormed =>
      -- Then the bytes of the character would be ill formed, too.
      have hwhole := decode_append_of_illFormed hd missing
      rw [hc, decode_char] at hwhole
      cases hwhole
    | complete t =>
      rw [hd] at htells hencodable
      obtain rfl : tail = encode t := htells
      obtain rfl := eq_nil_of_encode_append hencodable hc hmissing
      exact absurd rfl hne
    | cutOff t =>
      rw [hd] at htells hencodable
      obtain ⟨tail', rfl, -⟩ := htells
      rw [List.append_assoc] at hc
      obtain rfl : t = [] := eq_nil_of_encode_append hencodable hc (by simp [hmissing])
      rfl

/-- **No character begins with two bytes of a surrogate.** -/
theorem ne_encodeChar_of_surrogate {b : UInt8} (h : 0xA0 ≤ b ∧ b ≤ 0xBF) (c : Char)
    (missing : Bytes) : [0xED, b] ++ missing ≠ String.utf8EncodeChar c := by
  intro hc
  have hchar := hc ▸ decode_char c
  cases missing with
  | nil =>
    rw [List.append_nil, decode_of_isCutOff (.surrogate h)] at hchar
    cases hchar
  | cons d missing =>
    have hsecond : isSecondOfThree 0xED b = false := by
      refine Bool.eq_false_iff.2 fun hb => ?_
      have hb := (bounds_of_isSecondOfThree hb).2.2 rfl
      have hlow : 0xA0 ≤ b.toNat := UInt8.le_iff_toNat_le.1 h.1
      omega
    simp [decode, hsecond] at hchar

/-! ### The classes -/

section Classes

variable {bytes : Bytes} {t : Text}

/-- **The bytes are those of a text**, and of no more. -/
theorem decode_eq_complete_iff :
    decode bytes = .complete t ↔ isEncodable t = true ∧ bytes = encode t := by
  constructor
  · intro h
    have htells := tells_decode bytes
    have hencodable := isEncodable_decode bytes
    rw [h] at htells hencodable
    exact ⟨hencodable, htells⟩
  · rintro ⟨ht, rfl⟩
    exact decode_encode ht

/-- **The bytes are those of a text, and a tail that is cut off.** -/
theorem decode_eq_cutOff_iff : decode bytes = .cutOff t ↔
    isEncodable t = true ∧ ∃ tail, bytes = encode t ++ tail ∧ IsCutOff tail := by
  constructor
  · intro h
    have htells := tells_decode bytes
    have hencodable := isEncodable_decode bytes
    rw [h] at htells hencodable
    exact ⟨hencodable, htells⟩
  · rintro ⟨ht, tail, rfl, htail⟩
    rw [decode_encode_append ht, decode_of_isCutOff htail]
    exact congrArg _ (List.append_nil t)

/-- **The bytes are ill formed**: something is wrong with them that is not merely cut off. -/
def IsIllFormed (bytes : Bytes) : Prop :=
  ∀ t tail, isEncodable t = true → bytes = encode t ++ tail → tail ≠ [] ∧ ¬IsCutOff tail

theorem decode_eq_illFormed_iff : decode bytes = .illFormed ↔ IsIllFormed bytes := by
  constructor
  · rintro h t tail ht rfl
    rw [decode_encode_append ht] at h
    constructor
    · rintro rfl
      cases h
    · intro htail
      rw [decode_of_isCutOff htail] at h
      cases h
  · intro h
    cases hd : decode bytes with
    | illFormed => rfl
    | complete t =>
      obtain ⟨ht, hbytes⟩ := decode_eq_complete_iff.1 hd
      exact absurd rfl (h t [] ht (by rw [hbytes, List.append_nil])).1
    | cutOff t =>
      obtain ⟨ht, tail, hbytes, htail⟩ := decode_eq_cutOff_iff.1 hd
      exact absurd htail (h t tail ht hbytes).2

end Classes

end Embargo.Utf8
