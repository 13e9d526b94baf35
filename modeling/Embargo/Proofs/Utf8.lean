import Embargo.Text.Feed

/-!
# UTF-8 can be read back

The catalogs of a table are kept as texts, handed out as bytes, and read as texts again. For a text
of characters this changes nothing but its line ends: `Utf8.decode_encode` and
`Feed.ofBytes_encode`. And so some of the lines that were read from bytes can be written as bytes
again, and be read as the same lines: `Feed.isLine_of_mem_ofBytes` and `Feed.ofBytes_encode_join`.

The numbers of one, two, three and four bytes are treated one by one, in `Utf8.decode_one` to
`Utf8.decode_four`: each says which bytes begin a character and which number they give, in terms of
natural numbers, so that the reader's tests are settled by arithmetic.
-/

namespace Embargo

namespace Utf8

variable {a b c d : UInt8} (rest : Bytes)

/-! ### Characters of each length -/

theorem and_le_iff (m n x : UInt8) :
    (decide (m ≤ x) && decide (x ≤ n)) = true ↔ m.toNat ≤ x.toNat ∧ x.toNat ≤ n.toNat := by
  rw [Bool.and_eq_true, decide_eq_true_eq, decide_eq_true_eq, UInt8.le_iff_toNat_le,
    UInt8.le_iff_toNat_le]

theorem decode_one (ha : a.toNat < 0x80) :
    decode (a :: rest) = (decode rest).cons (Char.ofNat a.toNat) := by
  rw [decode.eq_def]
  exact if_pos (UInt8.lt_iff_toNat_lt.2 ha)

theorem not_lt_ascii (ha : 0x80 ≤ a.toNat) : ¬a < 0x80 :=
  fun h => absurd (UInt8.lt_iff_toNat_lt.1 h) (Nat.not_lt.2 ha)

theorem decode_two (ha : 0xC2 ≤ a.toNat ∧ a.toNat ≤ 0xDF) (hb : 0x80 ≤ b.toNat ∧ b.toNat ≤ 0xBF) :
    decode (a :: b :: rest) =
      (decode rest).cons (Char.ofNat (a.toNat % 0x20 * 0x40 + b.toNat % 0x40)) := by
  have hcont : isContinuation b = true := (and_le_iff 0x80 0xBF b).2 hb
  rw [decode.eq_def]
  dsimp only
  rw [if_neg (not_lt_ascii (by omega)), if_pos ((and_le_iff 0xC2 0xDF a).2 ha), if_pos hcont]
  rfl

theorem decode_three (ha : 0xE0 ≤ a.toNat ∧ a.toNat ≤ 0xEF) (hb : 0x80 ≤ b.toNat ∧ b.toNat ≤ 0xBF)
    (hlow : a.toNat = 0xE0 → 0xA0 ≤ b.toNat) (hhigh : a.toNat = 0xED → b.toNat ≤ 0x9F)
    (hc : 0x80 ≤ c.toNat ∧ c.toNat ≤ 0xBF) :
    decode (a :: b :: c :: rest) = (decode rest).cons
      (Char.ofNat (a.toNat % 0x10 * 0x1000 + b.toNat % 0x40 * 0x40 + c.toNat % 0x40)) := by
  have htwo : ¬(decide (0xC2 ≤ a) && decide (a ≤ 0xDF)) = true := fun h => by
    have := (and_le_iff 0xC2 0xDF a).1 h
    simp at this
    omega
  have hcont : isContinuation c = true := (and_le_iff 0x80 0xBF c).2 hc
  have hsecond : isSecondOfThree a b = true := by
    -- The first bytes with narrower bounds exclude overlong forms and surrogates.
    unfold isSecondOfThree
    split
    · next h => exact (and_le_iff 0xA0 0xBF b).2 ⟨hlow (congrArg UInt8.toNat h), hb.2⟩
    · split
      · next h => exact (and_le_iff 0x80 0x9F b).2 ⟨hb.1, hhigh (congrArg UInt8.toNat h)⟩
      · exact (and_le_iff 0x80 0xBF b).2 hb
  rw [decode.eq_def]
  dsimp only
  rw [if_neg (not_lt_ascii (by omega)), if_neg htwo, if_pos ((and_le_iff 0xE0 0xEF a).2 ha),
    if_pos (by rw [hsecond, hcont]; rfl)]
  rfl

theorem decode_four (ha : 0xF0 ≤ a.toNat ∧ a.toNat ≤ 0xF4) (hb : 0x80 ≤ b.toNat ∧ b.toNat ≤ 0xBF)
    (hlow : a.toNat = 0xF0 → 0x90 ≤ b.toNat) (hhigh : a.toNat = 0xF4 → b.toNat ≤ 0x8F)
    (hc : 0x80 ≤ c.toNat ∧ c.toNat ≤ 0xBF) (hd : 0x80 ≤ d.toNat ∧ d.toNat ≤ 0xBF) :
    decode (a :: b :: c :: d :: rest) = (decode rest).cons
      (Char.ofNat (a.toNat % 0x08 * 0x40000 + b.toNat % 0x40 * 0x1000 + c.toNat % 0x40 * 0x40 +
        d.toNat % 0x40)) := by
  have htwo : ¬(decide (0xC2 ≤ a) && decide (a ≤ 0xDF)) = true := fun h => by
    have := (and_le_iff 0xC2 0xDF a).1 h
    simp at this
    omega
  have hthree : ¬(decide (0xE0 ≤ a) && decide (a ≤ 0xEF)) = true := fun h => by
    have := (and_le_iff 0xE0 0xEF a).1 h
    simp at this
    omega
  have hcont : isContinuation c = true := (and_le_iff 0x80 0xBF c).2 hc
  have hcont' : isContinuation d = true := (and_le_iff 0x80 0xBF d).2 hd
  have hsecond : isSecondOfFour a b = true := by
    unfold isSecondOfFour
    split
    · next h => exact (and_le_iff 0x90 0xBF b).2 ⟨hlow (congrArg UInt8.toNat h), hb.2⟩
    · split
      · next h => exact (and_le_iff 0x80 0x8F b).2 ⟨hb.1, hhigh (congrArg UInt8.toNat h)⟩
      · exact (and_le_iff 0x80 0xBF b).2 hb
  rw [decode.eq_def]
  dsimp only
  rw [if_neg (not_lt_ascii (by omega)), if_neg htwo, if_neg hthree,
    if_pos ((and_le_iff 0xF0 0xF4 a).2 ha), if_pos (by rw [hsecond, hcont, hcont']; rfl)]
  rfl

/-! ### Texts -/

theorem toNat_ofNat {n : Nat} (h : n < 0x100) : (UInt8.ofNat n).toNat = n := by
  rw [UInt8.toNat_ofNat']
  exact Nat.mod_eq_of_lt h

/-- **A character is read back**, whatever follows it. -/
theorem decode_encodeChar (c : Char) :
    decode (String.utf8EncodeChar c ++ rest) = (decode rest).cons c := by
  have hvalid : c.val.toNat < 0xD800 ∨ 0xDFFF < c.val.toNat ∧ c.val.toNat < 0x110000 := c.valid
  have hchar {n : Nat} (h : n = c.val.toNat) : Char.ofNat n = c := by
    rw [h]
    exact Char.ofNat_toNat c
  unfold String.utf8EncodeChar
  dsimp only
  generalize c.val.toNat = v at hvalid hchar ⊢
  -- One, two, three and four bytes: each byte is below 256, and together they give the number back.
  split
  · rw [List.singleton_append, decode_one rest (by rw [toNat_ofNat] <;> omega),
      toNat_ofNat (by omega), hchar rfl]
  split
  · have ha : (UInt8.ofNat (v / 64 % 0x20 + 0xC0)).toNat = v / 64 % 0x20 + 0xC0 :=
      toNat_ofNat (by omega)
    have hb : (UInt8.ofNat (v % 0x40 + 0x80)).toNat = v % 0x40 + 0x80 := toNat_ofNat (by omega)
    rw [List.cons_append, List.singleton_append, decode_two rest (by rw [ha]; omega)
      (by rw [hb]; omega), ha, hb, hchar (by omega)]
  split
  · have ha : (UInt8.ofNat (v / 4096 % 0x10 + 0xE0)).toNat = v / 4096 % 0x10 + 0xE0 :=
      toNat_ofNat (by omega)
    have hb : (UInt8.ofNat (v / 64 % 0x40 + 0x80)).toNat = v / 64 % 0x40 + 0x80 :=
      toNat_ofNat (by omega)
    have hc : (UInt8.ofNat (v % 0x40 + 0x80)).toNat = v % 0x40 + 0x80 := toNat_ofNat (by omega)
    rw [List.cons_append, List.cons_append, List.singleton_append,
      decode_three rest (by rw [ha]; omega) (by rw [hb]; omega) (by rw [ha, hb]; omega)
        (by rw [ha, hb]; omega) (by rw [hc]; omega), ha, hb, hc, hchar (by omega)]
  · have ha : (UInt8.ofNat (v / 262144 % 0x08 + 0xF0)).toNat = v / 262144 % 0x08 + 0xF0 :=
      toNat_ofNat (by omega)
    have hb : (UInt8.ofNat (v / 4096 % 0x40 + 0x80)).toNat = v / 4096 % 0x40 + 0x80 :=
      toNat_ofNat (by omega)
    have hc : (UInt8.ofNat (v / 64 % 0x40 + 0x80)).toNat = v / 64 % 0x40 + 0x80 :=
      toNat_ofNat (by omega)
    have hd : (UInt8.ofNat (v % 0x40 + 0x80)).toNat = v % 0x40 + 0x80 := toNat_ofNat (by omega)
    rw [List.cons_append, List.cons_append, List.cons_append, List.singleton_append,
      decode_four rest (by rw [ha]; omega) (by rw [hb]; omega) (by rw [ha, hb]; omega)
        (by rw [ha, hb]; omega) (by rw [hc]; omega) (by rw [hd]; omega), ha, hb, hc, hd,
      hchar (by omega)]

/-- **A text of characters is read back.** -/
theorem decode_encode {t : Text} (h : isEncodable t = true) : decode (encode t) = .complete t := by
  induction t with
  | nil => rfl
  | cons c t ih =>
    rw [isEncodable, List.all_cons, Bool.and_eq_true] at h
    obtain ⟨hc, ht⟩ := h
    rw [encode, List.flatMap_cons, ← encode]
    cases c with
    | char c =>
      rw [encodeOne, decode_encodeChar, ih ht]
      rfl
    | surrogate c => cases hc

/-! ### What is read can be encoded -/

/-- The text that could be read. -/
def Decoding.text : Decoding → Text
  | .complete t | .cutOff t => t
  | .illFormed => []

theorem Decoding.isEncodable_cons {c : Char} {d : Decoding} (h : isEncodable d.text = true) :
    isEncodable (d.cons c).text = true := by
  cases d with
  | illFormed => rfl
  | _ => exact Bool.and_eq_true_iff.2 ⟨rfl, h⟩

/-- **What is read can be encoded again.** -/
theorem isEncodable_decode (bytes : Bytes) : isEncodable (decode bytes).text = true := by
  fun_induction decode bytes
  -- After a character the reader goes on; in all other cases it stops there.
  case case2 ih | case4 ih | case9 ih | case16 ih => exact Decoding.isEncodable_cons ih
  all_goals rfl

end Utf8

/-! ### Lines of bytes -/

/-- The line can stand in a sequence of bytes: it has an encoding, and does not end before its
last character. -/
def Feed.IsLine (line : Text) : Prop :=
  ∀ c ∈ line, c.isChar = true ∧ c ≠ '\n' ∧ c ≠ '\r'

namespace Feed

/-- The feed of a text that was written as bytes: its lines, whatever line ends it has. -/
theorem ofBytes_encode {t : Text} (h : Utf8.isEncodable t = true) :
    ofBytes (Utf8.encode t) = ⟨Text.split '\n' (unifyLineEnds t), false⟩ := by
  rw [ofBytes, Utf8.decode_encode h]

theorem of_mem_unifyLineEnds {c : CodePoint} {t : Text} (h : c ∈ unifyLineEnds t) :
    c ≠ '\r' ∧ (c = '\n' ∨ c ∈ t) := by
  fun_induction unifyLineEnds t with
  | case1 => cases h
  | case2 r ih =>
    rcases List.mem_cons.1 h with rfl | h
    · exact ⟨by decide, .inl rfl⟩
    · exact (ih h).imp_right (Or.imp_right fun h =>
        List.mem_cons_of_mem _ (List.mem_cons_of_mem _ h))
  | case3 r hr ih =>
    rcases List.mem_cons.1 h with rfl | h
    · exact ⟨by decide, .inl rfl⟩
    · exact (ih h).imp_right (Or.imp_right (List.mem_cons_of_mem _))
  | case4 d r hrn hr ih =>
    rcases List.mem_cons.1 h with rfl | h
    · exact ⟨fun hd => hr hd, .inr List.mem_cons_self⟩
    · exact (ih h).imp_right (Or.imp_right (List.mem_cons_of_mem _))

theorem unifyLineEnds_of_notMem {t : Text} (h : CodePoint.char '\r' ∉ t) : unifyLineEnds t = t := by
  fun_induction unifyLineEnds t with
  | case1 => rfl
  | case2 r ih => simp at h
  | case3 r hr ih => simp at h
  | case4 d r hrn hr ih => rw [ih (List.not_mem_of_not_mem_cons h)]

/-- The fields of a text that can be encoded are lines of bytes. -/
theorem isLine_of_mem_split {t line : Text} (ht : Utf8.isEncodable t = true)
    (h : line ∈ Text.split '\n' (unifyLineEnds t)) : IsLine line := by
  intro c hc
  obtain ⟨hne, hmem⟩ := Text.of_mem_split h hc
  obtain ⟨hne', rfl | hmem⟩ := of_mem_unifyLineEnds hmem
  · exact absurd rfl hne
  · exact ⟨List.all_eq_true.1 ht c hmem, hne, hne'⟩

/-- The blocks that can be decoded give characters. -/
theorem isEncodable_decodable (bytes : Bytes) (n : Nat) :
    Utf8.isEncodable (decodable bytes n) = true := by
  induction n with
  | zero => rfl
  | succ n ih =>
    have htext := Utf8.isEncodable_decode (bytes.take ((n + 1) * blockSize))
    rw [decodable]
    split
    case h_1 t ht | h_2 t ht =>
      rw [ht] at htext
      exact htext
    case h_3 => exact ih

theorem isLine_of_mem_brokenBehind {t line : Text} (ht : Utf8.isEncodable t = true)
    (h : line ∈ (brokenBehind t).lines) : IsLine line := by
  refine isLine_of_mem_split (t := dropPendingReturn t) ?_ ((List.dropLast_sublist _).mem h)
  rw [dropPendingReturn]
  split
  · exact List.all_eq_true.2 fun c hc => List.all_eq_true.1 ht c ((List.dropLast_sublist _).mem hc)
  · exact ht

/-- **The lines that bytes yield can be written as bytes**, -/
theorem isLine_of_mem_ofBytes {bytes : Bytes} {line : Text} (h : line ∈ (ofBytes bytes).lines) :
    IsLine line := by
  have htext := Utf8.isEncodable_decode bytes
  unfold ofBytes at h
  split at h
  · next t ht =>
    rw [ht] at htext
    exact isLine_of_mem_split htext h
  · next t ht =>
    rw [ht] at htext
    exact isLine_of_mem_brokenBehind htext h
  · exact isLine_of_mem_brokenBehind (isEncodable_decodable bytes _) h

/-- and are read back then. A text without lines is read as an empty line. -/
theorem ofBytes_encode_join {lines : List Text} (h : ∀ line ∈ lines, IsLine line) :
    Utf8.isEncodable (Text.join ['\n'] lines) = true ∧
      ofBytes (Utf8.encode (Text.join ['\n'] lines)) =
        ⟨if lines = [] then [[]] else lines, false⟩ := by
  have hchars : ∀ c ∈ Text.join ['\n'] lines, c.isChar = true ∧ c ≠ '\r' := by
    intro c hc
    rcases Text.of_mem_join hc with hc | ⟨line, hline, hc⟩
    · obtain rfl := List.mem_singleton.1 hc
      exact ⟨rfl, by decide⟩
    · exact ⟨(h line hline c hc).1, (h line hline c hc).2.2⟩
  have hencodable : Utf8.isEncodable (Text.join ['\n'] lines) = true :=
    List.all_eq_true.2 fun c hc => (hchars c hc).1
  refine ⟨hencodable, ?_⟩
  rw [ofBytes_encode hencodable, unifyLineEnds_of_notMem fun hc => (hchars _ hc).2 rfl]
  split
  · next hnil =>
    rw [hnil]
    rfl
  · next hne =>
    rw [Text.split_join (fun line hline hc => (h line hline _ hc).2.1 rfl) hne]

end Feed
end Embargo
