import Embargo.Proofs.Documented
import Mathlib.Data.List.Basic

/-!
# Canonical names are fixed

The canonical form of a name is its own canonical form: asking again with what was answered asks for
the same catalog. The stem of a name stays as it is, so this is a matter of the version, and of the
numbers that it is made of.

* `Numeral.value?_ofNat` – a number is read back from its decimal text, which is no longer than the
  row of digits that it was read from (`Numeral.length_ofNat_le`).
* `Catalog.rows_of_canonicalVersion?` – a canonical version is the text of one number or of two, and
  canonical for these.
* `Catalog.canonicalForm_idem` – the conclusion, for names.
* `Catalog.IsCanonical` – the names that are their own canonical names.
-/

namespace Embargo

/-! ### Decimal texts -/

namespace Numeral

open Text

theorem decimalDigit?_char {d : Char} (h : d.isDigit = true) :
    decimalDigit? (.char d) = some (d.toNat - '0'.toNat) := by
  have hascii : d.toNat < 0x80 := by
    have hle : d.toNat ≤ 57 := (Char.isDigit_iff_toNat.1 h).2
    omega
  rw [decimalDigit?]
  change (if d.toNat < 0x80 then if d.isDigit then _ else _ else _) = _
  rw [if_pos hascii, if_pos h]
  rfl

theorem decimalDigit?_lt {c : CodePoint} {d : Nat} (h : decimalDigit? c = some d) : d < 10 := by
  unfold decimalDigit? at h
  split at h
  · split at h
    · next hdigit =>
      cases c with
      | char c =>
        have hle : c.toNat ≤ 57 := (Char.isDigit_iff_toNat.1 hdigit).2
        obtain rfl := Option.some.inj h
        change c.toNat - 48 < 10
        omega
      | surrogate offset => cases hdigit
    · cases h
  · obtain ⟨range, -, rfl⟩ := Option.map_eq_some_iff.1 h
    exact Nat.mod_lt _ (by omega)

theorem ofDigits_concat (digits : List Nat) (d : Nat) :
    ofDigits (digits ++ [d]) = 10 * ofDigits digits + d := by
  rw [ofDigits, List.foldl_append]
  rfl

theorem ofDigits_lt {digits : List Nat} (h : ∀ d ∈ digits, d < 10) :
    ofDigits digits < Nat.pow 10 digits.length := by
  induction digits using List.reverseRecOn with
  | nil => exact Nat.one_pos
  | append_singleton digits d ih =>
    have hd : d < 10 := h d (by simp)
    have hlt := ih fun d' hd' => h d' (List.mem_append_left _ hd')
    have hpow : Nat.pow 10 (digits.length + 1) = Nat.pow 10 digits.length * 10 := rfl
    rw [ofDigits_concat, List.length_append, List.length_singleton, hpow]
    omega

/-- A number is read back from its decimal text. -/
theorem value?_ofNat {n : Nat} (h : (ofNat n).length ≤ maxDigits) : value? (ofNat n) = some n := by
  have hdigits : (ofNat n).filterMap decimalDigit? =
      (Nat.toDigits 10 n).map fun d => d.toNat - '0'.toNat := by
    rw [ofNat, List.filterMap_map, ← List.filterMap_eq_map]
    refine List.filterMap_congr fun d hd => ?_
    exact decimalDigit?_char (Nat.isDigit_of_mem_toDigits (by omega) (by omega) hd)
  have hvalue : ofDigits ((Nat.toDigits 10 n).map fun d => d.toNat - '0'.toNat) = n := by
    rw [ofDigits, List.foldl_map]
    exact Nat.ofDigitChars_toDigits (by omega) (by omega)
  rw [value?, if_pos h, hdigits, hvalue]

/-- The decimal text of a number that was read is no longer than a row of digits may be. -/
theorem length_ofNat_le {row : Text} {n : Nat} (h : value? row = some n) :
    (ofNat n).length ≤ maxDigits := by
  unfold value? at h
  split at h
  · next hrow =>
    obtain rfl := Option.some.inj h
    have hdigits : ∀ d ∈ row.filterMap decimalDigit?, d < 10 := by
      rintro d hd
      obtain ⟨c, -, hc⟩ := List.mem_filterMap.1 hd
      exact decimalDigit?_lt hc
    have hlength : (row.filterMap decimalDigit?).length ≤ maxDigits :=
      Nat.le_trans (List.length_filterMap_le _ _) hrow
    have hpow := Nat.pow_le_pow_right (n := 10) (by omega) hlength
    rw [ofNat, List.length_map]
    exact (Nat.length_toDigits_le_iff (by omega) (by decide)).2
      (Nat.lt_of_lt_of_le (ofDigits_lt hdigits) hpow)
  · cases h

end Numeral

/-! ### Versions -/

namespace Catalog

theorem isDecimal_of_isDigitChar {c : CodePoint} (h : isDigitChar c = true) :
    Text.isDecimal c = true := by
  cases c with
  | char d => rw [Text.isDecimal, Numeral.decimalDigit?_char h]; rfl
  | surrogate offset => cases h

theorem notMem_ofNat {c : CodePoint} (h : isDigitChar c = false) (n : Nat) :
    c ∉ Numeral.ofNat n := fun hc => by
  rw [isDigitChar_of_mem_ofNat hc] at h
  cases h

theorem split_ofNat (a : Nat) : Text.split '.' (Numeral.ofNat a) = [Numeral.ofNat a] :=
  Text.split_of_notMem (notMem_ofNat (by decide) a)

theorem split_ofNat_two (a b : Nat) :
    Text.split '.' (Numeral.ofNat a ++ ".".toText ++ Numeral.ofNat b) =
      [Numeral.ofNat a, Numeral.ofNat b] :=
  Text.split_pair (notMem_ofNat (by decide) a) (notMem_ofNat (by decide) b)

/-- The decimal text of a number is short enough to be read. -/
def IsShort (n : Nat) : Prop := (Numeral.ofNat n).length ≤ Numeral.maxDigits

/-- **A canonical version is the text of one number or two**, and it is canonical for these. -/
theorem rows_of_canonicalVersion? {major minor : Nat} {v : Text} (hmajor : IsShort major)
    (hminor : IsShort minor) (h : canonicalVersion? major minor = some v) :
    (∃ a, IsShort a ∧ v = Numeral.ofNat a ∧ canonicalVersion? a 0 = some v) ∨
      ∃ a b, IsShort a ∧ IsShort b ∧ v = Numeral.ofNat a ++ ".".toText ++ Numeral.ofNat b ∧
        canonicalVersion? a b = some v := by
  have hone : IsShort 1 := show (Numeral.ofNat 1).length ≤ Numeral.maxDigits by decide
  have hv := h
  unfold canonicalVersion? at h
  split at h
  · next hold =>
    obtain rfl := Option.some.inj h
    exact .inr ⟨1, minor, hone, hminor, rfl, by rwa [← hold.1]⟩
  split at h
  · next hold =>
    obtain rfl := Option.some.inj h
    exact .inr ⟨1, major, hone, hmajor, rfl, if_pos (by omega)⟩
  split at h
  · obtain rfl := Option.some.inj h
    exact .inr ⟨major, minor, hmajor, hminor, rfl, hv⟩
  split at h
  · obtain rfl := Option.some.inj h
    obtain rfl : minor = 0 := by omega
    exact .inl ⟨major, hmajor, rfl, hv⟩
  · cases h

theorem versionNumbers_ofNat {a : Nat} (ha : IsShort a) (name : Text) :
    versionNumbers name (Numeral.ofNat a) = .ok (a, 0) := by
  rw [versionNumbers, split_ofNat]
  simp only [Numeral.value?_ofNat ha]

theorem versionNumbers_ofNat_two {a b : Nat} (ha : IsShort a) (hb : IsShort b) (name : Text) :
    versionNumbers name (Numeral.ofNat a ++ ".".toText ++ Numeral.ofNat b) = .ok (a, b) := by
  rw [versionNumbers, split_ofNat_two]
  simp only [Numeral.value?_ofNat ha, Numeral.value?_ofNat hb]

/-- The numbers that are read from a version are short. -/
theorem isShort_of_versionNumbers {name version : Text} {major minor : Nat}
    (h : versionNumbers name version = .ok (major, minor)) : IsShort major ∧ IsShort minor := by
  have hzero : IsShort 0 := show (Numeral.ofNat 0).length ≤ Numeral.maxDigits by decide
  unfold versionNumbers at h
  split at h
  · split at h
    · next a ha =>
      obtain ⟨rfl, rfl⟩ := Prod.mk.inj (Except.ok.inj h)
      exact ⟨Numeral.length_ofNat_le ha, hzero⟩
    · cases h
  · split at h
    · next a b ha hb =>
      obtain ⟨rfl, rfl⟩ := Prod.mk.inj (Except.ok.inj h)
      exact ⟨Numeral.length_ofNat_le ha, Numeral.length_ofNat_le hb⟩
    · cases h
  · cases h

theorem isVersionText_of_forall {t : Text}
    (h : ∀ row ∈ Text.split '.' t, ∃ n, row = Numeral.ofNat n) : isVersionText t = true := by
  refine List.all_eq_true.2 fun row hrow => ?_
  obtain ⟨n, rfl⟩ := h row hrow
  have hne : Numeral.ofNat n ≠ [] := by simp [Numeral.ofNat]
  have hdecimal : (Numeral.ofNat n).all Text.isDecimal = true :=
    List.all_eq_true.2 fun c hc => isDecimal_of_isDigitChar (isDigitChar_of_mem_ofNat hc)
  rw [hdecimal, Bool.and_true, Bool.not_eq_true', List.isEmpty_eq_false_iff]
  exact hne

/-- A canonical version stands for itself. -/
theorem eq_of_canonicalVersion? {major minor : Nat} {v : Text} (hmajor : IsShort major)
    (hminor : IsShort minor) (h : canonicalVersion? major minor = some v) (name : Text) :
    isVersionText v = true ∧
      ∃ a b, versionNumbers name v = .ok (a, b) ∧ canonicalVersion? a b = some v := by
  obtain ⟨a, ha, rfl, hv⟩ | ⟨a, b, ha, hb, rfl, hv⟩ := rows_of_canonicalVersion? hmajor hminor h
  · refine ⟨isVersionText_of_forall fun row hrow => ?_, a, 0, versionNumbers_ofNat ha name, hv⟩
    rw [split_ofNat] at hrow
    exact ⟨a, List.mem_singleton.1 hrow⟩
  · refine ⟨isVersionText_of_forall fun row hrow => ?_, a, b, versionNumbers_ofNat_two ha hb name,
      hv⟩
    rw [split_ofNat_two] at hrow
    rcases List.mem_cons.1 hrow with rfl | hrow
    · exact ⟨a, rfl⟩
    · exact ⟨b, List.mem_singleton.1 hrow⟩

/-! ### Names -/

/-- A version behind a hyphen is split off. -/
theorem splitVersion?_append {before version : Text} (hmark : platformMark.isPrefixOf before = true)
    (hversion : isVersionText version = true) (hhyphen : CodePoint.char '-' ∉ version) :
    splitVersion? (before ++ "-".toText ++ version) = some (before ++ "-".toText, version) := by
  have hcut : Text.cutLast '-' (before ++ "-".toText ++ version) = some (before, version) := by
    rw [List.append_assoc]
    exact Text.cutLast_append before hhyphen
  rw [splitVersion?, hcut]
  dsimp only
  rw [if_pos (by rw [hmark, hversion]; rfl)]

theorem of_splitVersion? {name stem version : Text}
    (h : splitVersion? name = some (stem, version)) :
    ∃ before, Text.cutLast '-' name = some (before, version) ∧ stem = before ++ "-".toText ∧
      platformMark.isPrefixOf before = true ∧ isVersionText version = true := by
  unfold splitVersion? at h
  split at h
  · next before after hcut =>
    split at h
    · next hboth =>
      obtain ⟨rfl, rfl⟩ := Prod.mk.inj (Option.some.inj h)
      obtain ⟨hmark, hversion⟩ := Bool.and_eq_true_iff.1 hboth
      exact ⟨before, hcut, rfl, hmark, hversion⟩
    · cases h
  · cases h

/-- The canonical form of a name with a version has the same stem, and a canonical version. -/
theorem splitVersion?_canonicalForm {name stem version r : Text}
    (hs : splitVersion? name = some (stem, version)) (h : canonicalForm name = .ok r) :
    ∃ v, r = stem ++ v ∧ splitVersion? r = some (stem, v) ∧
      ∃ a b, versionNumbers r v = .ok (a, b) ∧ canonicalVersion? a b = some v := by
  obtain ⟨before, -, rfl, hmark, -⟩ := of_splitVersion? hs
  rw [canonicalForm, hs] at h
  dsimp only at h
  cases hn : versionNumbers name version with
  | error e => simp [hn, bind, Except.bind] at h
  | ok numbers =>
    obtain ⟨major, minor⟩ := numbers
    simp only [hn, bind, Except.bind] at h
    split at h
    · next v hv =>
      obtain rfl := Except.ok.inj h
      obtain ⟨hmajor, hminor⟩ := isShort_of_versionNumbers hn
      obtain ⟨hversion, a, b, hab, hcanonical⟩ := eq_of_canonicalVersion? hmajor hminor hv
        (before ++ "-".toText ++ v)
      have hhyphen : CodePoint.char '-' ∉ v := fun hc => by
        rcases mem_canonicalVersion? hv hc with hdot | hdigit
        · exact absurd hdot (by decide)
        · exact absurd hdigit (by decide)
      exact ⟨v, rfl, splitVersion?_append hmark hversion hhyphen, a, b, hab, hcanonical⟩
    · cases h

/-- **A canonical form is its own canonical form.** -/
theorem canonicalForm_idem {name r : Text} (h : canonicalForm name = .ok r) :
    canonicalForm r = .ok r := by
  cases hs : splitVersion? name with
  | none =>
    have hr : canonicalForm name = .ok name := by rw [canonicalForm, hs]
    obtain rfl := Except.ok.inj (hr.symm.trans h)
    exact h
  | some parts =>
    obtain ⟨stem, version⟩ := parts
    obtain ⟨v, rfl, hsplit, a, b, hab, hv⟩ := splitVersion?_canonicalForm hs h
    rw [canonicalForm, hsplit]
    dsimp only
    rw [hab]
    simp only [bind, Except.bind, hv]

theorem canonicalName_eq_ok_iff {name r : Text} {target : Option Text} :
    canonicalName name target = .ok r ↔ isName name = true ∧
      isName (addTarget name target) = true ∧ canonicalForm (addTarget name target) = .ok r := by
  rw [canonicalName, checkName]
  by_cases hname : isName name = true
  · by_cases hfull : isName (addTarget name target) = true
    · simp [hname, hfull, checkName, bind, Except.bind]
    · simp [hname, hfull, checkName, bind, Except.bind]
  · simp [hname, bind, Except.bind]

/-- **A name is canonical** if it is its own canonical name. -/
def IsCanonical (name : Text) : Prop := canonicalName name none = .ok name

/-- What a name is brought to is canonical, also with a target. -/
theorem isCanonical_of_canonicalName {name r : Text} {target : Option Text}
    (h : canonicalName name target = .ok r) : IsCanonical r := by
  obtain ⟨-, -, hform⟩ := canonicalName_eq_ok_iff.1 h
  have hname := isName_of_canonicalName h
  exact canonicalName_eq_ok_iff.2 ⟨hname, hname, canonicalForm_idem hform⟩

theorem IsCanonical.isName {name : Text} (h : IsCanonical name) : Catalog.isName name = true :=
  isName_of_canonicalName h

end Catalog
end Embargo
