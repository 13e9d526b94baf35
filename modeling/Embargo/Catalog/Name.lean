import Embargo.Text.Numeral

/-!
# Names of catalogs

Catalogs are addressed by name, and some names end in a version of the Java platform. Up to
release 8 a version has two spellings, `1.8` and `8`, and a minor number of zero says nothing, so a
name is brought to its **canonical** form before a catalog is looked up:

| written | canonical |
|---|---|
| `jdk-unsafe-8`, `jdk-unsafe-1.8`, `jdk-unsafe-8.0` | `jdk-unsafe-1.8` |
| `jdk-unsafe-9.0` | `jdk-unsafe-9` |
| `jdk-unsafe-11.2` | `jdk-unsafe-11.2` |

* `Catalog.isName` – the texts that may name a catalog.
* `Catalog.isUnversioned` – the `jdk-` names that have no version, and take the target's.
* `Catalog.canonicalName` – the canonical form of a name.
-/

namespace Embargo

/-- Why a text does not name a catalog. -/
inductive CatalogNameError where
  /-- A character that no name has, or no character at all. -/
  | malformed (name : Text)
  /-- The version that the name ends in is no version of the platform. -/
  | noSuchVersion (name : Text)
  /-- A number of the version has more digits than are converted. -/
  | numeralTooLong
  deriving DecidableEq

namespace Catalog

/-! ### Well-formed names -/

/-- A character of a catalog name. -/
def isNameChar (c : CodePoint) : Bool := c.isAlphanum || c = '-' || c = '.'

/-- Letters and digits of ASCII, hyphens and dots; not empty. -/
def isName (t : Text) : Bool := !t.isEmpty && t.all isNameChar

/-- The characters of names lie between the hyphen and the small `z`. -/
theorem bounds_of_isNameChar {c : CodePoint} (h : isNameChar c = true) :
    c.isChar = true ∧ 0x2D ≤ c.toNat ∧ c.toNat ≤ 0x7A := by
  have hcases : c.isAlphanum = true ∨ c = '-' ∨ c = '.' := by
    simpa [isNameChar, or_assoc] using h
  rcases hcases with halnum | rfl | rfl
  · cases c with
    | char d =>
      refine ⟨rfl, ?_⟩
      change 0x2D ≤ d.toNat ∧ d.toNat ≤ 0x7A
      have hd : (decide ('A'.val ≤ d.val ∧ d.val ≤ 'Z'.val) ||
          (decide ('a'.val ≤ d.val) && decide (d.val ≤ 'z'.val)) ||
          (decide ('0'.val ≤ d.val) && decide (d.val ≤ '9'.val))) = true := halnum
      simp only [Bool.or_eq_true, Bool.and_eq_true, decide_eq_true_eq, UInt32.le_iff_toNat_le,
        Char.toNat_val] at hd
      change (65 ≤ d.toNat ∧ d.toNat ≤ 90 ∨ 97 ≤ d.toNat ∧ d.toNat ≤ 122) ∨
        48 ≤ d.toNat ∧ d.toNat ≤ 57 at hd
      omega
    | surrogate offset => cases halnum
  · decide
  · decide

/-- The name, if it is one. -/
def checkName (t : Text) : Except CatalogNameError Text :=
  if isName t then .ok t else .error (.malformed t)

/-! ### Versions -/

/-- What names of platform catalogs begin with. -/
def platformMark : Text := "jdk-".toText

/-- Rows of decimal digits, of any script, with dots between them. -/
def isVersionText (t : Text) : Bool :=
  (Text.split '.' t).all fun row => !row.isEmpty && row.all Text.isDecimal

/-- A name of a platform catalog without a version at its end. -/
def isUnversioned (t : Text) : Bool :=
  platformMark.isPrefixOf t &&
    match Text.cutLast '-' t with
    | some (before, after) => before.contains '\n' || !isVersionText after
    | none => true

/-- The canonical text of a version, by its first and second number. -/
def canonicalVersion? (major minor : Nat) : Option Text :=
  if major = 1 ∧ 1 ≤ minor ∧ minor < 9 then some ("1.".toText ++ Numeral.ofNat minor)
  else if 1 < major ∧ major < 9 ∧ minor = 0 then some ("1.".toText ++ Numeral.ofNat major)
  else if 9 ≤ major ∧ 0 < minor then
    some (Numeral.ofNat major ++ ".".toText ++ Numeral.ofNat minor)
  else if 9 ≤ major then some (Numeral.ofNat major)
  else none

/-- The first and second number of a version; none if there are more. A missing second number
is zero. -/
def versionNumbers (name version : Text) : Except CatalogNameError (Nat × Nat) :=
  match Text.split '.' version with
  | [major] =>
    match Numeral.value? major with
    | some a => .ok (a, 0)
    | none => .error .numeralTooLong
  | [major, minor] =>
    match Numeral.value? major, Numeral.value? minor with
    | some a, some b => .ok (a, b)
    | _, _ => .error .numeralTooLong
  | _ => .error (.noSuchVersion name)

/-- The part of a name up to the hyphen before its version, and the version; none for a name
that has no version, or nothing but `jdk-` before it. -/
def splitVersion? (name : Text) : Option (Text × Text) :=
  match Text.cutLast '-' name with
  | some (before, after) =>
    if platformMark.isPrefixOf before && isVersionText after then some (before ++ "-".toText, after)
    else none
  | none => none

/-! ### Canonical names -/

/-- A well-formed name with its version in canonical form. -/
def canonicalForm (name : Text) : Except CatalogNameError Text :=
  match splitVersion? name with
  | none => .ok name
  | some (stem, version) => do
    let (major, minor) ← versionNumbers name version
    match canonicalVersion? major minor with
    | some v => .ok (stem ++ v)
    | none => .error (.noSuchVersion name)

/-- A name of a platform catalog without a version, with the target's version added. -/
def addTarget (name : Text) : Option Text → Text
  | some target => if isUnversioned name then name ++ "-".toText ++ target else name
  | none => name

/-- The canonical form of a name, for a target version if one is given. -/
def canonicalName (name : Text) (target : Option Text) : Except CatalogNameError Text := do
  let name ← checkName name
  let name ← checkName (addTarget name target)
  canonicalForm name

/-! ### Canonical names are well formed -/

/-- A digit of ASCII. -/
def isDigitChar : CodePoint → Bool
  | .char c => c.isDigit
  | .surrogate _ => false

theorem isDigitChar_of_mem_ofNat {n : Nat} {c : CodePoint} (h : c ∈ Numeral.ofNat n) :
    isDigitChar c = true := by
  obtain ⟨d, hm, rfl⟩ := List.mem_map.1 h
  exact Nat.isDigit_of_mem_toDigits (by omega) (by omega) hm

/-- The canonical text of a version has digits and dots only. -/
theorem mem_canonicalVersion? {major minor : Nat} {v : Text}
    (h : canonicalVersion? major minor = some v) {c : CodePoint} (hc : c ∈ v) :
    c = '.' ∨ isDigitChar c = true := by
  have hone : ∀ c ∈ "1.".toText, c = '.' ∨ isDigitChar c = true := by decide
  unfold canonicalVersion? at h
  split at h
  · obtain rfl := Option.some.inj h
    exact (List.mem_append.1 hc).elim (hone c) fun hc => Or.inr (isDigitChar_of_mem_ofNat hc)
  split at h
  · obtain rfl := Option.some.inj h
    exact (List.mem_append.1 hc).elim (hone c) fun hc => Or.inr (isDigitChar_of_mem_ofNat hc)
  split at h
  · obtain rfl := Option.some.inj h
    simp only [List.mem_append] at hc
    rcases hc with (hc | hc) | hc
    · exact Or.inr (isDigitChar_of_mem_ofNat hc)
    · exact Or.inl (List.mem_singleton.1 hc)
    · exact Or.inr (isDigitChar_of_mem_ofNat hc)
  split at h
  · obtain rfl := Option.some.inj h
    exact Or.inr (isDigitChar_of_mem_ofNat hc)
  · simp at h

theorem isNameChar_of_isDigitChar {c : CodePoint} (h : isDigitChar c = true) :
    isNameChar c = true := by
  cases c with
  | char c =>
    have hdigit : c.isDigit = true := h
    simp [isNameChar, CodePoint.isAlphanum, Char.isAlphanum, hdigit]
  | surrogate c => cases h

theorem isNameChar_of_canonicalVersion? {major minor : Nat} {v : Text}
    (h : canonicalVersion? major minor = some v) : ∀ c ∈ v, isNameChar c = true := by
  intro c hc
  rcases mem_canonicalVersion? h hc with rfl | hd
  · rfl
  · exact isNameChar_of_isDigitChar hd

/-- A canonical name is the name as written, or that name with another version behind its last
hyphen. -/
theorem eq_or_of_canonicalForm {name r : Text} (h : canonicalForm name = .ok r) :
    r = name ∨ ∃ before after major minor v, Text.cutLast '-' name = some (before, after) ∧
      canonicalVersion? major minor = some v ∧ r = before ++ "-".toText ++ v := by
  unfold canonicalForm at h
  split at h
  · exact Or.inl (Except.ok.inj h).symm
  · next stem version hs =>
    cases hv : versionNumbers name version with
    | error e => simp [hv, bind, Except.bind] at h
    | ok numbers =>
      obtain ⟨major, minor⟩ := numbers
      simp only [hv, bind, Except.bind] at h
      split at h
      · next v hc =>
        obtain rfl := Except.ok.inj h
        simp only [splitVersion?] at hs
        split at hs
        · next before after hcut =>
          split at hs
          · obtain ⟨rfl, rfl⟩ := Prod.mk.inj (Option.some.inj hs)
            exact Or.inr ⟨before, after, major, minor, v, hcut, hc, rfl⟩
          · simp at hs
        · simp at hs
      · simp at h

/-- **A canonical name is a name.** -/
theorem isName_of_canonicalForm {name r : Text} (hname : isName name = true)
    (h : canonicalForm name = .ok r) : isName r = true := by
  rcases eq_or_of_canonicalForm h with rfl | ⟨before, after, major, minor, v, hcut, hv, rfl⟩
  · exact hname
  · simp only [isName, Bool.and_eq_true, List.all_eq_true, List.mem_append] at hname ⊢
    refine ⟨by simp [String.toText], ?_⟩
    rintro c ((hb | hb) | hb)
    · exact hname.2 c (Text.mem_of_cutLast hcut hb)
    · obtain rfl := List.mem_singleton.1 hb
      rfl
    · exact isNameChar_of_canonicalVersion? hv c hb

/-- A canonical name that does not end in a character of a version is the name as written. -/
theorem eq_of_canonicalForm {name r : Text} (h : canonicalForm name = .ok r) {c : CodePoint}
    (hc : r.getLast? = some c) (hhyphen : c ≠ '-') (hdot : c ≠ '.')
    (hdigit : isDigitChar c = false) : r = name := by
  rcases eq_or_of_canonicalForm h with rfl | ⟨before, after, major, minor, v, -, hv, rfl⟩
  · rfl
  · rw [List.getLast?_append] at hc
    cases hlast : v.getLast? with
    | none =>
      rw [hlast, List.getLast?_append] at hc
      exact absurd (Option.some.inj hc).symm hhyphen
    | some d =>
      rw [hlast] at hc
      obtain rfl := Option.some.inj hc
      rcases mem_canonicalVersion? hv (List.mem_of_getLast? hlast) with rfl | hd
      · exact absurd rfl hdot
      · rw [hd] at hdigit
        cases hdigit

theorem isName_of_checkName {t r : Text} (h : checkName t = .ok r) : isName r = true := by
  unfold checkName at h
  split at h
  · next hn => exact Except.ok.inj h ▸ hn
  · simp at h

/-- The canonical form of a name without a target is its canonical form. -/
theorem canonicalForm_of_canonicalName {name r : Text} (h : canonicalName name none = .ok r) :
    canonicalForm name = .ok r := by
  unfold canonicalName checkName at h
  by_cases hn : isName name = true
  · simpa [hn, addTarget, bind, Except.bind] using h
  · simp [hn, bind, Except.bind] at h

theorem isName_of_canonicalName {name r : Text} {target : Option Text}
    (h : canonicalName name target = .ok r) : isName r = true := by
  unfold canonicalName at h
  cases hn : checkName name with
  | error e => simp [hn, bind, Except.bind] at h
  | ok name' =>
    simp only [hn, bind, Except.bind] at h
    cases ht : checkName (addTarget name' target) with
    | error e => simp [ht] at h
    | ok full =>
      simp only [ht] at h
      exact isName_of_canonicalForm (isName_of_checkName ht) h

/-- A name has no slash, so the file of a catalog stays in its directory. -/
theorem slash_notMem_of_isName {t : Text} (h : isName t = true) : CodePoint.char '/' ∉ t := by
  simp only [isName, Bool.and_eq_true, List.all_eq_true] at h
  exact fun hm => absurd (h.2 _ hm) (by decide)

end Catalog
end Embargo
