import Embargo.Failure
import Embargo.Proofs.Respelling
import Mathlib.Data.Nat.Digits.Defs

/-!
# Releases of the platform

The version at the end of a name **denotes a release** of the platform, or none. A release has
several versions, and one of them is canonical:

| release | versions | canonical |
|---|---|---|
| `old k`, with `k` from 1 to 8 | `1.k`, and `k` and `k.0` for `k` from 2 on | `1.k` |
| `new N 0`, with `N` from 9 on | `N`, `N.0` | `N` |
| `new N m`, with `m` from 1 on | `N.m` | `N.m` |

The numbers are what counts, so zeros in front of them do not matter. All this is said here apart
from the functions that read versions and write them.

* `Numeral.Row` – a row of digits that is short enough to be read, with its value.
* `Release`, `Release.IsWritten`, `Release.text` – the table.
* `Catalog.canonicalVersion?_eq_some_iff` – **the canonical version is that of the release**.
* `Catalog.VersionedName` – a name with a version of one number or two.
* `Catalog.exists_versioned_of_splitVersion?` – no other names have a version.
* `Catalog.release_canonicalization` – what becomes of all names.
-/

namespace Embargo

theorem Text.notMem_of_cutLast {c : CodePoint} {t : Text} (h : cutLast c t = none) : c ∉ t := by
  induction t with
  | nil => exact List.not_mem_nil
  | cons d r ih =>
    rw [cutLast] at h
    split at h
    · cases h
    · next hr =>
      split at h
      · cases h
      · next hd => exact List.not_mem_cons_of_ne_of_not_mem (Ne.symm hd) (ih hr)

theorem Text.cutLast_eq_some_iff {c : CodePoint} {t before after : Text} :
    cutLast c t = some (before, after) ↔ t = before ++ c :: after ∧ c ∉ after := by
  constructor
  · intro h
    induction t generalizing before with
    | nil => cases h
    | cons d r ih =>
      rw [cutLast] at h
      split at h
      · next b a hr =>
        obtain ⟨rfl, rfl⟩ := Prod.mk.inj (Option.some.inj h)
        obtain ⟨rfl, hafter⟩ := ih hr
        exact ⟨rfl, hafter⟩
      · next hr =>
        split at h
        · next hd =>
          obtain ⟨rfl, rfl⟩ := Prod.mk.inj (Option.some.inj h)
          exact ⟨by rw [hd, List.nil_append], notMem_of_cutLast hr⟩
        · cases h
  · rintro ⟨rfl, h⟩
    exact cutLast_append before h

/-- The rows of a version of one number or two. -/
theorem Text.forall_mem_cons_toList {α : Type} {f : α → Text} {p : Text → Prop}
    (h : ∀ a, p (f a)) (a : α) (o : Option α) : ∀ row ∈ f a :: (o.map f).toList, p row := by
  cases o <;> simp [h]

/-! ### Rows of digits -/

namespace Numeral

open Text

/-- **A row of digits** of ASCII that is short enough to be read. -/
structure Row where
  /-- The digits. -/
  text : Text
  /-- There is a digit. -/
  ne_nil : text ≠ []
  /-- All characters are digits. -/
  isDigitChar : ∀ c ∈ text, Catalog.isDigitChar c = true
  /-- There are not too many. -/
  length_le : text.length ≤ maxDigits

/-- The number that a row denotes, from the places of its digits. -/
def Row.value (row : Row) : Nat :=
  Nat.ofDigits 10 (row.text.reverse.map fun c => c.toNat - (CodePoint.char '0').toNat)

theorem decimalDigit?_of_isDigitChar {c : CodePoint} (h : Catalog.isDigitChar c = true) :
    decimalDigit? c = some (c.toNat - (CodePoint.char '0').toNat) := by
  cases c with
  | char d => exact decimalDigit?_char h
  | surrogate offset => cases h

theorem ofDigits_eq (digits : List Nat) : ofDigits digits = Nat.ofDigits 10 digits.reverse := by
  induction digits using List.reverseRecOn with
  | nil => rfl
  | append_singleton digits d ih =>
    rw [ofDigits_concat, ih, List.reverse_append, List.reverse_singleton, List.singleton_append,
      Nat.ofDigits_cons]
    omega

/-- **A row is read as the number that it denotes.** -/
theorem Row.value?_text (row : Row) : value? row.text = some row.value := by
  have hdigits : row.text.filterMap decimalDigit? =
      row.text.map fun c => c.toNat - (CodePoint.char '0').toNat := by
    rw [← List.filterMap_eq_map]
    exact List.filterMap_congr fun c hc => decimalDigit?_of_isDigitChar (row.isDigitChar c hc)
  rw [Numeral.value?, if_pos row.length_le, hdigits, ofDigits_eq, ← List.map_reverse]
  rfl

theorem ofNat_injective {a b : Nat} (h : ofNat a = ofNat b) : a = b := by
  have hdigits : Nat.toDigits 10 a = Nat.toDigits 10 b :=
    List.map_injective_iff.2 (fun _ _ => CodePoint.char.inj) h
  rw [← Nat.ofDigitChars_toDigits (b := 10) (n := a) (by omega) (by omega), hdigits,
    Nat.ofDigitChars_toDigits (by omega) (by omega)]

end Numeral

/-! ### Releases -/

/-- **A release of the platform.** -/
inductive Release where
  /-- One of the first eight. -/
  | old (k : Nat) (h : 1 ≤ k ∧ k ≤ 8)
  /-- A later one, with its second number, which may be zero. -/
  | new (major minor : Nat) (h : 9 ≤ major)
  deriving DecidableEq

namespace Release

/-- **The numbers of a version denote the release.** A version may have a second number or not. -/
def IsWritten : Release → Nat → Option Nat → Prop
  | .old k _, major, minor =>
    (major = 1 ∧ minor = some k) ∨ (2 ≤ k ∧ major = k ∧ (minor = none ∨ minor = some 0))
  | .new a b _, major, minor => major = a ∧ minor.getD 0 = b

/-- The numbers of the canonical version. -/
def numbers : Release → List Nat
  | .old k _ => [1, k]
  | .new major 0 _ => [major]
  | .new major (minor + 1) _ => [major, minor + 1]

/-- **The canonical version of a release**: its numbers in decimal, with a dot between them. -/
def text (ρ : Release) : Text := Text.join ['.'] (ρ.numbers.map Numeral.ofNat)

theorem numbers_injective {ρ ρ' : Release} (h : ρ.numbers = ρ'.numbers) : ρ = ρ' := by
  rcases ρ with ⟨k, hk⟩ | ⟨a, _ | b, ha⟩ <;> rcases ρ' with ⟨k', hk'⟩ | ⟨a', _ | b', ha'⟩ <;>
    grind [numbers]

theorem split_text (ρ : Release) : Text.split '.' ρ.text = ρ.numbers.map Numeral.ofNat := by
  refine Text.split_join (fun row hrow => ?_) fun h => ?_
  · obtain ⟨n, -, rfl⟩ := List.mem_map.1 hrow
    exact Catalog.notMem_ofNat (by decide) n
  · rcases ρ with ⟨k, hk⟩ | ⟨a, _ | b, ha⟩ <;> cases h

/-- **Different releases have different canonical versions.** -/
theorem text_injective {ρ ρ' : Release} (h : ρ.text = ρ'.text) : ρ = ρ' := by
  refine numbers_injective (List.map_injective_iff.2 (fun _ _ => Numeral.ofNat_injective) ?_)
  rw [← split_text, h, split_text]

theorem eq_or_isDigitChar {ρ : Release} {c : CodePoint} (h : c ∈ ρ.text) :
    c = '.' ∨ Catalog.isDigitChar c = true := by
  rcases Text.of_mem_join h with h | ⟨row, hrow, h⟩
  · exact .inl (List.mem_singleton.1 h)
  · obtain ⟨n, -, rfl⟩ := List.mem_map.1 hrow
    exact .inr (Catalog.isDigitChar_of_mem_ofNat h)

theorem hyphen_notMem_text (ρ : Release) : CodePoint.char '-' ∉ ρ.text := fun h =>
  absurd (eq_or_isDigitChar h) (by decide)

end Release

namespace Catalog

theorem canonicalVersion?_new {major : Nat} (h : 9 ≤ major) (minor : Nat) :
    canonicalVersion? major minor = some (Release.new major minor h).text := by
  rw [canonicalVersion?, if_neg (by omega), if_neg (by omega)]
  cases minor with
  | zero => rw [if_neg (by omega), if_pos h]; rfl
  | succ minor => rw [if_pos (by omega)]; rfl

/-- **The canonical version of some numbers is that of the release that they denote.** -/
theorem canonicalVersion?_eq_some_iff {major : Nat} {minor : Option Nat} {v : Text} :
    canonicalVersion? major (minor.getD 0) = some v ↔
      ∃ ρ : Release, ρ.IsWritten major minor ∧ v = ρ.text := by
  constructor
  · intro h
    by_cases hnew : 9 ≤ major
    · refine ⟨.new major (minor.getD 0) hnew, ⟨rfl, rfl⟩, ?_⟩
      exact Option.some.inj (h.symm.trans (canonicalVersion?_new hnew _))
    rw [canonicalVersion?] at h
    split at h
    · next hold =>
      obtain ⟨rfl, hlow, hhigh⟩ := hold
      obtain rfl := Option.some.inj h
      cases minor with
      | none => exact absurd hlow (by decide)
      | some m => exact ⟨.old m ⟨hlow, Nat.le_of_lt_succ hhigh⟩, .inl ⟨rfl, rfl⟩, rfl⟩
    split at h
    · next hold =>
      obtain ⟨hlow, hhigh, hminor⟩ := hold
      obtain rfl := Option.some.inj h
      refine ⟨.old major (by omega), .inr ⟨hlow, rfl, ?_⟩, rfl⟩
      cases minor with
      | none => exact .inl rfl
      | some m => exact .inr (congrArg some hminor)
    simp [hnew] at h
  · rintro ⟨⟨k, hk⟩ | ⟨a, b, ha⟩, hwritten, rfl⟩
    · rcases hwritten with ⟨rfl, rfl⟩ | ⟨hlow, rfl, rfl | rfl⟩
      · exact if_pos ⟨rfl, hk.1, Nat.lt_succ_of_le hk.2⟩
      · exact (if_neg (by simp)).trans (if_pos ⟨hlow, by omega, rfl⟩)
      · exact (if_neg (by simp)).trans (if_pos ⟨hlow, by omega, rfl⟩)
    · obtain ⟨rfl, rfl⟩ := hwritten
      exact canonicalVersion?_new ha _

/-- The numbers that denote a release. -/
theorem exists_isWritten_iff {major : Nat} {minor : Option Nat} :
    (∃ ρ : Release, ρ.IsWritten major minor) ↔
      (major = 1 ∧ ∃ m, minor = some m ∧ 1 ≤ m ∧ m ≤ 8) ∨
      (2 ≤ major ∧ major ≤ 8 ∧ (minor = none ∨ minor = some 0)) ∨ 9 ≤ major := by
  constructor
  · rintro ⟨⟨k, hk⟩ | ⟨a, b, ha⟩, hwritten⟩
    · rcases hwritten with ⟨rfl, rfl⟩ | ⟨hlow, rfl, hminor⟩
      · exact .inl ⟨rfl, k, rfl, hk⟩
      · exact .inr (.inl ⟨hlow, hk.2, hminor⟩)
    · exact .inr (.inr (hwritten.1 ▸ ha))
  · rintro (⟨rfl, m, rfl, hm⟩ | ⟨hlow, hhigh, hminor⟩ | hnew)
    · exact ⟨.old m hm, .inl ⟨rfl, rfl⟩⟩
    · exact ⟨.old major ⟨by omega, hhigh⟩, .inr ⟨hlow, rfl, hminor⟩⟩
    · exact ⟨.new major (minor.getD 0) hnew, rfl, rfl⟩

/-! ### Names with a version -/

/-- The name of a platform catalog with something behind its last hyphen. -/
def versioned (middle version : Text) : Text := platformMark ++ middle ++ "-".toText ++ version

section Versioned

variable {middle version : Text} (hmiddle : ∀ c ∈ middle, isNameChar c = true)
  (hversion : IsDigitRows version)

include hmiddle in
theorem isName_platformMark : isName (platformMark ++ middle) = true := by
  refine Bool.and_eq_true_iff.2 ⟨rfl, List.all_eq_true.2 fun c hc => ?_⟩
  rcases List.mem_append.1 hc with hc | hc
  · exact List.all_eq_true.1 (show platformMark.all isNameChar = true by decide) c hc
  · exact hmiddle c hc

include hversion in
theorem splitVersion?_versioned :
    splitVersion? (versioned middle version) =
      some (platformMark ++ middle ++ "-".toText, version) :=
  splitVersion?_append (List.isPrefixOf_iff_prefix.2 (List.prefix_append _ _))
    hversion.isVersionText hversion.hyphen_notMem

include hmiddle hversion in
theorem canonicalName_versioned :
    canonicalName (versioned middle version) none = canonicalForm (versioned middle version) := by
  have hname : isName (versioned middle version) = true :=
    hversion.isName_append (isName_platformMark hmiddle)
  have hnone : addTarget (versioned middle version) none = versioned middle version := rfl
  simp [canonicalName, checkName, hname, hnone, bind, Except.bind]

end Versioned

/-- **A name with a version** of one number or two. -/
structure VersionedName where
  /-- What stands between `jdk-` and the hyphen before the version. -/
  middle : Text
  /-- It is made of characters of names. -/
  isNameChar : ∀ c ∈ middle, isNameChar c = true
  /-- The first number. -/
  major : Numeral.Row
  /-- The second number. -/
  minor : Option Numeral.Row

namespace VersionedName

variable (n : VersionedName)

/-- The version. -/
def version : Text := Text.join ['.'] (n.major.text :: (n.minor.map Numeral.Row.text).toList)

/-- The name. -/
def text : Text := versioned n.middle n.version

/-- The name without the version. -/
def stem : Text := platformMark ++ n.middle ++ "-".toText

/-- **The name asks for the release.** -/
def Denotes (ρ : Release) : Prop := ρ.IsWritten n.major.value (n.minor.map Numeral.Row.value)

theorem split_version :
    Text.split '.' n.version = n.major.text :: (n.minor.map Numeral.Row.text).toList := by
  have hdot (row : Numeral.Row) : CodePoint.char '.' ∉ row.text := fun h =>
    absurd (row.isDigitChar _ h) (by decide)
  exact Text.split_join (Text.forall_mem_cons_toList hdot _ _) (List.cons_ne_nil _ _)

theorem isDigitRows_version : IsDigitRows n.version := by
  rw [IsDigitRows, split_version]
  exact Text.forall_mem_cons_toList (fun row => ⟨row.ne_nil, row.isDigitChar⟩) _ _

theorem versionNumbers_version (name : Text) : versionNumbers name n.version =
    .ok (n.major.value, (n.minor.map Numeral.Row.value).getD 0) := by
  rw [versionNumbers, split_version]
  cases n.minor with
  | none => simp [n.major.value?_text]
  | some minor => simp [n.major.value?_text, minor.value?_text]

theorem canonicalName_text : canonicalName n.text none =
    match canonicalVersion? n.major.value ((n.minor.map Numeral.Row.value).getD 0) with
    | some v => .ok (n.stem ++ v)
    | none => .error (.noSuchVersion n.text) := by
  rw [text, canonicalName_versioned n.isNameChar n.isDigitRows_version, canonicalForm,
    splitVersion?_versioned n.isDigitRows_version]
  dsimp only
  rw [versionNumbers_version]
  rfl

/-- **A name that asks for a release** has the canonical version of that release behind its stem. -/
theorem canonicalName_of_denotes {ρ : Release} (h : n.Denotes ρ) :
    canonicalName n.text none = .ok (n.stem ++ ρ.text) := by
  rw [canonicalName_text, canonicalVersion?_eq_some_iff.2 ⟨ρ, h, rfl⟩]

/-- **A name that asks for no release** is refused. -/
theorem canonicalName_of_not_denotes (h : ¬∃ ρ, n.Denotes ρ) :
    canonicalName n.text none = .error (.noSuchVersion n.text) := by
  rw [canonicalName_text]
  split
  · next v hv =>
    obtain ⟨ρ, hρ, -⟩ := canonicalVersion?_eq_some_iff.1 hv
    exact absurd ⟨ρ, hρ⟩ h
  · rfl

theorem canonicalName_eq_ok_iff {r : Text} :
    canonicalName n.text none = .ok r ↔ ∃ ρ, n.Denotes ρ ∧ r = n.stem ++ ρ.text := by
  constructor
  · intro h
    by_cases hdenotes : ∃ ρ, n.Denotes ρ
    · obtain ⟨ρ, hρ⟩ := hdenotes
      exact ⟨ρ, hρ, Except.ok.inj (h.symm.trans (n.canonicalName_of_denotes hρ))⟩
    · rw [n.canonicalName_of_not_denotes hdenotes] at h
      cases h
  · rintro ⟨ρ, hρ, rfl⟩
    exact n.canonicalName_of_denotes hρ

variable {n} {n' : VersionedName}

/-- The last hyphen ends the stem. -/
theorem stem_append_inj {v v' : Text} (hv : CodePoint.char '-' ∉ v)
    (hv' : CodePoint.char '-' ∉ v') :
    n'.stem ++ v' = n.stem ++ v ↔ n'.stem = n.stem ∧ v' = v := by
  refine ⟨fun h => ?_, fun h => by rw [h.1, h.2]⟩
  have hcut {n : VersionedName} {v : Text} (hv : CodePoint.char '-' ∉ v) :
      Text.cutLast '-' (n.stem ++ v) = some (platformMark ++ n.middle, v) := by
    rw [stem, List.append_assoc]
    exact Text.cutLast_append _ hv
  obtain ⟨hstem, rfl⟩ := Prod.mk.inj (Option.some.inj ((hcut hv').symm.trans (h ▸ hcut hv)))
  exact ⟨congrArg (· ++ "-".toText) hstem, rfl⟩

/-- **Two names that ask for releases** come to one name if they have one stem and ask for one
release, and only then. -/
theorem canonicalName_eq_iff {ρ ρ' : Release} (hρ : n.Denotes ρ) (hρ' : n'.Denotes ρ') :
    canonicalName n'.text none = canonicalName n.text none ↔ n'.stem = n.stem ∧ ρ' = ρ := by
  rw [n.canonicalName_of_denotes hρ, n'.canonicalName_of_denotes hρ', Except.ok.injEq,
    stem_append_inj ρ.hyphen_notMem_text ρ'.hyphen_notMem_text]
  exact and_congr_right fun _ => ⟨Release.text_injective, congrArg Release.text⟩

end VersionedName

/-! ### All names -/

theorem versionNumbers_of_length {name version : Text}
    (h : 2 < (Text.split '.' version).length) :
    versionNumbers name version = .error (.noSuchVersion name) := by
  rw [versionNumbers]
  split
  · next major hrows => simp [hrows] at h
  · next major minor hrows => simp [hrows] at h
  · rfl

/-- **The name is refused**, and reported as one with a version of no release. -/
def IsRefused (name : Text) (target : Option Text) : Prop :=
  ∃ f, canonicalName name target = .error (.noSuchVersion (addTarget name target)) ∧
    (CatalogNameError.noSuchVersion (addTarget name target)).problem = .failure f ∧
    f.kind = .catalogName

theorem isRefused_iff {name : Text} {target : Option Text} : IsRefused name target ↔
    canonicalName name target = .error (.noSuchVersion (addTarget name target)) :=
  ⟨fun ⟨_, h, _⟩ => h, fun h => ⟨_, h, rfl, rfl⟩⟩

/-- A version of more than two numbers is one of no release. -/
theorem isRefused_of_length {middle version : Text} (hmiddle : ∀ c ∈ middle, isNameChar c = true)
    (hversion : IsDigitRows version) (h : 2 < (Text.split '.' version).length) :
    IsRefused (versioned middle version) none := by
  rw [isRefused_iff, canonicalName_versioned hmiddle hversion, canonicalForm,
    splitVersion?_versioned hversion]
  dsimp only
  rw [versionNumbers_of_length h]
  rfl

/-- The decimal digits of names are those of ASCII. -/
theorem isDigitChar_of_isDecimal {c : CodePoint} (hname : isNameChar c = true)
    (h : Text.isDecimal c = true) : isDigitChar c = true := by
  obtain ⟨-, -, hle⟩ := bounds_of_isNameChar hname
  rw [Text.isDecimal, Text.decimalDigit?, if_pos (by omega)] at h
  split at h
  · next hdigit => cases c <;> exact hdigit
  · cases h

theorem isDigitRows_of_isVersionText {t : Text} (hchars : ∀ c ∈ t, isNameChar c = true)
    (h : isVersionText t = true) : IsDigitRows t := by
  intro row hrow
  obtain ⟨hne, hdecimal⟩ := Bool.and_eq_true_iff.1 (List.all_eq_true.1 h row hrow)
  refine ⟨by simpa using hne, fun c hc => ?_⟩
  exact isDigitChar_of_isDecimal (hchars c (Text.of_mem_split hrow hc).2)
    (List.all_eq_true.1 hdecimal c hc)

theorem isNameChar_of_isName {name : Text} (hname : isName name = true) :
    ∀ c ∈ name, isNameChar c = true :=
  List.all_eq_true.1 (Bool.and_eq_true_iff.1 hname).2

/-- **A name with a version has digits behind its last hyphen**, and `jdk-` at the front. -/
theorem exists_versioned_of_splitVersion? {name stem version : Text} (hname : isName name = true)
    (h : splitVersion? name = some (stem, version)) :
    IsDigitRows version ∧ ∃ middle, (∀ c ∈ middle, isNameChar c = true) ∧
      stem = platformMark ++ middle ++ "-".toText ∧ name = versioned middle version := by
  obtain ⟨before, hcut, rfl, hmark, hversion⟩ := of_splitVersion? h
  obtain ⟨rfl, -⟩ := Text.cutLast_eq_some_iff.1 hcut
  obtain ⟨middle, rfl⟩ := List.isPrefixOf_iff_prefix.1 hmark
  have hchars := isNameChar_of_isName hname
  have heq : platformMark ++ middle ++ CodePoint.char '-' :: version =
      versioned middle version := by
    simp [versioned, String.toText]
  exact ⟨isDigitRows_of_isVersionText (fun c hc => hchars c (by simp [hc])) hversion, middle,
    fun c hc => hchars c (by simp [hc]), rfl, heq⟩

/-- A name with a version of one number or two that are not too long is one of those above. -/
theorem exists_versionedName {middle version : Text} (hmiddle : ∀ c ∈ middle, isNameChar c = true)
    (hversion : IsDigitRows version) (hlength : (Text.split '.' version).length ≤ 2)
    (hlong : ¬HasLongNumeral (versioned middle version)) :
    ∃ n : VersionedName, n.middle = middle ∧ n.version = version := by
  have hrow : ∀ r ∈ Text.split '.' version, ∃ row : Numeral.Row, row.text = r := fun r hr =>
    ⟨⟨r, (hversion r hr).1, (hversion r hr).2, Nat.le_of_not_lt fun h =>
      hlong ⟨_, version, splitVersion?_versioned hversion, hlength, r, hr, h⟩⟩, rfl⟩
  have hjoin := Text.join_split '.' version
  rcases hrows : Text.split '.' version with _ | ⟨a, _ | ⟨b, _ | ⟨c, rows⟩⟩⟩
  · exact absurd hrows (Text.split_ne_nil _ _)
  · obtain ⟨major, rfl⟩ := hrow a (by simp [hrows])
    rw [hrows] at hjoin
    exact ⟨⟨middle, hmiddle, major, none⟩, rfl, hjoin⟩
  · obtain ⟨major, rfl⟩ := hrow a (by simp [hrows])
    obtain ⟨minor, rfl⟩ := hrow b (by simp [hrows])
    rw [hrows] at hjoin
    exact ⟨⟨middle, hmiddle, major, some minor⟩, rfl, hjoin⟩
  · simp [hrows] at hlength

/-- A name without a version is its own canonical name. -/
theorem canonicalName_of_splitVersion? {name : Text} (hname : isName name = true)
    (hs : splitVersion? name = none) : canonicalName name none = .ok name :=
  canonicalName_eq_ok_iff.2 ⟨hname, hname, canonicalForm_of_splitVersion? hs⟩

theorem canonicalName_of_forall_ne {name : Text} (hname : isName name = true)
    (h : ∀ middle version, IsDigitRows version → name ≠ versioned middle version) :
    canonicalName name none = .ok name := by
  cases hs : splitVersion? name with
  | none => exact canonicalName_of_splitVersion? hname hs
  | some parts =>
    obtain ⟨hversion, middle, -, -, heq⟩ := exists_versioned_of_splitVersion? hname hs
    exact absurd heq (h middle _ hversion)

/-- **What becomes of the names of catalogs.**

* A name with a version of one or two numbers gets the canonical version of the release that the
  numbers denote, whatever zeros they have in front. If they denote none, it is refused.
* So two of these names come to the same name if and only if they have the same stem and denote the
  same release.
* A name with a version of more numbers is refused.
* A name without a version behind `jdk-` and another hyphen stays as it is.
* What a name has come to stays as it is, also if a target was given. -/
theorem release_canonicalization :
    (∀ n : VersionedName,
      (∀ r, canonicalName n.text none = .ok r ↔ ∃ ρ, n.Denotes ρ ∧ r = n.stem ++ ρ.text) ∧
      ((∃ ρ, n.Denotes ρ) ↔
        (n.major.value = 1 ∧ ∃ m, n.minor.map Numeral.Row.value = some m ∧ 1 ≤ m ∧ m ≤ 8) ∨
        (2 ≤ n.major.value ∧ n.major.value ≤ 8 ∧
          (n.minor = none ∨ n.minor.map Numeral.Row.value = some 0)) ∨
        9 ≤ n.major.value) ∧
      ((∃ ρ, n.Denotes ρ) ∨ IsRefused n.text none)) ∧
    (∀ (n n' : VersionedName) (ρ ρ' : Release), n.Denotes ρ → n'.Denotes ρ' →
      (canonicalName n'.text none = canonicalName n.text none ↔ n'.stem = n.stem ∧ ρ' = ρ)) ∧
    (∀ middle version, (∀ c ∈ middle, isNameChar c = true) → IsDigitRows version →
      2 < (Text.split '.' version).length → IsRefused (versioned middle version) none) ∧
    (∀ name, isName name = true →
      (∀ middle version, IsDigitRows version → name ≠ versioned middle version) →
      canonicalName name none = .ok name) ∧
    ∀ name target r, canonicalName name target = .ok r → canonicalName r none = .ok r := by
  refine ⟨fun n => ⟨fun r => n.canonicalName_eq_ok_iff, ?_, ?_⟩,
    fun n n' ρ ρ' => VersionedName.canonicalName_eq_iff,
    fun middle version => isRefused_of_length, fun name => canonicalName_of_forall_ne,
    fun name target r => isCanonical_of_canonicalName⟩
  · rw [← Option.map_eq_none_iff (f := Numeral.Row.value)]
    exact exists_isWritten_iff
  · by_cases h : ∃ ρ, n.Denotes ρ
    · exact .inl h
    · exact .inr (isRefused_iff.2 (n.canonicalName_of_not_denotes h))

/-- Zeros in front of the numbers, a stem with a dot and two hyphens in a row, a third number, and a
number that no second hyphen stands before. -/
theorem release_canonicalization_zeros :
    ∃ n n' : VersionedName, n.text = "jdk--a.-008".toText ∧ n'.text = "jdk--a.-01.8".toText ∧
      canonicalName n.text none = .ok "jdk--a.-1.8".toText ∧
      canonicalName n'.text none = canonicalName n.text none ∧
      canonicalName "jdk--a.-1.8".toText none = .ok "jdk--a.-1.8".toText ∧
      IsRefused "jdk-x-1.8.0".toText none ∧
      canonicalName "jdk-8".toText none = .ok "jdk-8".toText := by
  obtain ⟨hversion, hsame, hlonger, hnone, hidem⟩ := release_canonicalization
  let n : VersionedName := ⟨"-a.".toText, by decide,
    ⟨"008".toText, by decide, by decide, by decide⟩, none⟩
  let n' : VersionedName := ⟨"-a.".toText, by decide,
    ⟨"01".toText, by decide, by decide, by decide⟩,
    some ⟨"8".toText, by decide, by decide, by decide⟩⟩
  have hn : n.Denotes (.old 8 (by decide)) := .inr ⟨by decide, by decide, .inl rfl⟩
  have hn' : n'.Denotes (.old 8 (by decide)) := .inl ⟨by decide, by decide⟩
  have hok : canonicalName n.text none = .ok "jdk--a.-1.8".toText :=
    ((hversion n).1 _).2 ⟨_, hn, by decide⟩
  refine ⟨n, n', by decide, by decide, hok, (hsame n n' _ _ hn hn').2 ⟨rfl, rfl⟩,
    hidem _ none _ hok, hlonger "x".toText "1.8.0".toText (by decide) (by decide) (by decide),
    hnone _ (by decide) fun middle version _ h => ?_⟩
  -- The name has only one hyphen, and `jdk-` and the hyphen before the version would be two.
  have hcount := congrArg (List.count (CodePoint.char '-')) h
  rw [versioned, List.count_append, List.count_append, List.count_append] at hcount
  have hname : "jdk-8".toText.count (CodePoint.char '-') = 1 := by decide
  have hmark : platformMark.count (CodePoint.char '-') = 1 := by decide
  have hhyphen : "-".toText.count (CodePoint.char '-') = 1 := by decide
  omega

end Catalog
end Embargo
