import Embargo.Proofs.Releases

/-!
# Target versions

A name of a platform catalog without a version takes that of the target. Whether it has one is
decided twice: `Catalog.isUnversioned` says which names take the target, and then
`Catalog.splitVersion?` says what is brought to canonical form. The two are meant to complement each
other, and but for one kind of name they do:

| the name | takes the target | what it comes to |
|---|---|---|
| has no version behind its last hyphen | yes | the name, and the release of the target |
| has one, behind a second hyphen | no | its stem, and a release; or it is refused |
| is `jdk-` and a version, as `jdk-1.9` | no | the name as it is, whatever the version |

* `Release.IsTarget` – the text is a version of the release, in plain decimal.
* `Catalog.splitVersion?_addTarget_eq_none_iff` – **the names that neither of the two takes**.
* `Catalog.isRefused_or_endsInRelease_iff` – which names are refused or come to a release.
* `Catalog.target_recognition` – the table.
-/

namespace Embargo

/-! ### Targets -/

/-- **The text is a version of the release**, with numbers in plain decimal, as targets are. -/
def Release.IsTarget (ρ : Release) (t : Text) : Prop :=
  ∃ major minor, ρ.IsWritten major minor ∧
    t = Text.join ['.'] (Numeral.ofNat major :: (minor.map Numeral.ofNat).toList)

theorem Numeral.Row.value_of_text_eq {row : Row} {n : Nat} (h : row.text = ofNat n) :
    row.value = n := by
  have hread := value?_ofNat (n := n) (h ▸ row.length_le)
  rw [← h, row.value?_text] at hread
  exact Option.some.inj hread

theorem Numeral.Row.map_value_of_toList_eq {o : Option Row} {minor : Option Nat}
    (h : (o.map text).toList = (minor.map ofNat).toList) : o.map value = minor := by
  rcases o with _ | row <;> rcases minor with _ | m
  · rfl
  · cases h
  · cases h
  · exact congrArg some (value_of_text_eq (List.cons.inj h).1)

namespace Catalog

section Targets

variable {ρ : Release} {t : Text} (ht : ρ.IsTarget t)

include ht

theorem exists_rows_of_isTarget : ∃ major minor, ρ.IsWritten major minor ∧
    Text.split '.' t = Numeral.ofNat major :: (minor.map Numeral.ofNat).toList := by
  obtain ⟨major, minor, hwritten, rfl⟩ := ht
  exact ⟨major, minor, hwritten, Text.split_join
    (Text.forall_mem_cons_toList (notMem_ofNat (by decide)) _ _) (List.cons_ne_nil _ _)⟩

theorem isDigitRows_of_isTarget : IsDigitRows t := by
  obtain ⟨major, minor, -, hrows⟩ := exists_rows_of_isTarget ht
  have hnumeral (n : Nat) : Numeral.ofNat n ≠ [] ∧
      ∀ c ∈ Numeral.ofNat n, isDigitChar c = true :=
    ⟨by simp [Numeral.ofNat], fun c => isDigitChar_of_mem_ofNat⟩
  rw [IsDigitRows, hrows]
  exact Text.forall_mem_cons_toList hnumeral _ _

/-- **A target behind a hyphen** is brought to the canonical version of its release. -/
theorem canonicalName_of_isTarget {middle : Text} (hmiddle : ∀ c ∈ middle, isNameChar c = true)
    (hlong : ¬HasLongNumeral (versioned middle t)) :
    canonicalName (versioned middle t) none =
      .ok (platformMark ++ middle ++ "-".toText ++ ρ.text) := by
  obtain ⟨major, minor, hwritten, hrows⟩ := exists_rows_of_isTarget ht
  have hlength : (Text.split '.' t).length ≤ 2 := by
    rw [hrows]
    cases minor <;> simp
  obtain ⟨n, rfl, rfl⟩ :=
    exists_versionedName hmiddle (isDigitRows_of_isTarget ht) hlength hlong
  rw [n.split_version] at hrows
  obtain ⟨hmajor, hminor⟩ := List.cons.inj hrows
  have hdenotes : n.Denotes ρ := by
    rw [VersionedName.Denotes, Numeral.Row.value_of_text_eq hmajor,
      Numeral.Row.map_value_of_toList_eq hminor]
    exact hwritten
  exact n.canonicalName_of_denotes hdenotes

end Targets

/-! ### Names that take the target, and others -/

/-- The name with its target, or as it is, goes on without a target. -/
theorem canonicalName_addTarget {name t : Text} (hname : isName name = true)
    (ht : IsDigitRows t) :
    canonicalName name (some t) = canonicalName (addTarget name (some t)) none := by
  cases hu : isUnversioned name with
  | true =>
    rw [addTarget, if_pos hu, ht.canonicalName_append hname hu]
  | false =>
    have hadd : addTarget name (some t) = name := if_neg (by simp [hu])
    have hnone : addTarget name none = name := rfl
    simp [canonicalName, checkName, hname, hadd, hnone, bind, Except.bind]

theorem isName_addTarget {name t : Text} (hname : isName name = true) (ht : IsDigitRows t) :
    isName (addTarget name (some t)) = true := by
  rw [addTarget]
  split
  · exact ht.isName_append hname
  · exact hname

/-- The hyphen of `jdk-` is the first one. -/
theorem platformMark_prefix_or {before after : Text}
    (h : platformMark <+: before ++ CodePoint.char '-' :: after) :
    platformMark <+: before ∨ before = "jdk".toText := by
  rcases List.prefix_or_prefix_of_prefix h (List.prefix_append _ _) with h' | ⟨u, hu⟩
  · exact .inl h'
  obtain ⟨w, hw⟩ := h
  rw [← hu, List.append_assoc, List.append_cancel_left_eq] at hw
  rcases u with _ | ⟨c, u⟩
  · rw [List.append_nil] at hu
    exact .inl (hu ▸ List.prefix_rfl)
  · -- The hyphen behind `before` stands in `jdk-`, which has no other.
    obtain ⟨rfl, -⟩ := List.cons.inj hw
    have hcount := congrArg (List.count (CodePoint.char '-')) hu
    rw [List.count_append, List.count_cons_self] at hcount
    have hone : platformMark.count (CodePoint.char '-') = 1 := by decide
    have hbefore : CodePoint.char '-' ∉ before := List.count_eq_zero.1 (by omega)
    have hcut : Text.cut '-' platformMark = some ("jdk".toText, []) := by decide
    have hcut' := Text.cut_eq_some_iff.2 ⟨hu.symm, hbefore⟩
    exact .inr (Prod.mk.inj (Option.some.inj (hcut'.symm.trans hcut))).1

section Bare

variable {version : Text} (hversion : IsDigitRows version)

include hversion

theorem cutLast_bare :
    Text.cutLast '-' (platformMark ++ version) = some ("jdk".toText, version) :=
  Text.cutLast_append "jdk".toText hversion.hyphen_notMem

theorem isUnversioned_bare (hname : isName (platformMark ++ version) = true) :
    isUnversioned (platformMark ++ version) = false :=
  isUnversioned_of_cutLast hname (cutLast_bare hversion) hversion.isVersionText

end Bare

theorem isUnversioned_versioned {middle version : Text} (hversion : IsDigitRows version)
    (hname : isName (versioned middle version) = true) :
    isUnversioned (versioned middle version) = false :=
  isUnversioned_of_splitVersion? hname (splitVersion?_versioned hversion)

/-- **The names that are not brought to canonical form**, with the target that they may take: those
that are `jdk-` and a version. -/
theorem splitVersion?_addTarget_eq_none_iff {name t : Text} (hname : isName name = true)
    (hmark : platformMark <+: name) (ht : IsDigitRows t) :
    splitVersion? (addTarget name (some t)) = none ↔
      ∃ version, IsDigitRows version ∧ name = platformMark ++ version := by
  constructor
  · intro hs
    cases hu : isUnversioned name with
    | true =>
      obtain ⟨middle, rfl⟩ := hmark
      rw [addTarget, if_pos hu] at hs
      cases hs.symm.trans (splitVersion?_versioned ht)
    | false =>
      rw [addTarget, if_neg (by simp [hu]), splitVersion?] at hs
      rw [isUnversioned, List.isPrefixOf_iff_prefix.2 hmark, Bool.true_and] at hu
      cases hcut : Text.cutLast '-' name with
      | none => simp [hcut] at hu
      | some parts =>
        obtain ⟨before, version⟩ := parts
        obtain ⟨rfl, -⟩ := Text.cutLast_eq_some_iff.1 hcut
        rw [hcut] at hs hu
        have hversion : isVersionText version = true := by
          simpa using (Bool.or_eq_false_iff.1 hu).2
        -- The version would be split off if `jdk-` stood before its hyphen. So it is the hyphen of
        -- `jdk-` itself.
        have hshort : ¬platformMark <+: before := by
          intro h
          simp [List.isPrefixOf_iff_prefix.2 h, hversion] at hs
        obtain rfl := (platformMark_prefix_or hmark).resolve_left hshort
        have hchars := isNameChar_of_isName hname
        exact ⟨version, isDigitRows_of_isVersionText (fun c hc => hchars c (by simp [hc])) hversion,
          rfl⟩
  · rintro ⟨version, hversion, rfl⟩
    rw [addTarget, if_neg (by simp [isUnversioned_bare hversion hname]), splitVersion?,
      cutLast_bare hversion]
    rfl

/-! ### What names come to -/

/-- **The name ends in the canonical version of a release.** -/
def EndsInRelease (name : Text) : Prop :=
  ∃ before, ∃ ρ : Release, Text.cutLast '-' name = some (before, ρ.text)

/-- **A name that is brought to canonical form** ends in a release then, or it is refused. -/
theorem isRefused_or_endsInRelease {name stem version : Text} (hname : isName name = true)
    (hs : splitVersion? name = some (stem, version)) (hlong : ¬HasLongNumeral name) :
    IsRefused name none ∨ ∃ r, canonicalName name none = .ok r ∧ EndsInRelease r := by
  obtain ⟨hversion, middle, hmiddle, rfl, rfl⟩ := exists_versioned_of_splitVersion? hname hs
  by_cases hlength : (Text.split '.' version).length ≤ 2
  · obtain ⟨n, rfl, rfl⟩ := exists_versionedName hmiddle hversion hlength hlong
    by_cases hdenotes : ∃ ρ, n.Denotes ρ
    · obtain ⟨ρ, hρ⟩ := hdenotes
      refine .inr ⟨_, n.canonicalName_of_denotes hρ, platformMark ++ n.middle, ρ, ?_⟩
      rw [VersionedName.stem, List.append_assoc]
      exact Text.cutLast_append _ ρ.hyphen_notMem_text
    · exact .inl (isRefused_iff.2 (n.canonicalName_of_not_denotes hdenotes))
  · exact .inl (isRefused_of_length hmiddle hversion (by omega))

/-- What a name comes to, target or not. -/
theorem isRefused_or_endsInRelease_iff {name : Text} (hname : isName name = true) :
    (IsRefused name none ∨ ∃ r, canonicalName name none = .ok r ∧ EndsInRelease r) ↔
      ¬HasLongNumeral name ∧ (splitVersion? name = none → EndsInRelease name) := by
  constructor
  · intro h
    have hlong : ¬HasLongNumeral name := by
      intro hlong
      have herror : canonicalName name none = .error .numeralTooLong :=
        canonicalName_eq_numeralTooLong.2 ⟨hname, hname, hlong⟩
      rcases h with h | ⟨r, h, -⟩
      · cases herror.symm.trans (isRefused_iff.1 h)
      · cases herror.symm.trans h
    refine ⟨hlong, fun hs => ?_⟩
    have hok := canonicalName_of_splitVersion? hname hs
    rcases h with h | ⟨r, h, hends⟩
    · cases hok.symm.trans (isRefused_iff.1 h)
    · exact Except.ok.inj (h.symm.trans hok) ▸ hends
  · rintro ⟨hlong, hends⟩
    cases hs : splitVersion? name with
    | none => exact .inr ⟨name, canonicalName_of_splitVersion? hname hs, hends hs⟩
    | some parts => exact isRefused_or_endsInRelease hname hs hlong

theorem endsInRelease_bare {version : Text} (hversion : IsDigitRows version) :
    EndsInRelease (platformMark ++ version) ↔ ∃ ρ : Release, version = ρ.text := by
  rw [EndsInRelease, cutLast_bare hversion]
  simp

/-- **How names of platform catalogs take a target.**

* A name that has no version takes it, and comes to the name and the release of the target.
* A name with a version behind a second hyphen takes none, and comes to what it does without one.
* A name that is `jdk-` and a version takes none, and stays as it is.
* So a name is refused or comes to one that ends in a release, unless a number in it is too long to
  be read, or it is `jdk-` and a version that is not the canonical one of a release. -/
theorem target_recognition {name t : Text} {ρ : Release} (hname : isName name = true)
    (hmark : platformMark <+: name) (ht : ρ.IsTarget t) :
    (isUnversioned name = true → ¬HasLongNumeral (addTarget name (some t)) →
      canonicalName name (some t) = .ok (name ++ "-".toText ++ ρ.text)) ∧
    (∀ middle version, IsDigitRows version → name = versioned middle version →
      isUnversioned name = false ∧ canonicalName name (some t) = canonicalName name none) ∧
    (∀ version, IsDigitRows version → name = platformMark ++ version →
      isUnversioned name = false ∧ canonicalName name (some t) = .ok name) ∧
    ((IsRefused name (some t) ∨ ∃ r, canonicalName name (some t) = .ok r ∧ EndsInRelease r) ↔
      ¬HasLongNumeral (addTarget name (some t)) ∧
        ∀ version, IsDigitRows version → name = platformMark ++ version →
          ∃ ρ' : Release, version = ρ'.text) := by
  have hrows := isDigitRows_of_isTarget ht
  have hfull := canonicalName_addTarget hname hrows
  have hsplit := splitVersion?_addTarget_eq_none_iff hname hmark hrows
  have hadd (hu : isUnversioned name = false) : addTarget name (some t) = name :=
    if_neg (by simp [hu])
  refine ⟨fun hu hlong => ?_, fun middle version hversion heq => ?_,
    fun version hversion heq => ?_, ?_⟩
  · rw [hfull]
    rw [addTarget, if_pos hu] at hlong ⊢
    obtain ⟨middle, rfl⟩ := hmark
    exact canonicalName_of_isTarget ht
      (fun c hc => isNameChar_of_isName hname c (List.mem_append_right _ hc)) hlong
  · have hu := heq ▸ isUnversioned_versioned hversion (heq ▸ hname)
    exact ⟨hu, by rw [hfull, hadd hu]⟩
  · have hu := heq ▸ isUnversioned_bare hversion (heq ▸ hname)
    have hnone := hsplit.2 ⟨version, hversion, heq⟩
    rw [hadd hu] at hnone
    exact ⟨hu, by rw [hfull, hadd hu, canonicalName_of_splitVersion? hname hnone]⟩
  · have hrefused : IsRefused name (some t) ↔ IsRefused (addTarget name (some t)) none := by
      rw [isRefused_iff, isRefused_iff, hfull]
      rfl
    rw [hrefused, hfull, isRefused_or_endsInRelease_iff (isName_addTarget hname hrows), hsplit]
    refine and_congr_right fun _ => ⟨fun h version hversion heq => ?_, ?_⟩
    · have hu := heq ▸ isUnversioned_bare hversion (heq ▸ hname)
      have hends := h ⟨version, hversion, heq⟩
      rw [hadd hu, heq] at hends
      exact (endsInRelease_bare hversion).1 hends
    · rintro h ⟨version, hversion, rfl⟩
      rw [hadd (isUnversioned_bare hversion hname)]
      exact (endsInRelease_bare hversion).2 (h version hversion rfl)

/-- A dot behind the last digit, so that the name has no version; and a version that `jdk-` alone
stands before. -/
theorem target_recognition_trailingDot :
    isName "jdk-a-8.".toText = true ∧ platformMark <+: "jdk-a-8.".toText ∧
      (Release.new 11 0 (by decide)).IsTarget "11.0".toText ∧
      canonicalName "jdk-a-8.".toText (some "11.0".toText) = .ok "jdk-a-8.-11".toText ∧
      canonicalName "jdk-1.9".toText (some "11.0".toText) = .ok "jdk-1.9".toText := by
  have htarget : (Release.new 11 0 (by decide)).IsTarget "11.0".toText :=
    ⟨11, some 0, ⟨rfl, rfl⟩, by decide⟩
  have hmark : platformMark <+: "jdk-a-8.".toText := ⟨"a-8.".toText, rfl⟩
  have hlong : ¬HasLongNumeral (addTarget "jdk-a-8.".toText (some "11.0".toText)) := fun h =>
    absurd (canonicalName_eq_numeralTooLong.2 ⟨by decide, by decide, h⟩) (by decide)
  have hbareMark : platformMark <+: "jdk-1.9".toText := ⟨"1.9".toText, rfl⟩
  obtain ⟨htaken, -⟩ := target_recognition (by decide) hmark htarget
  obtain ⟨-, -, hbare, -⟩ := target_recognition (by decide) hbareMark htarget
  refine ⟨by decide, hmark, htarget, ?_, (hbare "1.9".toText (by decide) rfl).2⟩
  rw [htaken (by decide) hlong]
  rfl

/-- **A version that is overlooked**: `1.9` is one of no release, but behind `jdk-` alone it is
neither refused nor taken for a name without a version. -/
theorem bareVersion_overlooked :
    isName "jdk-1.9".toText = true ∧ platformMark <+: "jdk-1.9".toText ∧
      (Release.new 11 0 (by decide)).IsTarget "11".toText ∧
      ¬(IsRefused "jdk-1.9".toText (some "11".toText) ∨
        ∃ r, canonicalName "jdk-1.9".toText (some "11".toText) = .ok r ∧ EndsInRelease r) := by
  refine ⟨by decide, ⟨"1.9".toText, rfl⟩, ⟨11, none, ⟨rfl, rfl⟩, by decide⟩, ?_⟩
  have hok : canonicalName "jdk-1.9".toText (some "11".toText) = .ok "jdk-1.9".toText := by decide
  rintro (h | ⟨r, h, before, ρ, hcut⟩)
  · cases hok.symm.trans (isRefused_iff.1 h)
  obtain rfl := Except.ok.inj (hok.symm.trans h)
  have hcut' : Text.cutLast '-' "jdk-1.9".toText = some ("jdk".toText, "1.9".toText) := by decide
  have htext : "1.9".toText = ρ.text := (Prod.mk.inj (Option.some.inj (hcut'.symm.trans hcut))).2
  have hnumbers : ρ.numbers = [1, 9] := by
    refine List.map_injective_iff.2 (fun _ _ => Numeral.ofNat_injective) ?_
    rw [← ρ.split_text, ← htext]
    decide
  rcases ρ with ⟨k, hk⟩ | ⟨major, _ | minor, hmajor⟩
  · obtain rfl : k = 9 := by simpa [Release.numbers] using hnumbers
    exact absurd hk (by decide)
  · cases hnumbers
  · obtain ⟨rfl, -⟩ : major = 1 ∧ minor + 1 = 9 := by simpa [Release.numbers] using hnumbers
    exact absurd hmajor (by decide)

end Catalog
end Embargo
