import Embargo.Proofs.Precedence

/-!
# What is checked of settings

Loading settings is meant to give settings that are as documented, or to report which setting or
which file of settings is wrong. It does so in part.

| what | checked |
|---|---|
| the target version | a version, or a number that is read as one |
| the width | not less than one, if it is a number at all |
| the verbosity | one of the three names |
| the other settings | not at all |

* `Setting.Fits` – the documented values of a setting.
* `Config.ofSettings_eq_ok` – settings that are returned have the values that they were given, and
  were checked.
* `ConfigError.IsDocumented` – the errors that are promised.
* `Config.Escapes` – the errors that are not: a file that cannot be read for another reason than
  those that are foreseen, a path that the system refuses, a value of the wrong type for its check,
  and a value that cannot be shown.
* `Config.load_validated` – the result.
-/

namespace Embargo

/-! ### Documented values -/

/-- A row of decimal digits, of any script. -/
def IsDigits (row : Text) : Prop := row ≠ [] ∧ ∀ c ∈ row, Text.isDecimal c = true

/-- A version of the platform: one or two rows of digits with a dot between them. -/
def IsVersionForm (t : Text) : Prop :=
  ∃ major, IsDigits major ∧ (t = major ∨ ∃ minor, IsDigits minor ∧ t = major ++ ".".toText ++ minor)

theorem IsDigits.dot_notMem {row : Text} (h : IsDigits row) : CodePoint.char '.' ∉ row :=
  fun hdot => absurd (h.2 _ hdot) (by decide)

theorem isVersionText_iff {t : Text} :
    Catalog.isVersionText t = true ↔ ∀ row ∈ Text.split '.' t, IsDigits row := by
  simp [Catalog.isVersionText, IsDigits, List.all_eq_true]

/-- **The check of a target version is a check of its form.** -/
theorem Config.isTargetVersion_iff {t : Text} : isTargetVersion t = true ↔ IsVersionForm t := by
  rw [isTargetVersion, Bool.and_eq_true, isVersionText_iff, decide_eq_true_iff]
  constructor
  · rintro ⟨hrows, hlength⟩
    have hjoin := Text.join_split '.' t
    rcases hsplit : Text.split '.' t with _ | ⟨major, _ | ⟨minor, _ | ⟨row, rows⟩⟩⟩
    · exact absurd hsplit (Text.split_ne_nil _ t)
    · rw [hsplit] at hrows hjoin
      exact ⟨major, hrows major (by simp), .inl (by simpa [Text.join] using hjoin.symm)⟩
    · rw [hsplit] at hrows hjoin
      exact ⟨major, hrows major (by simp), .inr ⟨minor, hrows minor (by simp),
        by simpa [Text.join, String.toText] using hjoin.symm⟩⟩
    · simp [hsplit] at hlength
  · rintro ⟨major, hmajor, rfl | ⟨minor, hminor, rfl⟩⟩
    · rw [Text.split_of_notMem hmajor.dot_notMem]
      simpa using hmajor
    · have hsplit : Text.split '.' (major ++ ".".toText ++ minor) = [major, minor] :=
        Text.split_pair hmajor.dot_notMem hminor.dot_notMem
      rw [hsplit]
      simpa using ⟨hmajor, hminor⟩

/-- **The value is as documented for the setting.** -/
def Setting.Fits : Setting → Value → Prop
  | .failOnUnresolvable, v | .logMissingSignatures, v => ∃ b, v = .bool b
  | .jdkTargetVersion, v => v = .null ∨ ∃ t, v = .text t ∧ IsVersionForm t
  | .catalogDirs, v => ∃ directories : List Text, v = .list (directories.map .text)
  | .missingSummaryWidth, v => ∃ i, v = .int i ∧ 1 ≤ i
  | .verbosity, v => ∃ name ∈ ["quiet".toText, "normal".toText, "verbose".toText], v = .text name

namespace Config

/-- **Every setting is as documented.** -/
def IsValid (c : Config) : Prop := ∀ s : Setting, s.Fits (c.valueOf s)

/-- **What is checked of settings.** -/
structure IsChecked (c : Config) : Prop where
  /-- The target version is as documented. -/
  target : Setting.jdkTargetVersion.Fits (c.valueOf .jdkTargetVersion)
  /-- The width is not less than one. -/
  width : c.missingSummaryWidth.ltNat 1 = false

/-! ### The checks -/

theorem fits_target_optional {t : Option Text} :
    Setting.jdkTargetVersion.Fits (Failure.optional t) ↔ ∀ u ∈ t, IsVersionForm u := by
  cases t with
  | none => simp [Setting.Fits, Failure.optional]
  | some u => simp [Setting.Fits, Failure.optional]

theorem targetOf_eq_ok {v : Value} {t : Option Text} :
    targetOf v = .ok t ↔ v = Failure.optional t ∧ Setting.jdkTargetVersion.Fits v := by
  constructor
  · intro h
    unfold targetOf at h
    split at h
    · obtain rfl := Except.ok.inj h
      exact ⟨rfl, .inl rfl⟩
    · split at h
      · next u hform =>
        obtain rfl := Except.ok.inj h
        exact ⟨rfl, .inr ⟨u, rfl, isTargetVersion_iff.1 hform⟩⟩
      · cases h
    · cases h
  · rintro ⟨rfl, hfits⟩
    cases t with
    | none => rfl
    | some u =>
      have hform := isTargetVersion_iff.2 (fits_target_optional.1 hfits u rfl)
      exact if_pos hform

theorem ofValue?_eq_some {v : Value} {n : Number} :
    Number.ofValue? v = some n ↔ v = n.toValue := by
  constructor
  · intro h
    unfold Number.ofValue? at h
    split at h
    all_goals cases h
    all_goals rfl
  · rintro rfl
    cases n with
    | _ => rfl

theorem widthOf_eq_ok {v : Value} {n : Number} :
    widthOf v = .ok n ↔ v = n.toValue ∧ n.ltNat 1 = false := by
  constructor
  · intro h
    unfold widthOf at h
    split at h
    · next m hm =>
      split at h
      · cases h
      · next hlt =>
        obtain rfl := Except.ok.inj h
        exact ⟨ofValue?_eq_some.1 hm, Bool.eq_false_iff.2 hlt⟩
    · cases h
  · rintro ⟨rfl, hlt⟩
    rw [widthOf, ofValue?_eq_some.2 rfl]
    exact if_neg (by rw [hlt]; exact Bool.false_ne_true)

theorem name_of_ofName? {t : Text} {verbosity : Verbosity}
    (h : Verbosity.ofName? t = some verbosity) : verbosity.name = t := by
  unfold Verbosity.ofName? at h
  simpa using List.find?_some h

theorem verbosityOf_eq_ok {v : Value} {verbosity : Verbosity} :
    verbosityOf v = .ok verbosity ↔ v = .text verbosity.name := by
  constructor
  · intro h
    unfold verbosityOf at h
    split at h
    · next w hw =>
      obtain rfl := Except.ok.inj h
      obtain ⟨t, ht, hname⟩ := Option.bind_eq_some_iff.1 hw
      cases v with
      | text u => rw [name_of_ofName? hname, Option.some.inj ht]
      | _ => cases ht
    · cases h
  · rintro rfl
    simp [verbosityOf, Value.text?]

/-- **Settings that are returned have the values that they were given, and were checked.** -/
theorem ofSettings_eq_ok {value : Setting → Value} {c : Config} :
    ofSettings value = .ok c ↔ (∀ s, c.valueOf s = value s) ∧ c.IsChecked := by
  constructor
  · intro h
    obtain ⟨target, htarget, h⟩ := bind_eq_ok.1 h
    obtain ⟨width, hwidth, h⟩ := bind_eq_ok.1 h
    obtain ⟨verbosity, hverbosity, h⟩ := bind_eq_ok.1 h
    obtain rfl := Except.ok.inj h
    obtain ⟨htarget, hfits⟩ := targetOf_eq_ok.1 htarget
    obtain ⟨hwidth, hlt⟩ := widthOf_eq_ok.1 hwidth
    refine ⟨fun s => ?_, ?_, hlt⟩
    · cases s with
      | jdkTargetVersion => exact htarget.symm
      | missingSummaryWidth => exact hwidth.symm
      | verbosity => exact (verbosityOf_eq_ok.1 hverbosity).symm
      | _ => rfl
    · rw [htarget] at hfits
      exact hfits
  · rintro ⟨hvalue, hchecked⟩
    obtain rfl : c.valueOf = value := funext hvalue
    have htarget : targetOf (c.valueOf .jdkTargetVersion) = .ok c.jdkTargetVersion :=
      targetOf_eq_ok.2 ⟨rfl, hchecked.target⟩
    have hwidth : widthOf (c.valueOf .missingSummaryWidth) = .ok c.missingSummaryWidth :=
      widthOf_eq_ok.2 ⟨rfl, hchecked.width⟩
    have hverbosity : verbosityOf (c.valueOf .verbosity) = .ok c.verbosity :=
      verbosityOf_eq_ok.2 rfl
    rw [ofSettings, htarget, hwidth, hverbosity]
    rfl

end Config

/-! ### Documented errors -/

namespace ConfigError

/-- **The error is reported as promised**: as a setting or as a file of settings that is wrong. -/
def IsDocumented (err : ConfigError) : Prop :=
  ∃ f, err.problem = .failure f ∧ (f.kind = .setting ∨ f.kind = .settingsFile)

theorem isDocumented_file (path : Text) (reason : Option Text) : (file path reason).IsDocumented :=
  ⟨_, rfl, .inr rfl⟩

theorem not_isDocumented_fault (f : Fault) : ¬(fault f).IsDocumented := nofun

/-- A wrong setting is reported if its value can be shown. -/
theorem isDocumented_setting {k : Text} {v : Value} {reason : Text} :
    (setting k v reason).IsDocumented ↔ v.IsShown := by
  obtain ⟨hshown, hunshown⟩ := problem_setting k v reason
  constructor
  · rintro ⟨f, hf, -⟩
    by_cases h : v.IsShown
    · exact h
    · obtain ⟨f', hf'⟩ := hunshown h
      cases hf.symm.trans hf'
  · intro h
    exact ⟨_, hshown h, .inl rfl⟩

end ConfigError

theorem Value.isShown_text (t : Text) : (Value.text t).IsShown :=
  ⟨by simp [depth, maxShownDepth], rfl⟩

namespace Config

/-! ### Errors of the checks -/

/-- The value is no version, and no number that is read as one. -/
def IsNoTarget : Value → Prop
  | .null | .text _ | .int _ | .float _ => False
  | _ => True

/-- **Values that the checks cannot work with**, and values that they cannot report. -/
inductive Balks (value : Text → Option Value) : ConfigError → Prop where
  /-- The target version is an integer of too many digits. -/
  | targetDigits {i : Int} (h : valueOr value .jdkTargetVersion = .int i)
      (hdigits : Numeral.isWritable i = false) : Balks value (.fault .badValue)
  /-- The target version is of a wrong type. -/
  | targetType (h : IsNoTarget (valueOr value .jdkTargetVersion)) :
      Balks value (.fault .wrongType)
  /-- The width is no number. -/
  | widthType (h : Number.ofValue? (valueOr value .missingSummaryWidth) = none) :
      Balks value (.fault .wrongType)
  /-- A value that is to be reported cannot be shown. -/
  | unshown {k : Text} {v : Value} (reason : Text) (hv : value k = some v) (h : ¬v.IsShown) :
      Balks value (.setting k v reason)

theorem Balks.not_isDocumented {value : Text → Option Value} {err : ConfigError}
    (h : Balks value err) : ¬err.IsDocumented := by
  cases h with
  | targetDigits h hdigits => exact ConfigError.not_isDocumented_fault _
  | targetType h => exact ConfigError.not_isDocumented_fault _
  | widthType h => exact ConfigError.not_isDocumented_fault _
  | unshown reason hv h => exact mt ConfigError.isDocumented_setting.1 h

theorem asTarget_error {v : Value} {err : ConfigError} (h : asTarget v = .error err) :
    ∃ i, v = .int i ∧ Numeral.isWritable i = false ∧ err = .fault .badValue := by
  unfold asTarget at h
  split at h
  · next i =>
    split at h
    · cases h
    · next hdigits => exact ⟨i, rfl, Bool.eq_false_iff.2 hdigits, (Except.error.inj h).symm⟩
  all_goals cases h

theorem targetOf_error {v target : Value} {err : ConfigError} (htarget : asTarget v = .ok target)
    (h : targetOf target = .error err) :
    err.IsDocumented ∨ IsNoTarget v ∧ err = .fault .wrongType := by
  -- A text that is no version is reported, whether it was given or stands for a number.
  have htext {t : Text} (h : targetOf (.text t) = .error err) : err.IsDocumented := by
    rw [targetOf] at h
    split at h
    · cases h
    · obtain rfl := Except.error.inj h
      exact ConfigError.isDocumented_setting.2 (Value.isShown_text t)
  cases v with
  | null =>
    obtain rfl := Except.ok.inj htarget
    cases h
  | text t =>
    obtain rfl := Except.ok.inj htarget
    exact .inl (htext h)
  | int i =>
    rw [asTarget] at htarget
    split at htarget
    · obtain rfl := Except.ok.inj htarget
      exact .inl (htext h)
    · cases htarget
  | float x =>
    obtain rfl := Except.ok.inj htarget
    exact .inl (htext h)
  | _ =>
    obtain rfl := Except.ok.inj htarget
    exact .inr ⟨trivial, (Except.error.inj h).symm⟩

theorem widthOf_error {v : Value} {err : ConfigError} (h : widthOf v = .error err) :
    err = .setting Setting.missingSummaryWidth.name v "must be at least 1".toText ∨
      Number.ofValue? v = none ∧ err = .fault .wrongType := by
  unfold widthOf at h
  split at h
  · split at h
    · exact .inl (Except.error.inj h).symm
    · cases h
  · next hnone => exact .inr ⟨hnone, (Except.error.inj h).symm⟩

theorem verbosityOf_error {v : Value} {err : ConfigError} (h : verbosityOf v = .error err) :
    err = .setting Setting.verbosity.name v "expected quiet, normal or verbose".toText := by
  unfold verbosityOf at h
  split at h
  · cases h
  · exact (Except.error.inj h).symm

/-- A default can be shown. -/
theorem isShown_default (s : Setting) : s.default.IsShown := by
  cases s <;> exact ⟨by decide, by decide +kernel⟩

/-- A wrong setting is reported, or its value cannot be shown. -/
theorem isDocumented_or_balks (value : Text → Option Value) (s : Setting) (reason : Text) :
    (ConfigError.setting s.name (valueOr value s) reason).IsDocumented ∨
      Balks value (.setting s.name (valueOr value s) reason) := by
  by_cases hshown : (valueOr value s).IsShown
  · exact .inl (ConfigError.isDocumented_setting.2 hshown)
  · refine .inr (.unshown reason ?_ hshown)
    cases hv : value s.name with
    | none =>
      -- Without a value there is the default, and that can be shown.
      rw [valueOr, hv] at hshown
      exact absurd (isShown_default s) hshown
    | some v => rw [valueOr, hv, Option.getD_some]

/-- **The checks report what is wrong, or the values are none that they can work with.** -/
theorem settle_error {value : Text → Option Value} {err : ConfigError}
    (h : settle value = .error err) : err.IsDocumented ∨ Balks value err := by
  rcases bind_eq_error.1 h with h | ⟨target, htarget, h⟩
  · obtain ⟨i, hv, hdigits, rfl⟩ := asTarget_error h
    exact .inr (.targetDigits hv hdigits)
  rcases bind_eq_error.1 h with h | ⟨_, _, h⟩
  · rcases targetOf_error htarget h with h | ⟨htype, rfl⟩
    · exact .inl h
    · exact .inr (.targetType htype)
  rcases bind_eq_error.1 h with h | ⟨_, _, h⟩
  · rcases widthOf_error h with rfl | ⟨htype, rfl⟩
    · exact isDocumented_or_balks value .missingSummaryWidth _
    · exact .inr (.widthType htype)
  rcases bind_eq_error.1 h with h | ⟨_, _, h⟩
  · obtain rfl := verbosityOf_error h
    exact isDocumented_or_balks value .verbosity _
  · cases h

/-- **So does the check of names.** -/
theorem ofMerged_error {merged : Table Text Value} {err : ConfigError}
    (h : ofMerged merged = .error err) : err.IsDocumented ∨ Balks merged.get? err := by
  rcases ofMerged_cases merged with ⟨k, v, hfirst, heq⟩ | ⟨-, heq⟩
  · obtain rfl := Except.error.inj (heq.symm.trans h)
    by_cases hshown : v.IsShown
    · exact .inl (ConfigError.isDocumented_setting.2 hshown)
    · exact .inr (.unshown _ hfirst.value_eq hshown)
  · exact settle_error (heq.symm.trans h)

/-! ### Errors of the sources -/

/-- **A file that cannot be read for a reason that is not foreseen.** -/
inductive Unreadable (content : Bytes) : ConfigError → Prop where
  /-- The bytes are no text. -/
  | notText (h : Utf8.text? content = none) : Unreadable content (.fault .notText)
  /-- There is an integer of too many digits. -/
  | numeralTooLong {t : Text} (ht : Utf8.text? content = some t)
      (h : Toml.parse t = .error .numeralTooLong) : Unreadable content (.fault .badValue)
  /-- Values are nested too deeply. -/
  | tooDeep {t : Text} (ht : Utf8.text? content = some t) (h : Toml.parse t = .error .tooDeep) :
      Unreadable content (.fault .tooDeep)

theorem Unreadable.not_isDocumented {content : Bytes} {err : ConfigError}
    (h : Unreadable content err) : ¬err.IsDocumented := by
  cases h with
  | _ => exact ConfigError.not_isDocumented_fault _

/-- Such a file has no settings. -/
theorem Unreadable.readFile {content : Bytes} {err : ConfigError} (h : Unreadable content err)
    (path : Text) : readFile path (.file content) = .error err := by
  cases h with
  | notText h => rw [Config.readFile, h]
  | numeralTooLong ht h =>
    rw [Config.readFile, ht]
    dsimp only
    rw [h]
  | tooDeep ht h =>
    rw [Config.readFile, ht]
    dsimp only
    rw [h]

theorem readFile_error {path : Text} {node : FileTree.Node} {err : ConfigError}
    (h : readFile path node = .error err) :
    err.IsDocumented ∨ ∃ content, node = .file content ∧ Unreadable content err := by
  cases node with
  | unreadable | directory | closed =>
    obtain rfl := Except.error.inj h
    exact .inl (ConfigError.isDocumented_file path none)
  | file content =>
    rw [readFile] at h
    split at h
    · next hnone =>
      obtain rfl := Except.error.inj h
      exact .inr ⟨content, rfl, .notText hnone⟩
    · next t ht =>
      split at h
      · cases h
      · obtain rfl := Except.error.inj h
        exact .inl (ConfigError.isDocumented_file path none)
      · next hparse =>
        obtain rfl := Except.error.inj h
        exact .inr ⟨content, rfl, .numeralTooLong ht hparse⟩
      · next hparse =>
        obtain rfl := Except.error.inj h
        exact .inr ⟨content, rfl, .tooDeep ht hparse⟩

/-- The paths of the files that settings are looked for in. -/
def Environment.paths (e : Environment) (file : Option Text) : List Path :=
  [e.homeFile, e.projectFile] ++ file.toList.map Path.ofText

/-- **A file that settings are read from.** -/
def Environment.Reads (e : Environment) (file : Option Text) (content : Bytes) : Prop :=
  ∃ path ∈ e.paths file, e.disk.find path = .found (.file content)

/-- **How an error other than the promised ones comes about.** -/
inductive Escapes (e : Environment) (file : Option Text) (given : Table Text Value) :
    ConfigError → Prop where
  /-- The caller names a file twice. -/
  | twice (h : (given.get? fileKey).isSome = true) : Escapes e file given (.fault .wrongType)
  /-- A file cannot be read. -/
  | unreadable {content : Bytes} {err : ConfigError} (hread : e.Reads file content)
      (h : Unreadable content err) : Escapes e file given err
  /-- The system refuses to look for a file. -/
  | refused {path : Path} (hpath : path ∈ e.paths file) (h : e.disk.find path = .refused) :
      Escapes e file given (.fault .system)
  /-- The checks cannot work with a value. -/
  | balks {sources : List (Table Text Value)} {err : ConfigError}
      (hsources : e.sources file given = .ok sources) (h : Balks (merge sources).get? err) :
      Escapes e file given err

theorem Escapes.not_isDocumented {e : Environment} {file : Option Text} {given : Table Text Value}
    {err : ConfigError} (h : Escapes e file given err) : ¬err.IsDocumented := by
  cases h with
  | twice h => exact ConfigError.not_isDocumented_fault _
  | unreadable hread h => exact h.not_isDocumented
  | refused hpath h => exact ConfigError.not_isDocumented_fault _
  | balks hsources h => exact h.not_isDocumented

section Files

variable {e : Environment} {file : Option Text} {given : Table Text Value} {path : Path}
  {err : ConfigError}

theorem settingsAt_error (hpath : path ∈ e.paths file) (h : e.settingsAt path = .error err) :
    err.IsDocumented ∨ Escapes e file given err := by
  unfold Environment.settingsAt at h
  split at h
  · next node hnode =>
    rcases bind_eq_error.1 h with h | ⟨values, -, h⟩
    · rcases readFile_error h with h | ⟨content, rfl, hcontent⟩
      · exact .inl h
      · exact .inr (.unreadable ⟨path, hpath, hnode⟩ hcontent)
    · cases h
  · cases h
  · cases h
  · cases h
  · next hrefused =>
    obtain rfl := Except.error.inj h
    exact .inr (.refused hpath hrefused)

theorem fileSettings_error (hpath : path ∈ e.paths file) (h : e.fileSettings path = .error err) :
    err.IsDocumented ∨ Escapes e file given err := by
  rcases bind_eq_error.1 h with h | ⟨values, -, h⟩
  · exact settingsAt_error hpath h
  · cases h

theorem namedSettings_error (h : e.namedSettings file = .error err) :
    err.IsDocumented ∨ Escapes e file given err := by
  cases file with
  | none => cases h
  | some t =>
    rcases bind_eq_error.1 h with h | ⟨_ | values, -, h⟩
    · exact settingsAt_error (by simp [Environment.paths]) h
    · obtain rfl := Except.error.inj h
      exact .inl (ConfigError.isDocumented_file _ _)
    · cases h

end Files

theorem addVariable_error {bindings : List (Text × Text)} {values : Table Text Value} {s : Setting}
    {err : ConfigError} (h : addVariable bindings values s = .error err) : err.IsDocumented := by
  unfold addVariable at h
  split at h
  · cases h
  · next t ht =>
    split at h
    · cases h
    · obtain rfl := Except.error.inj h
      exact ConfigError.isDocumented_setting.2 (Value.isShown_text t)

/-- **What is wrong with variables is reported.** -/
theorem foldlM_addVariable_error {bindings : List (Text × Text)} (settings : List Setting)
    {values : Table Text Value} {err : ConfigError}
    (h : settings.foldlM (addVariable bindings) values = .error err) : err.IsDocumented := by
  induction settings generalizing values with
  | nil => cases h
  | cons s settings ih =>
    rw [List.foldlM_cons] at h
    rcases bind_eq_error.1 h with h | ⟨_, _, h⟩
    · exact addVariable_error h
    · exact ih h

/-! ### What loading comes to -/

theorem load_eq_of_twice {e : Environment} {file : Option Text} {given : Table Text Value}
    (h : (given.get? fileKey).isSome = true) : load e file given = .error (.fault .wrongType) := by
  rw [load, if_pos h]
  rfl

theorem sources_error {e : Environment} {file : Option Text} {given : Table Text Value}
    {err : ConfigError} (h : e.sources file given = .error err) :
    err.IsDocumented ∨ Escapes e file given err := by
  -- The sources are read in their order, and the first that is wrong counts.
  rcases bind_eq_error.1 h with h | ⟨_, _, h⟩
  · exact fileSettings_error (by simp [Environment.paths]) h
  rcases bind_eq_error.1 h with h | ⟨_, _, h⟩
  · exact fileSettings_error (by simp [Environment.paths]) h
  rcases bind_eq_error.1 h with h | ⟨_, _, h⟩
  · exact namedSettings_error h
  rcases bind_eq_error.1 h with h | ⟨_, _, h⟩
  · exact .inl (foldlM_addVariable_error _ h)
  · cases h

/-- **Settings that come from values by name**, each name being a setting. -/
structure IsGiven (c : Config) (value : Text → Option Value) : Prop where
  /-- Every name is a setting. -/
  known : ∀ k, (value k).isSome = true → Setting.isName k = true
  /-- The target version is the one that is given, or the text of a number. -/
  target : asTarget (valueOr value .jdkTargetVersion) = .ok (c.valueOf .jdkTargetVersion)
  /-- The other settings are as they are given. -/
  value_eq : ∀ s, s ≠ .jdkTargetVersion → c.valueOf s = valueOr value s

theorem settle_eq_ok {value : Text → Option Value} {c : Config} :
    settle value = .ok c ↔
      asTarget (valueOr value .jdkTargetVersion) = .ok (c.valueOf .jdkTargetVersion) ∧
        (∀ s, s ≠ .jdkTargetVersion → c.valueOf s = valueOr value s) ∧ c.IsChecked := by
  constructor
  · intro h
    obtain ⟨target, htarget, h⟩ := bind_eq_ok.1 h
    obtain ⟨hvalue, hchecked⟩ := ofSettings_eq_ok.1 h
    refine ⟨?_, fun s hs => (hvalue s).trans (if_neg hs), hchecked⟩
    rw [htarget, hvalue, if_pos rfl]
  · rintro ⟨htarget, hvalue, hchecked⟩
    refine bind_eq_ok.2 ⟨_, htarget, ofSettings_eq_ok.2 ⟨fun s => ?_, hchecked⟩⟩
    by_cases hs : s = .jdkTargetVersion
    · rw [if_pos hs, hs]
    · rw [if_neg hs, hvalue s hs]

/-- **Merged values give settings if these come from them and pass the checks.** -/
theorem ofMerged_eq_ok {merged : Table Text Value} {c : Config} :
    ofMerged merged = .ok c ↔ c.IsGiven merged.get? ∧ c.IsChecked := by
  rcases ofMerged_cases merged with ⟨k, v, hfirst, heq⟩ | ⟨hknown, heq⟩
  · rw [heq]
    constructor
    · nofun
    · rintro ⟨hgiven, -⟩
      cases hfirst.unknown.symm.trans (hgiven.known k hfirst.isSome)
  · rw [heq, settle_eq_ok]
    constructor
    · rintro ⟨htarget, hvalue, hchecked⟩
      exact ⟨⟨hknown, htarget, hvalue⟩, hchecked⟩
    · rintro ⟨hgiven, hchecked⟩
      exact ⟨hgiven.target, hgiven.value_eq, hchecked⟩

end Config

/-- The settings whose values are not checked, or not for their type. -/
def Setting.loose : List Setting :=
  [.failOnUnresolvable, .logMissingSignatures, .catalogDirs, .missingSummaryWidth]

/-- **Every default is as documented.** -/
theorem Setting.fits_default (s : Setting) : s.Fits s.default := by
  cases s with
  | failOnUnresolvable => exact ⟨true, rfl⟩
  | logMissingSignatures => exact ⟨true, rfl⟩
  | jdkTargetVersion => exact .inl rfl
  | catalogDirs => exact ⟨[], rfl⟩
  | missingSummaryWidth => exact ⟨70, rfl, by decide⟩
  | verbosity => exact ⟨_, by simp [Verbosity.name], rfl⟩

namespace Config

theorem fits_verbosity (c : Config) : Setting.verbosity.Fits (c.valueOf .verbosity) := by
  refine ⟨c.verbosity.name, ?_, rfl⟩
  cases c.verbosity <;> simp [Verbosity.name]

/-- **Settings that pass the checks are as documented where the values given for the loose ones
are.** -/
theorem IsGiven.isValid_iff {c : Config} {value : Text → Option Value} (h : c.IsGiven value)
    (hchecked : c.IsChecked) :
    c.IsValid ↔ ∀ s ∈ Setting.loose, ∀ v, value s.name = some v → s.Fits v := by
  have hloose {s : Setting} (hs : s ∈ Setting.loose) : c.valueOf s = valueOr value s :=
    h.value_eq s (by rintro rfl; exact absurd hs (by decide))
  constructor
  · intro hvalid s hs v hv
    have hfits := hvalid s
    rwa [hloose hs, valueOr, hv] at hfits
  · intro hall s
    have hfits (hs : s ∈ Setting.loose) : s.Fits (c.valueOf s) := by
      rw [hloose hs, valueOr]
      cases hv : value s.name with
      | none => exact s.fits_default
      | some v => exact hall s hs v hv
    cases s with
    | jdkTargetVersion => exact hchecked.target
    | verbosity => exact c.fits_verbosity
    | _ => exact hfits (by decide)

/-- **Loading gives the settings that come from the sources, if they pass the checks.** -/
theorem load_eq_ok {e : Environment} {file : Option Text} {given : Table Text Value} {c : Config} :
    load e file given = .ok c ↔ given.get? fileKey = none ∧ c.IsChecked ∧
      ∃ sources, e.sources file given = .ok sources ∧ c.IsGiven (merge sources).get? := by
  cases hfile : given.get? fileKey with
  | some v => simp [load_eq_of_twice (Option.isSome_iff_exists.2 ⟨v, hfile⟩)]
  | none =>
    rw [load_eq hfile, bind_eq_ok]
    constructor
    · rintro ⟨sources, hsources, h⟩
      obtain ⟨hgiven, hchecked⟩ := ofMerged_eq_ok.1 h
      exact ⟨rfl, hchecked, sources, hsources, hgiven⟩
    · rintro ⟨-, hchecked, sources, hsources, hgiven⟩
      exact ⟨sources, hsources, ofMerged_eq_ok.2 ⟨hgiven, hchecked⟩⟩

theorem load_error {e : Environment} {file : Option Text} {given : Table Text Value}
    {err : ConfigError} (h : load e file given = .error err) :
    err.IsDocumented ∨ Escapes e file given err := by
  cases hfile : given.get? fileKey with
  | some v =>
    have htwice := Option.isSome_iff_exists.2 ⟨v, hfile⟩
    obtain rfl := Except.error.inj ((load_eq_of_twice htwice).symm.trans h)
    exact .inr (.twice htwice)
  | none =>
    rw [load_eq hfile] at h
    rcases bind_eq_error.1 h with h | ⟨sources, hsources, h⟩
    · exact sources_error h
    · exact (ofMerged_error h).imp_right (.balks hsources)

/-- A file in the home directory that cannot be read ends the loading, -/
theorem load_of_unreadable {e : Environment} {file : Option Text} {given : Table Text Value}
    {content : Bytes} {err : ConfigError} (hfile : given.get? fileKey = none)
    (hnode : e.disk.find e.homeFile = .found (.file content)) (h : Unreadable content err) :
    load e file given = .error err := by
  have hhome : e.fileSettings e.homeFile = .error err := by
    rw [Environment.fileSettings, Environment.settingsAt, hnode]
    dsimp only
    rw [h.readFile]
    rfl
  rw [load_eq hfile, Environment.sources, hhome]
  rfl

/-- and so does one that the system refuses to look for. -/
theorem load_of_refused {e : Environment} {file : Option Text} {given : Table Text Value}
    (hfile : given.get? fileKey = none) (hrefused : e.disk.find e.homeFile = .refused) :
    load e file given = .error (.fault .system) := by
  have hhome : e.fileSettings e.homeFile = .error (.fault .system) := by
    rw [Environment.fileSettings, Environment.settingsAt, hrefused]
    rfl
  rw [load_eq hfile, Environment.sources, hhome]
  rfl

/-- **Loading gives settings as they are given, of which some are checked; and it reports what is
wrong, but for some escapes.** -/
theorem load_validated (e : Environment) (file : Option Text) (given : Table Text Value) :
    (∀ c, load e file given = .ok c ↔ given.get? fileKey = none ∧ c.IsChecked ∧
      ∃ sources, e.sources file given = .ok sources ∧ c.IsGiven (merge sources).get?) ∧
    (∀ c sources, load e file given = .ok c → e.sources file given = .ok sources →
      (c.IsValid ↔
        ∀ s ∈ Setting.loose, ∀ v, (merge sources).get? s.name = some v → s.Fits v)) ∧
    (∀ err, load e file given = .error err → err.IsDocumented ∨ Escapes e file given err) ∧
    (∀ err, Escapes e file given err → ¬err.IsDocumented) ∧
    (∀ content err, given.get? fileKey = none → e.disk.find e.homeFile = .found (.file content) →
      Unreadable content err → load e file given = .error err) ∧
    (given.get? fileKey = none → e.disk.find e.homeFile = .refused →
      load e file given = .error (.fault .system)) := by
  refine ⟨fun c => load_eq_ok, fun c sources h hsources => ?_, fun err => load_error,
    fun err h => h.not_isDocumented, fun content err => load_of_unreadable, load_of_refused⟩
  obtain ⟨-, hchecked, sources', hsources', hgiven⟩ := load_eq_ok.1 h
  obtain rfl := Except.ok.inj (hsources.symm.trans hsources')
  exact hgiven.isValid_iff hchecked

/-- Nothing but a file in the working directory. -/
def projectOnly (content : Bytes) : Environment :=
  { variablesOnly [] with
    disk := ⟨⟨[([Utf8.encode "work".toText, Utf8.encode "sigwarden.toml".toText],
      .file content)]⟩, [Utf8.encode "work".toText]⟩ }

/-- **A file that is no text gets past the promised errors, and a text gets past the checks as a
truth value.** -/
theorem load_unvalidated :
    (∃ err, load (projectOnly [0xff]) none .empty = .error err ∧ ¬err.IsDocumented) ∧
    ∃ c, load (variablesOnly []) none ⟨[(Setting.failOnUnresolvable.name, .text "no".toText)]⟩ =
      .ok c ∧ ¬c.IsValid := by
  constructor
  · exact ⟨.fault .notText, rfl, ConfigError.not_isDocumented_fault _⟩
  · refine ⟨{ failOnUnresolvable := .text "no".toText }, rfl, fun hvalid => ?_⟩
    obtain ⟨b, hb⟩ := hvalid .failOnUnresolvable
    cases hb

end Config
end Embargo
