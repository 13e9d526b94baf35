import Embargo.Proofs.TextOrder
import Embargo.Proofs.TomlTables

/-!
# Which source of settings counts

The settings that are loaded are those of five sources, laid over one another. What a setting comes
to is a matter of the last source that has it, and of nothing else.

| what | theorem |
|---|---|
| no source has a name twice | `Config.nodup_of_sources` |
| the last source that has a name counts | `Config.get?_merge` |
| of the two shorthands of a caller, `quiet` counts | `Config.get?_expandShorthands` |
| what a caller gives counts first | `Config.lastValue_of_sources` |
| the first name that is no setting is an error | `Config.ofMerged_of_unknown` |
| other settings are checked one by one | `Config.ofMerged_of_known` |

* `Config.lastValue` – the value of a name in the last source that has it.
* `Config.ofSettings` – the settings with a value for each, checked, without regard to where the
  values come from.
* `Config.load_precedence` – the main statement. That what is hidden by a later source does not
  matter is a part of it, about two runs (`Config.DifferInShadow`).
-/

namespace Embargo

/-! ### One step after another -/

namespace Config

variable {ε α β : Type} {x : Except ε α} {f : α → Except ε β}

/-- Two steps have a result if both have one. -/
theorem bind_eq_ok {b : β} : x >>= f = .ok b ↔ ∃ a, x = .ok a ∧ f a = .ok b := by
  cases x with
  | error e => simp [bind, Except.bind]
  | ok a => simp [bind, Except.bind]

/-- Two steps fail if one of them does. -/
theorem bind_eq_error {e : ε} :
    x >>= f = .error e ↔ x = .error e ∨ ∃ a, x = .ok a ∧ f a = .error e := by
  cases x with
  | error e' => simp [bind, Except.bind]
  | ok a => simp [bind, Except.bind]

end Config

/-! ### Tables laid over one another -/

namespace Table

variable {α β : Type} [DecidableEq α]

/-- The later table counts where it has a value. -/
theorem get?_override {t later : Table α β} (h : later.keys.Nodup) (k : α) :
    (t.override later).get? k = (later.get? k).or (t.get? k) := by
  obtain ⟨entries⟩ := later
  unfold override
  dsimp only
  induction entries generalizing t with
  | nil => rfl
  | cons e entries ih =>
    obtain ⟨l, w⟩ := e
    obtain ⟨hfresh, hrest⟩ := List.nodup_cons.1 h
    rw [List.foldl_cons, ih hrest, get?_insert]
    by_cases hk : k = l
    · -- The entries behind this one do not have the key once more.
      have hnone : (⟨entries⟩ : Table α β).get? k = none := by
        rw [← Option.not_isSome_iff_eq_none, ← mem_keys_iff, hk]
        exact hfresh
      rw [hnone, if_pos hk, Option.none_or]
      simp [get?, hk]
    · have hbeq : (k == l) = false := beq_false_of_ne hk
      rw [if_neg hk]
      simp [get?, List.lookup_cons, hbeq]

omit [DecidableEq α] in
theorem nodup_keys_empty : (empty : Table α β).keys.Nodup := List.nodup_nil

theorem nodup_keys_erase {t : Table α β} (h : t.keys.Nodup) (k : α) : (t.erase k).keys.Nodup :=
  h.sublist (List.Sublist.map _ List.filter_sublist)

end Table

namespace Config

/-- **The value of a name in the last source that has it.** -/
def lastValue : List (Table Text Value) → Text → Option Value
  | [], _ => none
  | t :: ts, k => (lastValue ts k).or (t.get? k)

theorem get?_foldl_override {sources : List (Table Text Value)}
    (h : ∀ t ∈ sources, t.keys.Nodup) (start : Table Text Value) (k : Text) :
    (sources.foldl Table.override start).get? k = (lastValue sources k).or (start.get? k) := by
  induction sources generalizing start with
  | nil => rfl
  | cons t ts ih =>
    obtain ⟨ht, hts⟩ := List.forall_mem_cons.1 h
    rw [List.foldl_cons, ih hts, Table.get?_override ht, lastValue, Option.or_assoc]

/-- **The last source that has a name counts.** -/
theorem get?_merge {sources : List (Table Text Value)} (h : ∀ t ∈ sources, t.keys.Nodup)
    (k : Text) : (merge sources).get? k = lastValue sources k := by
  rw [merge, get?_foldl_override h, Table.get?_empty, Option.or_none]

/-! ### The sources -/

/-- The settings of all sources, the last one that of the caller. -/
def Environment.sources (e : Environment) (file : Option Text) (given : Table Text Value) :
    Except ConfigError (List (Table Text Value)) := do
  let home ← e.fileSettings e.homeFile
  let project ← e.fileSettings e.projectFile
  let named ← e.namedSettings file
  let bindings ← readVariables e.bindings
  return [home, project, named, bindings, expandShorthands given]

/-- If nothing is wrong with the sources, nothing is wrong with one of them. -/
theorem of_sources {e : Environment} {file : Option Text} {given : Table Text Value}
    {sources : List (Table Text Value)} (h : e.sources file given = .ok sources) :
    ∃ home project named bindings,
      e.fileSettings e.homeFile = .ok home ∧ e.fileSettings e.projectFile = .ok project ∧
      e.namedSettings file = .ok named ∧ readVariables e.bindings = .ok bindings ∧
      sources = [home, project, named, bindings, expandShorthands given] := by
  obtain ⟨home, hhome, h⟩ := bind_eq_ok.1 h
  obtain ⟨project, hproject, h⟩ := bind_eq_ok.1 h
  obtain ⟨named, hnamed, h⟩ := bind_eq_ok.1 h
  obtain ⟨bindings, hbindings, h⟩ := bind_eq_ok.1 h
  exact ⟨home, project, named, bindings, hhome, hproject, hnamed, hbindings,
    (Except.ok.inj h).symm⟩

/-- **Loading is the reading of the sources, and then the checking of what they come to**, if the
caller names no file twice. -/
theorem load_eq {e : Environment} {file : Option Text} {given : Table Text Value}
    (hfile : given.get? fileKey = none) :
    load e file given = e.sources file given >>= fun sources => ofMerged (merge sources) := by
  rw [load, hfile, Environment.sources]
  simp only [bind_assoc, pure_bind]
  rfl

/-- What the sources lead to, if nothing is wrong with them. -/
theorem load_of_sources {e : Environment} {file : Option Text} {given : Table Text Value}
    {sources : List (Table Text Value)} (hfile : given.get? fileKey = none)
    (h : e.sources file given = .ok sources) : load e file given = ofMerged (merge sources) := by
  rw [load_eq hfile, h]
  rfl

/-! ### No name twice -/

theorem nodup_settingsIn {entries : Toml.Entries} (h : Toml.IsProper entries) :
    (settingsIn entries).keys.Nodup := by
  unfold settingsIn
  split
  · next sub hsub => exact (Toml.IsProper.of_table (h.lookup hsub)).names
  · exact h.names

theorem nodup_readFile {path : Text} {node : FileTree.Node} {values : Table Text Value}
    (h : readFile path node = .ok values) : values.keys.Nodup := by
  cases node with
  | unreadable | directory | closed => cases h
  | file content =>
    rw [readFile] at h
    split at h
    · cases h
    · split at h
      · next entries hparse =>
        obtain rfl := Except.ok.inj h
        exact nodup_settingsIn (Toml.isProper_of_parse hparse)
      all_goals cases h

theorem nodup_settingsAt {e : Environment} {path : Path} {values : Table Text Value}
    (h : e.settingsAt path = .ok (some values)) : values.keys.Nodup := by
  unfold Environment.settingsAt at h
  split at h
  · obtain ⟨values', hread, heq⟩ := bind_eq_ok.1 h
    obtain rfl := Option.some.inj (Except.ok.inj heq)
    exact nodup_readFile hread
  all_goals cases h

theorem nodup_fileSettings {e : Environment} {path : Path} {values : Table Text Value}
    (h : e.fileSettings path = .ok values) : values.keys.Nodup := by
  obtain ⟨found, hfound, h⟩ := bind_eq_ok.1 h
  obtain rfl := Except.ok.inj h
  cases found with
  | none => exact List.nodup_nil
  | some values => exact nodup_settingsAt hfound

theorem nodup_namedSettings {e : Environment} {file : Option Text} {values : Table Text Value}
    (h : e.namedSettings file = .ok values) : values.keys.Nodup := by
  cases file with
  | none =>
    obtain rfl := Except.ok.inj h
    exact List.nodup_nil
  | some t =>
    obtain ⟨found, hfound, h⟩ := bind_eq_ok.1 h
    cases found with
    | none => cases h
    | some values' =>
      obtain rfl := Except.ok.inj h
      exact nodup_settingsAt hfound

theorem nodup_addVariable {bindings : List (Text × Text)} {values values' : Table Text Value}
    {s : Setting} (hvalues : values.keys.Nodup) (h : addVariable bindings values s = .ok values') :
    values'.keys.Nodup := by
  unfold addVariable at h
  split at h
  · exact Except.ok.inj h ▸ hvalues
  · split at h
    · exact Except.ok.inj h ▸ Table.nodup_keys_insert hvalues _ _
    · cases h

theorem nodup_foldlM_addVariable {bindings : List (Text × Text)} (settings : List Setting)
    {values values' : Table Text Value} (hvalues : values.keys.Nodup)
    (h : settings.foldlM (addVariable bindings) values = .ok values') : values'.keys.Nodup := by
  induction settings generalizing values with
  | nil => exact Except.ok.inj h ▸ hvalues
  | cons s settings ih =>
    rw [List.foldlM_cons] at h
    obtain ⟨values'', hadd, h⟩ := bind_eq_ok.1 h
    exact ih (nodup_addVariable hvalues hadd) h

theorem nodup_expandShorthand {shorthand : Text} {verbosity : Verbosity}
    {values : Table Text Value} (h : values.keys.Nodup) :
    (expandShorthand shorthand verbosity values).keys.Nodup := by
  unfold expandShorthand
  split
  · exact h
  · split
    · exact Table.nodup_keys_erase (Table.nodup_keys_insert h _ _) _
    · exact Table.nodup_keys_erase h _

/-- **No source has a name twice.** -/
theorem nodup_of_sources {e : Environment} {file : Option Text} {given : Table Text Value}
    {sources : List (Table Text Value)} (hgiven : given.keys.Nodup)
    (h : e.sources file given = .ok sources) : ∀ t ∈ sources, t.keys.Nodup := by
  obtain ⟨home, project, named, bindings, hhome, hproject, hnamed, hbindings, rfl⟩ := of_sources h
  simp only [List.forall_mem_cons]
  exact ⟨nodup_fileSettings hhome, nodup_fileSettings hproject, nodup_namedSettings hnamed,
    nodup_foldlM_addVariable _ Table.nodup_keys_empty hbindings,
    nodup_expandShorthand (nodup_expandShorthand hgiven), by simp⟩

/-! ### The shorthands -/

theorem get?_expandShorthand (shorthand : Text) (verbosity : Verbosity) (values : Table Text Value)
    (k : Text) : (expandShorthand shorthand verbosity values).get? k =
      if k = shorthand then none
      else if k = Setting.verbosity.name ∧ (values.get? shorthand).any Value.isTrue = true then
        some (.text verbosity.name)
      else values.get? k := by
  unfold expandShorthand
  split
  · next h =>
    by_cases hk : k = shorthand
    · rw [if_pos hk, hk, h]
    · simp [hk, h]
  · next v h =>
    rw [Table.get?_erase, h]
    by_cases hv : v.isTrue = true
    · simp [hv]
    · simp [hv]

/-- **What a caller gives for a name.** The two shorthands count as a verbosity, and of the two
`quiet` counts. -/
def givenValue (given : Table Text Value) (k : Text) : Option Value :=
  if k = "quiet".toText ∨ k = "verbose".toText then none
  else if k = Setting.verbosity.name then
    if (given.get? "quiet".toText).any Value.isTrue then some (.text Verbosity.quiet.name)
    else if (given.get? "verbose".toText).any Value.isTrue then
      some (.text Verbosity.verbose.name)
    else given.get? k
  else given.get? k

theorem get?_expandShorthands (given : Table Text Value) (k : Text) :
    (expandShorthands given).get? k = givenValue given k := by
  have hquiet : "quiet".toText ≠ "verbose".toText := by decide
  have hname : "quiet".toText ≠ Setting.verbosity.name := by decide
  have hname' : "verbose".toText ≠ Setting.verbosity.name := by decide
  simp only [expandShorthands, givenValue, get?_expandShorthand, if_neg hquiet, hname, false_and,
    if_false]
  by_cases hk : k = "quiet".toText
  · simp [hk]
  by_cases hk' : k = "verbose".toText
  · simp [hk', hquiet.symm, hname']
  by_cases hv : k = Setting.verbosity.name
  · simp only [hv, hname.symm, hname'.symm, if_false, or_self, true_and, if_true]
  · simp [hk, hk', hv]

/-- What a caller gives counts before everything else. -/
theorem lastValue_of_sources {e : Environment} {file : Option Text} {given : Table Text Value}
    {sources : List (Table Text Value)} (h : e.sources file given = .ok sources) (k : Text) :
    lastValue sources k = (givenValue given k).or (lastValue sources.dropLast k) := by
  obtain ⟨home, project, named, bindings, -, -, -, -, rfl⟩ := of_sources h
  simp [lastValue, get?_expandShorthands, Option.or_assoc]

/-! ### Settings from values -/

end Config

namespace Setting

/-- The default of a setting. -/
def default : Setting → Value
  | .failOnUnresolvable | .logMissingSignatures => .bool true
  | .jdkTargetVersion => .null
  | .catalogDirs => .list []
  | .missingSummaryWidth => .int 70
  | .verbosity => .text Verbosity.normal.name

theorem name_inj {s s' : Setting} : s.name = s'.name ↔ s = s' := by
  cases s <;> cases s' <;> decide

theorem isName_name (s : Setting) : isName s.name = true := by
  cases s <;> decide

end Setting

namespace Config

/-- **The settings with a value for each**, checked one after the other. -/
def ofSettings (value : Setting → Value) : Except ConfigError Config := do
  let target ← targetOf (value .jdkTargetVersion)
  let width ← widthOf (value .missingSummaryWidth)
  let verbosity ← verbosityOf (value .verbosity)
  return {
    failOnUnresolvable := value .failOnUnresolvable
    logMissingSignatures := value .logMissingSignatures
    jdkTargetVersion := target
    catalogDirs := value .catalogDirs
    missingSummaryWidth := width
    verbosity := verbosity }

/-- A number as a target version is the text that shows it; other values stay as they are. -/
def asTarget : Value → Except ConfigError Value
  | .int i =>
    if Numeral.isWritable i then .ok (.text (Numeral.ofInt i)) else .error (.fault .badValue)
  | .float x => .ok (.text x.text)
  | v => .ok v

/-- The value of a setting, or its default. -/
def valueOr (value : Text → Option Value) (s : Setting) : Value := (value s.name).getD s.default

/-- **The settings with some values by name**, the number of a target version being read as text. -/
def settle (value : Text → Option Value) : Except ConfigError Config :=
  (asTarget (valueOr value .jdkTargetVersion)).bind fun target =>
    ofSettings fun s => if s = .jdkTargetVersion then target else valueOr value s

theorem ofValues_eq_ofSettings {values : Table Text Value}
    (h : ∀ k ∈ values.keys, Setting.isName k = true) :
    ofValues values = ofSettings (valueOr values.get?) := by
  have hall : values.keys.all Setting.isName = true := List.all_eq_true.2 h
  rw [ofValues, hall]
  rfl

/-- The settings with another value for the target version. -/
theorem ofValues_insert {values : Table Text Value}
    (h : ∀ k ∈ values.keys, Setting.isName k = true) (target : Value) :
    ofValues (values.insert Setting.jdkTargetVersion.name target) =
      ofSettings fun s => if s = .jdkTargetVersion then target else valueOr values.get? s := by
  have hkeys : ∀ k ∈ (values.insert Setting.jdkTargetVersion.name target).keys,
      Setting.isName k = true := by
    intro k hk
    rw [Table.mem_keys_iff, Table.get?_insert] at hk
    by_cases hname : k = Setting.jdkTargetVersion.name
    · exact hname ▸ Setting.isName_name _
    · rw [if_neg hname] at hk
      exact h k (Table.mem_keys_iff.2 hk)
  rw [ofValues_eq_ofSettings hkeys]
  congr 1
  funext s
  rw [valueOr, Table.get?_insert]
  by_cases hs : s = .jdkTargetVersion
  · rw [if_pos (Setting.name_inj.2 hs), if_pos hs, Option.getD_some]
  · rw [if_neg fun hname => hs (Setting.name_inj.1 hname), if_neg hs, valueOr]

/-- **If every name is a setting, the settings are checked one by one.** -/
theorem ofMerged_of_known {merged : Table Text Value}
    (h : ∀ k ∈ merged.keys, Setting.isName k = true) : ofMerged merged = settle merged.get? := by
  have hnone : merged.keys.filter (fun k => !Setting.isName k) = [] :=
    List.filter_eq_nil_iff.2 fun k hk => by simp [h k hk]
  have hmerged : ofMerged merged = (targetAsText merged).bind ofValues := by
    rw [ofMerged, hnone]
    rfl
  -- A value that stands for itself need not be put back.
  have hsame (hv : asTarget (valueOr merged.get? .jdkTargetVersion) =
      .ok (valueOr merged.get? .jdkTargetVersion)) : ofValues merged = settle merged.get? := by
    rw [settle, hv, ofValues_eq_ofSettings h, Except.bind]
    refine congrArg ofSettings (funext fun s => ?_)
    split
    · next hs => rw [hs]
    · rfl
  rw [hmerged, targetAsText]
  cases hv : merged.get? Setting.jdkTargetVersion.name with
  | none => exact hsame (by rw [valueOr, hv]; rfl)
  | some v =>
    cases v with
    | int i =>
      rw [settle, valueOr, hv, Option.getD_some, asTarget]
      dsimp only
      split
      · exact ofValues_insert h _
      · rfl
    | float x =>
      rw [settle, valueOr, hv, Option.getD_some, asTarget]
      exact ofValues_insert h _
    | _ => exact hsame (by rw [valueOr, hv]; rfl)

/-- The first name, by code points, that has a value and is no setting. -/
structure IsFirstUnknown (value : Text → Option Value) (k : Text) (v : Value) : Prop where
  /-- It has a value. -/
  value_eq : value k = some v
  /-- It is no setting. -/
  unknown : Setting.isName k = false
  /-- No such name comes before it. -/
  first : ∀ k', (value k').isSome = true → Setting.isName k' = false → k ≤ k'

theorem IsFirstUnknown.isSome {value : Text → Option Value} {k : Text} {v : Value}
    (h : IsFirstUnknown value k v) : (value k).isSome = true :=
  Option.isSome_iff_exists.2 ⟨v, h.value_eq⟩

/-- There is but one first name. -/
theorem IsFirstUnknown.unique {value : Text → Option Value} {k k' : Text} {v v' : Value}
    (h : IsFirstUnknown value k v) (h' : IsFirstUnknown value k' v') : k = k' ∧ v = v' := by
  obtain rfl : k = k' :=
    List.le_antisymm (h.first k' h'.isSome h'.unknown) (h'.first k h.isSome h.unknown)
  exact ⟨rfl, Option.some.inj (h.value_eq.symm.trans h'.value_eq)⟩

/-- The names that are reported are those that are no settings. -/
theorem mem_sort_unknown {merged : Table Text Value} {k : Text} :
    k ∈ Text.sort (merged.keys.filter fun k => !Setting.isName k) ↔
      (merged.get? k).isSome = true ∧ Setting.isName k = false := by
  rw [Text.sort, Text.mem_sortBy, List.mem_filter, Table.mem_keys_iff, Bool.not_eq_true']

/-- **The first name that is no setting is an error.** -/
theorem ofMerged_of_unknown {merged : Table Text Value} {k : Text} {rest : List Text}
    (h : Text.sort (merged.keys.filter fun k => !Setting.isName k) = k :: rest) :
    ∃ v, IsFirstUnknown merged.get? k v ∧
      ofMerged merged = .error (.setting k v "unknown setting".toText) := by
  obtain ⟨hsome, hname⟩ := mem_sort_unknown.1 (h ▸ List.mem_cons_self)
  obtain ⟨v, hv⟩ := Option.isSome_iff_exists.1 hsome
  refine ⟨v, ⟨hv, hname, fun k' hsome' hname' => ?_⟩, ?_⟩
  · exact Text.head_le_sort _ k (by rw [h]; rfl) k' (mem_sort_unknown.2 ⟨hsome', hname'⟩)
  · rw [ofMerged, h]
    dsimp only
    rw [hv, Option.getD_some]

/-- **What merged values come to**: the first name that is no setting is an error, or there is no
such name. -/
theorem ofMerged_cases (merged : Table Text Value) :
    (∃ k v, IsFirstUnknown merged.get? k v ∧
      ofMerged merged = .error (.setting k v "unknown setting".toText)) ∨
    (∀ k, (merged.get? k).isSome = true → Setting.isName k = true) ∧
      ofMerged merged = settle merged.get? := by
  cases h : Text.sort (merged.keys.filter fun k => !Setting.isName k) with
  | cons k rest => exact .inl ⟨k, ofMerged_of_unknown h⟩
  | nil =>
    have hknown : ∀ k, (merged.get? k).isSome = true → Setting.isName k = true := by
      intro k hsome
      cases hname : Setting.isName k with
      | true => rfl
      | false =>
        have hmem := mem_sort_unknown.2 ⟨hsome, hname⟩
        rw [h] at hmem
        cases hmem
    exact .inr ⟨hknown, ofMerged_of_known fun k hk => hknown k (Table.mem_keys_iff.1 hk)⟩

/-- **Merged values are a matter of the value of each name.** -/
theorem ofMerged_congr {merged merged' : Table Text Value} (h : merged'.get? = merged.get?) :
    ofMerged merged' = ofMerged merged := by
  have hcases := ofMerged_cases merged'
  rw [h] at hcases
  rcases ofMerged_cases merged with ⟨k, v, hfirst, heq⟩ | ⟨hknown, heq⟩
  · rcases hcases with ⟨k', v', hfirst', heq'⟩ | ⟨hknown', -⟩
    · obtain ⟨rfl, rfl⟩ := hfirst.unique hfirst'
      rw [heq, heq']
    · cases hfirst.unknown.symm.trans (hknown' k hfirst.isSome)
  · rcases hcases with ⟨k', v', hfirst', -⟩ | ⟨-, heq'⟩
    · cases hfirst'.unknown.symm.trans (hknown k' hfirst'.isSome)
    · rw [heq, heq']

end Config

/-! ### What is reported -/

/-- The value can be shown in a message. -/
def Value.IsShown (v : Value) : Prop := v.depth ≤ maxShownDepth ∧ v.isWritable = true

/-- **A wrong value is reported if it can be shown**, and else nothing is reported of it. -/
theorem ConfigError.problem_setting (k : Text) (v : Value) (reason : Text) :
    (v.IsShown → (setting k v reason).problem = .failure (.setting k v reason)) ∧
      (¬v.IsShown → ∃ f, (setting k v reason).problem = .fault f) := by
  rw [Value.IsShown, problem]
  refine ⟨fun ⟨hdepth, hwritable⟩ => ?_, fun hshown => ?_⟩
  · rw [if_neg (Nat.not_lt.2 hdepth), if_pos hwritable]
  · -- Depth is looked at first, so a value may be too deep and unwritable besides.
    split
    · exact ⟨_, rfl⟩
    · next hdepth =>
      have hwritable : ¬v.isWritable = true := fun h => hshown ⟨Nat.not_lt.1 hdepth, h⟩
      rw [if_neg hwritable]
      exact ⟨_, rfl⟩

namespace Config

/-! ### Precedence -/

/-- **The sources differ in the shadow of later ones**: where two of them differ about a name, a
later source has that name. -/
inductive DifferInShadow : List (Table Text Value) → List (Table Text Value) → Prop where
  /-- There are no sources. -/
  | nil : DifferInShadow [] []
  /-- The first sources differ about names that later ones have. -/
  | cons {t t' : Table Text Value} {ts ts' : List (Table Text Value)}
      (h : ∀ k, (lastValue ts k).isSome = true ∨ t'.get? k = t.get? k)
      (hrest : DifferInShadow ts ts') : DifferInShadow (t :: ts) (t' :: ts')

/-- What is in the shadow has no effect. -/
theorem DifferInShadow.lastValue_eq {sources sources' : List (Table Text Value)}
    (h : DifferInShadow sources sources') : lastValue sources' = lastValue sources := by
  induction h with
  | nil => rfl
  | cons h hrest ih =>
    funext k
    rw [lastValue, lastValue, ih]
    rcases h k with hsome | hsame
    · obtain ⟨v, hv⟩ := Option.isSome_iff_exists.1 hsome
      rw [hv, Option.some_or, Option.some_or]
    · rw [hsame]

/-- **The last source that has a name says what its setting is.** The first name that is no setting
is an error, which is reported with its value if that can be shown; if there is none, the settings
are checked one by one. What a later source hides does not count, right or wrong. -/
theorem load_precedence {e : Environment} {file : Option Text} {given : Table Text Value}
    {sources : List (Table Text Value)} (hfile : given.get? fileKey = none)
    (hgiven : given.keys.Nodup) (hsources : e.sources file given = .ok sources) :
    (∀ k, lastValue sources k = (givenValue given k).or (lastValue sources.dropLast k)) ∧
    ((∃ k v, IsFirstUnknown (lastValue sources) k v ∧
        load e file given = .error (.setting k v "unknown setting".toText) ∧
        (v.IsShown → (ConfigError.setting k v "unknown setting".toText).problem =
          .failure (.setting k v "unknown setting".toText)) ∧
        (¬v.IsShown →
          ∃ f, (ConfigError.setting k v "unknown setting".toText).problem = .fault f)) ∨
      (∀ k, (lastValue sources k).isSome = true → Setting.isName k = true) ∧
        load e file given = settle (lastValue sources)) ∧
    ∀ {e' file' given' sources'}, given'.get? fileKey = none → given'.keys.Nodup →
      e'.sources file' given' = .ok sources' → DifferInShadow sources sources' →
      load e' file' given' = load e file given := by
  have hget : (merge sources).get? = lastValue sources :=
    funext (get?_merge (nodup_of_sources hgiven hsources))
  rw [load_of_sources hfile hsources]
  refine ⟨lastValue_of_sources hsources, ?_,
    fun {e' file' given' sources'} hfile' hgiven' hsources' hshadow => ?_⟩
  · have hcases := ofMerged_cases (merge sources)
    rw [hget] at hcases
    refine hcases.imp_left ?_
    rintro ⟨k, v, hfirst, heq⟩
    exact ⟨k, v, hfirst, heq, ConfigError.problem_setting k v _⟩
  · have hget' : (merge sources').get? = lastValue sources' :=
      funext (get?_merge (nodup_of_sources hgiven' hsources'))
    rw [load_of_sources hfile' hsources']
    exact ofMerged_congr (by rw [hget', hget, hshadow.lastValue_eq])

/-! A variable that the caller hides, once with a word that is no verbosity. -/

/-- Nothing but variables. -/
def variablesOnly (bindings : List (Text × Text)) : Environment where
  disk := ⟨⟨[]⟩, [Utf8.encode "work".toText]⟩
  home := .ofText "/home".toText
  work := .ofText "/work".toText
  bindings := bindings

/-- A variable for the verbosity. -/
def boundVerbosity (word : String) : Environment :=
  variablesOnly [(variableName .verbosity, word.toText)]

/-- A caller who wants both more and less. -/
def torn : Table Text Value := ⟨[("verbose".toText, .bool true), ("quiet".toText, .int 1)]⟩

/-- The sources of such a caller. -/
def tornSources (word : String) : List (Table Text Value) :=
  [.empty, .empty, .empty, Table.empty.insert Setting.verbosity.name (.text word.toText),
    Table.empty.insert Setting.verbosity.name (.text Verbosity.quiet.name)]

theorem sources_torn (word : String) :
    (boundVerbosity word).sources none torn = .ok (tornSources word) := rfl

theorem differInShadow_torn (word word' : String) :
    DifferInShadow (tornSources word) (tornSources word') := by
  refine .cons (fun _ => .inr rfl) <| .cons (fun _ => .inr rfl) <| .cons (fun _ => .inr rfl) <|
    .cons (fun k => ?_) <| .cons (fun _ => .inr rfl) .nil
  by_cases hk : k = Setting.verbosity.name
  · refine .inl ?_
    rw [hk]
    rfl
  · refine .inr ?_
    rw [Table.get?_insert, Table.get?_insert, if_neg hk, if_neg hk]

theorem load_precedence_torn :
    load (boundVerbosity "loud") none torn = load (boundVerbosity "normal") none torn :=
  (load_precedence rfl (by decide) (sources_torn "normal")).2.2 rfl (by decide)
    (sources_torn "loud") (differInShadow_torn "normal" "loud")

/-- The least integer of too many digits. -/
def unwritable : Value := .int (.ofNat (Nat.pow 10 Numeral.maxDigits))

/-- **A name that is no setting is not reported** if it is given such an integer. -/
theorem load_unknown_unreported :
    load (variablesOnly []) none ⟨[("x".toText, unwritable)]⟩ =
      .error (.setting "x".toText unwritable "unknown setting".toText) ∧
    (ConfigError.setting "x".toText unwritable "unknown setting".toText).problem =
      .fault .badValue := by
  refine ⟨rfl, ?_⟩
  rw [ConfigError.problem, if_neg (by decide), if_neg (by decide +kernel)]

end Config
end Embargo
