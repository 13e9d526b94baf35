import Embargo.Config.Sources

/-!
# The tables of TOML documents

A document names each thing once: the table that is read from it has no name twice, and neither has
any table in it. So it does not matter whether the first value of a name counts, as when a table is
asked, or the last one, as when a table is laid over another.

* `Value.IsProper`, `Toml.IsProper` – no table has a name twice, at any depth.
* `Scan.Yields` – what is read has a property, if anything is read. It is shown of a reader by
  following its steps, and so needs no case for those that fail.
* `Toml.IsProper.alter` – changing a table at a place keeps tables proper if the change does. Inline
  tables and documents are extended in no other way: `Toml.yields_values`, `Toml.yields_statement`.
* `Toml.isProper_of_parse` – the conclusion, for documents.
-/

namespace Embargo

/-! ### Proper tables -/

theorem Table.mem_put {α β : Type} [DecidableEq α] {k : α} {v : β} {e : α × β}
    {es : List (α × β)} (h : e ∈ Table.put k v es) : e = (k, v) ∨ e ∈ es := by
  induction es with
  | nil => exact .inl (List.mem_singleton.1 h)
  | cons p rest ih =>
    obtain ⟨l, w⟩ := p
    rw [put] at h
    split at h
    · exact (List.mem_cons.1 h).imp_right (List.mem_cons_of_mem _)
    · rcases List.mem_cons.1 h with rfl | h
      · exact .inr List.mem_cons_self
      · exact (ih h).imp_right (List.mem_cons_of_mem _)

/-- **No table in the value has a name twice.** -/
inductive Value.IsProper : Value → Prop where
  /-- There is no table in it. -/
  | plain {v : Value} (h : Toml.isInline v = false) : IsProper v
  /-- Its elements are proper. -/
  | list {vs : List Value} (h : ∀ v ∈ vs, IsProper v) : IsProper (.list vs)
  /-- It has no name twice, and proper values. -/
  | table {es : List (Text × Value)} (hnames : (es.map Prod.fst).Nodup)
      (h : ∀ e ∈ es, IsProper e.2) : IsProper (.table es)

namespace Toml

/-- No name is there twice, in the entries or in a table in them. -/
structure IsProper (es : Entries) : Prop where
  /-- The entries have different names. -/
  names : (es.map Prod.fst).Nodup
  /-- Their values are proper. -/
  values : ∀ e ∈ es, e.2.IsProper

namespace IsProper

variable {es : Entries} {name : Text} {v : Value}

theorem nil : IsProper [] := ⟨List.nodup_nil, by simp⟩

theorem table (h : IsProper es) : Value.IsProper (.table es) := .table h.names h.values

theorem of_table (h : Value.IsProper (.table es)) : IsProper es := by
  cases h with
  | plain h => cases h
  | table hnames h => exact ⟨hnames, h⟩

theorem of_list {vs : List Value} (h : Value.IsProper (.list vs)) : ∀ v ∈ vs, v.IsProper := by
  cases h with
  | plain h => cases h
  | list h => exact h

theorem lookup (h : IsProper es) (hv : es.lookup name = some v) : v.IsProper := by
  obtain ⟨before, after, rfl, -⟩ := List.lookup_eq_some_iff.1 hv
  exact h.values (name, v) (by simp)

theorem put (h : IsProper es) (name : Text) (hv : v.IsProper) : IsProper (Table.put name v es) where
  names := Table.nodup_keys_insert (t := ⟨es⟩) h.names name v
  values := fun e he => by
    rcases Table.mem_put he with rfl | he
    · exact hv
    · exact h.values e he

/-! ### Changes -/

/-- **A change at a place keeps tables proper**, if it does so itself. -/
theorem alter {throughArrays : Bool} {change : Entries → Option Entries}
    (hchange : ∀ {es es'}, IsProper es → change es = some es' → IsProper es') {names : List Text}
    {es' : Entries} (h : IsProper es)
    (halter : Toml.alter throughArrays change names es = some es') : IsProper es' := by
  induction names generalizing es es' with
  | nil => exact hchange h halter
  | cons name names ih =>
    rw [Toml.alter] at halter
    split at halter
    · obtain ⟨sub, hsub, rfl⟩ := Option.map_eq_some_iff.1 halter
      exact h.put name (ih nil hsub).table
    · next sub hlookup =>
      obtain ⟨sub', hsub, rfl⟩ := Option.map_eq_some_iff.1 halter
      exact h.put name (ih (of_table (h.lookup hlookup)) hsub).table
    · next vs hlookup =>
      have hvs := of_list (h.lookup hlookup)
      split at halter
      · next sub hlast =>
        obtain ⟨sub', hsub, rfl⟩ := Option.map_eq_some_iff.1 halter
        have hsub' := ih (of_table (hvs _ (List.mem_of_getLast? hlast))) hsub
        refine h.put name (.list fun w hw => ?_)
        rcases List.mem_append.1 hw with hw | hw
        · exact hvs w (List.dropLast_subset _ hw)
        · exact List.mem_singleton.1 hw ▸ hsub'.table
      · cases halter
    · cases halter

theorem addNew (hv : v.IsProper) {es' : Entries} (h : IsProper es)
    (hadd : Toml.addNew name v es = some es') : IsProper es' := by
  unfold Toml.addNew at hadd
  split at hadd
  · cases hadd
  · next hnone =>
    obtain rfl := Option.some.inj hadd
    have hfresh := List.lookup_eq_none_iff.1 (Option.not_isSome_iff_eq_none.1 hnone)
    refine ⟨?_, fun e he => ?_⟩
    · rw [List.map_append, List.nodup_append]
      refine ⟨h.names, by simp, ?_⟩
      rintro k hk k' hk' rfl
      obtain ⟨e, he, rfl⟩ := List.mem_map.1 hk
      have heq : e.1 = name := by simpa using hk'
      simpa [heq] using hfresh e he
    · rcases List.mem_append.1 he with he | he
      · exact h.values e he
      · exact List.mem_singleton.1 he ▸ hv

theorem addElement {es' : Entries} (h : IsProper es)
    (hadd : Draft.addElement name es = some es') : IsProper es' := by
  unfold Draft.addElement at hadd
  split at hadd
  · obtain rfl := Option.some.inj hadd
    exact h.put name (.list fun w hw => List.mem_singleton.1 hw ▸ nil.table)
  · next vs hlookup =>
    obtain rfl := Option.some.inj hadd
    refine h.put name (.list fun w hw => ?_)
    rcases List.mem_append.1 hw with hw | hw
    · exact of_list (h.lookup hlookup) w hw
    · exact List.mem_singleton.1 hw ▸ nil.table
  · cases hadd

end IsProper
end Toml

/-! ### Readers -/

namespace Scan

variable {α β : Type} {P : α → Prop} {Q : β → Prop}

/-- **What is read has a property**, if anything is read. -/
def Yields (P : α → Prop) (x : Scanning α) : Prop := ∀ a, x = .ok a → P a

namespace Yields

theorem ok {a : α} (h : P a) : Yields P (.ok a) := fun _ ha => Except.ok.inj ha ▸ h

theorem error (e : ScanError) : Yields P (.error e) := fun _ h => by cases h

theorem any (x : Scanning α) : Yields (fun _ => True) x := fun _ _ => trivial

theorem bind {x : Scanning α} {f : α → Scanning β} (hx : Yields P x)
    (hf : ∀ a, P a → Yields Q (f a)) : Yields Q (x >>= f) := by
  cases x with
  | error e => exact error e
  | ok a => exact hf a (hx a rfl)

theorem map {x : Scanning α} {f : α → β} (hx : Yields P x) (hf : ∀ a, P a → Q (f a)) :
    Yields Q (x.map f) := by
  cases x with
  | error e => exact error e
  | ok a => exact ok (hf a (hx a rfl))

end Yields
end Scan

namespace Toml

open Scan

theorem yields_orMalformed {α : Type} {P : α → Prop} {result : Option α}
    (h : ∀ a, result = some a → P a) : Yields P (orMalformed result) := by
  cases result with
  | none => exact .error _
  | some a => exact .ok (h a rfl)

/-! ### Values -/

theorem yields_decimalInteger (negative : Bool) (digits : Text) :
    Yields (fun v => isInline v = false) (decimalInteger negative digits) := by
  unfold decimalInteger
  split
  · exact .error _
  · exact .ok rfl

theorem yields_of_moment? {s : Text} {result : Scanning (Value × Text)}
    (h : moment? s = some result) : Yields (fun read => isInline read.1 = false) result := by
  unfold moment? at h
  split at h
  · obtain rfl := Option.some.inj h
    split
    · exact .error _
    · split <;> exact .ok rfl
  · obtain ⟨read, -, rfl⟩ := Option.map_eq_some_iff.1 h
    exact .ok rfl

theorem yields_of_decimal? {s : Text} {result : Scanning (Value × Text)}
    (h : decimal? s = some result) : Yields (fun read => isInline read.1 = false) result := by
  unfold decimal? at h
  dsimp only at h
  split at h
  · cases h
  split at h
  · obtain rfl := Option.some.inj h
    exact (yields_decimalInteger _ _).map fun _ hv => hv
  · obtain rfl := Option.some.inj h
    exact .ok rfl

theorem isInline_of_basedInteger? {s rest : Text} {v : Value}
    (h : basedInteger? s = some (v, rest)) : isInline v = false := by
  unfold basedInteger? at h
  split at h
  · obtain ⟨base, -, h⟩ := Option.bind_eq_some_iff.1 h
    dsimp only at h
    split at h
    · cases h
    · obtain ⟨rfl, -⟩ := Prod.mk.inj (Option.some.inj h)
      rfl
  · cases h

/-- A scalar has no table in it. -/
theorem yields_scalar (s : Text) : Yields (fun read => isInline read.1 = false) (scalar s) := by
  have hwords : ∀ word ∈ words, isInline word.2 = false := by decide
  unfold scalar
  split
  · next word v hfind => exact .ok (hwords _ (List.mem_of_find?_eq_some hfind))
  split
  · next result hmoment => exact yields_of_moment? hmoment
  split
  · next read hbased => exact .ok (isInline_of_basedInteger? hbased)
  · cases hdecimal : decimal? s with
    | none => exact .error _
    | some result => exact yields_of_decimal? hdecimal

/-- **A value, the elements of an array and the entries of an inline table are proper.** The
induction is on the steps that are left for all three. -/
theorem yields_values (fuel : Nat) :
    (∀ room s, Yields (fun read => read.1.IsProper) (value room fuel s)) ∧
    (∀ room s, Yields (fun read => ∀ v ∈ read.1, v.IsProper) (elements room fuel s)) ∧
    ∀ room sealedPlaces es s, IsProper es →
      Yields (fun read => IsProper read.1) (inlineEntries room fuel sealedPlaces es s) := by
  induction fuel with
  | zero =>
    refine ⟨fun room s => ?_, fun room s => ?_, fun room sealedPlaces es s hes => ?_⟩
    · unfold value
      exact .error _
    · unfold elements
      exact .error _
    · unfold inlineEntries
      exact .error _
  | succ fuel ih =>
    obtain ⟨hvalue, helements, hentries⟩ := ih
    refine ⟨fun room s => ?_, fun room s => ?_, fun room sealedPlaces es s hes => ?_⟩
    · unfold value
      split
      · exact .error _
      · next heq =>
        obtain rfl := Nat.succ.inj heq
        exact (Yields.any _).bind fun room _ => (helements room _).bind fun read hread =>
          .ok (.list hread)
      · next heq =>
        obtain rfl := Nat.succ.inj heq
        split
        · exact .ok IsProper.nil.table
        · exact (Yields.any _).bind fun room _ =>
            (hentries room [] [] _ .nil).bind fun read hread => .ok hread.table
      · split
        · exact (Yields.any _).map fun _ _ => .plain rfl
        · exact (Yields.any _).map fun _ _ => .plain rfl
        · exact fun read hread => .plain (yields_scalar _ read hread)
    · unfold elements
      refine (Yields.any _).bind fun s _ => ?_
      split
      · exact .ok (by simp)
      · refine (hvalue room s).bind fun read hread => (Yields.any _).bind fun rest _ => ?_
        split
        · exact .ok (by simpa using hread)
        · refine (helements room _).bind fun others hothers => .ok ?_
          exact List.forall_mem_cons.2 ⟨hread, hothers⟩
        · exact .error _
    · unfold inlineEntries
      refine (Yields.any _).bind fun k _ => (Yields.any _).bind fun rest _ => ?_
      refine (hvalue room _).bind fun read hread => ?_
      dsimp only
      split
      · exact .error _
      · refine (yields_orMalformed fun es' => hes.alter (IsProper.addNew hread)).bind ?_
        intro es' hes'
        split
        · exact .ok hes'
        · exact hentries room _ es' _ hes'
        · exact .error _

/-! ### Documents -/

theorem Draft.isProper_openTable {d d' : Draft} {k : List Text} (h : IsProper d.entries)
    (hopen : d.openTable k = some d') : IsProper d'.entries := by
  unfold openTable at hopen
  split at hopen
  · cases hopen
  · obtain ⟨es, hes, rfl⟩ := Option.map_eq_some_iff.1 hopen
    exact h.alter (fun h hsame => Option.some.inj hsame ▸ h) hes

theorem Draft.isProper_openElement {d d' : Draft} {k : List Text} (h : IsProper d.entries)
    (hopen : d.openElement k = some d') : IsProper d'.entries := by
  unfold openElement at hopen
  split at hopen
  · cases hopen
  · obtain ⟨es, hes, rfl⟩ := Option.map_eq_some_iff.1 hopen
    exact h.alter IsProper.addElement hes

theorem Draft.isProper_assign {d d' : Draft} {k : List Text} {v : Value} (h : IsProper d.entries)
    (hv : v.IsProper) (hassign : d.assign k v = some d') : IsProper d'.entries := by
  unfold assign at hassign
  dsimp only at hassign
  split at hassign
  · cases hassign
  · obtain ⟨es, hes, rfl⟩ := Option.map_eq_some_iff.1 hassign
    exact h.alter (IsProper.addNew hv) hes

theorem yields_statement {d : Draft} (h : IsProper d.entries) (s : Text) :
    Yields (fun read => IsProper read.1.entries) (statement d s) := by
  have hclosed : IsProper d.closeSection.entries := h
  unfold statement
  split
  · refine (Yields.any _).bind fun k _ => ?_
    refine (yields_orMalformed fun _ => Draft.isProper_openElement hclosed).bind fun d hd => ?_
    exact (Yields.any _).bind fun rest _ => .ok hd
  · refine (Yields.any _).bind fun k _ => ?_
    refine (yields_orMalformed fun _ => Draft.isProper_openTable hclosed).bind fun d hd => ?_
    exact (Yields.any _).bind fun rest _ => .ok hd
  · exact .ok h
  · refine (Yields.any _).bind fun k _ => (Yields.any _).bind fun rest _ => ?_
    refine ((yields_values _).1 nestingRoom _).bind fun read hread => ?_
    exact (yields_orMalformed fun _ => Draft.isProper_assign h hread).bind fun d hd => .ok hd

theorem yields_statements (fuel : Nat) {d : Draft} (h : IsProper d.entries) (s : Text) :
    Yields IsProper (statements fuel d s) := by
  induction fuel generalizing d s with
  | zero => exact .error _
  | succ fuel ih =>
    unfold statements
    split
    · exact .ok h
    · exact ih h _
    · refine (yields_statement h _).bind fun read hread => (Yields.any _).bind fun rest _ => ?_
      split
      · exact .ok hread
      · exact ih hread _
      · exact .error _

/-- **The table of a document has no name twice**, at any depth. -/
theorem isProper_of_parse {t : Text} {es : Entries} (h : parse t = .ok es) : IsProper es :=
  yields_statements _ .nil _ es h

end Toml
end Embargo
