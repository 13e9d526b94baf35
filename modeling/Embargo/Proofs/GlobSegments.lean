import Embargo.Proofs.GlobLanguage
import Mathlib.Data.List.Infix

/-!
# Globs package by package

A name is a row of **segments**, with dots between them. A glob without two stars in a row has as
many segments as the names that it stands for, and stands for them segment by segment: what is
between two of its dots decides alone on what is between the same two dots of a name.

The reason is that of all tokens only `**` and the dot itself have pieces with a dot in them
(`GlobToken.isShallow_of_ne`). So the dots of a glob are the only place for the dots of a name.

* `Glob.scan_append_dot` – a glob is cut at its dots before it is cut into tokens.
* `Glob.accepts_append_iff` – tokens in two groups take a name apart in two.
* `Glob.accepts_scan_join` – the segments of a glob decide on the segments of a name.
* `ClassPattern.catches_segments` – the conclusion, for patterns.
-/

namespace Embargo

/-- Fields are split on either side of a separator. -/
theorem Text.split_append (c : CodePoint) (t u : Text) :
    split c (t ++ c :: u) = split c t ++ split c u := by
  simp only [split_eq_splitOn, List.splitOn_append_cons_self]

/-- A text with a first field is that field, or goes on behind the separator. -/
theorem Text.of_split_eq_cons {c : CodePoint} {t field : Text} {fields : List Text}
    (h : split c t = field :: fields) :
    t = field ∧ fields = [] ∨ ∃ rest, t = field ++ c :: rest ∧ split c rest = fields := by
  cases hcut : cut c t with
  | none =>
    rw [split_of_notMem (cut_eq_none_iff.1 hcut)] at h
    obtain ⟨rfl, rfl⟩ := List.cons.inj h
    exact .inl ⟨rfl, rfl⟩
  | some parts =>
    obtain ⟨before, rest⟩ := parts
    obtain ⟨rfl, hbefore⟩ := cut_eq_some_iff.1 hcut
    rw [split_append, split_of_notMem hbefore] at h
    obtain ⟨rfl, rfl⟩ := List.cons.inj h
    exact .inr ⟨rest, rfl, rfl⟩

/-! ### Tokens without dots -/

/-- **A shallow token** stands for no text with a dot. -/
def GlobToken.IsShallow (t : GlobToken) : Prop :=
  ∀ piece, t.Covers piece → CodePoint.char '.' ∉ piece

theorem GlobToken.isShallow_of_ne {t : GlobToken} (hdeep : t ≠ .deep) (hdot : t ≠ .literal '.') :
    t.IsShallow := by
  rintro piece hpiece
  cases t with
  | deep => exact absurd rfl hdeep
  | run => exact hpiece
  | one =>
    obtain ⟨c, hc, rfl⟩ := hpiece
    exact fun h => hc (List.mem_singleton.1 h).symm
  | literal c =>
    obtain rfl : piece = [c] := hpiece
    exact fun h => hdot (congrArg literal (List.mem_singleton.1 h).symm)

namespace Glob

/-- Shallow tokens accept no name with a dot. -/
theorem dot_notMem_of_accepts {ts : List GlobToken} (h : ∀ t ∈ ts, t.IsShallow) {name : Text}
    (hname : accepts ts name = true) : CodePoint.char '.' ∉ name := by
  induction ts generalizing name with
  | nil =>
    obtain rfl := List.isEmpty_iff.1 hname
    exact List.not_mem_nil
  | cons t ts ih =>
    obtain ⟨piece, rest, rfl, hpiece, hrest⟩ := accepts_cons_iff.1 hname
    obtain ⟨ht, hts⟩ := List.forall_mem_cons.1 h
    exact List.not_mem_append (ht piece hpiece) (ih hts hrest)

/-- Two groups of tokens accept the names that are made of a text for each group. -/
theorem accepts_append_iff {ts us : List GlobToken} {name : Text} :
    accepts (ts ++ us) name = true ↔
      ∃ front rest, name = front ++ rest ∧ accepts ts front = true ∧ accepts us rest = true := by
  induction ts generalizing name with
  | nil => simp [accepts]
  | cons t ts ih =>
    rw [List.cons_append, accepts_cons_iff]
    constructor
    · rintro ⟨piece, name, rfl, hpiece, hname⟩
      obtain ⟨front, rest, rfl, hfront, hrest⟩ := ih.1 hname
      exact ⟨piece ++ front, rest, (List.append_assoc _ _ _).symm,
        accepts_cons_iff.2 ⟨piece, front, rfl, hpiece, hfront⟩, hrest⟩
    · rintro ⟨front, rest, rfl, hfront, hrest⟩
      obtain ⟨piece, front, rfl, hpiece, hfront⟩ := accepts_cons_iff.1 hfront
      exact ⟨piece, front ++ rest, List.append_assoc _ _ _, hpiece,
        ih.2 ⟨front, rest, rfl, hfront, hrest⟩⟩

/-! ### Segments of a glob -/

/-- A dot is a token of its own, and what stands on either side of it is cut as if alone. -/
theorem scan_append_dot (g g' : Text) :
    scan (g ++ CodePoint.char '.' :: g') = scan g ++ .literal '.' :: scan g' := by
  rw [scan_append (.inr (by simp)), scan_literal (by decide) (by decide)]

theorem mem_of_literal_mem_scan {c : CodePoint} {g : Text} (h : .literal c ∈ scan g) : c ∈ g := by
  fun_induction scan g with
  | case1 => cases h
  | case2 g ih => grind
  | case3 g hstar ih => grind
  | case4 g ih => grind
  | case5 d g hdeep hstar hmark ih => grind

/-- Only two stars in a row are read as a token for any text. -/
theorem twoStars_of_deep_mem_scan {g : Text} (h : .deep ∈ scan g) : "**".toText <:+: g := by
  fun_induction scan g with
  | case1 => cases h
  | case2 g ih => exact (List.prefix_append "**".toText g).isInfix
  | case3 g hstar ih => exact (ih (by simpa using h)).trans (List.suffix_cons _ g).isInfix
  | case4 g ih => exact (ih (by simpa using h)).trans (List.suffix_cons _ g).isInfix
  | case5 c g hdeep hstar hmark ih =>
    exact (ih (by simpa using h)).trans (List.suffix_cons _ g).isInfix

/-- The tokens of a segment are shallow, if none of them is `**`. -/
theorem isShallow_of_mem_scan {segment : Text} (hdot : CodePoint.char '.' ∉ segment)
    (hdeep : .deep ∉ scan segment) : ∀ t ∈ scan segment, t.IsShallow := fun _ ht =>
  GlobToken.isShallow_of_ne (fun h => hdeep (h ▸ ht))
    fun h => hdot (mem_of_literal_mem_scan (h ▸ ht))

/-- **The segments of a glob decide on the segments of a name**, one by one. -/
theorem accepts_scan_join {segments : List Text} (hne : segments ≠ [])
    (hdot : ∀ segment ∈ segments, CodePoint.char '.' ∉ segment)
    (hdeep : .deep ∉ scan (Text.join ['.'] segments)) (name : Text) :
    accepts (scan (Text.join ['.'] segments)) name = true ↔
      List.Forall₂ (fun segment part => accepts (scan segment) part = true) segments
        (Text.split '.' name) := by
  fun_induction Text.join ['.'] segments generalizing name with
  | case1 => exact absurd rfl hne
  | case2 segment =>
    have hshallow := isShallow_of_mem_scan (hdot segment (List.mem_singleton_self _)) hdeep
    constructor
    · intro h
      rw [Text.split_of_notMem (dot_notMem_of_accepts hshallow h)]
      exact .cons h .nil
    · intro h
      obtain ⟨part, parts, hpart, hparts, hsplit⟩ := List.forall₂_cons_left_iff.1 h
      obtain rfl := List.forall₂_nil_left_iff.1 hparts
      rcases Text.of_split_eq_cons hsplit with ⟨rfl, -⟩ | ⟨rest, -, hrest⟩
      · exact hpart
      · exact absurd hrest (Text.split_ne_nil _ rest)
  | case3 segment segment' segments ih =>
    have hscan : scan (segment ++ [CodePoint.char '.'] ++
        Text.join ['.'] (segment' :: segments)) =
          scan segment ++ .literal '.' :: scan (Text.join ['.'] (segment' :: segments)) := by
      rw [List.append_assoc]
      exact scan_append_dot _ _
    rw [hscan] at hdeep ⊢
    obtain ⟨hfirst, hothers⟩ : .deep ∉ scan segment ∧
        .deep ∉ scan (Text.join ['.'] (segment' :: segments)) := by simpa using hdeep
    obtain ⟨hdot, hdots⟩ := List.forall_mem_cons.1 hdot
    have hshallow := isShallow_of_mem_scan hdot hfirst
    have ih := ih (List.cons_ne_nil _ _) hdots hothers
    constructor
    · intro h
      -- What the tokens of the first segment take has no dot, so it ends before the first dot.
      obtain ⟨front, rest, rfl, hfront, hrest⟩ := accepts_append_iff.1 h
      obtain ⟨piece, name, rfl, rfl, hname⟩ := accepts_cons_iff.1 hrest
      rw [List.singleton_append, Text.split_append,
        Text.split_of_notMem (dot_notMem_of_accepts hshallow hfront)]
      exact .cons hfront ((ih name).1 hname)
    · intro h
      obtain ⟨part, parts, hpart, hparts, hsplit⟩ := List.forall₂_cons_left_iff.1 h
      rcases Text.of_split_eq_cons hsplit with ⟨rfl, rfl⟩ | ⟨rest, rfl, rfl⟩
      · cases hparts
      · exact accepts_append_iff.2 ⟨part, _, rfl, hpart,
          accepts_cons_iff.2 ⟨['.'], rest, rfl, rfl, (ih rest).2 hparts⟩⟩

end Glob

/-! ### Patterns -/

/-- Reading slashes as dots puts no two stars together. -/
theorem Text.twoStars_of_binaryName {g : Text} (h : "**".toText <:+: binaryName g) :
    "**".toText <:+: g := by
  have hstar {c : CodePoint} (hc : (if c = '/' then CodePoint.char '.' else c) = '*') :
      c = '*' := by
    split at hc
    · exact absurd hc (by decide)
    · exact hc
  obtain ⟨front, rest, hg⟩ := h
  obtain ⟨front, u, rfl, hfront, hu⟩ := List.map_eq_append_iff.1 hg.symm
  obtain ⟨front, v, rfl, -, hv⟩ := List.map_eq_append_iff.1 hfront
  obtain ⟨c, v, rfl, hc, hv⟩ := List.map_eq_cons_iff.1 hv
  obtain ⟨d, v, rfl, hd, hv⟩ := List.map_eq_cons_iff.1 hv
  obtain rfl := List.map_eq_nil_iff.1 hv
  obtain rfl := hstar hc
  obtain rfl := hstar hd
  exact ⟨front, u, rfl⟩

/-- The segments of a glob have dots for slashes already. -/
theorem Text.map_binaryName_split (g : Text) :
    (split '.' (binaryName g)).map binaryName = split '.' (binaryName g) := by
  have hself {segment : Text} (h : segment ∈ split '.' (binaryName g)) :
      binaryName segment = segment := by
    refine (List.map_congr_left fun c hc => if_neg ?_).trans (List.map_id segment)
    rintro rfl
    obtain ⟨d, -, hd⟩ := List.mem_map.1 (of_mem_split h hc).2
    split at hd
    · exact absurd hd (by decide)
    · next hne => exact hne hd
  exact (List.map_congr_left fun _ => hself).trans (List.map_id _)

/-- **A glob without two stars in a row works segment by segment.** The pattern catches a name if
and only if the name has as many segments as the glob, and each segment of the glob, as a glob of
its own, catches the segment in its place. So it catches nothing in a package below one in which it
catches something. -/
theorem ClassPattern.catches_segments (pattern : ClassPattern)
    (h : ¬"**".toText <:+: pattern.glob) :
    (∀ name, pattern.catches name = true ↔
      List.Forall₂ (fun segment part => { pattern with glob := segment }.catches part = true)
        (Text.split '.' (Text.binaryName pattern.glob)) (Text.split '.' name)) ∧
    ∀ package simple below simple' : Text, CodePoint.char '.' ∉ simple →
      pattern.catches (package ++ CodePoint.char '.' :: simple) = true →
      pattern.catches (package ++ CodePoint.char '.' :: (below ++ CodePoint.char '.' :: simple')) =
        false := by
  have hsegments (name : Text) : pattern.catches name = true ↔
      List.Forall₂ (fun segment part => { pattern with glob := segment }.catches part = true)
        (Text.split '.' (Text.binaryName pattern.glob)) (Text.split '.' name) := by
    have hjoin := Text.join_split '.' (Text.binaryName pattern.glob)
    have hdeep : .deep ∉ Glob.scan (Text.binaryName pattern.glob) := fun hmem =>
      h (Text.twoStars_of_binaryName (Glob.twoStars_of_deep_mem_scan hmem))
    have hscan := Glob.accepts_scan_join (Text.split_ne_nil '.' (Text.binaryName pattern.glob))
      (fun _ hsegment hdot => (Text.of_mem_split hsegment hdot).1 rfl) (by rwa [hjoin]) name
    rw [hjoin, ← Text.map_binaryName_split, List.forall₂_map_left_iff] at hscan
    simp only [catches_eq_accepts, hscan]
  refine ⟨hsegments, fun package simple below simple' hsimple hcatches => ?_⟩
  have hlength := ((hsegments _).1 hcatches).length_eq
  rw [Text.split_append, Text.split_of_notMem hsimple, List.length_append] at hlength
  refine Bool.eq_false_iff.2 fun hbelow => ?_
  have hlength' := ((hsegments _).1 hbelow).length_eq
  rw [Text.split_append, Text.split_append, List.length_append, List.length_append] at hlength'
  have hne := List.length_pos_of_ne_nil (Text.split_ne_nil '.' below)
  have hne' := List.length_pos_of_ne_nil (Text.split_ne_nil '.' simple')
  rw [List.length_singleton] at hlength
  omega

/-- A glob with a slash, a star between other characters and an empty segment. -/
theorem ClassPattern.catches_segments_empty :
    ¬"**".toText <:+: "java/u*l..*?ap".toText ∧
      (ClassPattern.mk "java/u*l..*?ap".toText none).catches "java.util..HashMap".toText = true ∧
      (ClassPattern.mk "java/u*l..*?ap".toText none).catches "java.util..in.HashMap".toText =
        false := by
  have hstars : ¬"**".toText <:+: "java/u*l..*?ap".toText := by decide
  obtain ⟨hsegments, hbelow⟩ :=
    ClassPattern.catches_segments ⟨"java/u*l..*?ap".toText, none⟩ hstars
  have hcatches : (ClassPattern.mk "java/u*l..*?ap".toText none).catches
      "java.util..HashMap".toText = true :=
    (hsegments _).2 (.cons (by decide) (.cons (by decide) (.cons (by decide)
      (.cons (by decide) .nil))))
  exact ⟨hstars, hcatches,
    hbelow "java.util.".toText "HashMap".toText "in".toText "HashMap".toText (by decide) hcatches⟩

end Embargo
