import Mathlib.Data.Nat.Find
import TagTemplate.Proofs.Layout.Clusters
import TagTemplate.Proofs.Layout.Lines

/-!
# `TagTemplate.Proofs.Layout.Cover`: covers of a region

A region of whole lines is covered by the regions of whole lines that contain it
and that no tag straddles. The two ends of a cover do not depend on each other:
whether a tag straddles an offset is a question about that offset alone. So there
is a least cover, from the greatest line start that no tag straddles to the least
such line end (`leastCover_iff`, `exists_leastCover`).

A tag that straddles an end of the region moves that end: the covers can only
start where they could from the line on which the tag begins
(`coverStarts_of_straddles`), and only stop where they could from the line on
which it ends (`coverStops_of_straddles`).
-/

set_option autoImplicit false

namespace TagTemplate.Proofs.Layout

open TagTemplate.Text TagTemplate.Layout
open TagTemplate.Proofs.Text TagTemplate.Proofs.Template

variable {content : List Char} {tags : List Tag}

/-! ### Regions of whole lines -/

/-- A region from the start of a line to the end of a line. -/
structure WholeLines (content : List Char) (region : Span) : Prop where
  start : IsLineStart content region.start
  stop : IsLineEnd content region.stop
  le : region.start ≤ region.stop

/-- One region lies within another. -/
def Within (inner outer : Span) : Prop :=
  outer.start ≤ inner.start ∧ inner.stop ≤ outer.stop

/-- A span within a span within a third lies within that one. -/
theorem Within.trans {a b c : Span} (h : Within a b) (h' : Within b c) : Within a c :=
  ⟨Nat.le_trans h'.1 h.1, Nat.le_trans h.2 h'.2⟩

/-- No tag lies partly before and partly after an offset. -/
def Unstraddled (tags : List Tag) (k : Nat) : Prop :=
  ∀ tag ∈ tags, ¬ straddles tag.span k

/-- The least region of whole lines that contains a given one and that no tag
straddles. -/
structure LeastCover (content : List Char) (tags : List Tag) (region cover : Span) : Prop where
  wholeLines : WholeLines content cover
  within : Within region cover
  start : Unstraddled tags cover.start
  stop : Unstraddled tags cover.stop
  least : ∀ other, WholeLines content other → Within region other →
    Unstraddled tags other.start → Unstraddled tags other.stop → Within cover other

/-- Where a cover of a region that starts at `k` can start. -/
def coverStarts (content : List Char) (tags : List Tag) (k : Nat) : Set Nat :=
  {s | IsLineStart content s ∧ Unstraddled tags s ∧ s ≤ k}

/-- Where a cover of a region that stops at `k` can stop. -/
def coverStops (content : List Char) (tags : List Tag) (k : Nat) : Set Nat :=
  {e | IsLineEnd content e ∧ Unstraddled tags e ∧ k ≤ e}

/-- A tag straddles an offset that lies strictly inside it. -/
theorem straddles_iff {span : Span} {k : Nat} :
    straddles span k = true ↔ span.start < k ∧ k < span.stop := by
  simp [straddles]

/-- No tag lies across the start of a content. -/
theorem unstraddled_zero (tags : List Tag) : Unstraddled tags 0 := by
  intro tag _ h
  rw [straddles_iff] at h
  omega

/-- No tag lies across the end of its content. -/
theorem unstraddled_end (hfits : Fits content tags) : Unstraddled tags (byteCount content) := by
  intro tag htag h
  have hle := (hfits.isBoundary htag).2.le
  rw [straddles_iff] at h
  omega

/-- Before an offset a cover can start at the start of the content. -/
theorem exists_isGreatest_coverStarts (content : List Char) (tags : List Tag) (k : Nat) :
    ∃ s, IsGreatest (coverStarts content tags k) s := by
  classical
  let p := fun s => IsLineStart content s ∧ Unstraddled tags s
  refine ⟨Nat.findGreatest p k, ?_, ?_⟩
  · have hspec : p (Nat.findGreatest p k) :=
      Nat.findGreatest_spec (Nat.zero_le k) ⟨isLineStart_zero content, unstraddled_zero tags⟩
    exact ⟨hspec.1, hspec.2, Nat.findGreatest_le k⟩
  · rintro s ⟨hs, hunstraddled, hle⟩
    exact Nat.le_findGreatest hle ⟨hs, hunstraddled⟩

/-- From an offset on a cover can stop at the end of the content. -/
theorem exists_isLeast_coverStops (hfits : Fits content tags) {k : Nat}
    (hk : k ≤ byteCount content) : ∃ e, IsLeast (coverStops content tags k) e := by
  classical
  have hend : ∃ e, e ∈ coverStops content tags k :=
    ⟨byteCount content, isLineEnd_end content, unstraddled_end hfits, hk⟩
  exact ⟨Nat.find hend, Nat.find_spec hend, fun e he => Nat.find_min' hend he⟩

/-- The two ends of a least cover are found apart from each other. -/
theorem leastCover_iff {region cover : Span} (hle : region.start ≤ region.stop) :
    LeastCover content tags region cover ↔
      IsGreatest (coverStarts content tags region.start) cover.start ∧
        IsLeast (coverStops content tags region.stop) cover.stop := by
  constructor
  · intro h
    obtain ⟨hstartLe, hstopLe⟩ := h.within
    refine ⟨⟨⟨h.wholeLines.start, h.start, hstartLe⟩, ?_⟩,
      ⟨⟨h.wholeLines.stop, h.stop, hstopLe⟩, ?_⟩⟩
    -- Another start with the same stop, or another stop with the same start, is a cover.
    · rintro s ⟨hs, hunstraddled, hsle⟩
      exact (h.least ⟨s, cover.stop⟩
        ⟨hs, h.wholeLines.stop, Nat.le_trans hsle (Nat.le_trans hle hstopLe)⟩
        ⟨hsle, hstopLe⟩ hunstraddled h.stop).1
    · rintro e ⟨he, hunstraddled, hlee⟩
      exact (h.least ⟨cover.start, e⟩
        ⟨h.wholeLines.start, he, Nat.le_trans hstartLe (Nat.le_trans hle hlee)⟩
        ⟨hstartLe, hlee⟩ h.start hunstraddled).2
  · rintro ⟨⟨⟨hs, hsUn, hsle⟩, hgreatest⟩, ⟨he, heUn, hele⟩, hleast⟩
    exact {
      wholeLines := ⟨hs, he, Nat.le_trans hsle (Nat.le_trans hle hele)⟩
      within := ⟨hsle, hele⟩
      start := hsUn
      stop := heUn
      least := fun other hwhole hwithin hstart hstop =>
        ⟨hgreatest ⟨hwhole.start, hstart, hwithin.1⟩, hleast ⟨hwhole.stop, hstop, hwithin.2⟩⟩ }

/-- Every region inside a content has a least cover. -/
theorem exists_leastCover (hfits : Fits content tags) {region : Span}
    (hle : region.start ≤ region.stop) (hstop : region.stop ≤ byteCount content) :
    ∃ cover, LeastCover content tags region cover := by
  obtain ⟨s, hs⟩ := exists_isGreatest_coverStarts content tags region.start
  obtain ⟨e, he⟩ := exists_isLeast_coverStops hfits hstop
  exact ⟨⟨s, e⟩, (leastCover_iff hle).mpr ⟨hs, he⟩⟩

/-! ### A tag over the end of a region -/

/-- A tag does not end with a line feed, so no line ends with it unless the
content does. -/
theorem stop_eq_of_isLineEnd (hfits : Fits content tags) {tag : Tag} (htag : tag ∈ tags)
    (h : IsLineEnd content tag.span.stop) : tag.span.stop = byteCount content := by
  obtain ⟨upto, rest, hsplit, hsize, hends⟩ := h
  rcases hends with rfl | hends
  · rw [← hsize, hsplit, List.append_nil]
  · -- The text up to the line end is that up to the end of the tag, which is a brace.
    obtain ⟨inner, hraw⟩ := hfits.braces tag htag
    obtain ⟨before, after, hcontent, hbefore, hstop⟩ := slice?_eq_some_iff.mp (hfits.slice tag htag)
    rw [hsplit, ← List.append_assoc] at hcontent
    obtain ⟨rfl, -⟩ := eq_of_append_eq_append hcontent (by rw [byteCount_append]; omega)
    rw [hraw, ← List.append_assoc, List.getLast?_concat] at hends
    simp at hends

/-- The line that a tag ends on ends at the least line end from the end of the
tag on. -/
theorem isLeast_lineEndAfter_tag (hfits : Fits content tags) {tag : Tag} (htag : tag ∈ tags) :
    IsLeast {e | IsLineEnd content e ∧ tag.span.stop ≤ e} (lineEndAfter content tag.span.stop) := by
  obtain ⟨⟨hend, hpast⟩, hleast⟩ :=
    isLeast_lineEndAfter (hfits.isBoundary htag).2
  have hbound := (hfits.isBoundary htag).2.le
  refine ⟨⟨hend, hpast.elim Nat.le_of_lt fun h => h ▸ hbound⟩, ?_⟩
  rintro e ⟨he, hle⟩
  refine hleast ⟨he, ?_⟩
  by_cases heq : tag.span.stop = e
  · exact Or.inr (heq ▸ stop_eq_of_isLineEnd hfits htag (heq ▸ he))
  · exact Or.inl (Nat.lt_of_le_of_ne hle heq)

/-- A cover of a region that a tag straddles at its start starts with the line on
which the tag begins, or before. -/
theorem coverStarts_of_straddles (hfits : Fits content tags) {tag : Tag} (htag : tag ∈ tags)
    {k : Nat} (h : straddles tag.span k) :
    coverStarts content tags k
      = coverStarts content tags (lineStartBefore content tag.span.start) := by
  rw [straddles_iff] at h
  obtain ⟨⟨-, hle⟩, hgreatest⟩ :=
    isGreatest_lineStartBefore (hfits.isBoundary htag).1
  ext s
  constructor
  · rintro ⟨hs, hunstraddled, hsk⟩
    -- The tag does not lie across `s`, and it reaches past `k`, so it begins at `s` or later.
    have hnot := hunstraddled tag htag
    rw [straddles_iff] at hnot
    exact ⟨hs, hunstraddled, hgreatest ⟨hs, by omega⟩⟩
  · rintro ⟨hs, hunstraddled, hsle⟩
    exact ⟨hs, hunstraddled, by omega⟩

/-- A cover of a region that a tag straddles at its stop stops with the line on
which the tag ends, or after. -/
theorem coverStops_of_straddles (hfits : Fits content tags) {tag : Tag} (htag : tag ∈ tags)
    {k : Nat} (h : straddles tag.span k) :
    coverStops content tags k = coverStops content tags (lineEndAfter content tag.span.stop) := by
  rw [straddles_iff] at h
  obtain ⟨⟨-, hle⟩, hleast⟩ := isLeast_lineEndAfter_tag hfits htag
  ext e
  constructor
  · rintro ⟨he, hunstraddled, hke⟩
    -- The tag does not lie across `e`, and it begins before `k`, so it ends by `e`.
    have hnot := hunstraddled tag htag
    rw [straddles_iff] at hnot
    exact ⟨he, hunstraddled, hleast ⟨he, by omega⟩⟩
  · rintro ⟨he, hunstraddled, hele⟩
    exact ⟨he, hunstraddled, by omega⟩

end TagTemplate.Proofs.Layout
