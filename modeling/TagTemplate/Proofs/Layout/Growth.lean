import Mathlib.Order.Iterate
import TagTemplate.Proofs.Layout.Cover

/-!
# `TagTemplate.Proofs.Layout.Growth`: what a region grows to

`Layout.coverStraddling?` grows a region of whole lines until no tag straddles
its start or its stop. It does not stop at the least cover in every case: when a
tag straddles the start, the region is widened to whole lines at both ends, and at
a line end `lineEndAfter` goes on through one more line. Each tag over several
lines above the region costs one line below it in this way. `overrun` counts them.

`coverStraddling?_spec` states the growth exactly: it ends, its start is that of
the least cover, and its stop is the least line end from the overrun on that no
tag straddles. So the region grows to the least cover if and only if that has the
overrun (`coverStraddling?_leastCover`).

The proof follows one round of the growth. Widening a region over a tag that
straddles its start changes neither where its covers can start
(`coverStarts_widened`) nor its overrun (`overrun_widened`), and a tag that
straddles the stop alone is found only when none straddles the start
(`straddles_start_of_straddling?`).
-/

set_option autoImplicit false

namespace TagTemplate.Proofs.Layout

open TagTemplate.Text TagTemplate.Layout
open TagTemplate.Proofs.Text TagTemplate.Proofs.Template

variable {content : List Char} {tags : List Tag}

/-! ### The overrun -/

/-- The tag goes over more than one line. -/
def spansLines (tag : Tag) : Bool :=
  tag.raw.toList.contains '\n'

/-- The tag goes over several lines, begins above a region but not above `top`, and
does not reach beyond the stop of the region. -/
def liesAbove (top : Nat) (region : Span) (tag : Tag) : Bool :=
  top ≤ tag.span.start && tag.span.start < region.start && tag.span.stop ≤ region.stop &&
    spansLines tag

/-- The number of tags over several lines above a region, from `top` on. -/
def tagsAbove (tags : List Tag) (top : Nat) (region : Span) : Nat :=
  tags.countP (liesAbove top region)

/-- Where a region stops before tags above it are looked at: at its stop, or, if a
tag lies across the whole region, with the line on which that tag ends. -/
def reach (content : List Char) (tags : List Tag) (region : Span) : Nat :=
  match tags.find? fun tag => straddles tag.span region.start && straddles tag.span region.stop with
  | some tag => lineEndAfter content tag.span.stop
  | none => region.stop

/-- Where a region stops after one more line for each of the tags above it. -/
def overrun (content : List Char) (tags : List Tag) (top : Nat) (region : Span) : Nat :=
  (lineEndAfter content)^[tagsAbove tags top region] (reach content tags region)

/-- What it is for a tag to lie above a region. -/
theorem liesAbove_iff {top : Nat} {region : Span} {tag : Tag} :
    liesAbove top region tag ↔ top ≤ tag.span.start ∧ tag.span.start < region.start ∧
      tag.span.stop ≤ region.stop ∧ spansLines tag := by
  simp [liesAbove, and_assoc]

/-- A tag over several lines has a line start inside. -/
theorem exists_isLineStart_of_spansLines (hfits : Fits content tags) {tag : Tag}
    (htag : tag ∈ tags) (h : spansLines tag) :
    ∃ s, IsLineStart content s ∧ tag.span.start < s ∧ s ≤ tag.span.stop := by
  obtain ⟨before, after, hcontent, hbefore, hstop⟩ := slice?_eq_some_iff.mp (hfits.slice tag htag)
  obtain ⟨first, second, hraw⟩ := List.mem_iff_append.mp (List.contains_iff_mem.mp h)
  rw [hraw, byteCount_append, byteCount_cons] at hstop
  have hfeed : '\n'.utf8Size = 1 := rfl
  refine ⟨byteCount (before ++ first ++ ['\n']), ⟨before ++ first ++ ['\n'], second ++ after, ?_,
    rfl, Or.inr (by simp)⟩, ?_, ?_⟩
  · simp [hcontent, hraw]
  · simp only [byteCount_append, byteCount_cons, byteCount_nil]
    omega
  · simp only [byteCount_append, byteCount_cons, byteCount_nil]
    omega

/-- A tag with a line start inside goes over several lines. -/
theorem spansLines_of_straddles (hfits : Fits content tags) {tag : Tag} (htag : tag ∈ tags)
    {k : Nat} (hk : IsLineStart content k) (h : straddles tag.span k) : spansLines tag := by
  rw [straddles_iff] at h
  obtain ⟨upto, rest, hsplit, rfl, hbegins⟩ := hk
  obtain ⟨before, after, hcontent, hbefore, hstop⟩ := slice?_eq_some_iff.mp (hfits.slice tag htag)
  rw [hsplit] at hcontent
  -- The line starts after a part of the tag, whose last character is a line feed.
  obtain ⟨part, rfl, hpart⟩ := exists_middle hcontent.symm (by omega)
  rw [byteCount_append] at h
  obtain ⟨others, hraw, -⟩ := exists_middle hpart.symm (by omega)
  have hne : part ≠ [] := by
    rintro rfl
    rw [byteCount_nil] at h
    omega
  have hmem := mem_of_getLast?_append hne (hbegins.resolve_left (by simp [hne]))
  rw [spansLines, List.contains_iff_mem, hraw]
  exact List.mem_append_left others hmem

/-- No tag over several lines lies between the start of a line and the start of a
tag on that line. -/
theorem not_spansLines_of_line (hfits : Fits content tags) {a b : Tag} (ha : a ∈ tags)
    (hb : b ∈ tags) (hstart : lineStartBefore content b.span.start ≤ a.span.start)
    (hstop : a.span.stop ≤ b.span.start) : ¬ spansLines a := by
  intro h
  obtain ⟨s, hs, hlt, hle⟩ := exists_isLineStart_of_spansLines hfits ha h
  obtain ⟨-, hgreatest⟩ := isGreatest_lineStartBefore (hfits.isBoundary hb).1
  have := hgreatest ⟨hs, Nat.le_trans hle hstop⟩
  omega

/-- No tag lies above a region from its own start on. -/
theorem tagsAbove_eq_zero {top : Nat} {region : Span} (h : region.start ≤ top) :
    tagsAbove tags top region = 0 := by
  rw [tagsAbove, List.countP_eq_zero]
  intro tag _ habove
  obtain ⟨hfrom, hto, -⟩ := liesAbove_iff.mp habove
  omega

/-- A region that no tag lies across reaches to its stop. -/
theorem reach_eq_stop {region : Span}
    (h : ∀ tag ∈ tags, straddles tag.span region.start → ¬ straddles tag.span region.stop) :
    reach content tags region = region.stop := by
  have hnone : tags.find? (fun tag => straddles tag.span region.start &&
      straddles tag.span region.stop) = none :=
    List.find?_eq_none.mpr (by simpa using h)
  simp only [reach, hnone]

/-- A region that a tag lies across reaches to the end of the line on which the
tag ends. -/
theorem reach_of_straddles (hfits : Fits content tags) {tag : Tag} (htag : tag ∈ tags)
    {region : Span} (hstart : straddles tag.span region.start)
    (hstop : straddles tag.span region.stop) :
    reach content tags region = lineEndAfter content tag.span.stop := by
  cases hfind : tags.find? (fun tag => straddles tag.span region.start &&
      straddles tag.span region.stop) with
  | none =>
    have := List.find?_eq_none.mp hfind tag htag
    simp [hstart, hstop] at this
  | some other =>
    have hother := List.find?_some hfind
    simp only [Bool.and_eq_true, straddles_iff] at hother hstart
    obtain rfl : other = tag :=
      hfits.eq_of_overlap (List.mem_of_find?_eq_some hfind) htag (by omega) (by omega)
    simp only [reach, hfind]

/-- Widening a region over a tag that straddles its start takes this tag, and no
other, from the tags above it. -/
theorem tagsAbove_widen (hfits : Fits content tags) {tag : Tag} (htag : tag ∈ tags)
    {region block : Span} (hregion : WholeLines content region)
    (hstraddles : straddles tag.span region.start)
    (hblock : block.start = lineStartBefore content tag.span.start)
    (hstop : tag.span.stop ≤ block.stop) {top : Nat} (htop : top ≤ block.start) :
    tagsAbove tags top region
      = tagsAbove tags top block + if tag.span.stop ≤ region.stop then 1 else 0 := by
  have hspans := spansLines_of_straddles hfits htag hregion.start hstraddles
  have hregionLe := hregion.le
  rw [straddles_iff] at hstraddles
  obtain ⟨⟨-, hle⟩, -⟩ := isGreatest_lineStartBefore (hfits.isBoundary htag).1
  rw [← hblock] at hle
  obtain ⟨before, after, hsplit⟩ := List.mem_iff_append.mp htag
  have hpairwise := hfits.pairwise
  rw [hsplit, List.pairwise_append, List.pairwise_cons] at hpairwise
  obtain ⟨-, ⟨hafter, -⟩, hbefore⟩ := hpairwise
  -- A tag before it lies above both regions or above neither: one that begins on
  -- the line of `tag` does not go over several lines.
  have hcountBefore : before.countP (liesAbove top region)
      = before.countP (liesAbove top block) := by
    refine List.countP_congr fun other hother => ?_
    have hmem : other ∈ tags := by simp [hsplit, hother]
    have hlt := hfits.start_lt_stop hmem
    have hover := hbefore other hother tag List.mem_cons_self
    have hnot := not_spansLines_of_line hfits hmem htag
    rw [liesAbove_iff, liesAbove_iff]
    constructor
    · rintro ⟨hfrom, hto, hwithin, hlines⟩
      have hblockTo : other.span.start < block.start :=
        Nat.lt_of_not_le fun h => hnot (hblock ▸ h) hover hlines
      exact ⟨hfrom, hblockTo, by omega, hlines⟩
    · rintro ⟨hfrom, hto, hwithin, hlines⟩
      exact ⟨hfrom, by omega, by omega, hlines⟩
  -- A tag after it begins past the start of either region.
  have hcountAfter : ∀ lines : Span, lines.start ≤ tag.span.stop →
      after.countP (liesAbove top lines) = 0 := by
    intro lines hlines
    refine List.countP_eq_zero.mpr fun other hother h => ?_
    have hover := hafter other hother
    obtain ⟨-, hto, -⟩ := liesAbove_iff.mp h
    omega
  -- The tag itself does not lie above the block, which starts on its line.
  have hnotAbove : ¬ liesAbove top block tag := by
    intro h
    obtain ⟨-, hto, -⟩ := liesAbove_iff.mp h
    omega
  have habove : liesAbove top region tag ↔ tag.span.stop ≤ region.stop := by
    rw [liesAbove_iff]
    exact ⟨fun h => h.2.2.1, fun h => ⟨by omega, hstraddles.1, h, hspans⟩⟩
  rw [tagsAbove, tagsAbove, hsplit, List.countP_append, List.countP_append, List.countP_cons,
    List.countP_cons, hcountBefore, hcountAfter region (by omega), hcountAfter block (by omega),
    if_neg hnotAbove, if_congr habove rfl rfl]
  omega

/-! ### The growth -/

/-- A region and a tag that straddles one of its ends, widened to whole lines. -/
def widened (content : List Char) (region : Span) (tag : Tag) : Span :=
  ⟨lineStartBefore content (min region.start tag.span.start),
    lineEndAfter content (max region.stop tag.span.stop)⟩

/-- A region and a tag begin and end between characters, together as well. -/
theorem isBoundary_hull (hfits : Fits content tags) {tag : Tag} (htag : tag ∈ tags) {region : Span}
    (hregion : WholeLines content region) :
    IsBoundary content (min region.start tag.span.start) ∧
      IsBoundary content (max region.stop tag.span.stop) := by
  obtain ⟨hstart, hstop⟩ := hfits.isBoundary htag
  rw [Nat.min_def, Nat.max_def]
  constructor
  · split
    · exact hregion.start.isBoundary
    · exact hstart
  · split
    · exact hstop
    · exact hregion.stop.isBoundary

/-- The line block of a region and a tag is the widened region. -/
theorem lineBlock?_hull (hfits : Fits content tags) {tag : Tag} (htag : tag ∈ tags) {region : Span}
    (hregion : WholeLines content region) :
    lineBlock? content (hull region tag.span) = some (widened content region tag) := by
  obtain ⟨hmin, hmax⟩ := isBoundary_hull hfits htag hregion
  exact lineBlock?_eq hmin hmax

/-- A widened region is made of whole lines, and contains the region and the
tag. -/
theorem wholeLines_widened (hfits : Fits content tags) {tag : Tag} (htag : tag ∈ tags)
    {region : Span} (hregion : WholeLines content region) :
    WholeLines content (widened content region tag) ∧
      Within region (widened content region tag) ∧
      Within tag.span (widened content region tag) := by
  obtain ⟨hmin, hmax⟩ := isBoundary_hull hfits htag hregion
  obtain ⟨⟨hline, hstartLe⟩, -⟩ := isGreatest_lineStartBefore hmin
  obtain ⟨⟨hend, -⟩, -⟩ := isLeast_lineEndAfter hmax
  have hstopLe := le_lineEndAfter content (max region.stop tag.span.stop)
  have hregionLe := hregion.le
  refine ⟨⟨hline, hend, ?_⟩, ⟨?_, ?_⟩, ⟨?_, ?_⟩⟩ <;> simp only [widened] <;> omega

/-- A region widened over a tag that straddles its stop alone keeps its start. -/
theorem widened_of_straddles_stop {tag : Tag} {region : Span} (hregion : WholeLines content region)
    (hstart : ¬ straddles tag.span region.start) (hstop : straddles tag.span region.stop) :
    widened content region tag = ⟨region.start, lineEndAfter content tag.span.stop⟩ := by
  have hregionLe := hregion.le
  rw [straddles_iff] at hstart hstop
  rw [widened, Nat.min_eq_left (by omega), Nat.max_eq_right (by omega),
    lineStartBefore_of_isLineStart hregion.start]

/-- Widening a region over a tag does not change where its covers can start. -/
theorem coverStarts_widened (hfits : Fits content tags) {tag : Tag} (htag : tag ∈ tags)
    {region : Span} (hregion : WholeLines content region)
    (h : straddles tag.span region.start ∨ straddles tag.span region.stop) :
    coverStarts content tags (widened content region tag).start
      = coverStarts content tags region.start := by
  by_cases hstart : straddles tag.span region.start
  · have hlt := (straddles_iff.mp hstart).1
    rw [coverStarts_of_straddles hfits htag hstart, widened, Nat.min_eq_right (Nat.le_of_lt hlt)]
  · rw [widened_of_straddles_stop hregion hstart (h.resolve_left hstart)]

/-- No tag lies across a region widened over a tag. -/
theorem reach_widened (hfits : Fits content tags) {tag : Tag} (htag : tag ∈ tags)
    {region : Span} (hregion : WholeLines content region) :
    reach content tags (widened content region tag) = (widened content region tag).stop := by
  obtain ⟨-, -, hstart, hstop⟩ := wholeLines_widened hfits htag hregion
  refine reach_eq_stop fun other hother hacross hacross' => ?_
  rw [straddles_iff] at hacross hacross'
  have hlt := hfits.start_lt_stop htag
  obtain rfl := hfits.eq_of_overlap hother htag (by omega) (by omega)
  omega

/-- Widening a region over a tag that straddles its start uses up one line of its
overrun, or the line on which the tag ends. -/
theorem overrun_widened (hfits : Fits content tags) {tag : Tag} (htag : tag ∈ tags)
    {region : Span} (hregion : WholeLines content region)
    (hstart : straddles tag.span region.start) {top : Nat}
    (htop : top ≤ (widened content region tag).start) :
    overrun content tags top (widened content region tag) = overrun content tags top region := by
  obtain ⟨-, -, -, htagStop⟩ := wholeLines_widened hfits htag hregion
  obtain ⟨hlt, hgt⟩ := straddles_iff.mp hstart
  have habove := tagsAbove_widen hfits htag hregion hstart
    (by rw [widened, Nat.min_eq_right (Nat.le_of_lt hlt)]) htagStop htop
  rw [overrun, overrun, reach_widened hfits htag hregion, habove]
  by_cases hwithin : tag.span.stop ≤ region.stop
  · -- The tag is one of those above the region, so no other lies across it.
    have hreach : reach content tags region = region.stop := by
      refine reach_eq_stop fun other hother hacross hacross' => ?_
      rw [straddles_iff] at hacross hacross'
      obtain rfl := hfits.eq_of_overlap hother htag (by omega) (by omega)
      omega
    rw [if_pos hwithin, hreach, Function.iterate_succ_apply, widened, Nat.max_eq_left hwithin]
  · -- The tag lies across the whole region.
    have hregionLe := hregion.le
    rw [if_neg hwithin, Nat.add_zero, widened, Nat.max_eq_right (Nat.le_of_not_le hwithin),
      reach_of_straddles hfits htag hstart (straddles_iff.mpr ⟨by omega, by omega⟩)]

/-- A region that no tag straddles at its start does not run over. -/
theorem overrun_of_unstraddled (region : Span) {top : Nat} (h : Unstraddled tags region.start)
    (htop : region.start ≤ top) : overrun content tags top region = region.stop := by
  rw [overrun, tagsAbove_eq_zero htop, Function.iterate_zero, id_eq,
    reach_eq_stop fun tag htag hstart => absurd hstart (h tag htag)]

/-- The first tag found to straddle an end of a region straddles its start, if any
tag does. -/
theorem straddles_start_of_straddling? (hfits : Fits content tags) {region : Span}
    (hle : region.start ≤ region.stop) {tag other : Tag} (htag : straddling? tags region = some tag)
    (hother : other ∈ tags) (hstart : straddles other.span region.start) :
    straddles tag.span region.start := by
  obtain ⟨hstraddles, before, after, rfl, hbefore⟩ := List.find?_eq_some_iff_append.mp htag
  by_contra hnot
  rw [Bool.or_eq_true] at hstraddles
  have hstop := straddles_iff.mp (hstraddles.resolve_left hnot)
  rw [straddles_iff] at hnot
  have hpairwise := hfits.pairwise
  rw [List.pairwise_append, List.pairwise_cons] at hpairwise
  -- An earlier tag would have been found, and a later one begins past the start.
  rcases List.mem_append.mp hother with hother | hother
  · have := hbefore other hother
    simp [hstart] at this
  · rw [straddles_iff] at hstart
    rcases List.mem_cons.mp hother with rfl | hother
    · omega
    · have := hpairwise.2.1.1 other hother
      omega

/-- The growth of a region of whole lines: it comes to an end, with the greatest
start that a cover of the region can have, and with the least stop that a cover
of its overrun can have. -/
theorem coverStraddling?_spec (hfits : Fits content tags) (region : Span)
    (hregion : WholeLines content region) :
    ∃ cover, coverStraddling? content tags region = some cover ∧
      IsGreatest (coverStarts content tags region.start) cover.start ∧
      IsLeast (coverStops content tags (overrun content tags cover.start region)) cover.stop := by
  fun_induction coverStraddling? content tags region with
  | case1 region hnone =>
    -- No tag straddles an end: the region is its own cover and does not run over.
    have hun : ∀ tag ∈ tags,
        ¬ straddles tag.span region.start ∧ ¬ straddles tag.span region.stop := by
      simpa using List.find?_eq_none.mp hnone
    have hstart : Unstraddled tags region.start := fun tag htag => (hun tag htag).1
    have hstop : Unstraddled tags region.stop := fun tag htag => (hun tag htag).2
    refine ⟨region, rfl, ⟨⟨hregion.start, hstart, Nat.le_refl _⟩, fun s hs => hs.2.2⟩, ?_⟩
    rw [overrun_of_unstraddled region hstart (Nat.le_refl _)]
    exact ⟨⟨hregion.stop, hstop, Nat.le_refl _⟩, fun e he => he.2.2⟩
  | case2 region tag hfound hnone =>
    -- A tag straddles an end, and the widening fails: it never does.
    have htag : tag ∈ tags := List.mem_of_find?_eq_some hfound
    rw [lineBlock?_hull hfits htag hregion] at hnone
    exact absurd hnone (by simp)
  | case3 region tag hfound block hblock ih =>
    -- A tag straddles an end, and the region is widened over it: the widened region has
    -- the same greatest start, and its least stop is that of the region.
    have htag : tag ∈ tags := List.mem_of_find?_eq_some hfound
    obtain rfl : widened content region tag = block :=
      Option.some.inj ((lineBlock?_hull hfits htag hregion).symm.trans hblock)
    obtain ⟨hwhole, -, -⟩ := wholeLines_widened hfits htag hregion
    obtain ⟨cover, hcover, hgreatest, hleast⟩ := ih hwhole
    have hcross : straddles tag.span region.start ∨ straddles tag.span region.stop := by
      simpa using List.find?_some hfound
    have htop := hgreatest.1.2.2
    rw [coverStarts_widened hfits htag hregion hcross] at hgreatest
    refine ⟨cover, hcover, hgreatest, ?_⟩
    by_cases hstart : straddles tag.span region.start
    · -- The round uses up a part of the overrun.
      rwa [← overrun_widened hfits htag hregion hstart htop]
    · -- No tag straddles the start, so the region starts like its cover, and no tag is
      -- above it.
      have hun : Unstraddled tags region.start := fun other hother h =>
        hstart (straddles_start_of_straddling? hfits hregion.le hfound hother h)
      have hstop := hcross.resolve_left hstart
      have htop : region.start ≤ cover.start := hgreatest.2 ⟨hregion.start, hun, Nat.le_refl _⟩
      have hgrown : overrun content tags cover.start
          ⟨region.start, lineEndAfter content tag.span.stop⟩ = lineEndAfter content tag.span.stop :=
        overrun_of_unstraddled _ hun htop
      rw [widened_of_straddles_stop hregion hstart hstop, hgrown] at hleast
      rwa [overrun_of_unstraddled region hun htop, coverStops_of_straddles hfits htag hstop]

/-- A region lies within its overrun. -/
theorem stop_le_overrun (content : List Char) (tags : List Tag) (top : Nat) (region : Span) :
    region.stop ≤ overrun content tags top region := by
  have hreach : region.stop ≤ reach content tags region := by
    simp only [reach]
    split
    · rename_i tag hfind
      have hacross := List.find?_some hfind
      simp only [Bool.and_eq_true, straddles_iff] at hacross
      exact Nat.le_trans (Nat.le_of_lt hacross.2.2) (le_lineEndAfter content _)
    · exact Nat.le_refl _
  exact Nat.le_trans hreach (Function.id_le_iterate_of_id_le (le_lineEndAfter content) _ _)

/-- A region grows to the least cover of its overrun. That is the least cover of
the region itself if and only if the latter has all of the overrun. -/
theorem coverStraddling?_leastCover (hfits : Fits content tags) {region : Span}
    (hregion : WholeLines content region) :
    ∃ least cover, LeastCover content tags region least ∧
      coverStraddling? content tags region = some cover ∧
      LeastCover content tags ⟨region.start, overrun content tags least.start region⟩ cover ∧
      (cover = least ↔ overrun content tags least.start region ≤ least.stop) := by
  obtain ⟨least, hleast⟩ := exists_leastCover hfits hregion.le hregion.stop.isBoundary.le
  obtain ⟨cover, hcover, hgreatest, hstop⟩ := coverStraddling?_spec hfits region hregion
  obtain ⟨hgreatest', hstop'⟩ := (leastCover_iff hregion.le).mp hleast
  -- The starts agree, so that the overruns are counted from one place.
  have hstart : cover.start = least.start := hgreatest.unique hgreatest'
  rw [hstart] at hstop
  have hover := stop_le_overrun content tags least.start region
  refine ⟨least, cover, hleast, hcover, ?_, ?_, ?_⟩
  · refine (leastCover_iff ?_).mpr ⟨hgreatest, hstop⟩
    exact Nat.le_trans hregion.le hover
  · rintro rfl
    exact hstop.1.2.2
  · intro hle
    have hstopLe := hstop.2 ⟨hstop'.1.1, hstop'.1.2.1, hle⟩
    have hleStop := hstop'.2 ⟨hstop.1.1, hstop.1.2.1, Nat.le_trans hover hstop.1.2.2⟩
    obtain ⟨start, stop⟩ := cover
    obtain ⟨start', stop'⟩ := least
    simp only [Span.mk.injEq]
    exact ⟨hstart, Nat.le_antisymm hstopLe hleStop⟩

end TagTemplate.Proofs.Layout
