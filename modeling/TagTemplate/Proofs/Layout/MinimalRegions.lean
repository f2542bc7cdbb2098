import Mathlib.Data.Set.Lattice
import Mathlib.Order.Interval.Set.Basic
import TagTemplate.Proofs.Layout.Regions

/-!
# `TagTemplate.Proofs.Layout.MinimalRegions`: how much text repeats

A set of lines *can repeat* if it has all of every cluster and no tag lies partly
inside it (`CanRepeat`). Among such sets there is a least one
(`exists_isLeast_canRepeat`), and text outside it has no reason to be copied.

The regions cover the least set that can repeat and has the overrun of each
cluster's block as well (`HasOverruns`, see `Proofs.Layout.Growth`). So they repeat
no more than they have to exactly if the least set has the overruns anyway
(`exists_isLeast_covered_iff`). `straddledStart` is a template where it has not: a
tag over two lines reaches over the start of the repeating line, and the line
below that one is copied with it.
-/

set_option autoImplicit false

namespace TagTemplate.Proofs.Layout

open TagTemplate.Text TagTemplate.Layout
open TagTemplate.Proofs.Text TagTemplate.Proofs.Template

variable {content : List Char} {tags : List Tag} {lines : Set Nat}

/-! ### Sets of lines -/

/-- Two places lie on one line: no line ends between them. -/
def SameLine (content : List Char) (j k : Nat) : Prop :=
  ∀ stop, IsLineEnd content stop → (j < stop ↔ k < stop)

/-- A set of whole lines that has all of every cluster, such that each tag lies
inside it or outside. -/
structure CanRepeat (content : List Char) (tags : List Tag) (lines : Set Nat) : Prop where
  bound : ∀ k ∈ lines, k < byteCount content
  wholeLines : ∀ j ∈ lines, ∀ k, SameLine content j k → k ∈ lines
  clusters : ∀ first last, IsCluster content tags first last →
    Set.Ico first.span.start last.span.stop ⊆ lines
  tags : ∀ tag ∈ tags, Set.Ico tag.span.start tag.span.stop ⊆ lines ∨
    ∀ k ∈ Set.Ico tag.span.start tag.span.stop, k ∉ lines

/-- A set of places that has the overrun of the block of each cluster. -/
def HasOverruns (content : List Char) (tags : List Tag) (lines : Set Nat) : Prop :=
  ∀ first last least, IsCluster content tags first last →
    LeastCover content tags (clusterBlock content (first, last)) least →
    Set.Ico (clusterBlock content (first, last)).stop
      (overrun content tags least.start (clusterBlock content (first, last))) ⊆ lines

/-- All bytes of a content are a set that can repeat. -/
theorem canRepeat_all (hfits : Fits content tags) :
    CanRepeat content tags {k | k < byteCount content} where
  bound k hk := hk
  wholeLines j hj k hsame := (hsame _ (isLineEnd_end content)).mp hj
  clusters first last h k hk := by
    obtain ⟨hlast, -, -⟩ := Linked.le hfits h.mem h.linked
    exact Nat.lt_of_lt_of_le hk.2 (hfits.isBoundary hlast).2.le
  tags tag htag := Or.inl fun k hk =>
    Nat.lt_of_lt_of_le hk.2 (hfits.isBoundary htag).2.le

/-- What all sets that can repeat have in common can repeat. -/
theorem canRepeat_sInter (hfits : Fits content tags) :
    CanRepeat content tags (⋂₀ {lines | CanRepeat content tags lines}) where
  bound k hk := hk _ (canRepeat_all hfits)
  wholeLines j hj k hsame lines hlines := hlines.wholeLines j (hj lines hlines) k hsame
  clusters first last h k hk lines hlines := hlines.clusters first last h hk
  tags tag htag := by
    by_cases hall : ∀ lines, CanRepeat content tags lines →
        Set.Ico tag.span.start tag.span.stop ⊆ lines
    · exact Or.inl fun k hk lines hlines => hall lines hlines hk
    · push Not at hall
      obtain ⟨lines, hlines, hnot⟩ := hall
      have hout := (hlines.tags tag htag).resolve_left hnot
      exact Or.inr fun k hk hmem => hout k hk (hmem lines hlines)

/-- There is a least set that can repeat. -/
theorem exists_isLeast_canRepeat (hfits : Fits content tags) :
    ∃ lines, IsLeast {lines | CanRepeat content tags lines} lines :=
  ⟨_, canRepeat_sInter hfits, fun _ hlines => Set.sInter_subset_of_mem hlines⟩

/-! ### What a set that can repeat has at least -/

/-- A set that can repeat starts and stops between two lines, where no tag lies
across. -/
theorem CanRepeat.boundary (h : CanRepeat content tags lines) {k : Nat}
    (hk : ¬ (k ∈ lines ↔ k + 1 ∈ lines)) :
    IsLineEnd content (k + 1) ∧ Unstraddled tags (k + 1) := by
  constructor
  · have hnot : ¬ SameLine content k (k + 1) := fun hsame =>
      hk ⟨fun hmem => h.wholeLines k hmem _ hsame,
        fun hmem => h.wholeLines _ hmem k fun stop hstop => (hsame stop hstop).symm⟩
    simp only [SameLine] at hnot
    push Not at hnot
    obtain ⟨stop, hstop, hends⟩ := hnot
    obtain rfl : stop = k + 1 := by omega
    exact hstop
  · -- A tag across the place has both of its sides, and lies inside or outside.
    intro tag htag hstraddles
    obtain ⟨hstart, hstop⟩ := straddles_iff.mp hstraddles
    have hkMem : k ∈ Set.Ico tag.span.start tag.span.stop := ⟨by omega, by omega⟩
    have hnextMem : k + 1 ∈ Set.Ico tag.span.start tag.span.stop := ⟨by omega, hstop⟩
    rcases h.tags tag htag with hin | hout
    · exact hk ⟨fun _ => hin hnextMem, fun _ => hin hkMem⟩
    · exact hk ⟨fun hmem => absurd hmem (hout k hkMem),
        fun hmem => absurd hmem (hout (k + 1) hnextMem)⟩

/-- A set that can repeat and has a stretch of the content goes on to the end of a
line that no tag lies across. -/
theorem CanRepeat.exists_stop (h : CanRepeat content tags lines) {start stop : Nat}
    (hlt : start < stop) (hsubset : Set.Ico start stop ⊆ lines) :
    ∃ e, stop ≤ e ∧ Set.Ico start e ⊆ lines ∧ IsLineEnd content e ∧ Unstraddled tags e := by
  classical
  have houtside : ∃ e, stop ≤ e ∧ e ∉ lines :=
    ⟨max stop (byteCount content), Nat.le_max_left _ _, fun hmem =>
      Nat.not_lt.mpr (Nat.le_max_right _ _) (h.bound _ hmem)⟩
  -- It goes on to the first place from `stop` on that it has not.
  obtain ⟨hle, hnotMem⟩ := Nat.find_spec houtside
  have hbefore : ∀ k, k < Nat.find houtside → stop ≤ k → k ∈ lines := fun k hk hstop =>
    not_not.mp fun hnot => Nat.find_min houtside hk ⟨hstop, hnot⟩
  generalize Nat.find houtside = e at hle hnotMem hbefore
  have hin : Set.Ico start e ⊆ lines := by
    rintro k ⟨hstart, hend⟩
    rcases Nat.lt_or_ge k stop with hk | hk
    · exact hsubset ⟨hstart, hk⟩
    · exact hbefore k hend hk
  obtain ⟨last, rfl⟩ : ∃ last, e = last + 1 := ⟨e - 1, by omega⟩
  have hlast : last ∈ lines := hin ⟨by omega, by omega⟩
  obtain ⟨hend, hun⟩ := h.boundary fun hiff => hnotMem (hiff.mp hlast)
  exact ⟨last + 1, hle, hin, hend, hun⟩

/-- A set that can repeat and has a stretch of the content goes back to the start
of a line that no tag lies across. -/
theorem CanRepeat.exists_start (h : CanRepeat content tags lines) {start stop : Nat}
    (hlt : start < stop) (hsubset : Set.Ico start stop ⊆ lines) :
    ∃ s, s ≤ start ∧ Set.Ico s stop ⊆ lines ∧ IsLineStart content s ∧ Unstraddled tags s := by
  classical
  have hinside : ∃ s, s ≤ start ∧ Set.Ico s stop ⊆ lines := ⟨start, Nat.le_refl _, hsubset⟩
  -- It goes back to the first place from which on it has all.
  obtain ⟨hle, hin⟩ := Nat.find_spec hinside
  have hbefore : ∀ s, s < Nat.find hinside → ¬ Set.Ico s stop ⊆ lines := fun s hs hsub =>
    Nat.find_min hinside hs ⟨by omega, hsub⟩
  generalize Nat.find hinside = s at hle hin hbefore
  refine ⟨s, hle, hin, ?_⟩
  cases s with
  | zero => exact ⟨isLineStart_zero content, unstraddled_zero tags⟩
  | succ s =>
    have hmem : s + 1 ∈ lines := hin ⟨Nat.le_refl _, by omega⟩
    have hnotMem : s ∉ lines := by
      intro hs
      refine hbefore s (Nat.lt_succ_self s) fun k hk => ?_
      rcases Nat.eq_or_lt_of_le hk.1 with rfl | hlt
      · exact hs
      · exact hin ⟨hlt, hk.2⟩
    obtain ⟨hend, hun⟩ := h.boundary fun hiff => hnotMem (hiff.mpr hmem)
    exact ⟨hend.isLineStart (h.bound _ hmem), hun⟩

/-- The overrun that `HasOverruns` speaks of is the one that the region of the
cluster is grown from. -/
theorem HasOverruns.subset (hfits : Fits content tags) (h : HasOverruns content tags lines)
    {first last : Tag} (hcluster : IsCluster content tags first last) :
    Set.Ico (clusterBlock content (first, last)).stop
      (overrun content tags (clusterRegion content tags (first, last)).start
        (clusterBlock content (first, last))) ⊆ lines := by
  obtain ⟨-, hwhole, -⟩ := wholeLines_clusterBlock hfits hcluster
  obtain ⟨least, hleast⟩ := exists_leastCover hfits hwhole.le hwhole.stop.isBoundary.le
  obtain ⟨hgreatest, -⟩ := (leastCover_iff hwhole.le).mp hleast
  rw [(clusterRegion_spec hfits hcluster).2.1.unique hgreatest]
  exact h first last least hcluster hleast

/-- A set that can repeat and has the overruns has all from the start of a cluster
to the end of its overrun: the rest of the last line of a cluster is in every set
that can repeat. -/
theorem CanRepeat.overrun_subset (hfits : Fits content tags) (h : CanRepeat content tags lines)
    (hoverruns : HasOverruns content tags lines) {first last : Tag}
    (hcluster : IsCluster content tags first last) :
    Set.Ico first.span.start (overrun content tags (clusterRegion content tags (first, last)).start
      (clusterBlock content (first, last))) ⊆ lines := by
  obtain ⟨hlast, -, hle⟩ := Linked.le hfits hcluster.mem hcluster.linked
  have hlt := hfits.start_lt_stop hcluster.mem
  -- Up to the end of the block it has all because of its lines, and then the overrun.
  obtain ⟨e, hstopLe, hin, hend, -⟩ := h.exists_stop (by omega) (h.clusters first last hcluster)
  have hblockLe : (clusterBlock content (first, last)).stop ≤ e :=
    (isLeast_lineEndAfter_tag hfits hlast).2 ⟨hend, hstopLe⟩
  rintro k ⟨hstart, hstop⟩
  rcases Nat.lt_or_ge k e with hk | hk
  · exact hin ⟨hstart, hk⟩
  · exact hoverruns.subset hfits hcluster ⟨Nat.le_trans hblockLe hk, hstop⟩

/-- A set that can repeat and has the overruns has the region of each cluster. -/
theorem CanRepeat.clusterRegion_subset (hfits : Fits content tags)
    (h : CanRepeat content tags lines) (hoverruns : HasOverruns content tags lines)
    {first last : Tag} (hcluster : IsCluster content tags first last) :
    Set.Ico (clusterRegion content tags (first, last)).start
      (clusterRegion content tags (first, last)).stop ⊆ lines := by
  obtain ⟨-, hgreatest, hleast⟩ := clusterRegion_spec hfits hcluster
  obtain ⟨-, hfirstLe⟩ := within_clusterRegion hfits hcluster .refl hcluster.linked
  obtain ⟨-, -, hle⟩ := Linked.le hfits hcluster.mem hcluster.linked
  have hlt := hfits.start_lt_stop hcluster.mem
  have hblockLe : last.span.stop ≤ (clusterBlock content (first, last)).stop :=
    le_lineEndAfter content _
  have hoverLe := stop_le_overrun content tags (clusterRegion content tags (first, last)).start
    (clusterBlock content (first, last))
  -- From the overrun on the set goes on to a place where the region can stop, and
  -- before the cluster it goes back to one where the region can start.
  obtain ⟨e, hstopLe, hin, hend, hunEnd⟩ :=
    h.exists_stop (by omega) (h.overrun_subset hfits hoverruns hcluster)
  have hregionLe := hleast.2 ⟨hend, hunEnd, hstopLe⟩
  have hinRegion : Set.Ico first.span.start (clusterRegion content tags (first, last)).stop
      ⊆ lines := fun k hk => hin ⟨hk.1, Nat.lt_of_lt_of_le hk.2 hregionLe⟩
  obtain ⟨s, hleStart, hin', hline, hunStart⟩ := h.exists_start (by omega) hinRegion
  have hleBlock : s ≤ (clusterBlock content (first, last)).start :=
    (isGreatest_lineStartBefore (hfits.isBoundary hcluster.mem).1).2
      ⟨hline, hleStart⟩
  have hleRegion := hgreatest.2 ⟨hline, hunStart, hleBlock⟩
  exact fun k hk => hin' ⟨Nat.le_trans hleRegion hk.1, hk.2⟩

/-! ### What the regions cover -/

/-- The regions of a template cover a set that can repeat. -/
theorem canRepeat_covered {regions : List Span} (h : RegionStructure content tags regions)
    (hclusters : ∀ first last, IsCluster content tags first last → ∃ region ∈ regions,
      Within (clusterSpan (first, last)) region) :
    CanRepeat content tags (covered regions) where
  bound := by
    rintro k ⟨region, hregion, -, hstop⟩
    exact Nat.lt_of_lt_of_le hstop (h.stop region hregion).isBoundary.le
  wholeLines := by
    rintro j ⟨region, hregion, hstart, hstop⟩ k hsame
    refine ⟨region, hregion, Nat.le_of_not_lt fun hlt => ?_,
      (hsame _ (h.stop region hregion)).mp hstop⟩
    -- Where the region starts a line has ended, so `j` and `k` are on one side of it.
    have hline := (h.start region hregion).isLineEnd (by omega)
    exact Nat.not_lt.mpr hstart ((hsame _ hline).mpr hlt)
  clusters first last hcluster k hk := by
    obtain ⟨region, hregion, hwithin⟩ := hclusters first last hcluster
    exact ⟨region, hregion, Nat.le_trans hwithin.1 hk.1, Nat.lt_of_lt_of_le hk.2 hwithin.2⟩
  tags tag htag := by
    by_cases hmeet : ∃ k ∈ Set.Ico tag.span.start tag.span.stop, k ∈ covered regions
    · -- A tag that meets a region lies in it, for it straddles neither end.
      obtain ⟨k, hk, region, hregion, hstart, hstop⟩ := hmeet
      obtain ⟨hunStart, hunStop⟩ := h.unstraddled region hregion
      have hnotStart := mt straddles_iff.mpr (hunStart tag htag)
      have hnotStop := mt straddles_iff.mpr (hunStop tag htag)
      have := hk.1
      have := hk.2
      exact Or.inl fun j hj => ⟨region, hregion, by have := hj.1; omega, by have := hj.2; omega⟩
    · exact Or.inr fun k hk hcovered => hmeet ⟨k, hk, hcovered⟩

/-- The regions of a template cover the least set that can repeat and has the
overruns. -/
theorem isLeast_covered {t : ParsedTemplate} (hfits : Fits t.content.toList t.tags) :
    ∃ regions, repeatRegions? t = some regions ∧
      IsLeast {lines | CanRepeat t.content.toList t.tags lines ∧
        HasOverruns t.content.toList t.tags lines} (covered regions) := by
  obtain ⟨clusters, regions, hregions, hmerges, hclusters⟩ := exists_repeatRegions? hfits
  have hin : ∀ first last, IsCluster t.content.toList t.tags first last → ∃ region ∈ regions,
      Within (clusterRegion t.content.toList t.tags (first, last)) region := fun first last h =>
    exists_within_of_isCluster hmerges hclusters h
  refine ⟨regions, hregions, ⟨canRepeat_covered
    (regionStructure_of_merges hmerges hclusters hfits) fun first last h => ?_, ?_⟩, ?_⟩
  · obtain ⟨region, hregion, hwithin⟩ := hin first last h
    obtain ⟨hstart, -⟩ := within_clusterRegion hfits h .refl h.linked
    obtain ⟨-, hstop⟩ := within_clusterRegion hfits h h.linked .refl
    exact ⟨region, hregion, Within.trans ⟨hstart, hstop⟩ hwithin⟩
  · -- The region of a cluster stops after its overrun.
    intro first last least h hleast k hk
    obtain ⟨region, hregion, hwithin⟩ := hin first last h
    obtain ⟨-, hgreatest, hstop⟩ := clusterRegion_spec hfits h
    obtain ⟨-, hwhole, -⟩ := wholeLines_clusterBlock hfits h
    obtain ⟨hgreatest', -⟩ := (leastCover_iff hwhole.le).mp hleast
    rw [← hgreatest.unique hgreatest'] at hk
    have hstartLe := Nat.le_trans hgreatest.1.2.2 (Nat.le_trans hwhole.le hk.1)
    have hltStop := Nat.lt_of_lt_of_le hk.2 hstop.1.2.2
    exact ⟨region, hregion, Nat.le_trans hwithin.1 hstartLe, Nat.lt_of_lt_of_le hltStop hwithin.2⟩
  · -- The regions cover what those of the clusters do, one by one.
    rintro lines ⟨hlines, hoverruns⟩ k hk
    rw [hmerges.covered] at hk
    obtain ⟨span, hspan, hstart, hstop⟩ := hk
    obtain ⟨⟨first, last⟩, hmem, rfl⟩ := List.mem_map.mp hspan
    exact hlines.clusterRegion_subset hfits hoverruns ((hclusters first last).mp hmem)
      ⟨hstart, hstop⟩

/-- Where no tag goes over several lines, every set has the overruns: there are
none. -/
theorem hasOverruns_of_single_lines (hfits : Fits content tags)
    (h : ∀ tag ∈ tags, ¬ spansLines tag) : HasOverruns content tags lines := by
  intro first last least hcluster hleast
  obtain ⟨-, hwhole, -⟩ := wholeLines_clusterBlock hfits hcluster
  have hun : Unstraddled tags (clusterBlock content (first, last)).start := fun tag htag hover =>
    h tag htag (spansLines_of_straddles hfits htag hwhole.start hover)
  obtain ⟨hgreatest, -⟩ := (leastCover_iff hwhole.le).mp hleast
  have htop := hgreatest.2 ⟨hwhole.start, hun, Nat.le_refl _⟩
  rw [overrun_of_unstraddled _ hun htop, Set.Ico_self]
  exact Set.empty_subset lines

/-- Where no tag goes over several lines, the regions cover the least set that can
repeat. -/
theorem isLeast_covered_of_single_lines {t : ParsedTemplate}
    (hfits : Fits t.content.toList t.tags) (h : ∀ tag ∈ t.tags, ¬ spansLines tag) :
    ∃ regions, repeatRegions? t = some regions ∧
      IsLeast {lines | CanRepeat t.content.toList t.tags lines} (covered regions) := by
  obtain ⟨regions, hregions, ⟨hcan, -⟩, hleast⟩ := isLeast_covered hfits
  exact ⟨regions, hregions, hcan, fun lines hlines =>
    hleast ⟨hlines, hasOverruns_of_single_lines hfits h⟩⟩

/-- What the regions of a template cover, and what every region of whole lines grows
to: least sets but for the overruns, and the least ones if and only if these have
the overruns themselves. -/
theorem exists_isLeast_covered_iff (t : Template) :
    ∃ regions least, repeatRegions? t.parse = some regions ∧
      IsLeast {lines | CanRepeat t.content.toList t.parse.tags lines} least ∧
      IsLeast {lines | CanRepeat t.content.toList t.parse.tags lines ∧
        HasOverruns t.content.toList t.parse.tags lines} (covered regions) ∧
      (covered regions = least ↔ HasOverruns t.content.toList t.parse.tags least) ∧
      ∀ region, WholeLines t.content.toList region → ∃ least cover,
        LeastCover t.content.toList t.parse.tags region least ∧
        coverStraddling? t.content.toList t.parse.tags region = some cover ∧
        LeastCover t.content.toList t.parse.tags
          ⟨region.start, overrun t.content.toList t.parse.tags least.start region⟩ cover ∧
        (cover = least ↔
          overrun t.content.toList t.parse.tags least.start region ≤ least.stop) := by
  have hfits := fits_parse t
  obtain ⟨least, hleast⟩ := exists_isLeast_canRepeat hfits
  obtain ⟨regions, hregions, hcovered⟩ := isLeast_covered (t := t.parse) hfits
  refine ⟨regions, least, hregions, hleast, hcovered, ?_, fun region =>
    coverStraddling?_leastCover hfits⟩
  constructor
  · intro heq
    exact heq ▸ hcovered.1.2
  · intro hoverruns
    exact Set.Subset.antisymm (hcovered.2 ⟨hleast.1, hoverruns⟩) (hleast.2 hcovered.1.1)

/-- A tag over two lines reaches over the start of a repeating line. -/
def straddledStart : Template :=
  ⟨"\x7bd.t:print(\"x\ny\")\x7d \x7bd.a[i]\x7d\nonce\n", .txt⟩

/-- The line `once` has no part of a tag, and repeats all the same. -/
theorem not_isLeast_straddledStart :
    repeatRegions? straddledStart.parse = some [⟨0, 33⟩] ∧
      ¬ IsLeast {lines | CanRepeat straddledStart.content.toList straddledStart.parse.tags lines}
        (covered [⟨0, 33⟩]) := by
  refine ⟨by decide +kernel, fun h => ?_⟩
  have hfits := fits_parse straddledStart
  -- All tags end on the first two lines, which therefore can repeat alone.
  have hbefore : ∀ tag ∈ straddledStart.parse.tags, tag.span.stop ≤ 28 := by decide +kernel
  have hend : IsLineEnd straddledStart.content.toList 28 :=
    ⟨straddledStart.content.toList.take 28, straddledStart.content.toList.drop 28,
      (List.take_append_drop _ _).symm, by decide +kernel, Or.inr (by decide +kernel)⟩
  have hcan : CanRepeat straddledStart.content.toList straddledStart.parse.tags {k | k < 28} := {
    bound := fun k hk => Nat.lt_of_lt_of_le hk hend.isBoundary.le
    wholeLines := fun j hj k hsame => (hsame _ hend).mp hj
    clusters := fun first last h k hk => by
      obtain ⟨hlast, -, -⟩ := Linked.le hfits h.mem h.linked
      exact Nat.lt_of_lt_of_le hk.2 (hbefore last hlast)
    tags := fun tag htag => Or.inl fun k hk => Nat.lt_of_lt_of_le hk.2 (hbefore tag htag) }
  have honce : 28 ∈ covered [⟨0, 33⟩] := ⟨_, List.mem_singleton_self _, by decide, by decide⟩
  exact absurd (h.2 hcan honce) (Nat.lt_irrefl 28)

end TagTemplate.Proofs.Layout
