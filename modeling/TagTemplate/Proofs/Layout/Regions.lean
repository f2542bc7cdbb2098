import TagTemplate.Proofs.Layout.Growth
import TagTemplate.Proofs.Layout.Merge

/-!
# `TagTemplate.Proofs.Layout.Regions`: the regions of a template

`Layout.repeatRegions?` widens each cluster to whole lines, grows the block that
this gives, and joins the spans that come out where they overlap.
`exists_repeatRegions?` puts the passes together: none of them fails, and the
regions are the joined spans of exactly the clusters of the template.

`RegionStructure` is what every later use needs of the regions, and
`exists_regionStructure` shows it for tags that fit their content. Where a region
starts and stops is where the region of some cluster does (`exists_start_of_mem`,
`exists_stop_of_mem`), so joining makes no new place for a tag to straddle.
-/

set_option autoImplicit false

namespace TagTemplate.Proofs.Layout

open TagTemplate.Text TagTemplate.Layout
open TagTemplate.Proofs.Support TagTemplate.Proofs.Text TagTemplate.Proofs.Template

variable {content : List Char} {tags : List Tag}

/-! ### Every cluster has its region -/

/-- The whole lines that a cluster touches. -/
def clusterBlock (content : List Char) (cluster : Tag × Tag) : Span :=
  ⟨lineStartBefore content cluster.1.span.start, lineEndAfter content cluster.2.span.stop⟩

/-- What the block of a cluster grows to. -/
def clusterRegion (content : List Char) (tags : List Tag) (cluster : Tag × Tag) : Span :=
  (coverStraddling? content tags (clusterBlock content cluster)).getD (clusterBlock content cluster)

/-- The block of a cluster is made of whole lines and contains the cluster. -/
theorem wholeLines_clusterBlock (hfits : Fits content tags) {first last : Tag}
    (h : IsCluster content tags first last) :
    lineBlock? content (clusterSpan (first, last)) = some (clusterBlock content (first, last)) ∧
      WholeLines content (clusterBlock content (first, last)) ∧
      Within (clusterSpan (first, last)) (clusterBlock content (first, last)) := by
  obtain ⟨hlast, hle, -⟩ := Linked.le hfits h.mem h.linked
  have hlt := hfits.start_lt_stop hlast
  have hstart := (hfits.isBoundary h.mem).1
  have hstop := (hfits.isBoundary hlast).2
  obtain ⟨⟨hline, hlineLe⟩, -⟩ := isGreatest_lineStartBefore hstart
  obtain ⟨⟨hend, -⟩, -⟩ := isLeast_lineEndAfter hstop
  have hendLe := le_lineEndAfter content last.span.stop
  refine ⟨lineBlock?_eq hstart hstop, ⟨hline, hend, ?_⟩, hlineLe, hendLe⟩
  simp only [clusterBlock]
  omega

/-- The region of a cluster: the growth of its block comes to an end, with the
greatest start that a cover of the block can have, and the least stop that a cover
of its overrun can have. -/
theorem clusterRegion_spec (hfits : Fits content tags) {first last : Tag}
    (h : IsCluster content tags first last) :
    coverStraddling? content tags (clusterBlock content (first, last))
        = some (clusterRegion content tags (first, last)) ∧
      IsGreatest (coverStarts content tags (clusterBlock content (first, last)).start)
        (clusterRegion content tags (first, last)).start ∧
      IsLeast (coverStops content tags (overrun content tags
          (clusterRegion content tags (first, last)).start (clusterBlock content (first, last))))
        (clusterRegion content tags (first, last)).stop := by
  obtain ⟨-, hwhole, -⟩ := wholeLines_clusterBlock hfits h
  obtain ⟨cover, hcover, hgreatest, hleast⟩ := coverStraddling?_spec hfits _ hwhole
  rw [clusterRegion, hcover]
  exact ⟨rfl, hgreatest, hleast⟩

/-- The regions of the group of an array are those of its clusters. -/
theorem exists_groupRegions? (hfits : Fits content tags) {group : List Placed}
    (hgroup : group ∈ iterateGroups tags) :
    ∃ clusters : List (Tag × Tag),
      groupRegions? content tags group = some (clusters.map (clusterRegion content tags)) ∧
      (∀ cluster ∈ clusters, IsCluster content tags cluster.1 cluster.2) ∧
      ∀ first last, IsCluster content tags first last → first ∈ group.map (·.1) →
        (first, last) ∈ clusters := by
  obtain ⟨key, rfl⟩ := eq_filter_of_mem_iterateGroups hgroup
  obtain ⟨clusters, hclusters, hare, hcover⟩ := exists_clusters? hfits key
  refine ⟨clusters, ?_, hare, fun first last h hmem => ?_⟩
  · have hblocks : (clusters.map clusterSpan).mapM (lineBlock? content)
        = some (clusters.map (clusterBlock content)) := by
      rw [List.mapM_map]
      exact mapM_eq_some_map fun cluster hcluster =>
        (wholeLines_clusterBlock hfits (hare cluster hcluster)).1
    have hregions : (clusters.map (clusterBlock content)).mapM (coverStraddling? content tags)
        = some (clusters.map (clusterRegion content tags)) := by
      rw [List.mapM_map]
      exact mapM_eq_some_map fun cluster hcluster =>
        (clusterRegion_spec hfits (hare cluster hcluster)).1
    simp [groupRegions?, hclusters, hblocks, hregions]
  · obtain ⟨placed, hplaced, rfl⟩ := List.mem_map.mp hmem
    exact h.mem_of_cover hfits (List.mem_filter.mp hplaced).2 hare hcover

/-- The regions of a template are the joined regions of exactly its clusters. -/
theorem exists_repeatRegions? {t : ParsedTemplate} (hfits : Fits t.content.toList t.tags) :
    ∃ (clusters : List (Tag × Tag)) (regions : List Span),
      repeatRegions? t = some regions ∧
      Merges (clusters.map (clusterRegion t.content.toList t.tags)) regions ∧
      ∀ first last, (first, last) ∈ clusters ↔ IsCluster t.content.toList t.tags first last := by
  -- The groups keep apart from each other until their regions are joined.
  choose! clusters hregions hare hcomplete using
    fun group => @exists_groupRegions? t.content.toList t.tags hfits group
  refine ⟨(iterateGroups t.tags).flatMap clusters, _, ?_, merges_mergeOverlaps _,
    fun first last => ⟨fun h => ?_, fun h => ?_⟩⟩
  · simp [repeatRegions?, mapM_eq_some_map hregions, List.flatMap_def, List.map_flatten,
      List.map_map, Function.comp_def]
  · obtain ⟨group, hgroup, hmem⟩ := List.mem_flatMap.mp h
    exact hare group hgroup _ hmem
  · -- A cluster is found in the group of the array that its first tag walks.
    obtain ⟨key, hkey⟩ := exists_walks h.iterate
    have hgroup := filter_mem_iterateGroups h.mem hkey
    refine List.mem_flatMap.mpr ⟨_, hgroup, hcomplete _ hgroup first last h ?_⟩
    obtain ⟨position, hposition⟩ := List.mem_iff_getElem?.mp h.mem
    exact List.mem_map.mpr ⟨(first, position),
      List.mem_filter.mpr ⟨List.mem_zipIdx_iff_getElem?.mpr hposition, hkey⟩, rfl⟩

/-! ### The structure of the regions -/

/-- The regions of a template lie in it one after the other, each from the start
of a line to the end of a line. They have all repeating tags, and none is without.
No tag lies partly inside a region, and repeating tags of one array that follow
each other are in one region unless both a line feed and some tag lie between
them. -/
structure RegionStructure (content : List Char) (tags : List Tag) (regions : List Span) : Prop where
  nonempty : ∀ region ∈ regions, region.start < region.stop
  apart : regions.Pairwise fun a b => a.stop ≤ b.start
  start : ∀ region ∈ regions, IsLineStart content region.start
  stop : ∀ region ∈ regions, IsLineEnd content region.stop
  iterate : ∀ tag ∈ tags, tag.isIterate → ∃! region, region ∈ regions ∧ Within tag.span region
  inhabited : ∀ region ∈ regions, ∃ tag ∈ tags, tag.isIterate ∧ Within tag.span region
  unstraddled : ∀ region ∈ regions,
    Unstraddled tags region.start ∧ Unstraddled tags region.stop
  together : ∀ a between b, Successive tags a between b → ¬ Separated content a between b →
    ∃ region ∈ regions, Within a.span region ∧ Within b.span region

/-- A repeating tag lies in a cluster. -/
theorem exists_isCluster (hfits : Fits content tags) {tag : Tag} (htag : tag ∈ tags)
    (hiterate : tag.isIterate) : ∃ first last, IsCluster content tags first last ∧
      Linked content tags first tag ∧ Linked content tags tag last := by
  obtain ⟨key, hkey⟩ := exists_walks hiterate
  obtain ⟨clusters, -, hare, hcover⟩ := exists_clusters? hfits key
  obtain ⟨cluster, hcluster, hfirst, hlast⟩ := hcover tag htag hkey
  exact ⟨cluster.1, cluster.2, hare cluster hcluster, hfirst, hlast⟩

/-- The region of a cluster contains all tags from the first to the last. -/
theorem within_clusterRegion (hfits : Fits content tags) {first last tag : Tag}
    (h : IsCluster content tags first last) (hfirst : Linked content tags first tag)
    (hlast : Linked content tags tag last) :
    Within tag.span (clusterRegion content tags (first, last)) := by
  obtain ⟨-, -, hblockStart, hblockStop⟩ := wholeLines_clusterBlock hfits h
  obtain ⟨-, ⟨⟨-, -, hstart⟩, -⟩, ⟨⟨-, -, hstop⟩, -⟩⟩ := clusterRegion_spec hfits h
  have hover := stop_le_overrun content tags (clusterRegion content tags (first, last)).start
    (clusterBlock content (first, last))
  obtain ⟨htag, hfirstLe, -⟩ := Linked.le hfits h.mem hfirst
  obtain ⟨-, -, hleLast⟩ := Linked.le hfits htag hlast
  simp only [clusterSpan] at hblockStart hblockStop
  exact ⟨by omega, by omega⟩

/-- Two joined tags lie in one cluster. -/
theorem exists_isCluster_of_joined (hfits : Fits content tags) {a b : Tag} (ha : a ∈ tags)
    (hiterate : a.isIterate) (h : Joined content tags a b) :
    ∃ first last, IsCluster content tags first last ∧
      Linked content tags first a ∧ Linked content tags a last ∧ Linked content tags b last := by
  obtain ⟨first, last, hcluster, hfirst, hlast⟩ := exists_isCluster hfits ha hiterate
  refine ⟨first, last, hcluster, hfirst, hlast, ?_⟩
  -- The cluster does not end with `a`, and `b` is the only tag that follows it.
  rcases Relation.ReflTransGen.cases_head hlast with rfl | ⟨c, hjoined, hrest⟩
  · exact absurd h (hcluster.noneAfter b)
  · obtain ⟨between, hnext, -⟩ := h
    obtain ⟨between', hnext', -⟩ := hjoined
    obtain ⟨-, rfl⟩ := hnext.next_unique hfits.nodup hnext'
    exact hrest

section

variable {clusters : List (Tag × Tag)} {regions : List Span}
  (hmerges : Merges (clusters.map (clusterRegion content tags)) regions)
  (hclusters : ∀ first last, (first, last) ∈ clusters ↔ IsCluster content tags first last)
include hmerges hclusters

/-- A region starts with the region of a cluster, and contains it. -/
theorem exists_start_of_mem {region : Span} (hregion : region ∈ regions) :
    ∃ first last, IsCluster content tags first last ∧
      (clusterRegion content tags (first, last)).start = region.start ∧
      Within (clusterRegion content tags (first, last)) region := by
  obtain ⟨span, hspan, hstart, hstop⟩ := hmerges.start region hregion
  obtain ⟨⟨first, last⟩, hmem, rfl⟩ := List.mem_map.mp hspan
  exact ⟨first, last, (hclusters first last).mp hmem, hstart, Nat.le_of_eq hstart.symm, hstop⟩

/-- A region stops with the region of a cluster. -/
theorem exists_stop_of_mem {region : Span} (hregion : region ∈ regions) :
    ∃ first last, IsCluster content tags first last ∧
      (clusterRegion content tags (first, last)).stop = region.stop := by
  obtain ⟨span, hspan, hstop⟩ := hmerges.stop region hregion
  obtain ⟨⟨first, last⟩, hmem, rfl⟩ := List.mem_map.mp hspan
  exact ⟨first, last, (hclusters first last).mp hmem, hstop⟩

/-- The region of a cluster lies within one of the regions. -/
theorem exists_within_of_isCluster {first last : Tag} (h : IsCluster content tags first last) :
    ∃ region ∈ regions, Within (clusterRegion content tags (first, last)) region :=
  hmerges.within _ (List.mem_map_of_mem ((hclusters first last).mpr h))

/-- Regions that the clusters of a content are joined to have the structure. -/
theorem regionStructure_of_merges (hfits : Fits content tags) :
    RegionStructure content tags regions where
  nonempty region hregion := by
    obtain ⟨first, last, h, -, hwithin⟩ := exists_start_of_mem hmerges hclusters hregion
    obtain ⟨hstart, hstop⟩ := (within_clusterRegion hfits h .refl h.linked).trans hwithin
    have := hfits.start_lt_stop h.mem
    omega
  apart := hmerges.pairwise
  start region hregion := by
    obtain ⟨first, last, h, hstart, -⟩ := exists_start_of_mem hmerges hclusters hregion
    exact hstart ▸ (clusterRegion_spec hfits h).2.1.1.1
  stop region hregion := by
    obtain ⟨first, last, h, hstop⟩ := exists_stop_of_mem hmerges hclusters hregion
    exact hstop ▸ (clusterRegion_spec hfits h).2.2.1.1
  iterate tag htag hiterate := by
    obtain ⟨first, last, h, hfirst, hlast⟩ := exists_isCluster hfits htag hiterate
    obtain ⟨region, hregion, hwithin⟩ := exists_within_of_isCluster hmerges hclusters h
    have hin := (within_clusterRegion hfits h hfirst hlast).trans hwithin
    refine ⟨region, ⟨hregion, hin⟩, ?_⟩
    -- Two regions that both have the tag overlap, and regions are apart.
    rintro other ⟨hother, hinOther⟩
    have hlt := hfits.start_lt_stop htag
    exact eq_of_pairwise_apart Span.start Span.stop hmerges.pairwise hother hregion
      (Nat.lt_of_le_of_lt hinOther.1 (Nat.lt_of_lt_of_le hlt hin.2))
      (Nat.lt_of_le_of_lt hin.1 (Nat.lt_of_lt_of_le hlt hinOther.2))
  inhabited region hregion := by
    obtain ⟨first, last, h, -, hwithin⟩ := exists_start_of_mem hmerges hclusters hregion
    exact ⟨first, h.mem, h.iterate, (within_clusterRegion hfits h .refl h.linked).trans hwithin⟩
  unstraddled region hregion := by
    obtain ⟨first, last, h, hstart, -⟩ := exists_start_of_mem hmerges hclusters hregion
    obtain ⟨first', last', h', hstop⟩ := exists_stop_of_mem hmerges hclusters hregion
    exact ⟨hstart ▸ (clusterRegion_spec hfits h).2.1.1.2.1,
      hstop ▸ (clusterRegion_spec hfits h').2.2.1.2.1⟩
  together a between b hnext hnot := by
    have ha : a ∈ tags := by
      obtain ⟨before, after, hsplit⟩ := hnext.split
      simp [hsplit]
    have hiterate : a.isIterate := by
      obtain ⟨key, hkey, -⟩ := hnext.sameArray
      exact isIterate_of_walks hkey
    have hjoined : Joined content tags a b := ⟨between, hnext, hnot⟩
    obtain ⟨first, last, h, hfirst, hlast, hlast'⟩ :=
      exists_isCluster_of_joined hfits ha hiterate hjoined
    obtain ⟨region, hregion, hwithin⟩ := exists_within_of_isCluster hmerges hclusters h
    exact ⟨region, hregion, (within_clusterRegion hfits h hfirst hlast).trans hwithin,
      (within_clusterRegion hfits h (hfirst.tail hjoined) hlast').trans hwithin⟩

end

/-- The layout of tags that fit their content finds regions with the structure. -/
theorem exists_regionStructure {t : ParsedTemplate} (hfits : Fits t.content.toList t.tags) :
    ∃ regions, repeatRegions? t = some regions ∧
      RegionStructure t.content.toList t.tags regions := by
  obtain ⟨clusters, regions, hregions, hmerges, hclusters⟩ := exists_repeatRegions? hfits
  exact ⟨regions, hregions, regionStructure_of_merges hmerges hclusters hfits⟩

/-- The regions of every template are found and have the structure. -/
theorem regionStructure_repeatRegions? (t : Template) :
    ∃ regions, repeatRegions? t.parse = some regions ∧
      RegionStructure t.content.toList t.parse.tags regions :=
  exists_regionStructure (fits_parse t)

end TagTemplate.Proofs.Layout
