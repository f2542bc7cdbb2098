import TagTemplate.Layout.LineBlock
import TagTemplate.Template.Parsed

/-!
# `TagTemplate.Layout.Region`: the lines that repeat

A repeating tag makes the lines on which it stands repeat. Tags of one array
form clusters: consecutive tags of the array stay together unless both a line
feed and some other tag lie between them. Each cluster is widened to whole
lines, and further as long as a tag lies partly inside and partly outside.
Regions of different arrays that overlap become one.

Every function that cuts the content is `none` when a span does not lie on
characters of it, which no parsed template brings about.
-/

set_option autoImplicit false

namespace TagTemplate.Layout

open Text

/-- A tag with its position among the tags of the template. -/
abbrev Placed := Tag × Nat

/-- Puts a tag into the group of its key, the groups in the order of their first
tags. -/
def addToGroup (key : String) (tag : Placed) : List (String × List Placed) →
    List (String × List Placed)
  | [] => [(key, [tag])]
  | (k, members) :: groups =>
    if k = key then (k, members ++ [tag]) :: groups else (k, members) :: addToGroup key tag groups

/-- The repeating tags, grouped by the array that they walk. -/
def iterateGroups (tags : List Tag) : List (List Placed) :=
  let groups := tags.zipIdx.foldl (fun groups tag =>
    match tag.1.arrayKey? with
    | some key => if tag.1.isIterate then addToGroup key tag groups else groups
    | none => groups) []
  groups.map (·.2)

/-- The spans of the clusters of one array, given the span of the cluster so far
and the position of its last tag. -/
def clustersFrom? (content : List Char) (cluster : Span) (last : Nat) :
    List Placed → Option (List Span)
  | [] => some [cluster]
  | (tag, position) :: rest => do
    let between ← slice? content cluster.stop tag.span.start
    if between.contains '\n' && last + 1 < position then
      return cluster :: (← clustersFrom? content tag.span position rest)
    else
      clustersFrom? content ⟨cluster.start, tag.span.stop⟩ position rest

/-- The spans of the clusters of one array. -/
def clusters? (content : List Char) : List Placed → Option (List Span)
  | [] => some []
  | (tag, position) :: rest => clustersFrom? content tag.span position rest

/-- The tag lies partly before and partly after a place. -/
def straddles (span : Span) (place : Nat) : Bool :=
  span.start < place && place < span.stop

/-- A tag that lies partly inside and partly outside a region. -/
def straddling? (tags : List Tag) (region : Span) : Option Tag :=
  tags.find? fun tag => straddles tag.span region.start || straddles tag.span region.stop

/-- The smallest span that contains two spans. -/
def hull (a b : Span) : Span :=
  ⟨min a.start b.start, max a.stop b.stop⟩

/-- The region widened to whole lines until no tag straddles its start or end. -/
def coverStraddling? (content : List Char) (tags : List Tag) (region : Span) : Option Span :=
  match _htag : straddling? tags region with
  | none => some region
  | some tag =>
    match _hblock : lineBlock? content (hull region tag.span) with
    | none => none
    | some block => coverStraddling? content tags block
termination_by region.start + (byteCount content - region.stop)
decreasing_by
  -- The tag reaches over one end of the region, and the new block covers the tag.
  have hbounds := lineBlock?_bounds _hblock
  have hcross := List.find?_some _htag
  simp only [straddles, Bool.or_eq_true, Bool.and_eq_true, decide_eq_true_eq] at hcross
  simp only [hull] at hbounds
  omega

/-- Joins a sorted list of spans where they overlap, beginning with the span so
far. -/
def mergeFrom (last : Span) : List Span → List Span
  | [] => [last]
  | span :: spans =>
    if span.start < last.stop then mergeFrom ⟨last.start, max last.stop span.stop⟩ spans
    else last :: mergeFrom span spans

/-- Joins a sorted list of spans where they overlap. -/
def mergeOverlaps : List Span → List Span
  | [] => []
  | span :: spans => mergeFrom span spans

/-- The regions of one array: its clusters widened to whole lines. -/
def groupRegions? (content : List Char) (tags : List Tag) (members : List Placed) :
    Option (List Span) := do
  let clusters ← clusters? content members
  let blocks ← clusters.mapM (lineBlock? content)
  blocks.mapM (coverStraddling? content tags)

/-- The regions of a template that repeat, in order and without overlap. -/
def repeatRegions? (t : ParsedTemplate) : Option (List Span) := do
  let content := t.content.toList
  let regions ← (iterateGroups t.tags).mapM (groupRegions? content t.tags)
  return mergeOverlaps (regions.flatten.mergeSort fun a b => a.start ≤ b.start)

end TagTemplate.Layout
