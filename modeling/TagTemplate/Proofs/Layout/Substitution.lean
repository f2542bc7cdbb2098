import Mathlib.Data.List.Infix
import TagTemplate.Proofs.Layout.Parts
import TagTemplate.Proofs.Layout.Regions

/-!
# `TagTemplate.Proofs.Layout.Substitution`: rendering is one substitution

What a rendered template should be, said without offsets: the parts of the
template fall into *blocks* (`Block`), and each block is copied once, or once for
each element of the longest array that it walks, with the tags replaced
(`Block.render`). `Blocks` ties the blocks to the content, its tags, and the
regions that repeat.

`exists_render?_parse` says that the renderer finds all slices that it takes, for any
values, and that its text is that of the blocks.
-/

set_option autoImplicit false

namespace TagTemplate.Proofs.Layout

open TagTemplate.Text TagTemplate.Layout
open TagTemplate.Proofs.Support TagTemplate.Proofs.Text TagTemplate.Proofs.Template

/-! ### Blocks -/

/-- A stretch of a template that is copied once, or once for each element. -/
inductive Block where
  | once (parts : List Part)
  | repeated (parts : List Part)

namespace Block

/-- The parts of a block. -/
def parts : Block → List Part
  | once parts => parts
  | repeated parts => parts

/-- The block is copied for each element. -/
def repeats : Block → Bool
  | once _ => false
  | repeated _ => true

end Block

/-- The parts of blocks that follow each other. -/
def partsOf (blocks : List Block) : List Part :=
  blocks.flatMap Block.parts

/-- The spans of the repeated blocks among blocks that begin at a byte. -/
def repeatedFrom (offset : Nat) : List Block → List Span
  | [] => []
  | .once parts :: blocks => repeatedFrom (offset + byteCount (sourceOf parts)) blocks
  | .repeated parts :: blocks =>
    let stop := offset + byteCount (sourceOf parts)
    ⟨offset, stop⟩ :: repeatedFrom stop blocks

/-- Blocks that make up a template and repeat where the regions are. -/
structure Blocks (content : List Char) (tags : List Tag) (regions : List Span)
    (blocks : List Block) : Prop where
  parts : Parts content tags (partsOf blocks)
  regions : repeatedFrom 0 blocks = regions

/-! ### The text of a block -/

/-- The text of a tag in copy `k` of a block. A repeating tag has none past the end
of its array. -/
def copyValue (r : Resolved) (k : Nat) (tag : Tag) : String :=
  if tag.isIterate then
    if k < r.elementCount tag.id then (r.element tag.id k).render else ""
  else
    singleText r tag

/-- The number of copies of a block: the greatest element count of the repeating
tags in it. -/
def copiesOf (r : Resolved) (parts : List Part) : Nat :=
  (((tagsOf parts).filter (·.isIterate)).map fun tag => r.elementCount tag.id).max?.getD 0

/-- The line break of a content. -/
def breakOf (content : List Char) : List Char :=
  if ['\r', '\n'] <:+: content then ['\r', '\n'] else ['\n']

/-- What stands between two copies of a block: nothing, if a line ends with it. -/
def separatorOf (content : List Char) (parts : List Part) : List Char :=
  if (sourceOf parts).getLast? = some '\n' then [] else breakOf content

/-- The text of a block. -/
def Block.render (content : List Char) (r : Resolved) : Block → List Char
  | once parts => fillParts (singleText r) parts
  | repeated parts =>
    (separatorOf content parts).intercalate
      ((List.range (copiesOf r parts)).map fun k => fillParts (copyValue r k) parts)

/-! ### The renderer -/

/-- Past the end of an array a repeating tag has no text. -/
theorem elementText_eq (r : Resolved) (k : Nat) : elementText r k = copyValue r k := by
  funext tag
  rw [elementText, copyValue]
  by_cases hiterate : tag.isIterate
  · rw [if_pos hiterate, if_pos hiterate]
    by_cases hk : k < r.elementCount tag.id
    · rw [if_pos hk]
    · -- The array has no such element, and what is missing has the empty text.
      have hnone := List.getElem?_eq_none (Nat.le_of_not_lt hk)
      rw [if_neg hk, Resolved.element, List.getD_eq_getElem?_getD, hnone]
      rfl
  · rw [if_neg hiterate, if_neg hiterate]

/-- Looking for a carriage return before a line feed finds them next to each
other. -/
theorem hasCarriageReturn_iff {content : List Char} :
    hasCarriageReturn content ↔ ['\r', '\n'] <:+: content := by
  induction content with
  | nil => simp [hasCarriageReturn]
  | cons c content ih =>
    rw [List.infix_cons_iff, ← ih]
    simp only [hasCarriageReturn, Bool.or_eq_true, Bool.and_eq_true, beq_iff_eq]
    -- Both sides look at the first two characters, or further on.
    refine or_congr_left ?_
    cases content with
    | nil => simp
    | cons d content => simp [eq_comm]

/-- The renderer breaks lines like the content. -/
theorem lineBreak_eq (content : List Char) : lineBreak content = breakOf content := by
  simp only [lineBreak, breakOf, hasCarriageReturn_iff]

/-- The greatest of some numbers is found by comparing with the greatest so far. -/
theorem foldl_max_eq (r : Resolved) (tags : List Tag) :
    tags.foldl (fun count tag => max count (r.elementCount tag.id)) 0
      = (tags.map fun tag => r.elementCount tag.id).max?.getD 0 := by
  cases tags with
  | nil => rfl
  | cons tag tags =>
    -- Counting from zero or from the first of the numbers makes no difference.
    rw [List.map_cons, List.max?_cons', List.foldl_map, List.foldl_cons, Nat.zero_max]
    rfl

section

variable {t : ParsedTemplate} {before parts after : List Part}
  (hfits : Fits t.content.toList t.tags)
  (h : Parts t.content.toList t.tags (before ++ (parts ++ after)))
include hfits h

/-- The renderer puts the copies of a block in the place of its region. -/
theorem copies?_eq_some (r : Resolved) :
    copies? t r (stretch before parts)
      = some ((Block.repeated parts).render t.content.toList r) := by
  have hslice : slice? t.content.toList (stretch before parts).start (stretch before parts).stop
      = some (sourceOf parts) := by
    rw [← h.source]
    exact slice?_eq_some_iff.mpr ⟨sourceOf before, sourceOf after, by simp, rfl, by simp [stretch]⟩
  have hseparator : separator? t.content.toList (stretch before parts)
      = some (separatorOf t.content.toList parts) := by
    simp [separator?, hslice, separatorOf, lineBreak_eq]
  have hcount : copyCount t r (stretch before parts) = copiesOf r parts := by
    rw [copyCount, tagsWithin_stretch hfits h, foldl_max_eq, copiesOf]
  have hcopies : (List.range (copiesOf r parts)).mapM
      (fun k => fill? t (elementText r k) (stretch before parts))
        = some ((List.range (copiesOf r parts)).map fun k => fillParts (copyValue r k) parts) :=
    mapM_eq_some_map fun k _ => by rw [elementText_eq, fill?_eq_some hfits h]
  simp [copies?, hseparator, hcount, hcopies, Block.render]

end

/-- The renderer goes on from a cursor through the regions after it as through the
blocks that these cut the rest of the template into. The induction is on the
regions. -/
theorem exists_renderFrom? {t : ParsedTemplate} (hfits : Fits t.content.toList t.tags)
    (r : Resolved) (regions : List Span) (before : List Part) {rest : List Part}
    (h : Parts t.content.toList t.tags (before ++ rest))
    (hapart : regions.Pairwise fun a b => a.stop ≤ b.start)
    (hregions : ∀ region ∈ regions, byteCount (sourceOf before) ≤ region.start ∧
      WholeLines t.content.toList region ∧ Unstraddled t.tags region.start ∧
      Unstraddled t.tags region.stop) :
    ∃ blocks, partsOf blocks = rest ∧
      repeatedFrom (byteCount (sourceOf before)) blocks = regions ∧
      renderFrom? t r (byteCount (sourceOf before)) regions
        = some (blocks.flatMap (Block.render t.content.toList r)) := by
  induction regions generalizing before rest with
  | nil =>
    -- No region follows: the rest is one block.
    have h' : Parts t.content.toList t.tags (before ++ (rest ++ [])) := by simpa using h
    have hend : (⟨byteCount (sourceOf before), byteCount t.content.toList⟩ : Span)
        = stretch before rest := by
      rw [stretch, h.source]
    refine ⟨[.once rest], by simp [partsOf, Block.parts], rfl, ?_⟩
    rw [renderFrom?, hend, fill?_eq_some hfits h']
    simp [Block.render]
  | cons region regions ih =>
    obtain ⟨hpast, hapart⟩ := List.pairwise_cons.mp hapart
    obtain ⟨hle, hwhole, hunStart, hunStop⟩ := hregions region List.mem_cons_self
    -- The rest splits where the region starts and where it stops.
    obtain ⟨first, later, rfl, hstart⟩ := h.exists_split hwhole.start.isBoundary hle hunStart
    have hlater : Parts t.content.toList t.tags ((before ++ first) ++ later) := by
      rwa [List.append_assoc]
    obtain ⟨inside, after, rfl, hstop⟩ :=
      hlater.exists_split hwhole.stop.isBoundary (hstart ▸ hwhole.le) hunStop
    have hafter : Parts t.content.toList t.tags ((before ++ first ++ inside) ++ after) := by
      rwa [List.append_assoc]
    have hfirst : (⟨byteCount (sourceOf before), region.start⟩ : Span) = stretch before first := by
      rw [stretch, hstart]
    have hinside : region = stretch (before ++ first) inside := by
      rw [stretch, hstart, hstop]
    have hcopies : copies? t r region
        = some ((Block.repeated inside).render t.content.toList r) := by
      rw [hinside]
      exact copies?_eq_some hfits hlater r
    -- The later regions cut what comes after this one.
    obtain ⟨blocks, hparts, hrepeated, hrender⟩ := ih _ hafter hapart fun other hother =>
      ⟨hstop ▸ hpast other hother, (hregions other (List.mem_cons_of_mem _ hother)).2⟩
    refine ⟨.once first :: .repeated inside :: blocks, ?_, ?_, ?_⟩
    · simp [partsOf, Block.parts, ← hparts]
    · rw [repeatedFrom, repeatedFrom, ← byteCount_append, ← sourceOf_append, ← byteCount_append,
        ← sourceOf_append, hrepeated, hstart, hstop]
    · rw [renderFrom?, hfirst, fill?_eq_some hfits h]
      rw [hstop] at hrender
      simp [hcopies, hrender, Block.render]

/-! ### Tags and blocks -/

@[simp] theorem partsOf_append (first second : List Block) :
    partsOf (first ++ second) = partsOf first ++ partsOf second :=
  List.flatMap_append

@[simp] theorem partsOf_cons (block : Block) (blocks : List Block) :
    partsOf (block :: blocks) = block.parts ++ partsOf blocks := rfl

/-- The spans of the repeated blocks are the stretches of their parts. -/
theorem mem_repeatedFrom_iff (before : List Part) {blocks : List Block} {region : Span} :
    region ∈ repeatedFrom (byteCount (sourceOf before)) blocks ↔
      ∃ first parts last, blocks = first ++ .repeated parts :: last ∧
        region = stretch (before ++ partsOf first) parts := by
  induction blocks generalizing before with
  | nil => simp [repeatedFrom]
  | cons block blocks ih =>
    have hsize : byteCount (sourceOf before) + byteCount (sourceOf block.parts)
        = byteCount (sourceOf (before ++ block.parts)) := by
      simp
    have hlater : region ∈ repeatedFrom
          (byteCount (sourceOf before) + byteCount (sourceOf block.parts)) blocks ↔
        ∃ first parts last, blocks = first ++ .repeated parts :: last ∧
          region = stretch (before ++ partsOf (block :: first)) parts := by
      rw [hsize, ih]
      simp
    cases block with
    | once parts =>
      refine hlater.trans ⟨?_, ?_⟩
      · rintro ⟨first, others, last, rfl, rfl⟩
        exact ⟨.once parts :: first, others, last, rfl, rfl⟩
      · rintro ⟨first, others, last, hblocks, rfl⟩
        cases first with
        | nil => simp at hblocks
        | cons block first =>
          obtain ⟨rfl, rfl⟩ := List.cons.inj hblocks
          exact ⟨first, others, last, rfl, rfl⟩
    | repeated parts =>
      have hspan : (⟨byteCount (sourceOf before),
          byteCount (sourceOf before) + byteCount (sourceOf parts)⟩ : Span)
            = stretch before parts := by
        rw [stretch, sourceOf_append, byteCount_append]
      rw [repeatedFrom, List.mem_cons, hspan]
      constructor
      · rintro (rfl | h)
        · exact ⟨[], parts, blocks, rfl, by simp [partsOf]⟩
        · obtain ⟨first, others, last, rfl, rfl⟩ := hlater.mp h
          exact ⟨.repeated parts :: first, others, last, rfl, rfl⟩
      · rintro ⟨first, others, last, hblocks, rfl⟩
        cases first with
        | nil =>
          obtain ⟨hparts, rfl⟩ := List.cons.inj hblocks
          obtain rfl := Block.repeated.inj hparts
          exact Or.inl (by simp [partsOf])
        | cons block first =>
          obtain ⟨rfl, rfl⟩ := List.cons.inj hblocks
          exact Or.inr (hlater.mpr ⟨first, others, last, rfl, rfl⟩)

section

variable {content : List Char} {tags : List Tag} {regions : List Span} {blocks : List Block}

/-- The regions are where the repeated blocks stand. -/
theorem Blocks.mem_regions_iff (h : Blocks content tags regions blocks) {region : Span} :
    region ∈ regions ↔ ∃ first parts last, blocks = first ++ .repeated parts :: last ∧
      region = stretch (partsOf first) parts := by
  rw [← h.regions]
  exact mem_repeatedFrom_iff []

/-- The tags within the region of a repeated block are those of the block. -/
theorem Blocks.mem_tagsOf_iff (hfits : Fits content tags) (h : Blocks content tags regions blocks)
    {first last : List Block} {parts : List Part}
    (hblocks : blocks = first ++ .repeated parts :: last) {tag : Tag} :
    tag ∈ tagsOf parts ↔ tag ∈ tags ∧ Within tag.span (stretch (partsOf first) parts) := by
  have hparts : Parts content tags (partsOf first ++ (parts ++ partsOf last)) := by
    have := h.parts
    rwa [hblocks, partsOf_append, partsOf_cons] at this
  rw [← tagsWithin_stretch hfits hparts, mem_tagsWithin]

/-- The tags of a template are those of its blocks. -/
theorem mem_tagsOf_partsOf_iff {tag : Tag} :
    tag ∈ tagsOf (partsOf blocks) ↔ ∃ block ∈ blocks, tag ∈ tagsOf block.parts := by
  induction blocks with
  | nil => simp [partsOf, tagsOf]
  | cons block blocks ih => simp [ih]

/-- A tag stands in one block only. -/
theorem Blocks.eq_of_mem (hfits : Fits content tags) (h : Blocks content tags regions blocks)
    {a b : Block} (ha : a ∈ blocks) (hb : b ∈ blocks) {tag : Tag} (htagA : tag ∈ tagsOf a.parts)
    (htagB : tag ∈ tagsOf b.parts) : a = b := by
  obtain ⟨first, last, rfl⟩ := List.mem_iff_append.mp ha
  -- The tags of the blocks before, of `a`, and of those after are all different.
  have hnodup := hfits.nodup
  rw [← h.parts.tags, partsOf_append, partsOf_cons, tagsOf_append, tagsOf_append,
    List.nodup_append, List.nodup_append] at hnodup
  obtain ⟨-, ⟨-, -, hlast⟩, hfirst⟩ := hnodup
  rcases List.mem_append.mp hb with hb | hb
  · have htag := mem_tagsOf_partsOf_iff.mpr ⟨b, hb, htagB⟩
    exact absurd rfl (hfirst tag htag tag (List.mem_append_left _ htagA))
  · rcases List.mem_cons.mp hb with rfl | hb
    · rfl
    · have htag := mem_tagsOf_partsOf_iff.mpr ⟨b, hb, htagB⟩
      exact absurd rfl (hlast tag htagA tag htag)

/-- The blocks that repeat are those with a repeating tag. -/
theorem Blocks.repeats_iff (hfits : Fits content tags) (h : Blocks content tags regions blocks)
    (hregions : RegionStructure content tags regions) {block : Block} (hblock : block ∈ blocks) :
    block.repeats ↔ ∃ tag ∈ tagsOf block.parts, tag.isIterate := by
  constructor
  · intro hrepeats
    cases block with
    | once parts => simp [Block.repeats] at hrepeats
    | repeated parts =>
      -- The block stands at a region, and every region has a repeating tag.
      obtain ⟨first, last, hblocks⟩ := List.mem_iff_append.mp hblock
      obtain ⟨tag, htag, hiterate, hwithin⟩ :=
        hregions.inhabited _ (h.mem_regions_iff.mpr ⟨first, parts, last, hblocks, rfl⟩)
      exact ⟨tag, (h.mem_tagsOf_iff hfits hblocks).mpr ⟨htag, hwithin⟩, hiterate⟩
  · rintro ⟨tag, htag, hiterate⟩
    -- The tag lies within a region, so it stands in the repeated block there, and in no
    -- other.
    have hmem : tag ∈ tags := h.parts.tags ▸ mem_tagsOf_partsOf_iff.mpr ⟨block, hblock, htag⟩
    obtain ⟨region, ⟨hregion, hwithin⟩, -⟩ := hregions.iterate tag hmem hiterate
    obtain ⟨first, parts, last, hblocks, rfl⟩ := h.mem_regions_iff.mp hregion
    have hinside := (h.mem_tagsOf_iff hfits hblocks).mpr ⟨hmem, hwithin⟩
    have hrepeated : .repeated parts ∈ blocks := by simp [hblocks]
    rw [h.eq_of_mem hfits hblock hrepeated htag hinside]
    rfl

end

/-! ### The whole template -/

/-- The values put back what stands in the template: each tag has its own text, and
each array one element. -/
def Restores (r : Resolved) (tag : Tag) : Prop :=
  if tag.isIterate then r.elementCount tag.id = 1 ∧ (r.element tag.id 0).render = tag.raw
  else singleText r tag = tag.raw

/-- Tags replaced by their own texts give the content back. -/
theorem fillParts_eq_sourceOf {valueOf : Tag → String} {parts : List Part}
    (h : ∀ tag ∈ tagsOf parts, valueOf tag = tag.raw) :
    fillParts valueOf parts = sourceOf parts := by
  induction parts with
  | nil => rfl
  | cons part parts ih =>
    cases part with
    | literal c => rw [fillParts_literal, sourceOf_literal, ih h]
    | hole tag =>
      rw [fillParts_hole, sourceOf_hole, h tag List.mem_cons_self,
        ih fun other hother => h other (List.mem_cons_of_mem _ hother)]

/-- A block whose values put back what stands in it is rendered as it stands. -/
theorem render_eq_sourceOf (content : List Char) {r : Resolved} {block : Block}
    (hrepeats : block.repeats ↔ ∃ tag ∈ tagsOf block.parts, tag.isIterate)
    (h : ∀ tag ∈ tagsOf block.parts, Restores r tag) :
    block.render content r = sourceOf block.parts := by
  cases block with
  | once parts =>
    -- None of its tags repeats.
    refine fillParts_eq_sourceOf fun tag htag => ?_
    have hnot : ¬ tag.isIterate := fun hiterate => by
      simpa [Block.repeats] using hrepeats.mpr ⟨tag, htag, hiterate⟩
    simpa [Restores, hnot] using h tag htag
  | repeated parts =>
    -- Some tag of it repeats, and all arrays have one element: there is one copy.
    have hcopies : copiesOf r parts = 1 := by
      obtain ⟨tag, htag, hiterate⟩ := hrepeats.mp rfl
      have hone : ∀ tag ∈ tagsOf parts, tag.isIterate → r.elementCount tag.id = 1 := by
        intro tag htag hiterate
        have := h tag htag
        simp only [Restores, hiterate, if_true] at this
        exact this.1
      have hmax : (((tagsOf parts).filter (·.isIterate)).map fun tag =>
          r.elementCount tag.id).max? = some 1 := by
        refine List.max?_eq_some_iff.mpr ⟨?_, ?_⟩
        · exact List.mem_map.mpr ⟨tag, List.mem_filter.mpr ⟨htag, hiterate⟩, hone tag htag hiterate⟩
        · intro count hcount
          obtain ⟨other, hother, rfl⟩ := List.mem_map.mp hcount
          obtain ⟨hmem, hrepeat⟩ := List.mem_filter.mp hother
          exact Nat.le_of_eq (hone other hmem hrepeat)
      rw [copiesOf, hmax, Option.getD_some]
    have hcopy : fillParts (copyValue r 0) parts = sourceOf parts := by
      refine fillParts_eq_sourceOf fun tag htag => ?_
      have := h tag htag
      rw [copyValue]
      split
      · rename_i hiterate
        simp only [Restores, hiterate, if_true] at this
        simp [this]
      · rename_i hnot
        simpa [Restores, hnot] using this
    simp [Block.render, hcopies, hcopy, Block.parts]

/-- The renderer finds every slice that it takes, for any values, and its text is
that of the blocks of the template. -/
theorem exists_renderText? {t : ParsedTemplate} (hfits : Fits t.content.toList t.tags)
    (r : Resolved) : ∃ regions blocks, repeatRegions? t = some regions ∧
      RegionStructure t.content.toList t.tags regions ∧
      Blocks t.content.toList t.tags regions blocks ∧
      renderText? t r = some (blocks.flatMap (Block.render t.content.toList r)) := by
  obtain ⟨regions, hregions, hstructure⟩ := exists_regionStructure hfits
  obtain ⟨parts, hparts⟩ := exists_parts hfits
  obtain ⟨blocks, hblocks, hrepeated, hrender⟩ := exists_renderFrom? hfits r regions []
    hparts hstructure.apart fun region hregion =>
      ⟨Nat.zero_le _, ⟨hstructure.start region hregion, hstructure.stop region hregion,
        Nat.le_of_lt (hstructure.nonempty region hregion)⟩, hstructure.unstraddled region hregion⟩
  refine ⟨regions, blocks, hregions, hstructure, ⟨hblocks ▸ hparts, hrepeated⟩, ?_⟩
  rw [renderText?, hregions]
  exact hrender

/-- Rendering a parsed template is one substitution, for any values: the parts of
the content fall into blocks, the regions into those that repeat, and the text is
that of the blocks in their order. Each tag stands in one block. Values that put
back what stands in the template give the content. -/
theorem exists_render?_parse (t : Template) (r : Resolved) :
    ∃ regions blocks rendering, repeatRegions? t.parse = some regions ∧
      Blocks t.content.toList t.parse.tags regions blocks ∧
      t.parse.render? r = some rendering ∧
      rendering.text = String.ofList (blocks.flatMap (Block.render t.content.toList r)) ∧
      (∀ tag ∈ t.parse.tags, ∃! block, block ∈ blocks ∧ tag ∈ tagsOf block.parts) ∧
      (∀ block ∈ blocks, block.repeats ↔ ∃ tag ∈ tagsOf block.parts, tag.isIterate) ∧
      ((∀ tag ∈ t.parse.tags, Restores r tag) → rendering.text = t.content) := by
  have hfits := fits_parse t
  obtain ⟨regions, blocks, hregions, hstructure, hblocks, htext⟩ :=
    exists_renderText? (t := t.parse) hfits r
  have hrepeats : ∀ block ∈ blocks, block.repeats ↔ ∃ tag ∈ tagsOf block.parts, tag.isIterate :=
    fun block hblock => hblocks.repeats_iff hfits hstructure hblock
  refine ⟨regions, blocks, _, hregions, hblocks, congrArg (Option.map _) htext, rfl, ?_, hrepeats,
    ?_⟩
  · intro tag htag
    rw [← hblocks.parts.tags] at htag
    obtain ⟨block, hblock, hmem⟩ := mem_tagsOf_partsOf_iff.mp htag
    exact ⟨block, ⟨hblock, hmem⟩, fun other hother =>
      hblocks.eq_of_mem hfits hother.1 hblock hother.2 hmem⟩
  · intro hrestores
    have hsource : blocks.flatMap (Block.render t.parse.content.toList r)
        = t.parse.content.toList := by
      rw [← hblocks.parts.source, sourceOf, partsOf, List.flatMap_assoc]
      refine List.flatMap_congr fun block hblock => ?_
      refine render_eq_sourceOf _ (hrepeats block hblock) fun tag htag => hrestores tag ?_
      exact hblocks.parts.tags ▸ mem_tagsOf_partsOf_iff.mpr ⟨block, hblock, htag⟩
    rw [hsource]
    exact String.ofList_toList

end TagTemplate.Proofs.Layout
