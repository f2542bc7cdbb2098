import TagTemplate.Layout.Rendering
import TagTemplate.Proofs.Layout.Cover

/-!
# `TagTemplate.Proofs.Layout.Parts`: a template as characters and tags

The renderer copies slices between the offsets of tags. Here the content is a
list of *parts*, each a character or a tag (`Part`), and putting values into it
is a map over the parts (`Part.fill`): nothing is cut, and what replaces a tag is
not looked at again.

`Parts content tags parts` says that the parts make up the content and that the
tags stand at their spans. Tags that fit a content have parts (`exists_parts`),
and the parts split wherever no tag lies across (`Parts.exists_split`).
`fill?_eq_some` is the bridge: between two splits, `Layout.fill?` takes only
slices that exist, and gives the parts there with their tags replaced.
-/

set_option autoImplicit false

namespace TagTemplate.Proofs.Layout

open TagTemplate.Text TagTemplate.Layout
open TagTemplate.Proofs.Text TagTemplate.Proofs.Template

/-- A part of a template: a character of its text, or a tag. -/
inductive Part where
  | literal (c : Char)
  | hole (tag : Tag)

namespace Part

/-- What stands in the content. -/
def source : Part → List Char
  | literal c => [c]
  | hole tag => tag.raw.toList

/-- The tag, if the part is one. -/
def tag? : Part → Option Tag
  | literal _ => none
  | hole tag => some tag

/-- The part with a text in the place of each tag. -/
def fill (valueOf : Tag → String) : Part → List Char
  | literal c => [c]
  | hole tag => (valueOf tag).toList

end Part

/-- The content that parts make up. -/
def sourceOf (parts : List Part) : List Char :=
  parts.flatMap Part.source

/-- The tags among parts, in their order. -/
def tagsOf (parts : List Part) : List Tag :=
  parts.filterMap Part.tag?

/-- Parts with a text in the place of each tag. -/
def fillParts (valueOf : Tag → String) (parts : List Part) : List Char :=
  parts.flatMap (Part.fill valueOf)

@[simp] theorem sourceOf_append (first second : List Part) :
    sourceOf (first ++ second) = sourceOf first ++ sourceOf second :=
  List.flatMap_append

@[simp] theorem tagsOf_append (first second : List Part) :
    tagsOf (first ++ second) = tagsOf first ++ tagsOf second :=
  List.filterMap_append

@[simp] theorem sourceOf_literal (c : Char) (parts : List Part) :
    sourceOf (.literal c :: parts) = c :: sourceOf parts := rfl

@[simp] theorem sourceOf_hole (tag : Tag) (parts : List Part) :
    sourceOf (.hole tag :: parts) = tag.raw.toList ++ sourceOf parts := rfl

@[simp] theorem tagsOf_literal (c : Char) (parts : List Part) :
    tagsOf (.literal c :: parts) = tagsOf parts := rfl

@[simp] theorem tagsOf_hole (tag : Tag) (parts : List Part) :
    tagsOf (.hole tag :: parts) = tag :: tagsOf parts := rfl

@[simp] theorem fillParts_literal (valueOf : Tag → String) (c : Char) (parts : List Part) :
    fillParts valueOf (.literal c :: parts) = c :: fillParts valueOf parts := rfl

@[simp] theorem fillParts_hole (valueOf : Tag → String) (tag : Tag) (parts : List Part) :
    fillParts valueOf (.hole tag :: parts) = (valueOf tag).toList ++ fillParts valueOf parts := rfl

/-- Each tag among parts that begin at a byte stands at its span. -/
def PlacedFrom (offset : Nat) : List Part → Prop
  | [] => True
  | .literal c :: parts => PlacedFrom (offset + c.utf8Size) parts
  | .hole tag :: parts =>
    tag.span = ⟨offset, offset + byteCount tag.raw.toList⟩ ∧
      PlacedFrom (offset + byteCount tag.raw.toList) parts

/-- The second of two lists of parts begins where the first ends. -/
theorem placedFrom_append {offset : Nat} {first second : List Part} :
    PlacedFrom offset (first ++ second) ↔
      PlacedFrom offset first ∧ PlacedFrom (offset + byteCount (sourceOf first)) second := by
  induction first generalizing offset with
  | nil => simp [PlacedFrom, sourceOf]
  | cons part first ih =>
    cases part with
    | literal c => simp [PlacedFrom, ih, Nat.add_assoc]
    | hole tag => simp [PlacedFrom, ih, Nat.add_assoc, and_assoc]

/-- A tag among placed parts lies in their stretch of the content. -/
theorem PlacedFrom.le {offset : Nat} {parts : List Part} (h : PlacedFrom offset parts) {tag : Tag}
    (htag : tag ∈ tagsOf parts) :
    offset ≤ tag.span.start ∧ tag.span.stop ≤ offset + byteCount (sourceOf parts) := by
  induction parts generalizing offset with
  | nil => simp [tagsOf] at htag
  | cons part parts ih =>
    cases part with
    | literal c =>
      obtain ⟨hstart, hstop⟩ := ih h htag
      simp only [sourceOf_literal, byteCount_cons]
      omega
    | hole other =>
      obtain ⟨hspan, hplaced⟩ := h
      simp only [sourceOf_hole, byteCount_append]
      rcases List.mem_cons.mp htag with rfl | htag
      · rw [hspan]
        show offset ≤ offset ∧ offset + byteCount tag.raw.toList
          ≤ offset + (byteCount tag.raw.toList + byteCount (sourceOf parts))
        omega
      · obtain ⟨hstart, hstop⟩ := ih hplaced htag
        omega

/-- Parts that make up a content, with its tags at their spans. -/
structure Parts (content : List Char) (tags : List Tag) (parts : List Part) : Prop where
  source : sourceOf parts = content
  tags : tagsOf parts = tags
  placed : PlacedFrom 0 parts

/-- Text without tags as parts. -/
theorem literals (offset : Nat) (text : List Char) :
    sourceOf (text.map .literal) = text ∧ tagsOf (text.map .literal) = [] ∧
      PlacedFrom offset (text.map .literal) := by
  induction text generalizing offset with
  | nil => exact ⟨rfl, rfl, trivial⟩
  | cons c text ih =>
    obtain ⟨hsource, htags, hplaced⟩ := ih (offset + c.utf8Size)
    exact ⟨by simp [hsource], by simpa using htags, hplaced⟩

/-- Tags that fit a content have parts. The induction is on the tags that are still
to come. -/
theorem exists_parts {content : List Char} {tags : List Tag} (hfits : Fits content tags) :
    ∃ parts, Parts content tags parts := by
  suffices h : ∀ (later : List Tag) (before rest : List Char), content = before ++ rest →
      Fits content later → (∀ tag ∈ later, byteCount before ≤ tag.span.start) →
      ∃ parts, sourceOf parts = rest ∧ tagsOf parts = later ∧ PlacedFrom (byteCount before) parts by
    obtain ⟨parts, hsource, htags, hplaced⟩ := h tags [] content rfl hfits (by simp)
    exact ⟨parts, hsource, htags, hplaced⟩
  intro later
  induction later with
  | nil =>
    intro before rest _ _ _
    exact ⟨rest.map .literal, literals (byteCount before) rest⟩
  | cons tag later ih =>
    intro before rest hsplit hlater hle
    obtain ⟨upto, after, hcontent, hupto, hstop⟩ :=
      slice?_eq_some_iff.mp (hlater.slice tag List.mem_cons_self)
    -- `text` lies between what is done and the next tag.
    obtain ⟨text, rfl, hrest⟩ := exists_middle (hsplit.symm.trans hcontent)
      (hupto ▸ hle tag List.mem_cons_self)
    obtain ⟨happart, hpairwise⟩ := List.pairwise_cons.mp hlater.pairwise
    have hafter : Fits content later :=
      ⟨fun other hother => hlater.slice other (List.mem_cons_of_mem _ hother),
        fun other hother => hlater.braces other (List.mem_cons_of_mem _ hother), hpairwise⟩
    have hsize : byteCount (before ++ text ++ tag.raw.toList) = tag.span.stop := by
      rw [byteCount_append, hupto, hstop]
    obtain ⟨parts, hsource, htags, hplaced⟩ := ih (before ++ text ++ tag.raw.toList) after
      (by simp [hcontent]) hafter fun other hother => hsize ▸ happart other hother
    obtain ⟨hsourceText, htagsText, hplacedText⟩ := literals (byteCount before) text
    refine ⟨text.map .literal ++ .hole tag :: parts, ?_, ?_, ?_⟩
    · simp [hsourceText, hsource, hrest]
    · simp [htagsText, htags]
    · rw [placedFrom_append, hsourceText, ← byteCount_append, hupto]
      refine ⟨hplacedText, by rw [hstop], ?_⟩
      rwa [hstop, ← hsize]

/-- Parts split at a boundary that no tag lies across. -/
theorem PlacedFrom.exists_split {offset : Nat} {parts : List Part} (h : PlacedFrom offset parts)
    {text rest : List Char} (hsource : sourceOf parts = text ++ rest)
    (hun : ∀ tag ∈ tagsOf parts, ¬ straddles tag.span (offset + byteCount text)) :
    ∃ first second, parts = first ++ second ∧ sourceOf first = text := by
  induction parts generalizing offset text with
  | nil =>
    obtain ⟨rfl, -⟩ := List.append_eq_nil_iff.mp hsource.symm
    exact ⟨[], [], rfl, rfl⟩
  | cons part parts ih =>
    -- A split before the first part is no split of it.
    by_cases hempty : text = []
    · exact ⟨[], part :: parts, rfl, hempty.symm⟩
    cases part with
    | literal c =>
      obtain ⟨d, text, rfl⟩ := List.exists_cons_of_ne_nil hempty
      obtain ⟨rfl, hlater⟩ := List.cons.inj hsource
      obtain ⟨first, second, rfl, rfl⟩ := ih h hlater fun tag htag => by
        have := hun tag htag
        rwa [byteCount_cons, ← Nat.add_assoc] at this
      exact ⟨.literal c :: first, second, rfl, rfl⟩
    | hole tag =>
      obtain ⟨hspan, hplaced⟩ := h
      -- The split lies past the start of the tag, so it lies past its end.
      have hpast : byteCount tag.raw.toList ≤ byteCount text := by
        have hnot := hun tag List.mem_cons_self
        have hpos := mt byteCount_eq_zero_iff.mp hempty
        simp only [straddles, hspan, Bool.and_eq_true, decide_eq_true_eq] at hnot
        omega
      obtain ⟨text, rfl, hlater⟩ := exists_middle hsource hpast
      obtain ⟨first, second, rfl, rfl⟩ := ih hplaced hlater fun other hother => by
        have := hun other (List.mem_cons_of_mem _ hother)
        rwa [byteCount_append, ← Nat.add_assoc] at this
      exact ⟨.hole tag :: first, second, rfl, rfl⟩

/-- The parts of a content split at a boundary from the end of the first of them
on, unless a tag lies across. -/
theorem Parts.exists_split {content : List Char} {tags : List Tag} {before rest : List Part}
    (h : Parts content tags (before ++ rest)) {k : Nat} (hk : IsBoundary content k)
    (hle : byteCount (sourceOf before) ≤ k) (hun : Unstraddled tags k) :
    ∃ first second, rest = first ++ second ∧ byteCount (sourceOf (before ++ first)) = k := by
  obtain ⟨upto, after, hcontent, rfl⟩ := hk
  have hsource := h.source
  have htags := h.tags
  have hplaced := h.placed
  rw [hcontent, sourceOf_append] at hsource
  rw [tagsOf_append] at htags
  rw [placedFrom_append, Nat.zero_add] at hplaced
  obtain ⟨text, rfl, hrest⟩ := exists_middle hsource hle
  obtain ⟨first, second, rfl, rfl⟩ := hplaced.2.exists_split hrest fun tag htag => by
    rw [← byteCount_append]
    exact hun tag (htags ▸ List.mem_append_right _ htag)
  exact ⟨first, second, rfl, by rw [sourceOf_append]⟩

/-! ### Filling parts -/

/-- Filling a stretch of the content fills its parts. The cursor stands at the end
of `before`, and `text` is what lies between it and the parts. The induction is on
the parts. -/
theorem fillFrom?_eq_some {content before text after : List Char} {parts : List Part}
    (valueOf : Tag → String) (hcontent : content = before ++ (text ++ (sourceOf parts ++ after)))
    (hplaced : PlacedFrom (byteCount (before ++ text)) parts) :
    fillFrom? content valueOf (byteCount (before ++ text ++ sourceOf parts)) (byteCount before)
      (tagsOf parts) = some (text ++ fillParts valueOf parts) := by
  induction parts generalizing before text with
  | nil =>
    refine slice?_eq_some_iff.mpr ⟨before, after, ?_, rfl, ?_⟩
    · simpa [sourceOf, fillParts] using hcontent
    · simp [sourceOf, fillParts]
  | cons part parts ih =>
    cases part with
    | literal c =>
      -- The character waits with the text before it.
      have hcontent' : content = before ++ (text ++ [c] ++ (sourceOf parts ++ after)) := by
        simpa using hcontent
      have := ih hcontent' (by simpa [PlacedFrom, Nat.add_assoc] using hplaced)
      simpa using this
    | hole tag =>
      -- The text that waits is copied as one slice, and the cursor goes past the tag.
      obtain ⟨hspan, hplaced⟩ := hplaced
      have hslice : slice? content (byteCount before) tag.span.start = some text :=
        slice?_eq_some_iff.mpr ⟨before, sourceOf (.hole tag :: parts) ++ after, hcontent, rfl, by
          simp [hspan]⟩
      have hstop : tag.span.stop = byteCount (before ++ text ++ tag.raw.toList) := by
        simp [hspan, Nat.add_assoc]
      have hcontent' : content
          = (before ++ text ++ tag.raw.toList) ++ ([] ++ (sourceOf parts ++ after)) := by
        simpa using hcontent
      have hend : before ++ text ++ sourceOf (.hole tag :: parts)
          = before ++ text ++ tag.raw.toList ++ [] ++ sourceOf parts := by
        simp
      rw [tagsOf_hole, fillFrom?, hslice, hstop, hend, Option.bind_eq_bind, Option.bind_some,
        ih hcontent' (by simpa [Nat.add_assoc] using hplaced)]
      simp

/-- The tags within a span are those that lie within it. -/
theorem mem_tagsWithin {tags : List Tag} {span : Span} {tag : Tag} :
    tag ∈ tagsWithin tags span ↔ tag ∈ tags ∧ Within tag.span span := by
  simp [tagsWithin, Within]

/-- Tags that all lie within a span are all of them within it. -/
theorem tagsWithin_eq_self {tags : List Tag} {span : Span}
    (h : ∀ tag ∈ tags, Within tag.span span) : tagsWithin tags span = tags :=
  List.filter_eq_self.mpr fun tag htag => by simpa [Within] using h tag htag

/-- Of tags that do not lie within a span there are none within it. -/
theorem tagsWithin_eq_nil {tags : List Tag} {span : Span}
    (h : ∀ tag ∈ tags, ¬ Within tag.span span) : tagsWithin tags span = [] := by
  rw [List.eq_nil_iff_forall_not_mem]
  intro tag htag
  obtain ⟨hmem, hwithin⟩ := mem_tagsWithin.mp htag
  exact h tag hmem hwithin

/-- Where some parts stand that follow on others. -/
def stretch (before parts : List Part) : Span :=
  ⟨byteCount (sourceOf before), byteCount (sourceOf (before ++ parts))⟩

/-- The tags within the stretch of some parts are the tags among them. -/
theorem tagsWithin_stretch {content : List Char} {tags : List Tag} {before middle after : List Part}
    (hfits : Fits content tags) (h : Parts content tags (before ++ (middle ++ after))) :
    tagsWithin tags (stretch before middle) = tagsOf middle := by
  have htags := h.tags
  have hplaced := h.placed
  rw [tagsOf_append, tagsOf_append] at htags
  rw [placedFrom_append, placedFrom_append, Nat.zero_add] at hplaced
  obtain ⟨hbefore, hmiddle, hafter⟩ := hplaced
  -- A tag is not empty, so one that ends where the stretch starts, or starts where
  -- it ends, does not lie within it.
  have hlt : ∀ tag ∈ tagsOf before ++ (tagsOf middle ++ tagsOf after),
      tag.span.start < tag.span.stop := by
    intro tag htag
    exact hfits.start_lt_stop (htags ▸ htag)
  have hnoneBefore : tagsWithin (tagsOf before) (stretch before middle) = [] := by
    refine tagsWithin_eq_nil fun tag htag hwithin => ?_
    have hnonempty := hlt tag (List.mem_append_left _ htag)
    have hle := hbefore.le htag
    have hstart : byteCount (sourceOf before) ≤ tag.span.start := hwithin.1
    omega
  have hall : tagsWithin (tagsOf middle) (stretch before middle) = tagsOf middle := by
    refine tagsWithin_eq_self fun tag htag => ?_
    obtain ⟨hstart, hstop⟩ := hmiddle.le htag
    exact ⟨hstart, by rw [stretch, sourceOf_append, byteCount_append]; exact hstop⟩
  have hnoneAfter : tagsWithin (tagsOf after) (stretch before middle) = [] := by
    refine tagsWithin_eq_nil fun tag htag hwithin => ?_
    have hnonempty := hlt tag (List.mem_append_right _ (List.mem_append_right _ htag))
    have hle := hafter.le htag
    have hstop : tag.span.stop ≤ byteCount (sourceOf (before ++ middle)) := hwithin.2
    rw [sourceOf_append, byteCount_append] at hstop
    omega
  rw [← htags, tagsWithin, List.filter_append, List.filter_append]
  rw [tagsWithin] at hnoneBefore hall hnoneAfter
  rw [hnoneBefore, hall, hnoneAfter, List.nil_append, List.append_nil]

/-- Between two splits of its parts, filling a template takes only slices that
exist, and gives the parts with their tags replaced. -/
theorem fill?_eq_some {t : ParsedTemplate} {before middle after : List Part}
    (hfits : Fits t.content.toList t.tags)
    (h : Parts t.content.toList t.tags (before ++ (middle ++ after))) (valueOf : Tag → String) :
    fill? t valueOf (stretch before middle) = some (fillParts valueOf middle) := by
  have hcontent : t.content.toList
      = sourceOf before ++ ([] ++ (sourceOf middle ++ sourceOf after)) := by
    simp [← h.source]
  have hplaced := h.placed
  rw [placedFrom_append, placedFrom_append, Nat.zero_add] at hplaced
  -- The cursor stands where the parts begin, so no text waits.
  have hfill := fillFrom?_eq_some valueOf hcontent (by simpa using hplaced.2.1)
  rw [fill?, tagsWithin_stretch hfits h, stretch]
  simpa using hfill

end TagTemplate.Proofs.Layout
