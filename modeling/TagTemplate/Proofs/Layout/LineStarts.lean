import TagTemplate.Proofs.Layout.Parts
import TagTemplate.Proofs.Layout.Regions

/-!
# `TagTemplate.Proofs.Layout.LineStarts`: copies begin on lines of their own

The renderer appends texts one after the other: stretches of the template outside the
regions, copies of regions, and the line breaks between the copies of a region that has
none of its own. `emissions?` lists these texts with what they are, and the rendered
text is the texts in a row (`renderText?_eq_map_emissions?`).

A line feed just before the start or the end of a region is no part of a tag, since no
tag lies across, so it is still there when the tags are replaced
(`exists_fill?_of_unstraddled`). Hence every copy, and every stretch that is not empty
in the template, begins a line of the output: the text before it is empty or ends with
a line feed (`LineDone`). What a region appends keeps that (`exists_copyEmissions?`),
and the induction on the regions carries it to the end (`exists_emissionsFrom?`). Only
the region at the end of a content without a last line feed leaves its line open, and
nothing follows it.
-/

set_option autoImplicit false

namespace TagTemplate.Proofs.Layout

open TagTemplate.Text TagTemplate.Layout
open TagTemplate.Proofs.Support TagTemplate.Proofs.Text TagTemplate.Proofs.Template

/-! ### What the renderer appends -/

/-- A text that the renderer appends. -/
inductive Emission where
  /-- A stretch of the template outside the regions. -/
  | stretch (span : Span) (text : List Char)
  /-- The copy of a region for an element. -/
  | copy (region : Span) (position : Nat) (text : List Char)
  /-- What stands between two copies. -/
  | separator (text : List Char)

namespace Emission

/-- The text that is appended. -/
def text : Emission → List Char
  | stretch _ text => text
  | copy _ _ text => text
  | separator text => text

/-- The text is a copy, or a stretch that is not empty in the template. -/
def IsBlock : Emission → Prop
  | stretch span _ => span.start < span.stop
  | copy _ _ _ => True
  | separator _ => False

end Emission

/-- The texts in a row. -/
def textOf (emissions : List Emission) : List Char :=
  emissions.flatMap Emission.text

/-- What is appended for a region. -/
def copyEmissions? (t : ParsedTemplate) (r : Resolved) (region : Span) :
    Option (List Emission) := do
  let separator ← separator? t.content.toList region
  let copies ← (List.range (copyCount t r region)).mapM fun position =>
    (fill? t (elementText r position) region).map (Emission.copy region position)
  return copies.intersperse (.separator separator)

/-- What is appended from a cursor on, given the regions after it. -/
def emissionsFrom? (t : ParsedTemplate) (r : Resolved) (cursor : Nat) :
    List Span → Option (List Emission)
  | [] => do
    let span : Span := ⟨cursor, byteCount t.content.toList⟩
    return [.stretch span (← fill? t (singleText r) span)]
  | region :: regions => do
    let span : Span := ⟨cursor, region.start⟩
    let between ← fill? t (singleText r) span
    let copies ← copyEmissions? t r region
    let rest ← emissionsFrom? t r region.stop regions
    return .stretch span between :: (copies ++ rest)

/-- What is appended for a template. -/
def emissions? (t : ParsedTemplate) (r : Resolved) : Option (List Emission) := do
  let regions ← repeatRegions? t
  emissionsFrom? t r 0 regions

/-- The copies of a region, for each element one, are among what is appended. -/
def HasCopies (t : ParsedTemplate) (r : Resolved) (emissions : List Emission) (region : Span) :
    Prop :=
  ∀ position < copyCount t r region, ∃ text, fill? t (elementText r position) region = some text ∧
    .copy region position text ∈ emissions

@[simp] theorem textOf_nil : textOf [] = [] := rfl

@[simp] theorem textOf_cons (e : Emission) (es : List Emission) :
    textOf (e :: es) = e.text ++ textOf es := rfl

@[simp] theorem textOf_append (first second : List Emission) :
    textOf (first ++ second) = textOf first ++ textOf second :=
  List.flatMap_append

/-- Separators between copies leave the copies there. -/
theorem mem_intersperse {e : Emission} (separator : Emission) {copies : List Emission}
    (h : e ∈ copies) : e ∈ copies.intersperse separator := by
  induction copies with
  | nil => exact h
  | cons first copies ih =>
    cases copies with
    | nil => exact h
    | cons second copies =>
      rw [List.intersperse_cons_cons]
      rcases List.mem_cons.mp h with rfl | h
      · exact List.mem_cons_self
      · exact List.mem_cons_of_mem _ (List.mem_cons_of_mem _ (ih h))

/-- Copies with separators between them are their texts with the separator between. -/
theorem textOf_intersperse (separator : List Char) (copies : List Emission) :
    textOf (copies.intersperse (.separator separator))
      = separator.intercalate (copies.map Emission.text) := by
  induction copies with
  | nil => rfl
  | cons first copies ih =>
    cases copies with
    | nil => simp
    | cons second copies =>
      rw [List.intersperse_cons_cons, textOf_cons, textOf_cons, ih]
      simp [List.intercalate_cons_cons, Emission.text]

/-- The copies of a region are what is appended for it. -/
theorem copies?_eq_map_copyEmissions? (t : ParsedTemplate) (r : Resolved) (region : Span) :
    copies? t r region = (copyEmissions? t r region).map textOf := by
  unfold copies? copyEmissions?
  rw [← map_mapM_map (Emission.copy region) Emission.text fun _ _ => rfl]
  cases separator? t.content.toList region with
  | none => rfl
  | some separator =>
    simp only [Option.bind_eq_bind, Option.bind_some]
    cases (List.range (copyCount t r region)).mapM fun position =>
      (fill? t (elementText r position) region).map (Emission.copy region position) with
    | none => rfl
    | some copies => exact congrArg some (textOf_intersperse separator copies).symm

/-- The rendered text is what is appended, for any template and any values. -/
theorem renderText?_eq_map_emissions? (t : ParsedTemplate) (r : Resolved) :
    renderText? t r = (emissions? t r).map textOf := by
  have hfrom : ∀ (regions : List Span) (cursor : Nat),
      renderFrom? t r cursor regions = (emissionsFrom? t r cursor regions).map textOf := by
    intro regions
    induction regions with
    | nil =>
      intro cursor
      rw [renderFrom?, emissionsFrom?]
      cases fill? t (singleText r) ⟨cursor, byteCount t.content.toList⟩ with
      | none => rfl
      | some text => simp [Emission.text]
    | cons region regions ih =>
      intro cursor
      rw [renderFrom?, emissionsFrom?, copies?_eq_map_copyEmissions?, ih]
      cases fill? t (singleText r) ⟨cursor, region.start⟩ with
      | none => rfl
      | some between =>
        cases copyEmissions? t r region with
        | none => rfl
        | some copies =>
          cases emissionsFrom? t r region.stop regions with
          | none => rfl
          | some rest => simp [Emission.text]
  unfold renderText? emissions?
  cases repeatRegions? t with
  | none => rfl
  | some regions => exact hfrom regions 0

/-! ### Beginning lines -/

/-- No line is begun: the text is empty or ends with a line feed. -/
def LineDone (text : List Char) : Prop :=
  text = [] ∨ text.getLast? = some '\n'

/-- After a text, each copy and each stretch that is not empty begins a line. -/
def StartsLines (before : List Char) : List Emission → Prop
  | [] => True
  | e :: es => (e.IsBlock → LineDone before) ∧ StartsLines (before ++ e.text) es

/-- No line is begun after a text that ends with a line feed. -/
theorem lineDone_append (before : List Char) {text : List Char}
    (h : text.getLast? = some '\n') : LineDone (before ++ text) := by
  right
  rw [List.getLast?_append, h]
  rfl

/-- Emissions in a row begin lines if each part of the row does. -/
theorem startsLines_append {before : List Char} {first second : List Emission} :
    StartsLines before (first ++ second) ↔
      StartsLines before first ∧ StartsLines (before ++ textOf first) second := by
  induction first generalizing before with
  | nil => simp [StartsLines]
  | cons e first ih => simp [StartsLines, ih, and_assoc]

/-- Each copy and each stretch that is not empty stands where a line of the whole text
begins. -/
theorem StartsLines.isLineStart {emissions first last : List Emission} {e : Emission}
    (h : StartsLines [] emissions) (hsplit : emissions = first ++ e :: last) (he : e.IsBlock) :
    IsLineStart (textOf emissions) (byteCount (textOf first)) := by
  subst hsplit
  have hdone : LineDone (textOf first) := (startsLines_append.mp h).2.1 he
  exact ⟨textOf first, textOf (e :: last), textOf_append _ _, rfl, hdone⟩

/-- Copies begin lines if each of them, with the separator behind it, ends with a line
feed. -/
theorem startsLines_intersperse {before separator : List Char} {copies : List Emission}
    (hbefore : LineDone before)
    (h : ∀ e ∈ copies, (e.text ++ separator).getLast? = some '\n') :
    StartsLines before (copies.intersperse (.separator separator)) := by
  induction copies generalizing before with
  | nil => exact trivial
  | cons first copies ih =>
    cases copies with
    | nil => exact ⟨fun _ => hbefore, trivial⟩
    | cons second copies =>
      rw [List.intersperse_cons_cons]
      refine ⟨fun _ => hbefore, fun hfalse => hfalse.elim, ?_⟩
      refine ih ?_ fun e he => h e (List.mem_cons_of_mem _ he)
      rw [List.append_assoc]
      exact lineDone_append before (h first List.mem_cons_self)

/-- Texts that all end with a line feed do so in a row. -/
theorem getLast?_intercalate_nil {texts : List (List Char)} (hne : texts ≠ [])
    (h : ∀ text ∈ texts, text.getLast? = some '\n') :
    (([] : List Char).intercalate texts).getLast? = some '\n' := by
  induction texts with
  | nil => exact absurd rfl hne
  | cons text texts ih =>
    cases texts with
    | nil => simpa using h text List.mem_cons_self
    | cons next texts =>
      rw [List.intercalate_cons_cons, List.getLast?_append,
        ih (List.cons_ne_nil _ _) fun other hother => h other (List.mem_cons_of_mem _ hother)]
      rfl

/-! ### Stretches -/

/-- A line feed stands just before byte `k`. -/
def AfterLineFeed (content : List Char) (k : Nat) : Prop :=
  ∃ before after, content = before ++ after ∧ byteCount before = k ∧ before.getLast? = some '\n'

section

variable {content : List Char} {k : Nat}

/-- A line feed stands before each line but the first. -/
theorem IsLineStart.afterLineFeed (h : IsLineStart content k) (hpos : 0 < k) :
    AfterLineFeed content k := by
  obtain ⟨before, after, hsplit, hsize, hempty | hlast⟩ := h
  · rw [← hsize, hempty] at hpos
    exact absurd hpos (Nat.lt_irrefl 0)
  · exact ⟨before, after, hsplit, hsize, hlast⟩

/-- A line feed stands at the end of the last line if the content ends with one. -/
theorem IsLineEnd.afterLineFeed (h : IsLineEnd content k)
    (hlast : content.getLast? = some '\n') : AfterLineFeed content k := by
  obtain ⟨before, after, hsplit, hsize, hempty | hfeed⟩ := h
  · refine ⟨before, after, hsplit, hsize, ?_⟩
    rwa [hsplit, hempty, List.append_nil] at hlast
  · exact ⟨before, after, hsplit, hsize, hfeed⟩

/-- A slice that is not empty has the line feed before its end. -/
theorem getLast?_of_slice? {start : Nat} {source : List Char}
    (h : slice? content start k = some source) (hlt : start < k) (hk : AfterLineFeed content k) :
    source.getLast? = some '\n' := by
  obtain ⟨before, after, hsplit, hstart, hstop⟩ := slice?_eq_some_iff.mp h
  obtain ⟨upto, rest, hsplit', hsize, hlast⟩ := hk
  obtain ⟨rfl, -⟩ : upto = before ++ source ∧ rest = after := by
    refine eq_of_append_eq_append ?_ (by rw [byteCount_append]; omega)
    rw [← hsplit', hsplit, List.append_assoc]
  have hne : source ≠ [] := by
    rintro rfl
    rw [byteCount_nil] at hstop
    omega
  rwa [List.getLast?_append_of_ne_nil _ hne] at hlast

end

/-- Parts that end with a line feed end with it when their tags are replaced: a tag ends
with a brace. -/
theorem getLast?_fillParts {content : List Char} {tags : List Tag} (hfits : Fits content tags)
    (valueOf : Tag → String) {parts : List Part} (htags : ∀ tag ∈ tagsOf parts, tag ∈ tags)
    (h : (sourceOf parts).getLast? = some '\n') :
    (fillParts valueOf parts).getLast? = some '\n' := by
  obtain rfl | ⟨front, last, rfl⟩ := List.eq_nil_or_concat parts
  · cases h
  · rw [List.concat_eq_append] at htags h ⊢
    rw [sourceOf_append] at h
    cases last with
    | literal c =>
      rw [sourceOf_literal, List.getLast?_append] at h
      obtain rfl : c = '\n' := by simpa [sourceOf] using h
      simp [fillParts, Part.fill]
    | hole tag =>
      obtain ⟨inner, hraw⟩ := hfits.braces tag (htags tag (by simp))
      have hlast : sourceOf front ++ sourceOf [.hole tag]
          = sourceOf front ++ '{' :: inner ++ ['}'] := by
        simp [sourceOf, Part.source, hraw]
      rw [hlast, List.getLast?_concat] at h
      exact absurd (Option.some.inj h) (by decide)

/-- A stretch between two places that no tag lies across is filled. An empty one stays
empty, and one that ends with a line feed still does. -/
theorem exists_fill?_of_unstraddled {t : ParsedTemplate} (hfits : Fits t.content.toList t.tags)
    (span : Span) {source : List Char}
    (hsource : slice? t.content.toList span.start span.stop = some source)
    (hunStart : Unstraddled t.tags span.start) (hunStop : Unstraddled t.tags span.stop)
    (valueOf : Tag → String) :
    ∃ text, fill? t valueOf span = some text ∧ (source = [] → text = []) ∧
      (source.getLast? = some '\n' → text.getLast? = some '\n') := by
  obtain ⟨hstart, hstop⟩ := isBoundary_of_slice? hsource
  have hsize := byteCount_slice? hsource
  -- The parts of the template split at both ends.
  obtain ⟨parts, hparts⟩ := exists_parts hfits
  have hempty : byteCount (sourceOf []) ≤ span.start := Nat.zero_le _
  obtain ⟨before, rest, rfl, hbefore⟩ := hparts.exists_split hstart hempty hunStart
  rw [List.nil_append] at hbefore
  obtain ⟨middle, after, rfl, hmiddle⟩ := hparts.exists_split hstop (by omega) hunStop
  have hspan : span = stretch before middle := by rw [stretch, hbefore, hmiddle]
  have hcontent : t.content.toList = sourceOf before ++ (sourceOf middle ++ sourceOf after) := by
    rw [← hparts.source, sourceOf_append, sourceOf_append]
  have hslice : slice? t.content.toList span.start span.stop = some (sourceOf middle) :=
    slice?_eq_some_iff.mpr
      ⟨sourceOf before, sourceOf after, hcontent, hbefore, by simpa [← hbefore] using hmiddle⟩
  obtain rfl : source = sourceOf middle := Option.some.inj (hsource.symm.trans hslice)
  have hmem : ∀ tag ∈ tagsOf middle, tag ∈ t.tags := by
    intro tag htag
    rw [← hparts.tags, tagsOf_append, tagsOf_append]
    exact List.mem_append_right _ (List.mem_append_left _ htag)
  refine ⟨fillParts valueOf middle, ?_, fun hempty => ?_, getLast?_fillParts hfits valueOf hmem⟩
  · rw [hspan]
    exact fill?_eq_some hfits hparts valueOf
  · -- Each part stands for at least one character.
    cases middle with
    | nil => rfl
    | cons part middle =>
      cases part with
      | literal c => cases hempty
      | hole tag =>
        obtain ⟨inner, hraw⟩ := hfits.braces tag (hmem tag List.mem_cons_self)
        simp [hraw] at hempty

/-! ### Regions -/

/-- A line break ends with a line feed. -/
theorem getLast?_lineBreak (content : List Char) : (lineBreak content).getLast? = some '\n' := by
  unfold lineBreak
  split
  · rfl
  · rfl

section

variable {t : ParsedTemplate} (hfits : Fits t.content.toList t.tags) (r : Resolved)
include hfits

/-- Where no line is begun, the copies of a region begin lines. If a line feed ends the
region, it ends each of the copies. -/
theorem exists_copyEmissions? {region : Span} {source : List Char}
    (hsource : slice? t.content.toList region.start region.stop = some source)
    (hunStart : Unstraddled t.tags region.start) (hunStop : Unstraddled t.tags region.stop) :
    ∃ emissions, copyEmissions? t r region = some emissions ∧ HasCopies t r emissions region ∧
      (∀ before, LineDone before → StartsLines before emissions) ∧
      (copyCount t r region = 0 → emissions = []) ∧
      (0 < copyCount t r region → source.getLast? = some '\n' →
        (textOf emissions).getLast? = some '\n') := by
  choose texts hfill _ hends using fun position =>
    exists_fill?_of_unstraddled hfits region hsource hunStart hunStop (elementText r position)
  let separator := if source.getLast? = some '\n' then [] else lineBreak t.content.toList
  let copies := (List.range (copyCount t r region)).map fun position =>
    Emission.copy region position (texts position)
  have hseparator : separator? t.content.toList region = some separator := by
    rw [separator?, hsource]
    rfl
  have hcopies : ((List.range (copyCount t r region)).mapM fun position =>
      (fill? t (elementText r position) region).map (Emission.copy region position))
        = some copies :=
    mapM_eq_some_map fun position _ => by rw [hfill position]; rfl
  refine ⟨copies.intersperse (.separator separator), ?_, fun position hposition => ?_,
    fun before hbefore => ?_, fun hzero => ?_, fun hpos hlast => ?_⟩
  · rw [copyEmissions?, hseparator, hcopies]
    rfl
  · exact ⟨texts position, hfill position, mem_intersperse _
      (List.mem_map.mpr ⟨position, List.mem_range.mpr hposition, rfl⟩)⟩
  · refine startsLines_intersperse hbefore fun e he => ?_
    obtain ⟨position, -, rfl⟩ := List.mem_map.mp he
    show (texts position ++ separator).getLast? = some '\n'
    -- The line feed is the region's own, or that of the separator.
    by_cases hlast : source.getLast? = some '\n'
    · rw [show separator = [] from if_pos hlast, List.append_nil]
      exact hends position hlast
    · rw [show separator = lineBreak t.content.toList from if_neg hlast, List.getLast?_append,
        getLast?_lineBreak]
      rfl
  · simp [copies, hzero]
  · rw [textOf_intersperse, show separator = [] from if_pos hlast]
    refine getLast?_intercalate_nil (by simp [copies]; omega) fun text htext => ?_
    obtain ⟨e, he, rfl⟩ := List.mem_map.mp htext
    obtain ⟨position, -, rfl⟩ := List.mem_map.mp he
    exact hends position hlast

/-- From a cursor on, copies and stretches begin lines. Text before the cursor has begun
no line, unless nothing follows. The induction is on the regions after the cursor. -/
theorem exists_emissionsFrom? {all : List Span}
    (hstructure : RegionStructure t.content.toList t.tags all) (regions : List Span) {cursor : Nat}
    (hcursor : IsBoundary t.content.toList cursor) (hunCursor : Unstraddled t.tags cursor)
    (hapart : regions.Pairwise fun a b => a.stop ≤ b.start)
    (hregions : ∀ region ∈ regions, region ∈ all ∧ cursor ≤ region.start) :
    ∃ emissions, emissionsFrom? t r cursor regions = some emissions ∧
      (∀ region ∈ regions, HasCopies t r emissions region) ∧
      ∀ before, (cursor < byteCount t.content.toList → LineDone before) →
        StartsLines before emissions := by
  induction regions generalizing cursor with
  | nil =>
    obtain ⟨source, hsource⟩ :=
      exists_slice? hcursor (isLineEnd_end t.content.toList).isBoundary hcursor.le
    obtain ⟨text, hfill, -, -⟩ := exists_fill?_of_unstraddled hfits
      ⟨cursor, byteCount t.content.toList⟩ hsource hunCursor (unstraddled_end hfits) (singleText r)
    refine ⟨[.stretch ⟨cursor, byteCount t.content.toList⟩ text], ?_, ?_, ?_⟩
    · rw [emissionsFrom?, hfill]
      rfl
    · intro region hregion
      exact absurd hregion List.not_mem_nil
    · intro before hbefore
      exact ⟨hbefore, trivial⟩
  | cons region regions ih =>
    obtain ⟨hmem, hle⟩ := hregions region List.mem_cons_self
    obtain ⟨hpast, hapart⟩ := List.pairwise_cons.mp hapart
    obtain ⟨hunStart, hunStop⟩ := hstructure.unstraddled region hmem
    have hstart := hstructure.start region hmem
    have hstop := hstructure.stop region hmem
    have hlt := hstructure.nonempty region hmem
    have hend := hstop.isBoundary.le
    -- The stretch before the region, the copies of it, and what comes after.
    obtain ⟨between, hbetween⟩ := exists_slice? hcursor hstart.isBoundary hle
    obtain ⟨text, hfill, hempty, hfeed⟩ := exists_fill?_of_unstraddled hfits
      ⟨cursor, region.start⟩ hbetween hunCursor hunStart (singleText r)
    obtain ⟨source, hsource⟩ := exists_slice? hstart.isBoundary hstop.isBoundary (Nat.le_of_lt hlt)
    obtain ⟨copies, hcopies, hhas, hbegin, hnone, hclose⟩ :=
      exists_copyEmissions? hfits r hsource hunStart hunStop
    obtain ⟨rest, hrest, hhasRest, hlines⟩ := ih hstop.isBoundary hunStop hapart fun other hother =>
      ⟨(hregions other (List.mem_cons_of_mem _ hother)).1, hpast other hother⟩
    refine ⟨.stretch ⟨cursor, region.start⟩ text :: (copies ++ rest), ?_,
      fun other hother position hposition => ?_, fun before hbefore => ?_⟩
    · rw [emissionsFrom?, hfill, hcopies, hrest]
      rfl
    · rcases List.mem_cons.mp hother with rfl | hother
      · obtain ⟨copy, hcopy, hin⟩ := hhas position hposition
        exact ⟨copy, hcopy, List.mem_cons_of_mem _ (List.mem_append_left _ hin)⟩
      · obtain ⟨copy, hcopy, hin⟩ := hhasRest other hother position hposition
        exact ⟨copy, hcopy, List.mem_cons_of_mem _ (List.mem_append_right _ hin)⟩
    · have hbefore := hbefore (by omega)
      -- The region starts a line, so the stretch before it ends one.
      have hdone : LineDone (before ++ text) := by
        by_cases hpos : cursor < region.start
        · exact lineDone_append before
            (hfeed (getLast?_of_slice? hbetween hpos (hstart.afterLineFeed (by omega))))
        · have hsize := byteCount_slice? hbetween
          rw [hempty (byteCount_eq_zero_iff.mp (by omega)), List.append_nil]
          exact hbefore
      refine ⟨fun _ => hbefore, startsLines_append.mpr ⟨hbegin _ hdone, hlines _ fun hmore => ?_⟩⟩
      -- A region before the end of the content ends with a line feed.
      show LineDone (before ++ text ++ textOf copies)
      by_cases hcount : copyCount t r region = 0
      · rw [hnone hcount, textOf_nil, List.append_nil]
        exact hdone
      · have hfeedStop := (hstop.isLineStart hmore).afterLineFeed (by omega)
        exact lineDone_append _ (hclose (Nat.pos_of_ne_zero hcount)
          (getLast?_of_slice? hsource hlt hfeedStop))

end

/-! ### The whole template -/

/-- The rendered text of a template is what the renderer appends, for any values, with
the copies of each region among it. Every copy, and every stretch outside the regions
that is not empty in the template, begins a line of the text. If the content ends with a
line feed, so do the copies of a region, if there are any. -/
theorem linesKept_render? (t : Template) (r : Resolved) :
    ∃ regions emissions rendering, repeatRegions? t.parse = some regions ∧
      emissions? t.parse r = some emissions ∧
      t.parse.render? r = some rendering ∧ rendering.text = String.ofList (textOf emissions) ∧
      (∀ region ∈ regions, HasCopies t.parse r emissions region) ∧
      (∀ first e last, emissions = first ++ e :: last → e.IsBlock →
        IsLineStart (textOf emissions) (byteCount (textOf first))) ∧
      ∀ region ∈ regions, t.content.toList.getLast? = some '\n' →
        0 < copyCount t.parse r region →
          ∃ text, copies? t.parse r region = some text ∧ text.getLast? = some '\n' := by
  have hfits := fits_parse t
  obtain ⟨regions, hregions, hstructure⟩ := exists_regionStructure (t := t.parse) hfits
  obtain ⟨emissions, hemissions, hcopies, hlines⟩ :=
    exists_emissionsFrom? hfits r hstructure regions (isLineStart_zero _).isBoundary
      (unstraddled_zero _) hstructure.apart fun region hregion => ⟨hregion, Nat.zero_le _⟩
  have hall : emissions? t.parse r = some emissions := by
    rw [emissions?, hregions]
    exact hemissions
  have htext : renderText? t.parse r = some (textOf emissions) := by
    rw [renderText?_eq_map_emissions?, hall]
    rfl
  have hstarts := hlines [] fun _ => .inl rfl
  refine ⟨regions, emissions, _, hregions, hall, congrArg (Option.map _) htext, rfl,
    hcopies, fun first e last hsplit he => hstarts.isLineStart hsplit he,
    fun region hregion hlast hcount => ?_⟩
  have hstart := hstructure.start region hregion
  have hstop := hstructure.stop region hregion
  have hlt := hstructure.nonempty region hregion
  obtain ⟨hunStart, hunStop⟩ := hstructure.unstraddled region hregion
  obtain ⟨source, hsource⟩ := exists_slice? hstart.isBoundary hstop.isBoundary (Nat.le_of_lt hlt)
  obtain ⟨copies, hcopies, -, -, -, hclose⟩ :=
    exists_copyEmissions? hfits r hsource hunStart hunStop
  refine ⟨textOf copies, ?_, hclose hcount
    (getLast?_of_slice? hsource hlt (hstop.afterLineFeed hlast))⟩
  rw [copies?_eq_map_copyEmissions?, hcopies]
  rfl

end TagTemplate.Proofs.Layout
