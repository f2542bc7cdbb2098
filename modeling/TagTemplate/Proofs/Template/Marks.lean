import TagTemplate.Proofs.Support.Sequences
import TagTemplate.Proofs.Template.Tokens
import TagTemplate.Proofs.Text.Slice
import TagTemplate.Template.Parsed

/-!
# `TagTemplate.Proofs.Template.Marks`: where tags and warnings stand

A *mark* is a stretch of the content that is no plain text, with its span: a
tag or a refused brace. `marksFrom` lists the marks of a sequence of pieces in
the order of the content. The parser keeps tags and warnings in two lists;
these are the two halves of the marks (`marksFrom_perm`), each in its order
(`tagMarks_sublist`, `warningMarks_sublist`).

What is proved once for the marks therefore holds of tags and of warnings: a
mark is cut out of the content by its span (`slice?_of_mem_marksFrom`), and of
two marks the earlier one ends before the later one begins
(`pairwise_marksFrom`). `Fits` is what the layout of a template needs to know
of its tags, and `fits_parse` says that it holds of every parsed template.
-/

set_option autoImplicit false

namespace TagTemplate.Proofs.Template

open TagTemplate.Text TagTemplate.Template
open TagTemplate.Proofs.Support TagTemplate.Proofs.Text

/-- A stretch of the content that is a tag or a refused brace. -/
structure Mark where
  span : Span
  raw : String
  deriving DecidableEq

/-- The mark of a tag. -/
def tagMark (tag : Tag) : Mark := ⟨tag.span, tag.raw⟩

/-- The mark of a warning. A warning keeps where it begins; where it ends follows
from its text. -/
def warningMark (w : Warning) : Mark := ⟨⟨w.offset, w.offset + byteCount w.raw.toList⟩, w.raw⟩

/-- The mark of a refused piece is where the piece is. -/
theorem warningMark_ofList (offset : Nat) (text : List Char) (message : String) :
    warningMark ⟨offset, String.ofList text, message⟩
      = ⟨⟨offset, offset + byteCount text⟩, String.ofList text⟩ := by
  simp [warningMark]

/-- The marks among pieces that begin at a byte, in their order. -/
def marksFrom (offset : Nat) : List Piece → List Mark
  | [] => []
  | piece :: pieces =>
    let stop := offset + byteCount piece.text
    match piece with
    | .plain _ => marksFrom stop pieces
    | other => ⟨⟨offset, stop⟩, String.ofList other.text⟩ :: marksFrom stop pieces

/-- The tags are among the marks, in the same order. -/
theorem tagMarks_sublist (ordinal offset : Nat) (ps : List Piece) :
    ((tagsFrom ordinal offset ps).map tagMark).Sublist (marksFrom offset ps) := by
  induction ps generalizing ordinal offset with
  | nil => exact List.Sublist.refl _
  | cons piece ps ih =>
    cases piece with
    | plain text => exact ih _ _
    | tag text expression => exact (ih _ _).cons_cons _
    | refused text fault => exact (ih _ _).cons _

/-- The warnings are among the marks, in the same order. -/
theorem warningMarks_sublist (offset : Nat) (ps : List Piece) :
    ((warningsFrom offset ps).map warningMark).Sublist (marksFrom offset ps) := by
  induction ps generalizing offset with
  | nil => exact List.Sublist.refl _
  | cons piece ps ih =>
    cases piece with
    | plain text => exact ih _
    | tag text expression => exact (ih _).cons _
    | refused text fault =>
      simp only [warningsFrom, marksFrom, List.map_cons, Piece.text, warningMark_ofList]
      exact (ih _).cons_cons _

/-- The marks are those of the tags and those of the warnings. -/
theorem marksFrom_perm (ordinal offset : Nat) (ps : List Piece) :
    ((tagsFrom ordinal offset ps).map tagMark ++ (warningsFrom offset ps).map warningMark).Perm
      (marksFrom offset ps) := by
  induction ps generalizing ordinal offset with
  | nil => exact List.Perm.refl _
  | cons piece ps ih =>
    cases piece with
    | plain text => exact ih _ _
    | tag text expression => exact (ih _ _).cons _
    | refused text fault =>
      simp only [warningsFrom, tagsFrom, marksFrom, List.map_cons, Piece.text, warningMark_ofList]
      -- The mark of a warning stands behind those of all tags on the left.
      exact List.perm_middle.trans ((ih _ _).cons _)

/-- A mark begins where the pieces begin, or later. -/
theorem le_start_of_mem_marksFrom {offset : Nat} {ps : List Piece} {m : Mark}
    (h : m ∈ marksFrom offset ps) : offset ≤ m.span.start := by
  induction ps generalizing offset with
  | nil => simp [marksFrom] at h
  | cons piece ps ih =>
    have hlater : ∀ size, m ∈ marksFrom (offset + size) ps → offset ≤ m.span.start :=
      fun size hm => Nat.le_trans (Nat.le_add_right _ _) (ih hm)
    cases piece with
    | plain text => exact hlater _ h
    | tag text expression =>
      rcases List.mem_cons.mp h with rfl | h
      · exact Nat.le_refl _
      · exact hlater _ h
    | refused text fault =>
      rcases List.mem_cons.mp h with rfl | h
      · exact Nat.le_refl _
      · exact hlater _ h

/-- Of two marks the earlier one ends before the later one begins. -/
theorem pairwise_marksFrom (offset : Nat) (ps : List Piece) :
    (marksFrom offset ps).Pairwise fun a b => a.span.stop ≤ b.span.start := by
  induction ps generalizing offset with
  | nil => exact List.Pairwise.nil
  | cons piece ps ih =>
    cases piece with
    | plain text => exact ih _
    | tag text expression =>
      exact List.pairwise_cons.mpr ⟨fun _ hm => le_start_of_mem_marksFrom hm, ih _⟩
    | refused text fault =>
      exact List.pairwise_cons.mpr ⟨fun _ hm => le_start_of_mem_marksFrom hm, ih _⟩

/-- A mark is cut out of the content by its span, where the pieces follow on a
first part of the content. -/
theorem slice?_of_mem_marksFrom (before : List Char) {ps : List Piece} {m : Mark}
    (h : m ∈ marksFrom (byteCount before) ps) :
    slice? (before ++ ps.flatMap Piece.text) m.span.start m.span.stop = some m.raw.toList := by
  induction ps generalizing before with
  | nil => simp [marksFrom] at h
  | cons piece ps ih =>
    -- The later pieces follow on the first part and the text of this one.
    have hlater : m ∈ marksFrom (byteCount before + byteCount piece.text) ps →
        slice? (before ++ (piece :: ps).flatMap Piece.text) m.span.start m.span.stop
          = some m.raw.toList := by
      intro hm
      rw [← byteCount_append] at hm
      have := ih _ hm
      rwa [List.append_assoc, ← List.flatMap_cons] at this
    have hhere : slice? (before ++ (piece :: ps).flatMap Piece.text) (byteCount before)
        (byteCount before + byteCount piece.text) = some piece.text := by
      rw [List.flatMap_cons]
      exact slice?_append before piece.text _
    cases piece with
    | plain text => exact hlater h
    | tag text expression =>
      rcases List.mem_cons.mp h with rfl | h
      · simpa [Piece.text] using hhere
      · exact hlater h
    | refused text fault =>
      rcases List.mem_cons.mp h with rfl | h
      · simpa [Piece.text] using hhere
      · exact hlater h

/-- The text of a mark starts with an opening brace, if the pieces are well
formed. -/
theorem raw_of_mem_marksFrom {offset : Nat} {ps : List Piece} {m : Mark}
    (hps : ∀ piece ∈ ps, WellFormed piece) (h : m ∈ marksFrom offset ps) :
    ∃ rest, m.raw.toList = '{' :: rest := by
  induction ps generalizing offset with
  | nil => simp [marksFrom] at h
  | cons piece ps ih =>
    have hlater := fun size => @ih (offset + size) fun p hp =>
      hps p (List.mem_cons_of_mem _ hp)
    have hpiece := hps piece List.mem_cons_self
    cases piece with
    | plain text => exact hlater _ h
    | tag text expression =>
      rcases List.mem_cons.mp h with rfl | h
      · obtain ⟨inner, rfl, _⟩ := hpiece
        exact ⟨inner ++ ['}'], by simp [Piece.text]⟩
      · exact hlater _ h
    | refused text fault =>
      rcases List.mem_cons.mp h with rfl | h
      · obtain ⟨rest, rfl⟩ := hpiece
        exact ⟨rest, by simp [Piece.text]⟩
      · exact hlater _ h

/-- A tag runs from an opening to a closing brace and says what the text between
them says, if the pieces are well formed. -/
theorem raw_of_mem_tagsFrom {ordinal offset : Nat} {ps : List Piece} {tag : Tag}
    (hps : ∀ piece ∈ ps, WellFormed piece) (h : tag ∈ tagsFrom ordinal offset ps) :
    ∃ inner, tag.raw.toList = '{' :: inner ++ ['}'] ∧
      Expression.ofText? inner = .ok tag.toExpression := by
  induction ps generalizing ordinal offset with
  | nil => simp [tagsFrom] at h
  | cons piece ps ih =>
    have hlater := fun ordinal size => @ih ordinal (offset + size) fun p hp =>
      hps p (List.mem_cons_of_mem _ hp)
    have hpiece := hps piece List.mem_cons_self
    cases piece with
    | plain text => exact hlater _ _ h
    | refused text fault => exact hlater _ _ h
    | tag text expression =>
      rcases List.mem_cons.mp h with rfl | h
      · obtain ⟨inner, rfl, hinner⟩ := hpiece
        exact ⟨inner, by simp, hinner⟩
      · exact hlater _ _ h

/-! ### Tags that fit a content -/

/-- Tags that lie in a content one after the other: each is cut out by its span,
runs from an opening to a closing brace, and ends before the next begins. -/
structure Fits (content : List Char) (tags : List Tag) : Prop where
  slice : ∀ tag ∈ tags, slice? content tag.span.start tag.span.stop = some tag.raw.toList
  braces : ∀ tag ∈ tags, ∃ inner, tag.raw.toList = '{' :: inner ++ ['}']
  pairwise : tags.Pairwise fun a b => a.span.stop ≤ b.span.start

/-- A tag that fits a content is not empty. -/
theorem Fits.start_lt_stop {content : List Char} {tags : List Tag} (h : Fits content tags)
    {tag : Tag} (htag : tag ∈ tags) :
    tag.span.start < tag.span.stop := by
  obtain ⟨inner, hraw⟩ := h.braces tag htag
  have hsize := byteCount_slice? (h.slice tag htag)
  have := '{'.utf8Size_pos
  rw [hraw, List.cons_append, byteCount_cons] at hsize
  omega

/-- A tag that fits a content begins and ends between characters. -/
theorem Fits.isBoundary {content : List Char} {tags : List Tag} (h : Fits content tags)
    {tag : Tag} (htag : tag ∈ tags) :
    IsBoundary content tag.span.start ∧ IsBoundary content tag.span.stop :=
  isBoundary_of_slice? (h.slice tag htag)

/-- Tags that fit a content are all different: they stand at different places. -/
theorem Fits.nodup {content : List Char} {tags : List Tag} (h : Fits content tags) : tags.Nodup :=
  h.pairwise.imp_of_mem fun ha _ hle heq => by
    have := h.start_lt_stop ha
    subst heq
    omega

/-- Two tags that fit a content and share a byte are one. -/
theorem Fits.eq_of_overlap {content : List Char} {tags : List Tag} (h : Fits content tags)
    {a b : Tag} (ha : a ∈ tags) (hb : b ∈ tags) (hab : a.span.start < b.span.stop)
    (hba : b.span.start < a.span.stop) : a = b :=
  eq_of_pairwise_apart (fun tag => tag.span.start) (fun tag => tag.span.stop) h.pairwise ha hb
    hab hba

/-- The tags of a parsed template fit its content. -/
theorem fits_parse (t : Template) : Fits t.content.toList t.parse.tags where
  slice tag htag := by
    have hmark := (tagMarks_sublist 0 0 _).subset (List.mem_map_of_mem htag)
    have := slice?_of_mem_marksFrom [] hmark
    rwa [List.nil_append, flatMap_text_pieces] at this
  braces tag htag := by
    obtain ⟨inner, hraw, _⟩ := raw_of_mem_tagsFrom (wellFormed_pieces _) htag
    exact ⟨inner, hraw⟩
  pairwise := by
    have := (pairwise_marksFrom 0 _).sublist (tagMarks_sublist 0 0 (pieces t.content.toList))
    exact List.pairwise_map.mp this

end TagTemplate.Proofs.Template
