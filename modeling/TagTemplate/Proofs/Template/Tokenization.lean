import TagTemplate.Proofs.Template.Marks

/-!
# `TagTemplate.Proofs.Template.Tokenization`: parsing loses no text

Parsing splits a content into tags, warnings and the gaps between them.
`Tokenized content t` says that this split is exact: spans are disjoint and in
order, each text is the content at its span, and no gap has an opening brace.
So each opening brace of the content belongs to one tag or one warning, and the
gaps and the texts put together are the content. The identifiers of the tags
differ, so looking a tag up by its identifier finds that tag.

`tokenized_parse` proves it for every template. The marks of a parsed template,
its tags and warnings merged by offset, are the marks of the pieces
(`marks_parse`). The gaps are found by an induction on the pieces that carries
the plain text since the last mark (`exists_gapsFrom?`).
-/

set_option autoImplicit false

namespace TagTemplate.Proofs.Template

open TagTemplate.Text TagTemplate.Template
open TagTemplate.Proofs.Support TagTemplate.Proofs.Text

/-- The marks of a parsed template: its tags and its warnings, merged by
offset. -/
def marks (t : ParsedTemplate) : List Mark :=
  (t.tags.map tagMark ++ t.warnings.map warningMark).mergeSort
    fun a b => a.span.start ≤ b.span.start

/-- The texts before, between and after marks, from a cursor on. -/
def gapsFrom? (content : List Char) (cursor : Nat) : List Mark → Option (List (List Char))
  | [] => (slice? content cursor (byteCount content)).map fun gap => [gap]
  | m :: ms => do
    let gap ← slice? content cursor m.span.start
    let gaps ← gapsFrom? content m.span.stop ms
    return gap :: gaps

/-- Gaps and the texts of marks, in turn. -/
def weave : List (List Char) → List Mark → List Char
  | gap :: gaps, m :: ms => gap ++ m.raw.toList ++ weave gaps ms
  | gaps, _ => gaps.flatten

/-- The byte lies in the span of the mark. -/
def Mark.covers (m : Mark) (k : Nat) : Bool :=
  m.span.start ≤ k && k < m.span.stop

/-- A parsed template splits the content exactly. -/
structure Tokenized (content : String) (t : ParsedTemplate) : Prop where
  content_eq : t.content = content
  tags_increasing : t.tags.Pairwise fun a b => a.span.start < b.span.start
  warnings_increasing : t.warnings.Pairwise fun a b => a.offset < b.offset
  /-- No two of the tags and warnings share a byte. -/
  disjoint : (t.tags.map tagMark ++ t.warnings.map warningMark).Pairwise fun a b =>
    a.span.stop ≤ b.span.start ∨ b.span.stop ≤ a.span.start
  tag_raw : ∀ tag ∈ t.tags,
    slice? content.toList tag.span.start tag.span.stop = some tag.raw.toList
  warning_raw : ∀ w ∈ t.warnings,
    slice? content.toList w.offset (w.offset + byteCount w.raw.toList) = some w.raw.toList
  tag_braces : ∀ tag ∈ t.tags, ∃ inner, tag.raw.toList = '{' :: inner ++ ['}']
  /-- The gaps have no opening brace, and with the marks they make up the content. -/
  gaps : ∃ gaps, gapsFrom? content.toList 0 (marks t) = some gaps ∧
    (∀ gap ∈ gaps, '{' ∉ gap) ∧ weave gaps (marks t) = content.toList
  /-- An opening brace lies in one mark. -/
  brace_once : ∀ before after, content.toList = before ++ '{' :: after →
    ((t.tags.map tagMark ++ t.warnings.map warningMark).countP (·.covers (byteCount before))) = 1
  ids_nodup : (t.tags.map (·.id)).Nodup
  tag?_id : ∀ tag ∈ t.tags, t.tag? tag.id = some tag

/-! ### The marks of a parsed template -/

/-- A mark of the pieces of a content is not empty: it starts with a brace. -/
theorem start_lt_stop_of_mem_marksFrom {content : List Char} {m : Mark}
    (h : m ∈ marksFrom 0 (pieces content)) : m.span.start < m.span.stop := by
  obtain ⟨rest, hraw⟩ := raw_of_mem_marksFrom (wellFormed_pieces content) h
  have hslice := slice?_of_mem_marksFrom [] h
  have hsize := byteCount_slice? hslice
  have := '{'.utf8Size_pos
  rw [hraw, byteCount_cons] at hsize
  omega

/-- The marks of the pieces of a content begin at increasing offsets. -/
theorem starts_marksFrom (content : List Char) :
    (marksFrom 0 (pieces content)).Pairwise fun a b => a.span.start < b.span.start :=
  (pairwise_marksFrom 0 _).imp_of_mem fun ha _ hab =>
    Nat.lt_of_lt_of_le (start_lt_stop_of_mem_marksFrom ha) hab

/-- The tags and warnings of a parsed template, merged by offset, are the marks
of its pieces. No two marks begin at one offset, so the merge has no choice. -/
theorem marks_parse (t : Template) : marks t.parse = marksFrom 0 (pieces t.content.toList) := by
  have hperm : (marks t.parse).Perm (marksFrom 0 (pieces t.content.toList)) :=
    (List.mergeSort_perm _ _).trans (marksFrom_perm 0 0 _)
  have hle : (marks t.parse).Pairwise fun a b => a.span.start ≤ b.span.start :=
    pairwise_mergeSort_le (fun m : Mark => m.span.start) _
  have hne : (marks t.parse).Pairwise fun a b => a.span.start ≠ b.span.start :=
    ((starts_marksFrom _).imp Nat.ne_of_lt).perm hperm.symm Ne.symm
  have hlt : (marks t.parse).Pairwise fun a b => a.span.start < b.span.start :=
    hle.imp₂ (fun _ _ => Nat.lt_of_le_of_ne) hne
  exact List.Perm.eq_of_pairwise (fun a b _ _ hab hba => absurd hab (Nat.lt_asymm hba)) hlt
    (starts_marksFrom _) hperm

/-! ### Gaps -/

/-- The gaps between the marks of pieces have no opening brace, and with the
marks they make up what follows the cursor. The induction is on the pieces; the
plain text since the last mark is carried along, because more plain text may
follow it. -/
theorem exists_gapsFrom? (content before pending : List Char) (ps : List Piece)
    (hcontent : content = before ++ (pending ++ ps.flatMap Piece.text))
    (hpending : '{' ∉ pending) (hps : ∀ piece ∈ ps, WellFormed piece) :
    ∃ gaps, gapsFrom? content (byteCount before)
        (marksFrom (byteCount before + byteCount pending) ps) = some gaps ∧
      (∀ gap ∈ gaps, '{' ∉ gap) ∧
      weave gaps (marksFrom (byteCount before + byteCount pending) ps)
        = pending ++ ps.flatMap Piece.text := by
  induction ps generalizing before pending with
  | nil =>
    have hslice : slice? content (byteCount before) (byteCount content) = some pending := by
      rw [slice?_eq_some_iff]
      exact ⟨before, [], by simpa using hcontent, rfl, by simp [hcontent]⟩
    exact ⟨[pending], by simp [marksFrom, gapsFrom?, hslice], by simpa using hpending,
      by simp [marksFrom, weave]⟩
  | cons piece ps ih =>
    have hps' : ∀ p ∈ ps, WellFormed p := fun p hp => hps p (List.mem_cons_of_mem _ hp)
    have hpiece := hps piece List.mem_cons_self
    rw [List.flatMap_cons] at hcontent
    -- A mark ends the gap and starts the next one, with nothing pending.
    obtain ⟨stop, hstop⟩ : ∃ stop, stop = byteCount before + byteCount pending
      + byteCount piece.text := ⟨_, rfl⟩
    have hmark : ∃ gaps, gapsFrom? content (byteCount before)
          (⟨⟨byteCount before + byteCount pending, stop⟩, String.ofList piece.text⟩ ::
            marksFrom stop ps) = some gaps ∧
        (∀ gap ∈ gaps, '{' ∉ gap) ∧
        weave gaps (⟨⟨byteCount before + byteCount pending, stop⟩, String.ofList piece.text⟩ ::
            marksFrom stop ps) = pending ++ (piece :: ps).flatMap Piece.text := by
      have hgap : slice? content (byteCount before) (byteCount before + byteCount pending)
          = some pending := hcontent ▸ slice?_append before pending _
      obtain ⟨gaps, hgaps, hnone, hweave⟩ := ih (before ++ pending ++ piece.text) []
        (by simp [hcontent]) List.not_mem_nil hps'
      simp only [byteCount_append, byteCount_nil, Nat.add_zero, ← hstop] at hgaps hweave
      refine ⟨pending :: gaps, ?_, ?_, ?_⟩
      · simp [gapsFrom?, hgap, hgaps]
      · intro gap hmem
        rcases List.mem_cons.mp hmem with rfl | hmem
        · exact hpending
        · exact hnone gap hmem
      · simp [weave, hweave]
    subst hstop
    cases piece with
    | plain text =>
      -- Plain text adds to what is pending.
      obtain ⟨gaps, hgaps, hnone, hweave⟩ := ih before (pending ++ text)
        (by simpa [Piece.text] using hcontent)
        (by rw [List.mem_append]; exact not_or.mpr ⟨hpending, hpiece⟩) hps'
      rw [byteCount_append, ← Nat.add_assoc] at hgaps hweave
      exact ⟨gaps, hgaps, hnone, hweave.trans (List.append_assoc _ _ _)⟩
    | tag text expression => exact hmark
    | refused text fault => exact hmark

/-- An opening brace after the cursor lies in one of the marks, if the gaps have
none. -/
theorem countP_covers_of_gapsFrom? {before after : List Char} {cursor : Nat} {ms : List Mark}
    {gaps : List (List Char)} (hgaps : gapsFrom? (before ++ '{' :: after) cursor ms = some gaps)
    (hnone : ∀ gap ∈ gaps, '{' ∉ gap)
    (hordered : ms.Pairwise fun a b => a.span.stop ≤ b.span.start)
    (hcursor : cursor ≤ byteCount before) :
    ms.countP (·.covers (byteCount before)) = 1 := by
  induction ms generalizing cursor gaps with
  | nil =>
    -- After the last mark all is gap, and the brace would be in it.
    obtain ⟨gap, hgap, rfl⟩ := Option.map_eq_some_iff.mp hgaps
    have hlast : byteCount before < byteCount (before ++ '{' :: after) := by
      have := '{'.utf8Size_pos
      rw [byteCount_append, byteCount_cons]
      omega
    exact absurd (mem_of_slice? hgap hcursor hlast) (hnone gap List.mem_cons_self)
  | cons m ms ih =>
    simp only [gapsFrom?, Option.bind_eq_bind, Option.bind_eq_some_iff, Option.pure_def,
      Option.some.injEq] at hgaps
    obtain ⟨gap, hgap, gaps, hgaps, rfl⟩ := hgaps
    obtain ⟨hlater, hordered⟩ := List.pairwise_cons.mp hordered
    -- Nor is the brace in the gap before this mark.
    have hstart : m.span.start ≤ byteCount before := Nat.le_of_not_lt fun hlt =>
      hnone gap List.mem_cons_self (mem_of_slice? hgap hcursor hlt)
    by_cases hstop : byteCount before < m.span.stop
    · -- The brace lies in this mark, and the later ones begin after it.
      have hrest : ms.countP (·.covers (byteCount before)) = 0 := by
        rw [List.countP_eq_zero]
        intro other hother
        have := hlater other hother
        simp only [Mark.covers, Bool.and_eq_true, decide_eq_true_eq]
        omega
      rw [List.countP_cons_of_pos (by simp [Mark.covers, hstart, hstop]), hrest]
    · -- The brace lies after this mark, which is the next cursor.
      rw [List.countP_cons_of_neg (by simp [Mark.covers, hstop])]
      exact ih hgaps (fun g hg => hnone g (List.mem_cons_of_mem _ hg)) hordered (by omega)

/-! ### Identifiers -/

/-- The identifier of a tag tells its position among the tags: the digits of the
position end at the second low line. -/
theorem ordinal_eq_of_tagId_eq {ordinal other offset place : Nat}
    (h : tagId ordinal offset = tagId other place) : ordinal = other := by
  have hlist : "tag_".toList ++ (Nat.toDigits 10 ordinal ++ '_' :: Nat.toDigits 10 offset)
      = "tag_".toList ++ (Nat.toDigits 10 other ++ '_' :: Nat.toDigits 10 place) := by
    simpa [tagId] using congrArg String.toList h
  -- Digits are no low lines, so each text splits at its first low line.
  have hnone : ∀ n, ∀ c ∈ Nat.toDigits 10 n, ¬ (c == '_') = true := by
    intro n c hc heq
    exact Nat.underscore_not_in_toDigits (beq_iff_eq.mp heq ▸ hc)
  obtain ⟨hdigits, -⟩ := eq_of_first_eq (p := (· == '_')) (List.append_cancel_left hlist) rfl rfl
    (hnone ordinal) (hnone other)
  rw [← @Nat.ofDigitChars_ten_toDigits ordinal, hdigits, Nat.ofDigitChars_ten_toDigits]

/-- The identifiers of the tags count on from the first position. -/
theorem id_of_mem_tagsFrom {ordinal offset : Nat} {ps : List Piece} {tag : Tag}
    (h : tag ∈ tagsFrom ordinal offset ps) :
    ∃ position place, ordinal ≤ position ∧ tag.id = tagId position place := by
  induction ps generalizing ordinal offset with
  | nil => simp [tagsFrom] at h
  | cons piece ps ih =>
    cases piece with
    | plain text => exact ih h
    | refused text fault => exact ih h
    | tag text expression =>
      rcases List.mem_cons.mp h with rfl | h
      · exact ⟨ordinal, offset, Nat.le_refl _, rfl⟩
      · obtain ⟨position, place, hle, hid⟩ := ih h
        exact ⟨position, place, Nat.le_of_succ_le hle, hid⟩

/-- No two tags of a sequence of pieces have one identifier. -/
theorem nodup_ids_tagsFrom (ordinal offset : Nat) (ps : List Piece) :
    ((tagsFrom ordinal offset ps).map (·.id)).Nodup := by
  induction ps generalizing ordinal offset with
  | nil => exact List.nodup_nil
  | cons piece ps ih =>
    cases piece with
    | plain text => exact ih _ _
    | refused text fault => exact ih _ _
    | tag text expression =>
      refine List.nodup_cons.mpr ⟨?_, ih _ _⟩
      intro hmem
      obtain ⟨tag, htag, hid⟩ := List.mem_map.mp hmem
      obtain ⟨position, place, hle, hposition⟩ := id_of_mem_tagsFrom htag
      have := ordinal_eq_of_tagId_eq (hposition.symm.trans hid)
      omega

/-- Where identifiers differ, looking a tag up by its identifier finds it. -/
theorem find?_id_of_mem {tags : List Tag} (hids : (tags.map (·.id)).Nodup) {tag : Tag}
    (h : tag ∈ tags) : tags.find? (fun other => other.id == tag.id) = some tag := by
  induction tags with
  | nil => simp at h
  | cons first tags ih =>
    rw [List.map_cons, List.nodup_cons] at hids
    rcases List.mem_cons.mp h with rfl | h
    · simp
    · have hne : first.id ≠ tag.id := fun heq => hids.1 (heq ▸ List.mem_map_of_mem h)
      rw [List.find?_cons_of_neg (by simpa using hne)]
      exact ih hids.2 h

/-! ### The parsed template -/

/-- Parsing splits every content exactly, in every format: no opening brace is
lost, no byte is in two tags or warnings, and gaps and texts make up the
content. -/
theorem tokenized_parse (t : Template) : Tokenized t.content t.parse := by
  have hfits := fits_parse t
  have hperm : (t.parse.tags.map tagMark ++ t.parse.warnings.map warningMark).Perm
      (marksFrom 0 (pieces t.content.toList)) := marksFrom_perm 0 0 _
  have htags := (starts_marksFrom t.content.toList).sublist (tagMarks_sublist 0 0 _)
  have hwarnings := (starts_marksFrom t.content.toList).sublist (warningMarks_sublist 0 _)
  rw [List.pairwise_map] at htags hwarnings
  obtain ⟨gaps, hgaps, hnone, hweave⟩ := exists_gapsFrom? t.content.toList [] []
    (pieces t.content.toList) (flatMap_text_pieces _).symm List.not_mem_nil (wellFormed_pieces _)
  simp only [byteCount_nil, Nat.add_zero, ← marks_parse, List.nil_append,
    flatMap_text_pieces] at hgaps hweave
  exact {
    content_eq := rfl
    tags_increasing := htags
    warnings_increasing := hwarnings
    disjoint := ((pairwise_marksFrom 0 _).imp Or.inl).perm hperm.symm Or.symm
    tag_raw := hfits.slice
    warning_raw := by
      intro w hw
      have hmark := (warningMarks_sublist 0 _).subset (List.mem_map_of_mem hw)
      have := slice?_of_mem_marksFrom [] hmark
      rwa [List.nil_append, flatMap_text_pieces] at this
    tag_braces := hfits.braces
    gaps := ⟨gaps, hgaps, hnone, hweave⟩
    brace_once := by
      intro before after hsplit
      rw [hsplit, marks_parse] at hgaps
      rw [hperm.countP_eq]
      exact countP_covers_of_gapsFrom? hgaps hnone (pairwise_marksFrom 0 _) (Nat.zero_le _)
    ids_nodup := nodup_ids_tagsFrom 0 0 _
    tag?_id := fun tag htag => find?_id_of_mem (nodup_ids_tagsFrom 0 0 _) htag }

end TagTemplate.Proofs.Template
