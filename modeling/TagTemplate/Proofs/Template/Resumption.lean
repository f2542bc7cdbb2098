import TagTemplate.Proofs.Template.OpenQuotes
import TagTemplate.Proofs.Template.Tokenization

/-!
# `TagTemplate.Proofs.Template.Resumption`: parsing has no hidden state

Parsing remembers open quotations from one tag to the next. This changes
nothing: tags and warnings are those of the scan that begins afresh at each
opening brace, and behind the end of a tag or of a warning they are those of the
rest of the content as a template of its own, with the offsets moved on
(`parse_eq_fresh`). Identifiers count the tags from the start of the content, so
they are left out of the comparison.

The proof goes over the pieces. Behind any piece come the pieces of what is left
(`eq_pieces_of_split`), and where a mark ends a piece ends
(`exists_split_of_mem_marksFrom`). The lists of tags and of warnings fall apart
as the pieces do.
-/

set_option autoImplicit false

namespace TagTemplate.Proofs.Template

open TagTemplate.Text TagTemplate.Template
open TagTemplate.Proofs.Text

/-! ### Pieces behind a piece -/

/-- The pieces behind the first one are those of their text. -/
theorem eq_pieces_of_cons {content : List Char} {piece : Piece} {ps : List Piece}
    (h : pieces content = piece :: ps) : ps = pieces (ps.flatMap Piece.text) := by
  by_cases hmem : '{' ∈ content
  · obtain ⟨before, after, rfl, hbefore⟩ := List.eq_append_cons_of_mem hmem
    rw [pieces_brace after hbefore] at h
    cases before with
    | nil =>
      obtain ⟨-, rfl⟩ := List.cons.inj h
      rw [flatMap_text_pieces]
    | cons c before =>
      -- The first piece is plain text, and the next one starts with the brace.
      obtain ⟨-, rfl⟩ := List.cons.inj h
      have htext : (bracePiece after (closing 0 none after)).1.text
          ++ (bracePiece after (closing 0 none after)).2 = '{' :: after := by
        rw [← freshClosing_fst 0 after]
        exact text_bracePiece (openQuotes_sound _ _ _)
      have hbrace : pieces ([] ++ '{' :: after) = _ := pieces_brace after List.not_mem_nil
      rw [List.nil_append] at hbrace
      show _ = pieces ((bracePiece after (closing 0 none after)).1.text
        ++ (pieces (bracePiece after (closing 0 none after)).2).flatMap Piece.text)
      rw [flatMap_text_pieces, htext, hbrace]
      rfl
  · rw [pieces_of_notMem hmem] at h
    cases content with
    | nil => cases h
    | cons c content =>
      obtain ⟨-, rfl⟩ := List.cons.inj h
      exact (pieces_of_notMem List.not_mem_nil).symm

/-- Behind any piece come the pieces of the text that is left. -/
theorem eq_pieces_of_split {content : List Char} {first second : List Piece}
    (h : pieces content = first ++ second) : second = pieces (second.flatMap Piece.text) := by
  induction first generalizing content with
  | nil =>
    rw [List.nil_append] at h
    rw [← h, flatMap_text_pieces]
  | cons piece first ih => exact ih (eq_pieces_of_cons h).symm

/-- A mark ends where a piece ends. -/
theorem exists_split_of_mem_marksFrom {offset : Nat} {ps : List Piece} {m : Mark}
    (h : m ∈ marksFrom offset ps) :
    ∃ first second, ps = first ++ second ∧
      offset + byteCount (first.flatMap Piece.text) = m.span.stop := by
  induction ps generalizing offset with
  | nil => cases h
  | cons piece ps ih =>
    have hhere : ∃ first second, piece :: ps = first ++ second ∧
        offset + byteCount (first.flatMap Piece.text) = offset + byteCount piece.text :=
      ⟨[piece], ps, rfl, by rw [List.flatMap_cons, List.flatMap_nil, List.append_nil]⟩
    have hlater : m ∈ marksFrom (offset + byteCount piece.text) ps →
        ∃ first second, piece :: ps = first ++ second ∧
          offset + byteCount (first.flatMap Piece.text) = m.span.stop := by
      intro hm
      obtain ⟨first, second, rfl, hstop⟩ := ih hm
      refine ⟨piece :: first, second, rfl, ?_⟩
      rw [← hstop, List.flatMap_cons, byteCount_append, Nat.add_assoc]
    cases piece with
    | plain text => exact hlater h
    | tag text expression =>
      rcases List.mem_cons.mp h with rfl | h
      · exact hhere
      · exact hlater h
    | refused text fault =>
      rcases List.mem_cons.mp h with rfl | h
      · exact hhere
      · exact hlater h

/-! ### Lists that fall apart as the pieces do -/

/-- The marks of pieces in a row are those of the first and those of the second. -/
theorem marksFrom_append (offset : Nat) (ps qs : List Piece) :
    marksFrom offset (ps ++ qs)
      = marksFrom offset ps ++ marksFrom (offset + byteCount (ps.flatMap Piece.text)) qs := by
  induction ps generalizing offset with
  | nil => rfl
  | cons piece ps ih =>
    have htail := ih (offset + byteCount piece.text)
    rw [Nat.add_assoc, ← byteCount_append, ← List.flatMap_cons] at htail
    cases piece with
    | plain text => exact htail
    | tag text expression => exact congrArg (List.cons _) htail
    | refused text fault => exact congrArg (List.cons _) htail

/-- The tags of pieces in a row are those of the first and those of the second,
which are numbered on. -/
theorem exists_tagsFrom_append (ordinal offset : Nat) (ps qs : List Piece) :
    ∃ next, tagsFrom ordinal offset (ps ++ qs) = tagsFrom ordinal offset ps
      ++ tagsFrom next (offset + byteCount (ps.flatMap Piece.text)) qs := by
  induction ps generalizing ordinal offset with
  | nil => exact ⟨ordinal, rfl⟩
  | cons piece ps ih =>
    have htail := fun ordinal => ih ordinal (offset + byteCount piece.text)
    rw [Nat.add_assoc, ← byteCount_append, ← List.flatMap_cons] at htail
    cases piece with
    | plain text => exact htail ordinal
    | tag text expression =>
      obtain ⟨next, hnext⟩ := htail (ordinal + 1)
      exact ⟨next, congrArg (List.cons _) hnext⟩
    | refused text fault => exact htail ordinal

/-- The warnings of pieces in a row are those of the first and those of the
second. -/
theorem warningsFrom_append (offset : Nat) (ps qs : List Piece) :
    warningsFrom offset (ps ++ qs)
      = warningsFrom offset ps ++ warningsFrom (offset + byteCount (ps.flatMap Piece.text)) qs := by
  induction ps generalizing offset with
  | nil => rfl
  | cons piece ps ih =>
    have htail := ih (offset + byteCount piece.text)
    rw [Nat.add_assoc, ← byteCount_append, ← List.flatMap_cons] at htail
    cases piece with
    | plain text => exact htail
    | tag text expression => exact htail
    | refused text fault => exact congrArg (List.cons _) htail

/-! ### Moving on -/

/-- What a tag says and where it stands, moved on by some bytes. Its identifier is
left out. -/
def moveTag (distance : Nat) (tag : Tag) : Expression × String × Span :=
  (tag.toExpression, tag.raw, ⟨distance + tag.span.start, distance + tag.span.stop⟩)

/-- A warning moved on by some bytes. -/
def moveWarning (distance : Nat) (w : Warning) : Warning :=
  { w with offset := distance + w.offset }

/-- Tags of pieces that begin later are those of the same pieces, moved on. -/
theorem map_moveTag_tagsFrom (ordinal other distance offset : Nat) (ps : List Piece) :
    (tagsFrom ordinal (distance + offset) ps).map (moveTag 0)
      = (tagsFrom other offset ps).map (moveTag distance) := by
  induction ps generalizing ordinal other offset with
  | nil => rfl
  | cons piece ps ih =>
    have htail := fun ordinal other => ih ordinal other (offset + byteCount piece.text)
    simp only [← Nat.add_assoc] at htail
    cases piece with
    | plain text => exact htail ordinal other
    | refused text fault => exact htail ordinal other
    | tag text expression =>
      rw [tagsFrom, tagsFrom, List.map_cons, List.map_cons, htail (ordinal + 1) (other + 1)]
      simp only [moveTag, Nat.zero_add, Nat.add_assoc]

/-- Warnings of pieces that begin later are those of the same pieces, moved on. -/
theorem warningsFrom_add (distance offset : Nat) (ps : List Piece) :
    warningsFrom (distance + offset) ps = (warningsFrom offset ps).map (moveWarning distance) := by
  induction ps generalizing offset with
  | nil => rfl
  | cons piece ps ih =>
    have htail := ih (offset + byteCount piece.text)
    rw [← Nat.add_assoc] at htail
    cases piece with
    | plain text => exact htail
    | tag text expression => exact htail
    | refused text fault => exact congrArg (List.cons _) htail

/-! ### The parsed template -/

/-- Of elements in two lists, a condition that holds of all in the second and of
none in the first keeps the second list. -/
theorem filter_append_eq_right {α : Type} {p : α → Bool} {xs ys : List α}
    (hxs : ∀ x ∈ xs, p x = false) (hys : ∀ y ∈ ys, p y = true) : (xs ++ ys).filter p = ys := by
  rw [List.filter_append, List.filter_eq_self.mpr hys,
    List.filter_eq_nil_iff.mpr fun x hx => by rw [hxs x hx]; exact Bool.false_ne_true]
  rfl

/-- The tags that begin at the end of the first pieces or later are those of the
second pieces. -/
theorem exists_filter_tagsFrom {first : List Piece} (second : List Piece) {e : Nat}
    (he : byteCount (first.flatMap Piece.text) = e)
    (hfirst : ∀ m ∈ marksFrom 0 first, m.span.start < e) :
    ∃ next, (tagsFrom 0 0 (first ++ second)).filter (fun tag => e ≤ tag.span.start)
      = tagsFrom next e second := by
  obtain ⟨next, hnext⟩ := exists_tagsFrom_append 0 0 first second
  refine ⟨next, ?_⟩
  rw [hnext, Nat.zero_add, he]
  apply filter_append_eq_right
  · intro tag htag
    have := hfirst _ ((tagMarks_sublist 0 0 first).subset (List.mem_map_of_mem htag))
    exact decide_eq_false (Nat.not_le_of_lt this)
  · intro tag htag
    exact decide_eq_true (le_start_of_mem_marksFrom
      ((tagMarks_sublist next e second).subset (List.mem_map_of_mem htag)))

/-- The warnings that begin at the end of the first pieces or later are those of
the second pieces. -/
theorem filter_warningsFrom {first second : List Piece} {e : Nat}
    (he : byteCount (first.flatMap Piece.text) = e)
    (hfirst : ∀ m ∈ marksFrom 0 first, m.span.start < e) :
    (warningsFrom 0 (first ++ second)).filter (fun w => e ≤ w.offset) = warningsFrom e second := by
  rw [warningsFrom_append, Nat.zero_add, he]
  apply filter_append_eq_right
  · intro w hw
    have := hfirst _ ((warningMarks_sublist 0 first).subset (List.mem_map_of_mem hw))
    exact decide_eq_false (Nat.not_le_of_lt this)
  · intro w hw
    exact decide_eq_true (le_start_of_mem_marksFrom
      ((warningMarks_sublist e second).subset (List.mem_map_of_mem hw)))

/-- The content splits at the end of each mark: what comes before it has only
marks that begin before that end, and what comes after it is cut as a content of
its own. -/
theorem exists_split_at_mark {content : List Char} {m : Mark}
    (h : m ∈ marksFrom 0 (pieces content)) :
    ∃ first second, pieces content = first ++ second ∧
      byteCount (first.flatMap Piece.text) = m.span.stop ∧
      (∀ mark ∈ marksFrom 0 first, mark.span.start < m.span.stop) ∧
      dropBytes? m.span.stop content = some (second.flatMap Piece.text) ∧
      second = pieces (second.flatMap Piece.text) := by
  obtain ⟨first, second, hsplit, hstop⟩ := exists_split_of_mem_marksFrom h
  rw [Nat.zero_add] at hstop
  refine ⟨first, second, hsplit, hstop, ?_, ?_, eq_pieces_of_split hsplit⟩
  · intro mark hmark
    have hwhole : mark ∈ marksFrom 0 (pieces content) := by
      rw [hsplit, marksFrom_append]
      exact List.mem_append_left _ hmark
    have hlt := start_lt_stop_of_mem_marksFrom hwhole
    -- The mark ends with one of the first pieces.
    obtain ⟨upto, after, rfl, hend⟩ := exists_split_of_mem_marksFrom hmark
    rw [List.flatMap_append, byteCount_append] at hstop
    omega
  · have hcontent : content = first.flatMap Piece.text ++ second.flatMap Piece.text := by
      rw [← List.flatMap_append, ← hsplit, flatMap_text_pieces]
    rw [hcontent, ← hstop]
    exact dropBytes?_append _ _

/-- Parsing remembers nothing that matters: tags and warnings are those of a scan
that begins afresh at each opening brace, and behind the end of a tag or of a
warning they are those of the rest of the content, moved on. -/
theorem parse_eq_fresh (t : Template) :
    t.parse.tags = tagsFrom 0 0 (piecesBy freshClosing () 0 t.content.toList) ∧
    t.parse.warnings = warningsFrom 0 (piecesBy freshClosing () 0 t.content.toList) ∧
    ∀ m ∈ t.parse.tags.map tagMark ++ t.parse.warnings.map warningMark,
      ∃ rest, dropBytes? m.span.stop t.content.toList = some rest ∧
        (t.parse.tags.filter fun tag => m.span.stop ≤ tag.span.start).map (moveTag 0)
          = (Template.parse ⟨String.ofList rest, t.format⟩).tags.map (moveTag m.span.stop) ∧
        (t.parse.warnings.filter fun w => m.span.stop ≤ w.offset)
          = (Template.parse ⟨String.ofList rest, t.format⟩).warnings.map
              (moveWarning m.span.stop) := by
  have hfresh : pieces t.content.toList = piecesBy freshClosing () 0 t.content.toList :=
    piecesBy_eq_fresh (recalls_none _) (List.nil_append _).symm 0
  refine ⟨congrArg _ hfresh, congrArg _ hfresh, ?_⟩
  intro m hm
  obtain ⟨first, second, hsplit, hstop, hfirst, hdrop, hsecond⟩ :=
    exists_split_at_mark ((marksFrom_perm 0 0 _).mem_iff.mp hm)
  refine ⟨second.flatMap Piece.text, hdrop, ?_, ?_⟩
  · obtain ⟨next, hnext⟩ := exists_filter_tagsFrom second hstop hfirst
    show ((tagsFrom 0 0 (pieces t.content.toList)).filter _).map _
      = (tagsFrom 0 0 (pieces (String.ofList _).toList)).map _
    rw [hsplit, hnext, String.toList_ofList, ← hsecond]
    exact map_moveTag_tagsFrom next 0 m.span.stop 0 second
  · show (warningsFrom 0 (pieces t.content.toList)).filter _
      = (warningsFrom 0 (pieces (String.ofList _).toList)).map _
    rw [hsplit, filter_warningsFrom hstop hfirst, String.toList_ofList, ← hsecond]
    exact warningsFrom_add m.span.stop 0 second

end TagTemplate.Proofs.Template
