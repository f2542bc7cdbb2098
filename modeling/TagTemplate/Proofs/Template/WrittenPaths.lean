import TagTemplate.Proofs.Template.Writing

/-!
# `TagTemplate.Proofs.Template.WrittenPaths`: paths that were written

A path in writing is read as the path (`readPath?_pathText`).

The reader goes through the segments from left to right and keeps the marker
once it has met it. `seen marker position` is what it has met before a position,
and with that the reading of the rest of a path can be stated for every position
(`readSegments?_segmentTexts`).
-/

set_option autoImplicit false

namespace TagTemplate.Proofs.Template

open TagTemplate.Text TagTemplate.Template

variable {marker : Option Marker} {position : Nat}

/-! ### Segments -/

/-- A number is read from its digits. -/
theorem readIndex?_toDigits (h : position ≤ indexLimit) :
    readIndex? (Nat.toDigits 10 position) = .ok (.direct position) := by
  have hdigits : ∀ c ∈ Nat.toDigits 10 position, c.isDigit = true := fun c hc =>
    Nat.isDigit_of_mem_toDigits (by decide) (by decide) hc
  have htrim : trim (Nat.toDigits 10 position) = Nat.toDigits 10 position :=
    Inert.trim_eq fun c hc => isInert_of_isDigit (hdigits c hc)
  have hi : Nat.toDigits 10 position ≠ ['i'] := fun heq =>
    absurd (hdigits 'i' (heq ▸ List.mem_singleton_self 'i')) (by decide)
  have hvalue : Binary64.digitsValue (Nat.toDigits 10 position) = position :=
    Nat.ofDigitChars_ten_toDigits
  unfold readIndex?
  simp only [htrim, if_neg Nat.toDigits_ne_nil, if_neg hi, if_pos (List.all_eq_true.mpr hdigits),
    hvalue, if_pos h]

/-- A segment is read as it was written. -/
theorem readSegment?_indexText? {name : List Char} (hname : '[' ∉ name) {index : Option Index}
    (h : ∀ position, index = some (.direct position) → position ≤ indexLimit) :
    readSegment? (name ++ indexText? index) = .ok (name, index) := by
  have hread : ∀ inside index, readIndex? inside = .ok index →
      readSegment? (name ++ '[' :: (inside ++ [']'])) = .ok (name, some index) := by
    intro inside index hinside
    obtain ⟨htake, hdrop⟩ := takeWhile_ne_append hname (inside ++ [']'])
    unfold readSegment?
    simp only [htake, hdrop, before?_eq_some_iff.mpr rfl, hinside]
    rfl
  match index with
  | some (.direct position) => exact hread _ _ (readIndex?_toDigits (h position rfl))
  | some .iterate => exact hread ['i'] _ rfl
  | some .aggregate => exact hread [] _ rfl
  | none =>
    obtain ⟨htake, hdrop⟩ := takeWhile_ne_self hname
    show readSegment? (name ++ []) = _
    rw [List.append_nil]
    unfold readSegment?
    simp only [htake, hdrop]

/-- A segment that may stand at the position is read before the others. -/
theorem readSegments?_cons {piece name : List Char} {pieces : List (List Char)}
    {index : Option Index} {names : List String} {result : Option Marker}
    (hpiece : readSegment? piece = .ok (name, index))
    (hname : isName name = true ∨ (position = 0 ∧ name = [] ∧ index.isSome))
    (honce : index = none ∨ marker = none)
    (hrest : readSegments? (position + 1) ((index.map (Marker.mk position)).or marker) pieces
      = .ok (names, result)) :
    readSegments? position marker (piece :: pieces)
      = .ok (String.ofList name :: names, result) := by
  have hok : ¬ (¬ (position = 0 ∧ name = [] ∧ index.isSome) ∧ (!isName name) = true) := by
    rintro ⟨hroot, hnot⟩
    rcases hname with hname | hname
    · rw [hname] at hnot
      cases hnot
    · exact hroot hname
  rw [readSegments?, hpiece]
  simp only [bind, Except.bind]
  rw [if_neg hok]
  rcases honce with rfl | rfl
  · cases marker with
    | none => simp only [hrest, pure, Except.pure]
    | some marker => simp only [hrest, pure, Except.pure]
  · cases index with
    | none => simp only [hrest, pure, Except.pure]
    | some index => simp only [hrest, pure, Except.pure]

/-! ### The marker on the way -/

/-- The marker, if it stands before the position. -/
def seen (marker : Option Marker) (position : Nat) : Option Marker :=
  marker.filter fun m => m.segment < position

/-- Nothing stands before the first segment. -/
theorem seen_zero (marker : Option Marker) : seen marker 0 = none := by
  cases marker with
  | none => rfl
  | some m => exact Option.filter_some_neg (by simp)

/-- A marker before the position has been met. -/
theorem seen_of_lt (h : ∀ m ∈ marker, m.segment < position) : seen marker position = marker := by
  cases marker with
  | none => rfl
  | some m => exact Option.filter_some_pos (decide_eq_true (h m rfl))

/-- What has been met after a segment is what stands there, or what was met
before. -/
theorem or_seen (marker : Option Marker) (position : Nat) :
    ((indexAt? marker position).map (Marker.mk position)).or (seen marker position)
      = seen marker (position + 1) := by
  cases marker with
  | none => rfl
  | some m =>
    obtain ⟨segment, index⟩ := m
    by_cases hhere : segment = position
    · subst hhere
      have hmet : seen (some ⟨segment, index⟩) (segment + 1) = some ⟨segment, index⟩ :=
        seen_of_lt fun m hm => by rw [← Option.some.inj hm]; exact Nat.lt_succ_self segment
      rw [hmet, indexAt?, if_pos rfl]
      rfl
    · have hiff : segment < position + 1 ↔ segment < position := by omega
      simp only [indexAt?, if_neg hhere, seen, Option.map_none, Option.none_or, Option.filter_some,
        hiff]

/-- The marker does not stand at the position, or has not been met before. -/
theorem indexAt?_or_seen (marker : Option Marker) (position : Nat) :
    indexAt? marker position = none ∨ seen marker position = none := by
  cases marker with
  | none => exact .inl rfl
  | some m =>
    by_cases hhere : m.segment = position
    · exact .inr (Option.filter_some_neg (by simp [hhere]))
    · exact .inl (if_neg hhere)

/-- The index at a position is that of the marker. -/
theorem eq_of_indexAt? {index : Index} (h : indexAt? marker position = some index) :
    marker = some ⟨position, index⟩ := by
  cases marker with
  | none => cases h
  | some m =>
    obtain ⟨segment, own⟩ := m
    simp only [indexAt?] at h
    split at h
    · rename_i hhere
      subst hhere
      rw [Option.some.inj h]
    · cases h

/-- Segments are read as they were written, from any position of a path on. The
reader has met the marker if it stands before that position. -/
theorem readSegments?_segmentTexts
    (hindex : ∀ segment position, marker = some ⟨segment, .direct position⟩ →
      position ≤ indexLimit) {names : List String}
    (hsegment : ∀ m ∈ marker, m.segment < position + names.length)
    (hnames : ∀ k name, names[k]? = some name → isName name.toList = true ∨
      (position + k = 0 ∧ name = "" ∧ ∃ index, marker = some ⟨0, index⟩)) :
    readSegments? position (seen marker position) (segmentTexts marker position names)
      = .ok (names, marker) := by
  -- The position moves on with the names, and what has been met moves on with it.
  induction names generalizing position with
  | nil =>
    have hmet : seen marker position = marker := seen_of_lt hsegment
    show Except.ok ([], seen marker position) = _
    rw [hmet]
  | cons name names ih =>
    have hrest : readSegments? (position + 1) (seen marker (position + 1))
        (segmentTexts marker (position + 1) names) = .ok (names, marker) := by
      refine ih (fun m hm => ?_) fun k other hother => ?_
      · have := hsegment m hm
        rw [List.length_cons] at this
        omega
      · -- Only the first segment of the whole path may lack its name.
        rcases hnames (k + 1) other hother with hname | ⟨hzero, -⟩
        · exact .inl hname
        · omega
    have hbracket : '[' ∉ name.toList := by
      rcases hnames 0 name rfl with hname | ⟨-, rfl, -⟩
      · exact notMem_of_isName hname (by decide)
      · exact List.not_mem_nil
    have hname : isName name.toList = true ∨
        (position = 0 ∧ name.toList = [] ∧ (indexAt? marker position).isSome) := by
      rcases hnames 0 name rfl with hname | ⟨rfl, rfl, index, rfl⟩
      · exact .inl hname
      · exact .inr ⟨rfl, rfl, rfl⟩
    have hpiece := readSegment?_indexText? hbracket fun n hn =>
      hindex position n (eq_of_indexAt? hn)
    rw [← or_seen] at hrest
    have hread := readSegments?_cons hpiece hname (indexAt?_or_seen marker position) hrest
    rwa [String.ofList_toList] at hread

/-! ### Paths -/

/-- An index in its brackets begins with a bracket. -/
theorem exists_indexText (index : Index) : ∃ rest, indexText index = '[' :: rest := by
  cases index with
  | direct position => exact ⟨_, rfl⟩
  | iterate => exact ⟨_, rfl⟩
  | aggregate => exact ⟨_, rfl⟩

/-- There is no point in an index. -/
theorem notMem_indexText? (index : Option Index) : '.' ∉ indexText? index := by
  match index with
  | none => exact List.not_mem_nil
  | some (.direct position) =>
    have hdigits : '.' ∉ Nat.toDigits 10 position := fun hmem =>
      absurd (Nat.isDigit_of_mem_toDigits (by decide) (by decide) hmem) (by decide)
    simpa [indexText?, indexText] using hdigits
  | some .iterate => exact (by decide : '.' ∉ ['[', 'i', ']'])
  | some .aggregate => exact (by decide : '.' ∉ ['[', ']'])

/-- There is no point in a segment. -/
theorem WellFormedPath.notMem_segmentTexts {path : List String} (h : WellFormedPath path marker) :
    ∀ part ∈ segmentTexts marker 0 path, '.' ∉ part := by
  refine forall_segmentTexts marker 0 fun name hname index => ?_
  rw [List.mem_append, not_or]
  refine ⟨?_, notMem_indexText? index⟩
  rcases h.isName_or_empty hname with hname | rfl
  · exact notMem_of_isName hname (by decide)
  · exact List.not_mem_nil

/-- A path that goes on behind its root is read as segments between points. -/
theorem readPath?_of_afterRoot? {text first : List Char} {others : List (List Char)}
    (htext : afterRoot? text = some (['.'].intercalate (first :: others))) (hfirst : first ≠ [])
    (h : ∀ part ∈ first :: others, '.' ∉ part) :
    readPath? text = readSegments? 0 none (first :: others) := by
  obtain ⟨more, hmore⟩ := exists_intercalate_cons ['.'] first others
  have hcut := splitAt_intercalate (List.cons_ne_nil first others) h
  rw [hmore] at htext hcut
  unfold readPath?
  rw [htext]
  cases first with
  | nil => exact absurd rfl hfirst
  | cons c first =>
    show readSegments? 0 none (splitAt '.' (c :: first ++ more)) = _
    rw [hcut]

/-- A path is read as it was written. -/
theorem readPath?_pathText {path : List String} (h : WellFormedPath path marker) :
    readPath? (pathText path marker) = .ok (path, marker) := by
  cases path with
  | nil =>
    have hnone : marker = none := by
      cases marker with
      | none => rfl
      | some m => exact absurd (h.segment_lt m rfl) (Nat.not_lt_zero _)
    rw [hnone]
    rfl
  | cons name names =>
    have hsegments : readSegments? 0 (seen marker 0) (segmentTexts marker 0 (name :: names))
        = .ok (name :: names, marker) :=
      readSegments?_segmentTexts h.position_le
        (fun m hm => by rw [Nat.zero_add]; exact h.segment_lt m hm)
        (fun k other hother => by rw [Nat.zero_add]; exact h.names k other hother)
    rw [seen_zero] at hsegments
    rw [← hsegments]
    rcases h.names 0 name rfl with hname | ⟨-, rfl, index, rfl⟩
    · have hne : name.toList ≠ [] := ne_nil_of_isName hname
      have hname' : name ≠ "" := by
        rintro rfl
        exact hne rfl
      refine readPath?_of_afterRoot? ?_ (by simp [hne]) h.notMem_segmentTexts
      rw [pathText_of_ne hname']
      rfl
    · obtain ⟨rest, hrest⟩ := exists_indexText index
      have hfirst : "".toList ++ indexText? (indexAt? (some ⟨0, index⟩) 0) = '[' :: rest := hrest
      refine readPath?_of_afterRoot? ?_ (by rw [hfirst]; exact List.cons_ne_nil _ _)
        h.notMem_segmentTexts
      obtain ⟨more, hmore⟩ := exists_intercalate_cons ['.'] ('[' :: rest)
        (segmentTexts (some ⟨0, index⟩) 1 names)
      rw [pathText_unnamed, segmentTexts, hfirst, hmore]
      rfl

end TagTemplate.Proofs.Template
