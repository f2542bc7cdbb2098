import TagTemplate.Json.Numeral
import TagTemplate.Proofs.Template.Reading
import TagTemplate.Proofs.Text.Slice
import TagTemplate.Proofs.Text.Trim

/-!
# `TagTemplate.Proofs.Template.Bounds`: how great the numbers in a tag are

A marker stands on one of the segments of its path. Cutting leaves no more characters
than there were (`flatten_sublist_of_splitFrom`), so a path has no more segments than
the tag has characters, and an index is refused unless 64 bits hold it
(`boundedMarker_of_ofText?`).
-/

set_option autoImplicit false

namespace TagTemplate.Proofs.Template

open TagTemplate.Template TagTemplate.Text
open TagTemplate.Json.Numeral (coefficientLimit)
open TagTemplate.Proofs.Support TagTemplate.Proofs.Text

/-! ### Lengths -/

/-- A text has at least as many bytes as characters. -/
theorem length_le_byteCount (text : List Char) : text.length ≤ byteCount text := by
  induction text with
  | nil => exact Nat.le_refl 0
  | cons c text ih =>
    have := c.utf8Size_pos
    rw [List.length_cons, byteCount_cons]
    omega

/-- Trimming makes no text longer. -/
theorem length_trim_le (text : List Char) : (trim text).length ≤ text.length := by
  obtain ⟨before, after, htext, -, -⟩ := exists_trim text
  have := congrArg List.length htext
  simp only [List.length_append] at this
  omega

/-- A character at the head of the first part is at the head of the parts in a row. -/
theorem flatten_extendFirst (c : Char) (parts : List (List Char)) :
    (extendFirst c parts).flatten = c :: parts.flatten := by
  cases parts <;> rfl

/-- The parts of a cut in a row are the text without some separators. -/
theorem flatten_sublist_of_splitFrom {separator : Char} {depth : Nat} {quote : Option Char}
    {text : List Char} {parts : List (List Char)}
    (h : splitFrom separator depth quote text = .ok parts) : parts.flatten.Sublist text := by
  -- A character that is kept goes to the head of both sides.
  have hkeep : ∀ {c : Char} {rest : List Char} {x : Except Fault (List (List Char))}
      {parts : List (List Char)}, (∀ {parts}, x = .ok parts → parts.flatten.Sublist rest) →
      x.map (extendFirst c) = .ok parts → parts.flatten.Sublist (c :: rest) := by
    intro c rest x parts ih h
    obtain ⟨others, hothers, rfl⟩ := except_map_eq_ok.mp h
    rw [flatten_extendFirst]
    exact (ih hothers).cons_cons c
  fun_induction splitFrom separator depth quote text generalizing parts with
  -- The text ends inside quotes.
  | case1 => cases h
  -- The text ends inside parentheses.
  | case2 => cases h
  -- The text ends.
  | case3 =>
    cases h
    exact List.Sublist.refl []
  -- The text ends behind a backslash inside quotes.
  | case4 => cases h
  -- A backslash inside quotes takes the next character with it.
  | case5 depth q d rest ih =>
    obtain ⟨others, hothers, rfl⟩ := except_map_eq_ok.mp h
    rw [flatten_extendFirst, flatten_extendFirst]
    exact ((ih hothers).cons_cons d).cons_cons _
  -- Another character inside quotes, which may close them.
  | case6 depth c rest q hslash ih => exact hkeep ih h
  -- Quotes open.
  | case7 depth c rest hkind ih => exact hkeep ih h
  -- A parenthesis opens.
  | case8 depth rest hkind ih => exact hkeep ih h
  -- A parenthesis closes that has not opened.
  | case9 => cases h
  -- A parenthesis closes.
  | case10 rest depth hkind hopen ih => exact hkeep ih h
  -- A separator outside parentheses.
  | case11 depth c rest hkind hopen hclose hseparator ih =>
    obtain ⟨others, hothers, rfl⟩ := except_map_eq_ok.mp h
    exact (ih hothers).cons c
  -- Any other character.
  | case12 depth c rest hkind hopen hclose hseparator ih => exact hkeep ih h

/-- A part of a cut is no longer than the text. -/
theorem length_le_of_splitTopLevel? {separator : Char} {text part : List Char}
    {parts : List (List Char)} (h : splitTopLevel? separator text = .ok parts)
    (hpart : part ∈ parts) : part.length ≤ text.length :=
  ((List.sublist_flatten_of_mem hpart).trans (flatten_sublist_of_splitFrom h)).length_le

/-- A text is cut into one part more than it has separators. -/
theorem length_splitAt (separator : Char) (text : List Char) :
    (splitAt separator text).length = text.count separator + 1 := by
  induction text with
  | nil => rfl
  | cons c text ih =>
    rw [splitAt]
    split
    · next hc => rw [List.length_cons, ih, hc, List.count_cons_self]
    · next hc =>
      rw [List.count_cons_of_ne hc, ← ih]
      cases hparts : splitAt separator text with
      | nil => simp [hparts] at ih
      | cons part parts => rfl

/-! ### Markers -/

/-- The segment of a marker does not exceed a bound, and 64 bits hold its position. -/
def BoundedMarker (bound : Nat) (m : Marker) : Prop :=
  m.segment ≤ bound ∧ ∀ position, m.index = .direct position → position ≤ coefficientLimit

/-- An index that is read fits 64 bits. -/
theorem position_le_of_readIndex? {text : List Char} {position : Nat}
    (h : readIndex? text = .ok (.direct position)) : position ≤ coefficientLimit := by
  unfold readIndex? at h
  dsimp only at h
  split at h
  · cases h
  split at h
  · cases h
  split at h
  · split at h
    · next hlimit =>
      cases h
      exact hlimit
    · cases h
  · cases h

/-- The index of a segment fits 64 bits. -/
theorem position_le_of_readSegment? {piece name : List Char} {position : Nat}
    (h : readSegment? piece = .ok (name, some (.direct position))) :
    position ≤ coefficientLimit := by
  unfold readSegment? at h
  dsimp only at h
  split at h
  · cases h
  split at h
  · cases h
  · obtain ⟨index, hindex, heq⟩ := except_map_eq_ok.mp h
    obtain rfl := Option.some.inj (Prod.mk.inj heq).2
    exact position_le_of_readIndex? hindex

/-- A marker that is found among segments was there before or stands on one of them.
The induction is on the segments; the marker found so far is passed on. -/
theorem boundedMarker_of_readSegments? {position bound : Nat} {marker found : Option Marker}
    {pieces : List (List Char)} {names : List String}
    (h : readSegments? position marker pieces = .ok (names, found))
    (hbound : position + pieces.length ≤ bound + 1)
    (hmarker : ∀ m ∈ marker, BoundedMarker bound m) : ∀ m ∈ found, BoundedMarker bound m := by
  induction pieces generalizing position marker names with
  | nil =>
    cases h
    exact hmarker
  | cons piece pieces ih =>
    rw [List.length_cons] at hbound
    obtain ⟨name, index, others, hpiece, -, -, hrest, -⟩ := readSegments?_cons_eq_ok h
    -- Of the marker before and the index of this segment one at most is there.
    have hnext : ∀ m ∈ (index.map (Marker.mk position)).or marker, BoundedMarker bound m := by
      intro m hm
      cases index with
      | none => exact hmarker m hm
      | some index =>
        obtain rfl := Option.some.inj hm
        refine ⟨show position ≤ bound by omega, fun place hplace => ?_⟩
        obtain rfl : index = .direct place := hplace
        exact position_le_of_readSegment? hpiece
    exact ih hrest (by omega) hnext

/-- The text after the root is not longer. -/
theorem length_le_of_afterRoot? {text rest : List Char} (h : afterRoot? text = some rest) :
    rest.length ≤ text.length := by
  revert h
  fun_cases afterRoot? text with
  -- The root alone has no text after it.
  | case1 => exact fun h => nomatch h
  -- A point after the root is passed over.
  | case2 rest =>
    intro h
    obtain rfl := Option.some.inj h
    exact Nat.le_add_right _ 2
  -- A bracket after the root is kept.
  | case3 rest =>
    intro h
    obtain rfl := Option.some.inj h
    exact Nat.le_succ _
  -- There is no root.
  | case4 =>
    intro h
    obtain rfl := Option.some.inj h
    exact Nat.le_refl _

/-- The marker of a path stands on a segment no later than the path has characters. -/
theorem boundedMarker_of_readPath? {text : List Char} {names : List String}
    {marker : Option Marker} (h : readPath? text = .ok (names, marker)) :
    ∀ m ∈ marker, BoundedMarker text.length m := by
  unfold readPath? at h
  split at h
  · cases h
    exact fun m hm => nomatch hm
  · cases h
  · next rest _ hrest =>
    have hlength := length_le_of_afterRoot? hrest
    have hcount : rest.count '.' ≤ rest.length := List.count_le_length
    refine boundedMarker_of_readSegments? h ?_ fun m hm => nomatch hm
    rw [length_splitAt]
    omega

/-- The marker of a tag stands on a segment no later than the tag has characters. -/
theorem boundedMarker_of_ofText? {inner : List Char} {e : Expression}
    (h : Expression.ofText? inner = .ok e) :
    ∀ m ∈ e.marker, BoundedMarker inner.length m := by
  obtain ⟨-, path, calls, hparts, hpath, -⟩ := ofText?_eq_ok_iff.mp h
  have hlength : (trim path).length ≤ inner.length := by
    have hpart := length_le_of_splitTopLevel? hparts List.mem_cons_self
    have := length_trim_le path
    have := length_trim_le inner
    omega
  intro m hm
  obtain ⟨hsegment, hposition⟩ := boundedMarker_of_readPath? hpath m hm
  exact ⟨Nat.le_trans hsegment hlength, hposition⟩

end TagTemplate.Proofs.Template
