/-!
# `TagTemplate.Text.Search`: finding and replacing a piece of text

`after? piece text` is what follows `piece` where `text` begins with it.
`replaceAll` goes through a text from the left and puts a replacement for each
occurrence of a piece; occurrences that overlap an earlier one do not count.
-/

set_option autoImplicit false

namespace TagTemplate.Text

/-- The rest of a text that begins with `piece`. -/
def after? : List Char → List Char → Option (List Char)
  | [], text => some text
  | _ :: _, [] => none
  | p :: piece, c :: text => if p = c then after? piece text else none

/-- A text that begins with a piece is that piece followed by its rest. -/
theorem eq_append_of_after? {piece text rest : List Char} (h : after? piece text = some rest) :
    text = piece ++ rest := by
  fun_induction after? piece text with
  -- The piece has ended.
  | case1 text => simpa using h
  -- The text ends before the piece.
  | case2 => simp at h
  -- The characters agree.
  | case3 piece c text ih => simp [ih h]
  -- The characters differ.
  | case4 => simp at h

/-- The text with a replacement for each occurrence of the piece
`first :: more`. -/
def replaceAll (first : Char) (more replacement : List Char) : List Char → List Char
  | [] => []
  | c :: text =>
    if c = first then
      match _h : after? more text with
      | some rest => replacement ++ replaceAll first more replacement rest
      | none => c :: replaceAll first more replacement text
    else
      c :: replaceAll first more replacement text
termination_by text => text.length
decreasing_by
  · have := congrArg List.length (eq_append_of_after? _h)
    simp at this
    simp
    omega
  · simp
  · simp

end TagTemplate.Text
