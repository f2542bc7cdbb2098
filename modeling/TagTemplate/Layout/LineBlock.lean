import TagTemplate.Template.Tag
import TagTemplate.Text.Bytes

/-!
# `TagTemplate.Layout.LineBlock`: the whole lines around a stretch of text

`lineBlock?` widens a span to whole lines: back to the start of the line in
which it begins, and on through the line feed of the line in which it ends. It
is `none` when the span does not lie on characters of the text.
-/

set_option autoImplicit false

namespace TagTemplate.Layout

open Text

/-- A character other than the line feed that ends a line. -/
def isInLine (c : Char) : Bool :=
  c != '\n'

/-- The number of bytes of the line at the head of a text, its line feed
included. -/
def lineSize (text : List Char) : Nat :=
  let line := text.takeWhile isInLine
  byteCount line + (if (text.dropWhile isInLine).isEmpty then 0 else 1)

/-- The number of bytes after the last line feed of a text. -/
def lastLineSize (text : List Char) : Nat :=
  byteCount (text.reverse.takeWhile isInLine)

/-- The whole lines that a span touches. -/
def lineBlock? (content : List Char) (span : Span) : Option Span := do
  let before ← takeBytes? span.start content
  let after ← dropBytes? span.stop content
  return ⟨span.start - lastLineSize before, span.stop + lineSize after⟩

/-- The bytes of a line do not exceed those of the text. -/
theorem lineSize_le (text : List Char) : lineSize text ≤ byteCount text := by
  have hsplit := congrArg byteCount (List.takeWhile_append_dropWhile (p := isInLine) (l := text))
  rw [byteCount_append] at hsplit
  unfold lineSize
  cases h : text.dropWhile isInLine with
  | nil =>
    simp only [List.isEmpty_nil, if_true]
    omega
  | cons c rest =>
    -- The rest begins with the line feed, which has a byte.
    have hfeed : byteCount (text.dropWhile isInLine) = c.utf8Size + byteCount rest := by
      rw [h]
      rfl
    have := c.utf8Size_pos
    simp only [List.isEmpty_cons, Bool.false_eq_true, if_false]
    omega

/-- Dropping `n` bytes leaves `n` bytes fewer. -/
theorem byteCount_of_dropBytes? {n : Nat} {text rest : List Char}
    (h : dropBytes? n text = some rest) : n + byteCount rest = byteCount text := by
  fun_induction dropBytes? n text with
  -- No bytes are left to be passed over.
  | case1 => cases h; simp
  -- The text is too short.
  | case2 => simp at h
  -- The first character fits.
  | case3 n c cs hle ih => have := ih h; simp only [byteCount]; omega
  -- The first character has too many bytes.
  | case4 => simp at h

/-- The whole lines contain the span and end within the text. -/
theorem lineBlock?_bounds {content : List Char} {span block : Span}
    (h : lineBlock? content span = some block) :
    block.start ≤ span.start ∧ span.stop ≤ block.stop ∧ block.stop ≤ byteCount content := by
  simp only [lineBlock?, Option.bind_eq_bind, Option.bind_eq_some_iff, Option.pure_def,
    Option.some.injEq] at h
  obtain ⟨before, _, after, hafter, rfl⟩ := h
  have := byteCount_of_dropBytes? hafter
  have := lineSize_le after
  refine ⟨?_, ?_, ?_⟩ <;> simp only <;> omega

end TagTemplate.Layout
