import TagTemplate.Template.Closing
import TagTemplate.Template.Grammar

/-!
# `TagTemplate.Template.Piece`: a template as a sequence of pieces

The content of a template is cut into plain text, tags, and braces that start
no tag. The pieces in their order make up the content.

Each opening brace starts a piece. If the tag that it starts closes, the piece
ends with the closing brace; if another opening brace comes first, or if no
brace closes the tag, the piece ends before the next opening brace.
`pieces` finds the ends with a scan that remembers open quotations; `piecesBy`
takes any scan.
-/

set_option autoImplicit false

namespace TagTemplate.Template

/-- A piece of the content. -/
inductive Piece where
  /-- Text without an opening brace. -/
  | plain (text : List Char)
  | tag (text : List Char) (expression : Expression)
  /-- A text from an opening brace on that is no tag. -/
  | refused (text : List Char) (fault : Fault)

namespace Piece

/-- The text of a piece. -/
def text : Piece → List Char
  | plain text => text
  | tag text _ => text
  | refused text _ => text

/-- The piece from an opening brace to the closing one, from the text between
them. -/
def ofInner (inner : List Char) : Piece :=
  let text := '{' :: inner ++ ['}']
  match Expression.ofText? inner with
  | .ok expression => tag text expression
  | .error fault => refused text fault

end Piece

/-- The character is no opening brace. -/
def notBrace (c : Char) : Bool :=
  c != '{'

/-- The piece that an opening brace starts, given the text after the brace and
how the tag ends, and the text after the piece. -/
def bracePiece (after : List Char) : Closing → Piece × List Char
  | .closed length => (.ofInner (after.take length), after.drop (length + 1))
  | .interrupted length => (.refused ('{' :: after.take length) .interruptedTag, after.drop length)
  | .unterminated =>
    (.refused ('{' :: after.takeWhile notBrace) .unterminatedTag, after.dropWhile notBrace)

/-- The text after a piece is a part of the text after its brace. -/
theorem length_bracePiece_le (after : List Char) (c : Closing) :
    (bracePiece after c).2.length ≤ after.length := by
  cases c with
  | closed n => simp [bracePiece]
  | interrupted n => simp [bracePiece]
  | unterminated => exact (List.dropWhile_suffix _).length_le

/-- Plain text as a piece, unless it is empty. -/
def plainPiece (text : List Char) : List Piece :=
  if text.isEmpty then [] else [.plain text]

/-- The pieces of a text that stands at a place of the content. The scan is given
what it remembers, the place of the text after an opening brace, and that
text. -/
def piecesBy {σ : Type} (scan : σ → Nat → List Char → Closing × σ) (memory : σ) (place : Nat)
    (content : List Char) : List Piece :=
  let before := content.takeWhile notBrace
  match _h : content.dropWhile notBrace with
  | [] => plainPiece before
  | _ :: after =>
    let ending := scan memory (place + before.length + 1) after
    let found := bracePiece after ending.1
    let restPlace := place + before.length + found.1.text.length
    plainPiece before ++ found.1 :: piecesBy scan ending.2 restPlace found.2
termination_by content.length
decreasing_by
  have hle : (content.dropWhile notBrace).length ≤ content.length :=
    (List.dropWhile_suffix _).length_le
  rw [_h, List.length_cons] at hle
  exact Nat.lt_of_le_of_lt (length_bracePiece_le _ _) hle

/-- The pieces of the content of a template. -/
def pieces (content : List Char) : List Piece :=
  piecesBy OpenQuotes.closing OpenQuotes.none 0 content

end TagTemplate.Template
