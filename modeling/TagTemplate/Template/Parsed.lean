import TagTemplate.Digest.Sha256
import TagTemplate.Template.Format
import TagTemplate.Template.Piece
import TagTemplate.Text.Bytes

/-!
# `TagTemplate.Template.Parsed`: parsed templates

Parsing a template cannot fail. It lists the tags, each with an identifier and
the bytes at which it stands, and a warning for each brace that starts no tag.
A parsed template keeps its content and has an identifier of its own, the
digest of its format and content.
-/

set_option autoImplicit false

namespace TagTemplate

/-- A template: a text and the format that it is written in. -/
structure Template where
  content : String
  format : Format
  deriving DecidableEq

/-- A piece of the content that looks like a tag and is none. -/
structure Template.Warning where
  /-- The byte at which the piece begins. -/
  offset : Nat
  raw : String
  message : String
  deriving DecidableEq

/-- A template with its tags. -/
structure ParsedTemplate where
  id : String
  content : String
  format : Format
  /-- The tags in the order of the content. -/
  tags : List Tag
  warnings : List Template.Warning
  deriving DecidableEq

namespace Template

/-- The bytes that identify a template: the name of its format, a zero byte, and
its content. -/
def identityBytes (t : Template) : List UInt8 :=
  t.format.name.toUTF8.toList ++ 0 :: t.content.toUTF8.toList

/-- The identifier of a template. -/
def id (t : Template) : String :=
  Sha256.hexDigest t.identityBytes

/-- The identifier of a tag: its position among the tags and the byte at which
it begins. -/
def tagId (ordinal offset : Nat) : String :=
  "tag_" ++ toString ordinal ++ "_" ++ toString offset

/-- The tags among pieces that begin at a byte, numbered from `ordinal` on. -/
def tagsFrom (ordinal offset : Nat) : List Piece → List Tag
  | [] => []
  | piece :: pieces =>
    let stop := offset + Text.byteCount piece.text
    match piece with
    | .tag text expression =>
      { expression with
        id := tagId ordinal offset
        raw := String.ofList text
        span := ⟨offset, stop⟩ } :: tagsFrom (ordinal + 1) stop pieces
    | _ => tagsFrom ordinal stop pieces

/-- The warnings for the refused among pieces that begin at a byte. -/
def warningsFrom (offset : Nat) : List Piece → List Warning
  | [] => []
  | piece :: pieces =>
    let stop := offset + Text.byteCount piece.text
    match piece with
    | .refused text fault => ⟨offset, String.ofList text, fault.message⟩ :: warningsFrom stop pieces
    | _ => warningsFrom stop pieces

/-- The parsed template with a given identifier. -/
def parseWithId (t : Template) (id : String) : ParsedTemplate :=
  let ps := pieces t.content.toList
  { id
    content := t.content
    format := t.format
    tags := tagsFrom 0 0 ps
    warnings := warningsFrom 0 ps }

/-- The parsed template. -/
def parse (t : Template) : ParsedTemplate :=
  t.parseWithId t.id

/-- A warning in words. -/
def Warning.display (w : Warning) : String :=
  w.raw ++ " at offset " ++ toString w.offset ++ ": " ++ w.message

end Template

namespace ParsedTemplate

/-- The first tag with an identifier. -/
def tag? (t : ParsedTemplate) (id : String) : Option Tag :=
  t.tags.find? fun tag => tag.id == id

end ParsedTemplate

end TagTemplate
