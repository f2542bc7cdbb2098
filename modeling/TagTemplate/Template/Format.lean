import TagTemplate.Text.Blank

/-!
# `TagTemplate.Template.Format`: the document formats of templates

A format says what a template is written in. It is information only: tags are
read alike in every format. `Format.named?` takes the names that people write,
with white space, leading dots, capitals and a few longer spellings;
`Format.exactly?` takes the plain name alone.
-/

set_option autoImplicit false

namespace TagTemplate

/-- A document format. -/
inductive Format where
  | txt | html | xml | md | json | csv | docx | xlsx | pptx | odt | ods | pdf
  deriving DecidableEq

namespace Format

/-- The name of a format, which is also its file extension. -/
def name : Format → String
  | txt => "txt"
  | html => "html"
  | xml => "xml"
  | md => "md"
  | json => "json"
  | csv => "csv"
  | docx => "docx"
  | xlsx => "xlsx"
  | pptx => "pptx"
  | odt => "odt"
  | ods => "ods"
  | pdf => "pdf"

/-- Every format. -/
def all : List Format :=
  [txt, html, xml, md, json, csv, docx, xlsx, pptx, odt, ods, pdf]

/-- The format of a plain name. -/
def exactly? (name : String) : Option Format :=
  all.find? fun f => f.name == name

/-- A format is found by its plain name. -/
@[simp] theorem exactly?_name (f : Format) : exactly? f.name = some f := by
  cases f <;> rfl

/-- The plain name for a longer spelling; other names stay. -/
def shortName (name : String) : String :=
  if name = "text" then "txt"
  else if name = "htm" then "html"
  else if name = "markdown" then "md"
  else name

/-- The format of a name as people write it. -/
def named? (name : String) : Option Format :=
  let bare := (Text.trim name.toList).dropWhile (· = '.')
  exactly? (shortName (String.ofList (bare.map Char.toLower)))

end Format

end TagTemplate
