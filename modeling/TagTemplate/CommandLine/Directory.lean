import TagTemplate.Template.Split

/-!
# `TagTemplate.CommandLine.Directory`: the files that a run sees

A directory tree is a list of files, each at its place: the names on the way to it
from the root. The directories are those in which files lie, the one in which the
command runs, and those above it. A path is followed from the root if it begins with
a separator, and otherwise from the directory in which the command runs. On the way
`.` stays and `..` goes up, and every other name must be that of a directory.

`read` and `write` take a path as it is written. Where they fail they give the reason,
in the words of the operating system. A file may be there and still not be read or
written: it may hold bytes that are no text, and the system may refuse.
-/

set_option autoImplicit false

namespace TagTemplate.CommandLine

/-- The parts of a text between separators. -/
def partsOf (separator : Char) (text : String) : List String :=
  (Template.splitAt separator text.toList).map String.ofList

namespace Reason

/-- There is nothing under a name. -/
def notFound : String := "No such file or directory (os error 2)"

/-- A path goes on behind a file. -/
def notADirectory : String := "Not a directory (os error 20)"

/-- A path ends in a directory. -/
def isADirectory : String := "Is a directory (os error 21)"

/-- The bytes of a file are no text. -/
def notText : String := "stream did not contain valid UTF-8"

end Reason

/-- A directory tree, as a run finds it. -/
structure Directory where
  /-- The files, each with its place and its text; a file whose bytes are no text has none. -/
  files : List (List String × Option String)
  /-- The directory in which the command runs. -/
  working : List String
  /-- Why the system refuses to read at a place, where it does. -/
  unreadable : List String → Option String
  /-- Why the system refuses to write at a place, where it does. -/
  unwritable : List String → Option String

namespace Directory

/-- The names lead from the root to a directory. -/
def isDirectory (d : Directory) (names : List String) : Bool :=
  names.isPrefixOf d.working ||
    d.files.any fun file => names.isPrefixOf file.1 && names.length < file.1.length

/-- The directory reached from another along the given names. -/
def walk (d : Directory) (here : List String) : List String → Except String (List String)
  | [] => .ok here
  | name :: names =>
    if name = "" ∨ name = "." then d.walk here names
    else if name = ".." then d.walk here.dropLast names
    else if d.isDirectory (here ++ [name]) then d.walk (here ++ [name]) names
    else if (d.files.lookup (here ++ [name])).isSome then .error Reason.notADirectory
    else .error Reason.notFound

/-- Where a path with the given names begins. -/
def start (d : Directory) (names : List String) : List String :=
  if names.head? = some "" then [] else d.working

/-- The place of a file of a directory. A directory is no file. -/
def filePlace (d : Directory) (parent : List String) (name : String) :
    Except String (List String) :=
  if name = "" ∨ name = "." ∨ name = ".." then .error Reason.isADirectory
  else if d.isDirectory (parent ++ [name]) then .error Reason.isADirectory
  else .ok (parent ++ [name])

/-- The place to which a path leads, whether a file is there or not: its directory must
be. -/
def locate (d : Directory) (path : String) : Except String (List String) := do
  let names := partsOf '/' path
  let parent ← d.walk (d.start names) names.dropLast
  d.filePlace parent (names.getLast?.getD "")

/-- The text that a path leads to, whether the system lets it be read or not. -/
def text? (d : Directory) (path : String) : Option String := do
  let place ← (d.locate path).toOption
  let content ← d.files.lookup place
  content

/-- The text of a file. -/
def read (d : Directory) (path : String) : Except String String := do
  let place ← d.locate path
  match d.files.lookup place with
  | none => throw Reason.notFound
  | some content =>
    match d.unreadable place, content with
    | some reason, _ => throw reason
    | none, none => throw Reason.notText
    | none, some text => return text

/-- The text of a file, if it can be read. -/
def read? (d : Directory) (path : String) : Option String :=
  (d.read path).toOption

/-- The place of a file that is to be written. A path with a separator at its end names a
directory, whether there is one or not. -/
def target (d : Directory) (path : String) : Except String (List String) := do
  let names := partsOf '/' path
  if names.getLast? = some "" then
    let _ ← d.walk (d.start names) (names.reverse.dropWhile (· == "")).tail.reverse
    throw Reason.isADirectory
  else
    d.locate path

/-- The tree with a text in the place of a file's, or with a new file. -/
def write (d : Directory) (path text : String) : Except String Directory := do
  let place ← d.target path
  match d.unwritable place with
  | some reason => throw reason
  | none =>
    return { d with
      files := (place, some text) :: d.files.filter fun file => file.1 != place }

/-- The tree in which the named files are all, and the command runs among them; a name may
lead through directories. -/
def ofFiles (files : List (String × String)) : Directory :=
  let working := ["work"]
  { files := files.map fun (name, text) =>
      (working ++ (partsOf '/' name).filter fun part => part != "" && part != ".", some text)
    working
    unreadable := fun _ => none
    unwritable := fun _ => none }

end Directory

end TagTemplate.CommandLine
