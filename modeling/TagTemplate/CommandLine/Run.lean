import TagTemplate.CommandLine.Arguments
import TagTemplate.CommandLine.Directory
import TagTemplate.Engine
import TagTemplate.Json.Printer
import TagTemplate.Record.Resolved

/-!
# `TagTemplate.CommandLine.Run`: what a command does

A command reads its files first and works out what it will print and write
(`Plan`). Only then is anything written, so a command that fails changes
nothing. Of several faults the first counts, in the order of the options file,
the template file, the format, the data file, and the output file.

What a command needs from outside is a `Host`, in a monad of its own:
`Command.perform` reads, prints and writes through it and through nothing else.
The program hands over the files and streams of the operating system; `run`
hands over a directory tree (`Host.ofTree`) and gives what is left of it.
-/

set_option autoImplicit false

namespace TagTemplate.CommandLine

/-! ### Failures -/

/-- Why a command fails. What an operating system or a reader of JSON texts says about
it is the cause. -/
inductive Failure where
  | unreadable (what path cause : String)
  | invalidConfig (path cause : String)
  | invalidData (path cause : String)
  | unsupportedFormat (name : String)
  | unwritable (path cause : String)
  deriving DecidableEq

/-- A failure in words. -/
def Failure.message : Failure → String
  | unreadable what path cause => "Failed to read " ++ what ++ " '" ++ path ++ "': " ++ cause
  | invalidConfig path cause => "Invalid config '" ++ path ++ "': " ++ cause
  | invalidData path cause => "Invalid JSON in '" ++ path ++ "': " ++ cause
  | unsupportedFormat name => "Unsupported template format: " ++ name
  | unwritable path cause => "Failed to write '" ++ path ++ "': " ++ cause

/-- What the reader of JSON texts says about a text that it refuses. -/
structure Wording where
  /-- About a text that holds no data. -/
  data : String → String
  /-- About a text that holds no options. -/
  options : String → String

/-- Words without a place in the text. -/
def Wording.plain : Wording where
  data _ := "invalid JSON"
  options _ := "JSON error: invalid options"

/-! ### Plans -/

/-- What a command prints, and the text that it writes to a file. -/
structure Plan where
  /-- Lines for standard error before the output. -/
  warnings : List String
  output : String
  /-- The file that gets the output; standard output unless given. -/
  file : Option String
  /-- The rendering whose size and template are reported after the output. -/
  stats : Option Rendering

/-- A plan that prints a text. -/
def Plan.print (text : String) : Plan :=
  ⟨[], text, none, none⟩

/-- The extension of a file name: what follows its last point, unless that is its
first character. -/
def extension? (path : String) : Option String :=
  let names := (partsOf '/' path).filter fun name => name != "" && name != "."
  match names.getLast? with
  | none => none
  | some name =>
    let parts := partsOf '.' name
    if name = ".." then none
    else
      match parts with
      | [_] => none
      | ["", _] => none
      | _ => parts.getLast?

/-- The line that lists a formatter: its kind, padded to twelve characters, and
its name. -/
def formatterLine (f : Formatter) : String :=
  let kind := f.category.name
  kind ++ String.ofList (List.replicate (12 - kind.length) ' ') ++ " " ++ f.name ++ "\n"

/-- The rendering of a template by an engine. Parsed templates always fit their
content, so the text is there. -/
def rendering (options : Options) (template : Template) (data : Json) : Rendering :=
  (((Engine.ofOptions options).render template data).1).getD ⟨"", template.id, []⟩

section Reading

variable {m : Type → Type} [Monad m] [MonadExcept Failure m]

/-- The text of a file, read by a given function. -/
def readFile (read : String → m (Except String String)) (what path : String) : m String := do
  match ← read path with
  | .ok text => return text
  | .error cause => throw (.unreadable what path cause)

/-- The format of a source: the one that is named, which must be known, or else
that of the file's extension, or else `txt`. -/
def sourceFormat (source : Source) : m Format :=
  match source.format with
  | some name =>
    match Format.named? name with
    | some format => return format
    | none => throw (.unsupportedFormat name)
  | none => return ((extension? source.path).bind Format.named?).getD .txt

/-- The template of a source. -/
def readTemplate (read : String → m (Except String String)) (source : Source) : m Template := do
  let content ← readFile read "template" source.path
  let format ← sourceFormat source
  return ⟨content, format⟩

/-- The data of a file, or an empty object without one. -/
def readData (read : String → m (Except String String)) (words : Wording) :
    Option String → m Json
  | none => return .object []
  | some path => do
    let text ← readFile read "data" path
    match Json.ofText? text with
    | some data => return data
    | none => throw (.invalidData path (words.data text))

/-- The options of a file, or the default ones without it. -/
def readOptions (read : String → m (Except String String)) (words : Wording) :
    Option String → m Options
  | none => return Options.default
  | some path => do
    let text ← readFile read "config" path
    match Options.ofText? text with
    | some options => return options
    | none => throw (.invalidConfig path (words.options text))

/-- What a command will do. Nothing is done here but reading. -/
def plan (read : String → m (Except String String)) (words : Wording) : Command → m Plan
  | .render source data output config noCache stats => do
    let options ← readOptions read words config
    -- Warnings are printed from the rendering instead of being logged.
    let options := { options with
      cacheEnabled := options.cacheEnabled && !noCache
      logWarnings := false }
    let template ← readTemplate read source
    let data ← readData read words data
    let result := rendering options template data
    return {
      warnings := result.warnings.map ("warning: " ++ ·)
      output := result.text
      file := output
      stats := if stats then some result else none }
  | .parse source => do
    let template ← readTemplate read source
    return .print (template.parse.toDocument.pretty ++ "\n")
  | .process source data => do
    let template ← readTemplate read source
    let data ← readData read words data
    return .print ((template.parse.resolve data).toDocument.pretty ++ "\n")
  | .formatters => return .print (String.join (Formatter.all.map formatterLine))

end Reading

/-! ### Carrying out -/

/-- What a command needs from outside. -/
structure Host (m : Type → Type) where
  /-- The text of a file, or why it cannot be read. -/
  read : String → m (Except String String)
  /-- Writes a text to a file, or says why it cannot be written. -/
  write : String → String → m (Except String Unit)
  /-- Prints a text to standard output. -/
  print : String → m Unit
  /-- Prints a line to standard error. -/
  report : String → m Unit
  /-- The time since the start. -/
  elapsed : m String

/-- The line about a rendering: its size, the time that it took, and the head of
its template's identifier. -/
def statsLine (r : Rendering) (time : String) : String :=
  "→ " ++ toString r.size ++ " bytes in " ++ time ++ " (template " ++
    String.ofList (r.templateId.toList.take 12) ++ ")"

section Performing

variable {m : Type → Type} [Monad m]

/-- Prints the text of a plan, or writes it to its file. -/
def Plan.deliver (host : Host m) (p : Plan) : ExceptT Failure m Unit :=
  match p.file with
  | none => host.print p.output
  | some path => do
    match ← host.write path p.output with
    | .ok () => return ()
    | .error cause => throw (.unwritable path cause)

/-- Reports size and time of the rendering, if that is asked for. -/
def Plan.reportStats (host : Host m) (p : Plan) : ExceptT Failure m Unit :=
  match p.stats with
  | none => return ()
  | some result => do host.report (statsLine result (← host.elapsed))

/-- Does what a plan says. -/
def Plan.perform (host : Host m) (p : Plan) : ExceptT Failure m Unit := do
  p.warnings.forM fun line => host.report line
  p.deliver host
  p.reportStats host

/-- Carries a command out; gives the exit code. -/
def Command.perform (host : Host m) (words : Wording) (c : Command) : m Nat := do
  let outcome ← ExceptT.run do
    let p ← plan (fun path => host.read path) words c
    p.perform host
  match outcome with
  | .ok () => return 0
  | .error failure =>
    host.report ("Error: " ++ failure.message)
    return 1

end Performing

/-! ### Runs on a directory tree -/

/-- What a run has come to: the tree, and what has been printed. -/
structure Scene where
  directory : Directory
  stdout : String
  /-- The lines of standard error. -/
  stderr : List String

/-- The host of a directory tree, where a run takes a given time. -/
def Host.ofTree (time : String) : Host (StateM Scene) where
  read path := do return (← get).directory.read path
  write path text := modifyGet fun scene =>
    match scene.directory.write path text with
    | .ok directory => (.ok (), { scene with directory })
    | .error cause => (.error cause, scene)
  print text := modify fun scene => { scene with stdout := scene.stdout ++ text }
  report line := modify fun scene => { scene with stderr := scene.stderr ++ [line] }
  elapsed := return time

/-- What a run leaves on its outputs. -/
structure Report where
  exit : Nat
  stdout : String
  /-- The lines of standard error. -/
  stderr : List String
  deriving DecidableEq

/-- Carries a command out on a directory tree: the report, and the tree
afterwards. -/
def run (time : String) (d : Directory) (c : Command) (words : Wording := .plain) :
    Report × Directory :=
  let (exit, scene) := Id.run ((c.perform (.ofTree time) words).run ⟨d, "", []⟩)
  (⟨exit, scene.stdout, scene.stderr⟩, scene.directory)

end TagTemplate.CommandLine
