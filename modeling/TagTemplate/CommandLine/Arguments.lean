/-!
# `TagTemplate.CommandLine.Arguments`: reading the arguments of a run

A run names a command: `render`, `parse` or `process` with a template file, or
`formatters`. Options are written in a long form, `--data d.json` or
`--data=d.json`, or in a short one, `-d d.json`, `-dd.json` or `-d=d.json`, and
short options without a value may share a hyphen. After `--` every argument is
a file name. An option must belong to its command and must not be repeated.

`Command.ofArguments?` gives the command, or why there is none: a mistake in the
arguments, or a request for help or for the version.
-/

set_option autoImplicit false

namespace TagTemplate.CommandLine

/-- The template file of a command and the name of its format. -/
structure Source where
  path : String
  format : Option String
  deriving DecidableEq

/-- A command. -/
inductive Command where
  /-- Renders a template, to a file or to standard output. -/
  | render (source : Source) (data output config : Option String) (noCache stats : Bool)
  /-- Prints a parsed template. -/
  | parse (source : Source)
  /-- Prints the values of a template's tags. -/
  | process (source : Source) (data : Option String)
  /-- Lists the formatters. -/
  | formatters
  deriving DecidableEq

/-- Why arguments give no command. -/
inductive Stop where
  /-- A mistake in the arguments. -/
  | usage
  /-- Help was asked for. -/
  | help
  /-- The version was asked for. -/
  | version
  deriving DecidableEq

/-- An option of the command line. -/
inductive Switch where
  | format | data | output | config | noCache | stats | verbose | help | version
  deriving DecidableEq

namespace Switch

/-- The long form of an option. -/
def long : Switch → String
  | format => "format"
  | data => "data"
  | output => "output"
  | config => "config"
  | noCache => "no-cache"
  | stats => "stats"
  | verbose => "verbose"
  | help => "help"
  | version => "version"

/-- The short form of an option. -/
def short? : Switch → Option Char
  | format => some 'f'
  | data => some 'd'
  | output => some 'o'
  | verbose => some 'v'
  | help => some 'h'
  | version => some 'V'
  | _ => none

/-- The option has a value. -/
def takesValue : Switch → Bool
  | format | data | output | config => true
  | _ => false

/-- The value of the option is the name of a file, which is not empty. -/
def takesFile : Switch → Bool
  | data | output | config => true
  | _ => false

end Switch

/-- What the arguments have given so far. -/
structure Given where
  /-- The options, each with its value; an option without value has an empty one. -/
  switches : List (Switch × String)
  files : List String

namespace Given

/-- Nothing. -/
def empty : Given := ⟨[], []⟩

/-- The option has been given. -/
def has (g : Given) (switch : Switch) : Bool :=
  g.switches.any fun given => given.1 == switch

/-- The value of an option. -/
def value? (g : Given) (switch : Switch) : Option String :=
  g.switches.lookup switch

/-- Adds an option, which must not have been given before. -/
def addSwitch (g : Given) (switch : Switch) (value : String) : Except Stop Given :=
  match switch with
  | .help => .error .help
  | .version => .error .version
  | _ =>
    if g.has switch || (switch.takesFile && value.isEmpty) then .error .usage
    else .ok { g with switches := g.switches ++ [(switch, value)] }

/-- Adds the name of a file, if fewer than `limit` have been given. -/
def addFile (limit : Nat) (g : Given) (name : String) : Except Stop Given :=
  if name.isEmpty || limit ≤ g.files.length then .error .usage
  else .ok { g with files := g.files ++ [name] }

end Given

/-- The argument begins with a hyphen and is more than that, so that it cannot be
the value of an option before it. -/
def isSwitch : List Char → Bool
  | '-' :: _ :: _ => true
  | _ => false

/-- The value of an option from the argument after it. -/
def addFromNext (g : Given) (switch : Switch) (rest : List String) :
    Except Stop (Given × List String) :=
  match rest with
  | value :: rest =>
    if isSwitch value.toList then .error .usage
    else (g.addSwitch switch value).map fun g => (g, rest)
  | [] => .error .usage

/-- Reads the letters of a short argument; the last of them may take its value
from the argument after it. -/
def addLetters (allowed : List Switch) (g : Given) (rest : List String) :
    List Char → Except Stop (Given × List String)
  | [] => .ok (g, rest)
  | letter :: letters =>
    match allowed.find? fun switch => switch.short? == some letter with
    | none => .error .usage
    | some switch =>
      if switch.takesValue then
        match letters with
        | [] => addFromNext g switch rest
        | '=' :: value => (g.addSwitch switch (String.ofList value)).map fun g => (g, rest)
        | value => (g.addSwitch switch (String.ofList value)).map fun g => (g, rest)
      else do
        addLetters allowed (← g.addSwitch switch "") rest letters

/-- Reads a long argument, given without its two hyphens. -/
def addLong (allowed : List Switch) (g : Given) (rest : List String) (argument : List Char) :
    Except Stop (Given × List String) :=
  let name := String.ofList (argument.takeWhile (· != '='))
  match allowed.find? fun switch => switch.long == name with
  | none => .error .usage
  | some switch =>
    match argument.dropWhile (· != '=') with
    | _ :: value =>
      if switch.takesValue then
        (g.addSwitch switch (String.ofList value)).map fun g => (g, rest)
      else
        .error .usage
    | [] =>
      if switch.takesValue then addFromNext g switch rest
      else (g.addSwitch switch "").map fun g => (g, rest)

/-- Reads options up to the first argument that is none, which is left. -/
def readSwitch (allowed : List Switch) (g : Given) (argument : List Char) (rest : List String) :
    Except Stop (Given × List String) :=
  match argument with
  | '-' :: '-' :: long => addLong allowed g rest long
  | _ :: letters => addLetters allowed g rest letters
  | [] => .ok (g, rest)

/-- Reads the arguments of a command with at most `limit` files, at most `count`
arguments. -/
def readArguments (allowed : List Switch) (limit : Nat) (g : Given) : (count : Nat) →
    List String → Except Stop Given
  | _, [] => .ok g
  | 0, _ => .ok g
  | count + 1, argument :: rest =>
    if argument = "--" then rest.foldlM (Given.addFile limit) g
    else if isSwitch argument.toList then do
      let (g, rest) ← readSwitch allowed g argument.toList rest
      readArguments allowed limit g count rest
    else do
      readArguments allowed limit (← g.addFile limit argument) count rest

/-- The source that was given, which must be one file. -/
def source (g : Given) : Except Stop Source :=
  match g.files with
  | [path] => .ok ⟨path, g.value? .format⟩
  | _ => .error .usage

/-- The command of a name, from the arguments after the name. -/
def readCommand (name : String) (arguments : List String) : Except Stop Command :=
  let read (allowed : List Switch) (limit : Nat) :=
    readArguments (.verbose :: .help :: allowed) limit Given.empty arguments.length arguments
  if name = "render" then do
    let g ← read [.format, .data, .output, .config, .noCache, .stats] 1
    return .render (← source g) (g.value? .data) (g.value? .output) (g.value? .config)
      (g.has .noCache) (g.has .stats)
  else if name = "parse" then do
    let g ← read [.format] 1
    return .parse (← source g)
  else if name = "process" then do
    let g ← read [.format, .data] 1
    return .process (← source g) (g.value? .data)
  else if name = "formatters" then do
    let _ ← read [] 0
    return .formatters
  else if name = "help" then
    match arguments with
    | [] => .error .help
    | [topic] =>
      .error (if ["render", "parse", "process", "formatters", "help"].contains topic then .help
        else .usage)
    | _ => .error .usage
  else
    .error .usage

/-- Reads the options before the name of a command, at most as many arguments as
`count`. -/
def readProgram (g : Given) : (count : Nat) → List String → Except Stop Command
  | _, [] => .error .usage
  | 0, _ => .error .usage
  | count + 1, argument :: rest =>
    if isSwitch argument.toList then do
      let (g, rest) ← readSwitch [.verbose, .help, .version] g argument.toList rest
      readProgram g count rest
    else
      readCommand argument rest

/-- The command that arguments give. -/
def Command.ofArguments? (arguments : List String) : Except Stop Command :=
  readProgram Given.empty arguments.length arguments

end TagTemplate.CommandLine
