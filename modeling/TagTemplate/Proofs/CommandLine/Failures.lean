import Mathlib.Data.List.ReduceOption
import TagTemplate.Proofs.CommandLine.Delivery

/-!
# `TagTemplate.Proofs.CommandLine.Failures`: a run that fails leaves no trace

`faults` says what is wrong with the files and names of a command, in the words in which it
is to be reported: with the options file, the template file, the format, the data file and
the output, in this order. It looks at each of them by itself, at the tree as it is before
the run.

Working out a plan stops at the first fault of the inputs (`fault?_planned`), and only a plan
is carried out, so that whatever is written was read for before. `leavesNoTrace_run` says what
follows for every run. With a fault it prints nothing, leaves the tree as it is, and reports
the first fault. Without one it changes no file but the one that gets the output, and what
`render` delivers is the rendering of the files as they were, also where the output replaces
one of them.
-/

set_option autoImplicit false

namespace TagTemplate.Proofs.CommandLine

open TagTemplate.CommandLine
open TagTemplate.Proofs.Engine (rendered exists_rendered)
open TagTemplate.Proofs.Support (except_bind_eq_ok)

variable {d : Directory} {c : Command} {words : Wording} {fault : String}

/-! ### Faults -/

/-- A file that the system does not give, with the reason. -/
def unread (what path reason : String) : String :=
  "Failed to read " ++ what ++ " '" ++ path ++ "': " ++ reason

/-- What is wrong with a file that is read: the system does not give it, or its text holds
nothing of the kind. -/
def fileFault? {α : Type} (d : Directory) (what invalid : String) (ofText? : String → Option α)
    (about : String → String) (path : String) : Option String :=
  match d.read path with
  | .error reason => some (unread what path reason)
  | .ok text =>
    match ofText? text with
    | some _ => none
    | none => some (invalid ++ " '" ++ path ++ "': " ++ about text)

/-- What is wrong with the options file, if there is one. -/
def configFault? (d : Directory) (words : Wording) (config : Option String) : Option String :=
  config.bind (fileFault? d "config" "Invalid config" Options.ofText? words.options)

/-- What is wrong with the template file. -/
def templateFault? (d : Directory) (source : Source) : Option String :=
  match d.read source.path with
  | .error reason => some (unread "template" source.path reason)
  | .ok _ => none

/-- What is wrong with the name of the format, if there is one. -/
def formatFault? (source : Source) : Option String :=
  source.format.bind fun name =>
    if (Format.named? name).isSome then none else some ("Unsupported template format: " ++ name)

/-- What is wrong with the data file, if there is one. -/
def dataFault? (d : Directory) (words : Wording) (data : Option String) : Option String :=
  data.bind (fileFault? d "data" "Invalid JSON in" Json.ofText? words.data)

/-- Why a file cannot be written: its path leads to no place for one, or the system refuses
to write there. -/
def refusal? (d : Directory) (path : String) : Option String :=
  match d.target path with
  | .error reason => some reason
  | .ok place => d.unwritable place

/-- A file is written exactly if nothing is against it, whatever the text is. -/
theorem refusal?_eq (path text : String) :
    refusal? d path = match d.write path text with
      | .ok _ => none
      | .error reason => some reason := by
  unfold refusal? Directory.write
  cases d.target path with
  | error reason => rfl
  | ok place =>
    simp only [bind, Except.bind]
    cases d.unwritable place <;> rfl

/-- What is wrong with the output file, if there is one. -/
def outputFault? (d : Directory) (output : Option String) : Option String :=
  output.bind fun path =>
    (refusal? d path).map fun reason => "Failed to write '" ++ path ++ "': " ++ reason

/-- The faults that the inputs of a command can have, each with what is wrong. -/
def inputFaults (d : Directory) (words : Wording) : Command → List (Option String)
  | .render source data _ config _ _ =>
    [configFault? d words config, templateFault? d source, formatFault? source,
      dataFault? d words data]
  | .parse source => [templateFault? d source, formatFault? source]
  | .process source data =>
    [templateFault? d source, formatFault? source, dataFault? d words data]
  | .formatters => []

/-- The file that gets the output of a command. -/
def outputFile? : Command → Option String
  | .render _ _ output _ _ _ => output
  | _ => none

/-- The faults of a command, in the order in which they count. -/
def faults (d : Directory) (words : Wording) (c : Command) : List String :=
  (inputFaults d words c ++ [outputFault? d (outputFile? c)]).reduceOption

/-! ### The first fault of the inputs -/

section

variable {α β : Type}

/-- What a step that fails says. -/
def fault? : Except Failure α → Option String
  | .error f => some f.message
  | .ok _ => none

/-- Of two steps the second one counts where the first one does not fail. -/
theorem fault?_bind {x : Except Failure α} {k : α → Except Failure β} {r : Option String}
    (h : ∀ a, x = .ok a → fault? (k a) = r) : fault? (x >>= k) = (fault? x).or r := by
  cases x with
  | error f => rfl
  | ok a => exact h a rfl

/-- The first of a list that is there. -/
theorem head?_reduceOption_cons (o : Option α) (os : List (Option α)) :
    (o :: os).reduceOption.head? = o.or os.reduceOption.head? := by
  cases o with
  | none => rw [List.reduceOption_cons_of_none, Option.none_or]
  | some a => rw [List.reduceOption_cons_of_some, List.head?_cons, Option.some_or]

end

/-- Reading a file and then its text fails with the fault of the file. -/
theorem fault?_readFile_bind {α : Type} {what invalid path : String}
    {ofText? : String → Option α} {about : String → String} {k : String → Except Failure α}
    (hnone : ∀ text, ofText? text = none →
      fault? (k text) = some (invalid ++ " '" ++ path ++ "': " ++ about text))
    (hsome : ∀ text a, ofText? text = some a → fault? (k text) = none) :
    fault? (readFile (texts d) what path >>= k)
      = fileFault? d what invalid ofText? about path := by
  rw [readFile_texts]
  unfold fileFault?
  cases d.read path with
  | error reason => rfl
  | ok text =>
    show fault? (k text) = _
    cases hread : ofText? text with
    | none => simp only [hnone text hread, hread]
    | some a => simp only [hsome text a hread, hread]

/-- Reading the options fails with the fault of their file. -/
theorem fault?_readOptions (config : Option String) :
    fault? (readOptions (texts d) words config) = configFault? d words config := by
  cases config with
  | none => rfl
  | some path =>
    refine fault?_readFile_bind (fun text h => ?_) fun text options h => ?_
    · simp only [h]; rfl
    · simp only [h]; rfl

/-- Reading the data fails with the fault of their file. -/
theorem fault?_readData (data : Option String) :
    fault? (readData (texts d) words data) = dataFault? d words data := by
  cases data with
  | none => rfl
  | some path =>
    refine fault?_readFile_bind (fun text h => ?_) fun text json h => ?_
    · simp only [h]; rfl
    · simp only [h]; rfl

/-- A format is found unless its name is at fault. -/
theorem fault?_sourceFormat (source : Source) :
    fault? (sourceFormat source) = formatFault? source := by
  unfold sourceFormat formatFault?
  cases source.format with
  | none => rfl
  | some name =>
    simp only [Option.bind_some]
    cases Format.named? name <;> rfl

/-- Reading a template fails with the fault of its file, and else with that of its format. -/
theorem fault?_readTemplate (source : Source) :
    fault? (readTemplate (texts d) source)
      = (templateFault? d source).or (formatFault? source) := by
  have hfile : fault? (readFile (texts d) "template" source.path) = templateFault? d source := by
    rw [readFile_texts]
    unfold templateFault?
    cases d.read source.path <;> rfl
  rw [readTemplate, fault?_bind (r := formatFault? source), hfile]
  intro content _
  rw [fault?_bind (r := none), fault?_sourceFormat, Option.or_none]
  exact fun _ _ => rfl

/-- Reading a template and then data fails with the first of their faults. -/
theorem fault?_readTemplate_readData {α : Type} (source : Source) (data : Option String)
    (k : Template → Json → α) :
    fault? (do
        let template ← readTemplate (texts d) source
        let json ← readData (texts d) words data
        return k template json)
      = ((templateFault? d source).or (formatFault? source)).or (dataFault? d words data) := by
  rw [fault?_bind (r := dataFault? d words data), fault?_readTemplate]
  intro template _
  rw [fault?_bind (r := none), fault?_readData, Option.or_none]
  exact fun _ _ => rfl

/-- Working out a plan stops at the first fault of the inputs. -/
theorem fault?_planned (d : Directory) (words : Wording) (c : Command) :
    fault? (planned d words c) = (inputFaults d words c).reduceOption.head? := by
  cases c with
  | render source data output config noCache stats =>
    have hplan : fault? (planned d words (.render source data output config noCache stats))
        = (configFault? d words config).or
          (((templateFault? d source).or (formatFault? source)).or (dataFault? d words data)) := by
      rw [← fault?_readOptions]
      exact fault?_bind fun options _ => fault?_readTemplate_readData source data _
    rw [hplan]
    simp only [inputFaults, head?_reduceOption_cons, List.reduceOption_nil, List.head?_nil,
      Option.or_none, Option.or_assoc]
  | parse source =>
    have hplan : fault? (planned d words (.parse source))
        = (templateFault? d source).or (formatFault? source) := by
      rw [planned, plan, fault?_bind (r := none), Option.or_none, fault?_readTemplate]
      exact fun _ _ => rfl
    rw [hplan]
    simp only [inputFaults, head?_reduceOption_cons, List.reduceOption_nil, List.head?_nil,
      Option.or_none]
  | process source data =>
    rw [planned, plan, fault?_readTemplate_readData]
    simp only [inputFaults, head?_reduceOption_cons, List.reduceOption_nil, List.head?_nil,
      Option.or_none, Option.or_assoc]
  | formatters => rfl

/-- The first fault is that of the inputs, or else that of the output. -/
theorem head?_faults (d : Directory) (words : Wording) (c : Command) :
    (faults d words c).head?
      = (fault? (planned d words c)).or (outputFault? d (outputFile? c)) := by
  rw [faults, List.reduceOption_append, List.head?_append, fault?_planned,
    head?_reduceOption_cons]
  simp only [List.reduceOption_nil, List.head?_nil, Option.or_none]

/-! ### Plans -/

/-- The text that a template and data in files are rendered to. -/
def renderedText? (d : Directory) (source : Source) (data : Option String) : Option String := do
  let content ← d.read? source.path
  let format ← (sourceFormat source : Except Failure Format).toOption
  let json ← dataOf? (data.map d.read?)
  let result ← rendered ⟨content, format⟩ json
  return result.text

/-- A plan to render has the text that the files are rendered to. -/
theorem renderedText?_of_planned {source : Source} {data output config : Option String}
    {noCache stats : Bool} {p : Plan}
    (h : planned d words (.render source data output config noCache stats) = .ok p) :
    renderedText? d source data = some p.output := by
  obtain ⟨options, t, json, htemplate, hdata, rfl⟩ := planned_render_eq_ok h
  obtain ⟨hread, hformat⟩ := readTemplate_eq_ok htemplate
  have hcontent : d.read? source.path = some t.content := congrArg Except.toOption hread
  obtain ⟨text, warnings, hrendered⟩ := exists_rendered t.content json
  have hresult : rendered t json = some ⟨text, t.id, warnings⟩ := hrendered t.format
  rw [rendering_eq options hresult]
  simp only [renderedText?, hcontent, hformat, readData_eq_ok hdata, Except.toOption,
    Option.bind_eq_bind, Option.bind_some, hresult, Option.pure_def]

/-- A plan writes to the output file of its command, and the lines that it prints before
are warnings. -/
theorem file_of_planned {p : Plan} (h : planned d words c = .ok p) :
    p.file = outputFile? c ∧
      ∃ warnings : List String, p.warnings = warnings.map ("warning: " ++ ·) := by
  cases c with
  | render source data output config noCache stats =>
    obtain ⟨options, t, json, -, -, rfl⟩ := planned_render_eq_ok h
    exact ⟨rfl, _, rfl⟩
  | parse source =>
    obtain ⟨t, -, h⟩ := except_bind_eq_ok.mp h
    obtain rfl := Except.ok.inj h
    exact ⟨rfl, [], rfl⟩
  | process source data =>
    obtain ⟨t, -, h⟩ := except_bind_eq_ok.mp h
    obtain ⟨json, -, h⟩ := except_bind_eq_ok.mp h
    obtain rfl := Except.ok.inj h
    exact ⟨rfl, [], rfl⟩
  | formatters =>
    obtain rfl := Except.ok.inj h
    exact ⟨rfl, [], rfl⟩

/-! ### Runs -/

/-- A text was printed, or stands in the output file with nothing printed. -/
def Output (report : Report) (after : Directory) (text : String) : Option String → Prop
  | none => report.stdout = text
  | some path => report.stdout = "" ∧ after.text? path = some text

/-- A run with the given report and the given tree afterwards has left no trace of a failure,
and no more than its output otherwise. -/
structure LeavesNoTrace (d : Directory) (words : Wording) (c : Command) (report : Report)
    (after : Directory) : Prop where
  /-- A run ends with 0 if there is no fault, and with 1 if there is one. -/
  exit : faults d words c = [] ∧ report.exit = 0 ∨ faults d words c ≠ [] ∧ report.exit = 1
  /-- A run that fails prints nothing and changes nothing. -/
  failed : report.exit = 1 → report.stdout = "" ∧ after = d
  /-- The first fault is reported, and before it at most warnings, if the inputs are well. -/
  reported : ∀ fault, (faults d words c).head? = some fault → ∃ warnings : List String,
    report.stderr = warnings.map ("warning: " ++ ·) ++ ["Error: " ++ fault] ∧
      ((inputFaults d words c).reduceOption ≠ [] → warnings = [])
  /-- A run without an output file changes nothing. -/
  kept : outputFile? c = none → after = d
  /-- Nothing but files can be different. -/
  same : after = { d with files := after.files }
  /-- Each path leads to the same place. -/
  toOption_locate_eq : ∀ path, (after.locate path).toOption = (d.locate path).toOption
  /-- Files at other places than that of the output file are the same. -/
  lookup_eq : ∀ place, (∀ path, outputFile? c = some path → d.locate path ≠ .ok place) →
    after.files.lookup place = d.files.lookup place
  /-- What is printed or written is rendered from the files as they were. -/
  delivered : report.exit = 0 → ∀ source data output config noCache stats,
    c = .render source data output config noCache stats →
      ∃ text, renderedText? d source data = some text ∧ Output report after text output

/-- A run that reports the first fault and keeps the tree leaves no trace. -/
theorem leavesNoTrace_failure {f : Failure} (h : (faults d words c).head? = some f.message)
    {warnings : List String} (hinputs : (inputFaults d words c).reduceOption ≠ [] → warnings = []) :
    LeavesNoTrace d words c (failureReport (warnings.map ("warning: " ++ ·)) f) d where
  exit := by
    refine .inr ⟨fun hnil => ?_, rfl⟩
    rw [hnil] at h
    cases h
  failed _ := ⟨rfl, rfl⟩
  reported fault hfault := by
    obtain rfl := Option.some.inj (h.symm.trans hfault)
    exact ⟨warnings, rfl, hinputs⟩
  kept _ := rfl
  same := rfl
  toOption_locate_eq _ := rfl
  lookup_eq _ _ := rfl
  delivered hexit := nomatch hexit

/-- With a plan, and with nothing against writing its output, nothing is wrong. -/
theorem faults_eq_nil {p : Plan} (hplan : planned d words c = .ok p)
    (hwell : outputFault? d (outputFile? c) = none) : faults d words c = [] := by
  have hhead := head?_faults d words c
  rw [hplan, hwell] at hhead
  exact List.head?_eq_none_iff.mp hhead

/-- A text of a plan that was printed or written is rendered from the files as they were. -/
theorem delivered_of_planned {p : Plan} {report : Report} {after : Directory}
    (hplan : planned d words c = .ok p)
    (houtput : Output report after p.output (outputFile? c)) (source : Source)
    (data output config : Option String) (noCache stats : Bool)
    (hc : c = .render source data output config noCache stats) :
    ∃ text, renderedText? d source data = some text ∧ Output report after text output := by
  subst hc
  exact ⟨p.output, renderedText?_of_planned hplan, houtput⟩

/-- Every run leaves no trace if it fails, and only its output if it does not. The cases are
what comes of a run. -/
theorem leavesNoTrace_run (time : String) (d : Directory) (c : Command) (words : Wording) :
    LeavesNoTrace d words c (run time d c words).1 (run time d c words).2 := by
  have hrun := ran_run time d c words
  generalize run time d c words = ended at hrun
  have hhead := head?_faults d words c
  cases hrun with
  | @refused f hplan =>
    rw [hplan] at hhead
    exact leavesNoTrace_failure hhead fun _ => rfl
  | @printed p hplan hfile =>
    have hnone : outputFile? c = none := (file_of_planned hplan).1.symm.trans hfile
    have hfaults : faults d words c = [] := faults_eq_nil hplan (by rw [hnone]; rfl)
    have houtput : Output (planReport time p) d p.output (outputFile? c) := by
      rw [hnone]
      show (if p.file.isSome then "" else p.output) = p.output
      rw [hfile]
      rfl
    exact {
      exit := .inl ⟨hfaults, rfl⟩
      failed := nofun
      reported := fun fault hfault => by rw [hfaults] at hfault; cases hfault
      kept := fun _ => rfl
      same := rfl
      toOption_locate_eq := fun _ => rfl
      lookup_eq := fun _ _ => rfl
      delivered := fun _ => delivered_of_planned hplan houtput }
  | @written p path after hplan hfile hwrite =>
    have hsome : outputFile? c = some path := (file_of_planned hplan).1.symm.trans hfile
    have hfaults : faults d words c = [] := by
      refine faults_eq_nil hplan ?_
      rw [hsome, outputFault?, Option.bind_some, refusal?_eq path p.output, hwrite]
      rfl
    have houtput : Output (planReport time p) after p.output (outputFile? c) := by
      rw [hsome]
      refine ⟨?_, text?_of_write hwrite⟩
      show (if p.file.isSome then "" else p.output) = ""
      rw [hfile]
      rfl
    exact {
      exit := .inl ⟨hfaults, rfl⟩
      failed := nofun
      reported := fun fault hfault => by rw [hfaults] at hfault; cases hfault
      kept := fun hnone => nomatch hsome.symm.trans hnone
      same := eq_of_write hwrite
      toOption_locate_eq := toOption_locate_of_write hwrite
      lookup_eq := fun place hother => lookup_of_write hwrite (hother path hsome)
      delivered := fun _ => delivered_of_planned hplan houtput }
  | @unwritten p path reason hplan hfile hwrite =>
    obtain ⟨hsame, warnings, hwarnings⟩ := file_of_planned hplan
    have hinputs : (inputFaults d words c).reduceOption = [] := by
      have hfirst := fault?_planned d words c
      rw [hplan] at hfirst
      exact List.head?_eq_none_iff.mp hfirst.symm
    rw [hplan, ← hsame, hfile, outputFault?, Option.bind_some, refusal?_eq path p.output,
      hwrite] at hhead
    rw [hwarnings]
    exact leavesNoTrace_failure hhead fun hne => absurd hinputs hne

/-- Three things are wrong here, of which the format is reported. -/
example :
    faults (.ofFiles [("letter.html", "Dear"), ("data.json", "]")]) .plain
      (.render ⟨"letter.html", some "exe"⟩ (some "data.json") (some "no/where") none false false)
        = ["Unsupported template format: exe", "Invalid JSON in 'data.json': invalid JSON",
          "Failed to write 'no/where': No such file or directory (os error 2)"] := by
  decide +kernel

end TagTemplate.Proofs.CommandLine
