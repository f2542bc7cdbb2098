import TagTemplate.CommandLine.Run

/-!
# `TagTemplate.Proofs.CommandLine.Runs`: what comes of a run on a directory tree

`Command.perform` knows its host only by what it reads, prints and writes. On the host of a
tree reading changes nothing, so that working out a plan there is working it out from the
texts of the tree alone (`reads_plan`). A plan is then carried out: its lines are reported
(`outcome_forM_report`), and its text is printed or written (`outcome_deliver`). So a run
comes to one of four ends (`Ran`, `ran_run`): there is no plan, or the text is printed, or it
is written, or it cannot be written.
-/

set_option autoImplicit false

namespace TagTemplate.Proofs.CommandLine

open TagTemplate.CommandLine

variable {α β : Type} {d : Directory} {scene : Scene} {time : String} {words : Wording}

/-! ### Steps -/

/-- A step of a command on the host of a tree. -/
abbrev Step (α : Type) : Type := ExceptT Failure (StateM Scene) α

/-- What a step gives, and the scene after it. -/
def outcome (x : Step α) (scene : Scene) : Except Failure α × Scene :=
  Id.run (x.run.run scene)

/-- A second step begins where the first one has ended, if that one does not fail. -/
theorem outcome_bind (x : Step α) (k : α → Step β) (scene : Scene) :
    outcome (x >>= k) scene = match outcome x scene with
      | (.ok a, next) => outcome (k a) next
      | (.error f, next) => (.error f, next) := by
  unfold outcome
  rw [ExceptT.run_bind, StateT.run_bind]
  generalize x.run.run scene = first
  obtain ⟨result, next⟩ := first
  cases result <;> rfl

/-- A step that only reads, and what it gives. -/
def Reads (scene : Scene) (x : Step α) (y : Except Failure α) : Prop :=
  outcome x scene = (y, scene)

/-- Two steps only read if each of them does. -/
theorem Reads.bind {x : Step α} {y : Except Failure α} {k : α → Step β}
    {l : α → Except Failure β} (h : Reads scene x y) (hk : ∀ a, Reads scene (k a) (l a)) :
    Reads scene (x >>= k) (y >>= l) := by
  unfold Reads at h ⊢
  rw [outcome_bind, h]
  cases y with
  | error f => rfl
  | ok a => exact hk a

/-! ### Working out a plan -/

/-- The texts of a tree, for a command that works out its plan. -/
def texts (d : Directory) (path : String) : Except Failure (Except String String) :=
  .ok (d.read path)

/-- A file is read from the texts of a tree with its text, or with the reason why not. -/
theorem readFile_texts (d : Directory) (what path : String) :
    readFile (texts d) what path = match d.read path with
      | .ok text => .ok text
      | .error cause => .error (.unreadable what path cause) := by
  show (match d.read path with | .ok text => _ | .error cause => _) = _
  cases d.read path <;> rfl

/-- The plan of a command, worked out from the texts of a tree. -/
def planned (d : Directory) (words : Wording) (c : Command) : Except Failure Plan :=
  plan (texts d) words c

/-- Reading on the host of a tree. -/
def readOn (time path : String) : Step (Except String String) :=
  (Host.ofTree time).read path

/-- A file is read without a change. -/
theorem reads_readFile (what path : String) :
    Reads scene (readFile (readOn time) what path)
      (readFile (texts scene.directory) what path) := by
  have hread : Reads scene (readOn time path) (texts scene.directory path) := rfl
  refine hread.bind fun result => ?_
  cases result <;> rfl

/-- The options are read without a change. -/
theorem reads_readOptions (config : Option String) :
    Reads scene (readOptions (readOn time) words config)
      (readOptions (texts scene.directory) words config) := by
  cases config with
  | none => rfl
  | some path =>
    refine (reads_readFile "config" path).bind fun text => ?_
    cases Options.ofText? text <;> rfl

/-- The template is read without a change. -/
theorem reads_readTemplate (source : Source) :
    Reads scene (readTemplate (readOn time) source)
      (readTemplate (texts scene.directory) source) := by
  refine (reads_readFile "template" source.path).bind fun content => ?_
  have hformat : Reads scene (sourceFormat source) (sourceFormat source) := by
    unfold sourceFormat
    cases source.format with
    | none => rfl
    | some name => cases h : Format.named? name <;> simp only [h] <;> rfl
  exact hformat.bind fun format => rfl

/-- The data are read without a change. -/
theorem reads_readData (data : Option String) :
    Reads scene (readData (readOn time) words data)
      (readData (texts scene.directory) words data) := by
  cases data with
  | none => rfl
  | some path =>
    refine (reads_readFile "data" path).bind fun text => ?_
    cases Json.ofText? text <;> rfl

/-- A plan is worked out without a change. -/
theorem reads_plan (c : Command) :
    Reads scene (plan (readOn time) words c) (planned scene.directory words c) := by
  cases c with
  | render source data output config noCache stats =>
    refine (reads_readOptions config).bind fun options => ?_
    refine (reads_readTemplate source).bind fun template => ?_
    exact (reads_readData data).bind fun json => rfl
  | parse source => exact (reads_readTemplate source).bind fun template => rfl
  | process source data =>
    refine (reads_readTemplate source).bind fun template => ?_
    exact (reads_readData data).bind fun json => rfl
  | formatters => rfl

/-! ### Carrying out a plan -/

/-- Lines that are printed come after those before. -/
theorem outcome_forM_report (lines : List String) (scene : Scene) :
    outcome (lines.forM fun line => ((Host.ofTree time).report line : Step Unit)) scene
      = (.ok (), { scene with stderr := scene.stderr ++ lines }) := by
  induction lines generalizing scene with
  | nil => rw [List.append_nil]; rfl
  | cons line lines ih =>
    have hline : outcome ((Host.ofTree time).report line : Step Unit) scene
        = (.ok (), { scene with stderr := scene.stderr ++ [line] }) := rfl
    show outcome (((Host.ofTree time).report line : Step Unit) >>= fun _ => _) scene = _
    rw [outcome_bind, hline]
    simp only [ih, List.append_assoc, List.singleton_append]

/-- What is reported about a rendering comes after the lines before. -/
theorem outcome_reportStats (p : Plan) (scene : Scene) :
    outcome (p.reportStats (Host.ofTree time)) scene
      = (.ok (),
        { scene with stderr := scene.stderr ++ (p.stats.map (statsLine · time)).toList }) := by
  unfold Plan.reportStats
  cases p.stats with
  | none => rw [Option.map_none, Option.toList_none, List.append_nil]; rfl
  | some result => rfl

/-- Writing gives the tree with the text, or the reason why there is none. -/
theorem outcome_write (path text : String) (scene : Scene) :
    outcome ((Host.ofTree time).write path text : Step _) scene =
      match scene.directory.write path text with
      | .ok after => (.ok (.ok ()), { scene with directory := after })
      | .error cause => (.ok (.error cause), scene) := by
  have hmodify {β : Type} (f : Scene → β × Scene) :
      outcome (modifyGet f : Step β) scene = (.ok (f scene).1, (f scene).2) := rfl
  refine (hmodify _).trans ?_
  cases scene.directory.write path text <;> rfl

/-- The text of a plan is printed, or written to its file where that may be written. -/
theorem outcome_deliver (p : Plan) (scene : Scene) :
    outcome (p.deliver (Host.ofTree time)) scene = match p.file with
      | none => (.ok (), { scene with stdout := scene.stdout ++ p.output })
      | some path =>
        match scene.directory.write path p.output with
        | .ok after => (.ok (), { scene with directory := after })
        | .error cause => (.error (.unwritable path cause), scene) := by
  unfold Plan.deliver
  cases p.file with
  | none => rfl
  | some path =>
    simp only [outcome_bind, outcome_write]
    cases scene.directory.write path p.output <;> rfl

/-! ### Runs -/

/-- The report of a command that fails after printing some lines. -/
def failureReport (lines : List String) (f : Failure) : Report :=
  ⟨1, "", lines ++ ["Error: " ++ f.message]⟩

/-- The report of a plan that is carried out. -/
def planReport (time : String) (p : Plan) : Report :=
  { exit := 0
    stdout := if p.file.isSome then "" else p.output
    stderr := p.warnings ++ (p.stats.map (statsLine · time)).toList }

/-- What comes of a run: there is no plan, or it is printed, or its text is written, or the
text cannot be written. -/
inductive Ran (time : String) (d : Directory) (c : Command) (words : Wording) :
    Report × Directory → Prop where
  | refused {f : Failure} : planned d words c = .error f →
    Ran time d c words (failureReport [] f, d)
  | printed {p : Plan} : planned d words c = .ok p → p.file = none →
    Ran time d c words (planReport time p, d)
  | written {p : Plan} {path : String} {after : Directory} : planned d words c = .ok p →
    p.file = some path → d.write path p.output = .ok after →
    Ran time d c words (planReport time p, after)
  | unwritten {p : Plan} {path cause : String} : planned d words c = .ok p →
    p.file = some path → d.write path p.output = .error cause →
    Ran time d c words (failureReport p.warnings (.unwritable path cause), d)

/-- A run ends as the step does that works out a plan and carries it out. -/
theorem run_eq (time : String) (d : Directory) (c : Command) (words : Wording) :
    run time d c words =
      match outcome (plan (readOn time) words c >>= fun p => p.perform (Host.ofTree time))
        ⟨d, "", []⟩ with
      | (.ok (), scene) => (⟨0, scene.stdout, scene.stderr⟩, scene.directory)
      | (.error f, scene) =>
        (⟨1, scene.stdout, scene.stderr ++ ["Error: " ++ f.message]⟩, scene.directory) := by
  have hexit (x : Step Unit) (exit : Except Failure Unit → StateM Scene Nat) (scene : Scene) :
      (x.run >>= exit).run scene = (exit (outcome x scene).1).run (outcome x scene).2 := rfl
  unfold run Command.perform readOn
  rw [hexit]
  generalize outcome _ ⟨d, "", []⟩ = ended
  obtain ⟨result, scene⟩ := ended
  cases result <;> rfl

/-- Every run comes to one of these ends. -/
theorem ran_run (time : String) (d : Directory) (c : Command) (words : Wording) :
    Ran time d c words (run time d c words) := by
  rw [run_eq, outcome_bind, reads_plan c]
  cases hplan : planned d words c with
  | error f => exact .refused hplan
  | ok p =>
    simp only [Plan.perform, outcome_bind, outcome_forM_report, outcome_deliver]
    cases hfile : p.file with
    | none =>
      simp only [outcome_reportStats, List.nil_append, String.empty_append]
      have h : Ran time d c words (planReport time p, d) := .printed hplan hfile
      rw [planReport, hfile] at h
      exact h
    | some path =>
      cases hwrite : d.write path p.output with
      | ok after =>
        simp only [hwrite, outcome_reportStats, List.nil_append]
        have h : Ran time d c words (planReport time p, after) := .written hplan hfile hwrite
        rw [planReport, hfile] at h
        exact h
      | error cause =>
        simp only [hwrite, List.nil_append]
        exact .unwritten hplan hfile hwrite

end TagTemplate.Proofs.CommandLine
