import TagTemplate.Proofs.CommandLine.Directories
import TagTemplate.Proofs.CommandLine.Runs
import TagTemplate.Proofs.Engine.Answers

/-!
# `TagTemplate.Proofs.CommandLine.Delivery`: what a render command delivers

A run of the `render` command that succeeds has printed its text, or has written
it to a file of the tree that it leaves, where it stands under the same path
(`RenderRun.delivered`, `text?_of_write`).

The text and the lines of warning are those of the rendering of the template and
the data (`RenderRun.delivers`). The options file, the switch for the store and the
way to name a format do not reach them, so that two runs on the same text and data
deliver the same. `independent_answers` states this together with the same fact
about engines.
-/

set_option autoImplicit false

namespace TagTemplate.Proofs.CommandLine

open TagTemplate.CommandLine
open TagTemplate.Proofs.Engine (perform perform_run rendered exists_rendered remembers_ofOptions
  remembers_run templatesOf)
open TagTemplate.Proofs.Store (NoCollision noCollision_oneText oneText)
open TagTemplate.Proofs.Support (except_bind_eq_ok)

variable {d : Directory} {path : String} {words : Wording}

/-! ### Runs of the render command -/

/-- A run of the render command on a directory tree. -/
structure RenderRun where
  directory : Directory
  source : Source
  data : Option String
  output : Option String
  config : Option String
  noCache : Bool
  stats : Bool
  /-- The time that the run measures. -/
  time : String
  /-- What a reader of JSON texts says about the texts that it refuses. -/
  words : Wording

namespace RenderRun

variable {r : RenderRun}

/-- The command of a run. -/
def command (r : RenderRun) : Command :=
  .render r.source r.data r.output r.config r.noCache r.stats

/-- The report of a run. -/
def report (r : RenderRun) : Report :=
  (CommandLine.run r.time r.directory r.command r.words).1

/-- The tree that a run leaves. -/
def after (r : RenderRun) : Directory :=
  (CommandLine.run r.time r.directory r.command r.words).2

/-- The text that a run delivers: what the output file holds afterwards, or what was
printed. -/
def delivered (r : RenderRun) : Option String :=
  match r.output with
  | some path => r.after.text? path
  | none => some r.report.stdout

/-- The text of the template file. -/
def content (r : RenderRun) : Option String :=
  r.directory.read? r.source.path

/-- The text of the data file, if there is one to be read. -/
def dataText (r : RenderRun) : Option (Option String) :=
  r.data.map r.directory.read?

end RenderRun

/-- The data in the text of a data file, or an empty object without a file. -/
def dataOf? : Option (Option String) → Option Json
  | none => some (.object [])
  | some text => text.bind Json.ofText?

/-- A run delivers a text, and warnings as lines before the line about the size of
the text, if that is asked for. -/
structure Delivers (r : RenderRun) (text : String) (warnings : List String) : Prop where
  delivered : r.delivered = some text
  lines : ∃ id, r.report.stderr = warnings.map ("warning: " ++ ·) ++
    (if r.stats then [statsLine ⟨text, id, warnings⟩ r.time] else [])

/-! ### Files that are read -/

/-- A file that is read has the text. -/
theorem readFile_eq_ok {what text : String} (h : readFile (texts d) what path = .ok text) :
    d.read path = .ok text := by
  rw [readFile_texts] at h
  cases hread : d.read path with
  | error cause => rw [hread] at h; cases h
  | ok found =>
    rw [hread] at h
    exact congrArg Except.ok (Except.ok.inj h)

/-- A template that is read has the text of its file and the format of its source. -/
theorem readTemplate_eq_ok {source : Source} {t : Template}
    (h : readTemplate (texts d) source = .ok t) :
    d.read source.path = .ok t.content ∧
      sourceFormat source = (.ok t.format : Except Failure Format) := by
  obtain ⟨content, hcontent, h⟩ := except_bind_eq_ok.mp h
  obtain ⟨format, hformat, h⟩ := except_bind_eq_ok.mp h
  obtain rfl := Except.ok.inj h
  exact ⟨readFile_eq_ok hcontent, hformat⟩

/-- Data that are read are the data of the text of their file. -/
theorem readData_eq_ok {data : Option String} {json : Json}
    (h : readData (texts d) words data = .ok json) : dataOf? (data.map d.read?) = some json := by
  cases data with
  | none => exact congrArg some (Except.ok.inj h)
  | some path =>
    obtain ⟨text, htext, h⟩ := except_bind_eq_ok.mp h
    rw [Option.map_some, Directory.read?, readFile_eq_ok htext]
    show Json.ofText? text = some json
    split at h
    · next found hdata => exact hdata.trans (congrArg some (Except.ok.inj h))
    · cases h

/-! ### Runs that succeed -/

/-- A fresh engine renders a template from its parsed form. -/
theorem rendering_eq (options : Options) {t : Template} {data : Json} {result : Rendering}
    (h : rendered t data = some result) : rendering options t data = result := by
  have hcollision : NoCollision ([] ++ [t]) := by
    intro u hu v hv _
    rw [List.nil_append, List.mem_singleton] at hu hv
    rw [hu, hv]
  rw [rendering, ((remembers_ofOptions options).render hcollision data).1, h]
  rfl

/-- The plan of a render command comes from a template and data that were read. -/
theorem planned_render_eq_ok {source : Source} {data output config : Option String}
    {noCache stats : Bool} {p : Plan}
    (h : planned d words (.render source data output config noCache stats) = .ok p) :
    ∃ options t json, readTemplate (texts d) source = .ok t ∧
      readData (texts d) words data = .ok json ∧
      p = ⟨(rendering options t json).warnings.map ("warning: " ++ ·),
        (rendering options t json).text, output,
        if stats then some (rendering options t json) else none⟩ := by
  obtain ⟨options, -, h⟩ := except_bind_eq_ok.mp h
  obtain ⟨t, htemplate, h⟩ := except_bind_eq_ok.mp h
  obtain ⟨json, hjson, h⟩ := except_bind_eq_ok.mp h
  exact ⟨_, t, json, htemplate, hjson, (Except.ok.inj h).symm⟩

/-- A plan that is carried out without a failure has its report, and delivers its
text. -/
theorem run_eq_of_exit {time : String} {c : Command} (h : (run time d c words).1.exit = 0) :
    ∃ p, planned d words c = .ok p ∧ (run time d c words).1 = planReport time p ∧
      ∀ path, p.file = some path → (run time d c words).2.text? path = some p.output := by
  have hrun := ran_run time d c words
  generalize run time d c words = ended at h hrun
  cases hrun with
  | refused => cases h
  | printed hplan hfile =>
    exact ⟨_, hplan, rfl, fun path hpath => nomatch hfile.symm.trans hpath⟩
  | written hplan hfile hwrite =>
    refine ⟨_, hplan, rfl, fun path hpath => ?_⟩
    obtain rfl := Option.some.inj (hfile.symm.trans hpath)
    exact text?_of_write hwrite
  | unwritten => cases h

/-- A run that succeeds delivers the rendering of its template and its data. -/
theorem RenderRun.delivers {r : RenderRun} (h : r.report.exit = 0) :
    ∃ t data, r.content = some t.content ∧ dataOf? r.dataText = some data ∧
      ∀ result, rendered t data = some result → Delivers r result.text result.warnings := by
  obtain ⟨p, hplan, hreport, hwritten⟩ := run_eq_of_exit h
  obtain ⟨options, t, data, htemplate, hdata, hp⟩ := planned_render_eq_ok hplan
  have hcontent : r.content = some t.content := by
    rw [RenderRun.content, Directory.read?, (readTemplate_eq_ok htemplate).1]
    rfl
  refine ⟨t, data, hcontent, readData_eq_ok hdata, fun result hresult => ?_⟩
  rw [rendering_eq options hresult] at hp
  refine ⟨?_, result.templateId, ?_⟩
  · rw [RenderRun.delivered]
    cases houtput : r.output with
    | none =>
      have hreported : r.report = planReport r.time p := hreport
      rw [hreported, hp, houtput]
      rfl
    | some path =>
      have hfile : p.file = some path := by rw [hp, houtput]
      have htext : p.output = result.text := by rw [hp]
      exact htext ▸ hwritten path hfile
  · have hreported : r.report = planReport r.time p := hreport
    rw [hreported, hp]
    show _ ++ (Option.map (statsLine · r.time) (if r.stats then some result else none)).toList = _
    cases r.stats with
    | true => rfl
    | false => rfl

/-! ### Independence -/

/-- An engine with any options answers after any history from the arguments alone.
What it renders, and what a run of the render command delivers, has the text and the
warnings of the content and the data. -/
theorem independent_answers :
    (∀ options operations operation,
      NoCollision (templatesOf (operations ++ [operation])) →
        (perform (Engine.run options operations) operation).1 = operation.answer) ∧
    (∀ content data, ∃ text warnings, ∀ format options operations,
      NoCollision (templatesOf operations ++ [⟨content, format⟩]) →
        ((Engine.run options operations).render ⟨content, format⟩ data).1
          = some ⟨text, Template.id ⟨content, format⟩, warnings⟩) ∧
    ∀ r r' : RenderRun, r.report.exit = 0 → r'.report.exit = 0 →
      r.content = r'.content → r.dataText = r'.dataText →
        ∃ text warnings, Delivers r text warnings ∧ Delivers r' text warnings := by
  refine ⟨fun options operations operation => perform_run options, ?_, ?_⟩
  · intro content data
    obtain ⟨text, warnings, hrendered⟩ := exists_rendered content data
    refine ⟨text, warnings, fun format options operations hcollision => ?_⟩
    have hremembers := remembers_run options (hcollision.subset (List.subset_append_left _ _))
    rw [(hremembers.render hcollision data).1]
    exact hrendered format
  · intro r r' hexit hexit' hcontent hdata
    obtain ⟨t, data, ht, hjson, hdelivers⟩ := r.delivers hexit
    obtain ⟨t', data', ht', hjson', hdelivers'⟩ := r'.delivers hexit'
    have htext : t.content = t'.content := by
      rw [hcontent, ht'] at ht
      exact (Option.some.inj ht).symm
    have hsame : data = data' := by
      rw [hdata, hjson'] at hjson
      exact (Option.some.inj hjson).symm
    obtain ⟨text, warnings, hrendered⟩ := exists_rendered t.content data
    exact ⟨text, warnings, hdelivers _ (hrendered t.format),
      hdelivers' _ (by rw [← hsame, ← hrendered t'.format, htext])⟩

/-- A template, its data and options in files. -/
def threeFiles : Directory :=
  .ofFiles [("letter.html", "Dear \x7bd.name\x7d"), ("in/data.json", "\x7b\"name\":\"Ann\"\x7d"),
    ("options.json", "\x7b\"cacheCapacity\":3\x7d")]

/-- A run that prints with default options. -/
def printed : RenderRun :=
  ⟨threeFiles, ⟨"letter.html", none⟩, some "in/data.json", none, none, false, false, "1ms",
    .plain⟩

/-- A run that writes a file, in another format and with other options. -/
def written : RenderRun :=
  ⟨threeFiles, ⟨"letter.html", some "markdown"⟩, some "in/data.json", some "in/out.txt",
    some "options.json", true, true, "2ms", .plain⟩

/-- An engine that has seen a text in one format renders it in another, and both runs
deliver the same. -/
theorem independent_answers_letter :
    NoCollision [oneText .txt, oneText .html] ∧
      (perform (Engine.run .default [.parse (oneText .txt)])
        (.render (oneText .html) (.object []))).1
          = .rendering (rendered (oneText .html) (.object [])) ∧
      (∃ text warnings, ((Engine.run .default [.parse (oneText .txt)]).render
        (oneText .html) (.object [])).1 = some ⟨text, (oneText .html).id, warnings⟩) ∧
      (printed.report.exit = 0 ∧ written.report.exit = 0) ∧
      ∃ text warnings, Delivers printed text warnings ∧ Delivers written text warnings := by
  obtain ⟨hperform, hrender, hruns⟩ := independent_answers
  have hexit : printed.report.exit = 0 ∧ written.report.exit = 0 := by decide +kernel
  obtain ⟨text, warnings, hsame⟩ := hrender (oneText .html).content (.object [])
  exact ⟨noCollision_oneText, hperform .default [.parse (oneText .txt)] _ noCollision_oneText,
    ⟨text, warnings, hsame .html .default [.parse (oneText .txt)] noCollision_oneText⟩, hexit,
    hruns printed written hexit.1 hexit.2 rfl rfl⟩

end TagTemplate.Proofs.CommandLine
