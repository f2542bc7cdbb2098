import TagTemplate.Engine
import TagTemplate.Proofs.Layout.Substitution
import TagTemplate.Proofs.Store.History

/-!
# `TagTemplate.Proofs.Engine.Answers`: engines answer without memory

An engine is asked to parse, to resolve and to render. `run` gives the engine
after a list of such operations, and `perform` an answer and the engine after it.
Each operation has an answer that is made from its own arguments, by parsing,
resolving and rendering in turn and without an engine (`Operation.answer`).

Only the store can carry something from one operation to the next. Its entries are
parsed templates under their identifiers (`Remembers`, from the invariant of the
store), so where the digest has no collision an engine with any options answers
after any history as if it had none (`perform_run`).

The format of a template is part of its identifier and reaches nothing else: the
text and the warnings of a rendering are those of the content and the data
(`exists_rendered`).
-/

set_option autoImplicit false

namespace TagTemplate.Proofs.Engine

open TagTemplate.Layout
open TagTemplate.Proofs.Layout TagTemplate.Proofs.Store TagTemplate.Proofs.Template

/-! ### Operations -/

/-- What an engine is asked to do. -/
inductive Operation where
  | parse (t : Template)
  /-- Resolves the tags of a parsed template. -/
  | resolve (t : ParsedTemplate) (data : Json)
  | render (t : Template) (data : Json)
  /-- Renders the request in a text. -/
  | renderText (text : String)

/-- What an engine answers. -/
inductive Answer where
  | parsed (t : ParsedTemplate)
  | resolved (r : Resolved)
  | rendering (r : Option Rendering)
  /-- The text holds no request. -/
  | refused
  deriving DecidableEq

/-- The answer of an engine, and the engine afterwards. -/
def perform (e : Engine) : Operation → Answer × Engine
  | .parse t => (.parsed (e.parse t).1, (e.parse t).2)
  | .resolve t data => (.resolved (e.resolve t data), e)
  | .render t data => (.rendering (e.render t data).1, (e.render t data).2)
  | .renderText text =>
    match (e.renderText text).1 with
    | some r => (.rendering r, (e.renderText text).2)
    | none => (.refused, (e.renderText text).2)

/-- The engine with the given options after some operations. -/
def run (options : Options) (operations : List Operation) : Engine :=
  operations.foldl (fun e operation => (perform e operation).2) (Engine.ofOptions options)

/-- The template rendered from its parsed form and the values of its tags. -/
def rendered (t : Template) (data : Json) : Option Rendering :=
  t.parse.render? (t.parse.resolve data)

namespace Operation

/-- The answer made from the arguments alone. -/
def answer : Operation → Answer
  | parse t => .parsed t.parse
  | resolve t data => .resolved (t.resolve data)
  | render t data => .rendering (rendered t data)
  | renderText text =>
    match Request.ofText? text with
    | some r => .rendering (rendered r.template r.data)
    | none => .refused

/-- The templates that an operation has parsed. -/
def templates : Operation → List Template
  | parse t => [t]
  | resolve _ _ => []
  | render t _ => [t]
  | renderText text => ((Request.ofText? text).map Request.template).toList

end Operation

/-- The templates that operations have parsed. -/
def templatesOf (operations : List Operation) : List Template :=
  operations.flatMap Operation.templates

/-! ### Engines and their stores -/

variable {e : Engine} {ts : List Template}

/-- The store of an engine, if it has one, keeps some of the templates. -/
def Remembers (e : Engine) (ts : List Template) : Prop :=
  ∀ s, e.store = some s → ∃ us ⊆ ts, Keeps s us

/-- What is kept of some templates is kept of more. -/
theorem Remembers.mono (h : Remembers e ts) {us : List Template} (hsubset : ts ⊆ us) :
    Remembers e us := by
  intro s hs
  obtain ⟨kept, hkept, hkeeps⟩ := h s hs
  exact ⟨kept, List.Subset.trans hkept hsubset, hkeeps⟩

/-- A new engine keeps nothing. -/
theorem remembers_ofOptions (options : Options) : Remembers (Engine.ofOptions options) [] := by
  intro s hs
  simp only [Engine.ofOptions] at hs
  split at hs
  · obtain rfl := Option.some.inj hs
    exact ⟨[], List.nil_subset _, keeps_empty _⟩
  · cases hs

/-- An engine gives the parsed template, whether it has a store or not. -/
theorem Remembers.parse (h : Remembers e ts) {t : Template}
    (hcollision : NoCollision (ts ++ [t])) :
    (e.parse t).1 = t.parse ∧ Remembers (e.parse t).2 (ts ++ [t]) := by
  cases hstore : e.store with
  | none =>
    have hparse : e.parse t = (t.parse, e) := by simp only [Engine.parse, hstore]
    rw [hparse]
    exact ⟨rfl, h.mono (List.subset_append_left _ _)⟩
  | some s =>
    have hparse : e.parse t = ((s.get t).1.template, { e with store := some (s.get t).2 }) := by
      simp only [Engine.parse, hstore]
    rw [hparse]
    obtain ⟨us, hus, hkeeps⟩ := h s hstore
    have hused : NoCollision (t :: us) := by
      refine hcollision.subset (List.cons_subset.mpr ⟨?_, ?_⟩)
      · simp
      · exact List.Subset.trans hus (List.subset_append_left _ _)
    obtain ⟨hfound, -, hnext⟩ := hkeeps.get hused
    refine ⟨congrArg Store.Found.template hfound, ?_⟩
    intro s' hs'
    obtain rfl := Option.some.inj hs'
    refine ⟨us ++ [t], ?_, hnext⟩
    exact List.append_subset.mpr
      ⟨List.Subset.trans hus (List.subset_append_left _ _), List.subset_append_right _ _⟩

/-- Rendering by an engine is rendering from the parsed template. -/
theorem Remembers.render (h : Remembers e ts) {t : Template}
    (hcollision : NoCollision (ts ++ [t])) (data : Json) :
    (e.render t data).1 = rendered t data ∧ Remembers (e.render t data).2 (ts ++ [t]) := by
  obtain ⟨hparse, hnext⟩ := h.parse hcollision
  refine ⟨?_, hnext⟩
  show (e.parse t).1.render? ((e.parse t).1.resolve data) = _
  rw [hparse, rendered]

/-- An operation is answered from its arguments. -/
theorem Remembers.perform (h : Remembers e ts) (operation : Operation)
    (hcollision : NoCollision (ts ++ operation.templates)) :
    (perform e operation).1 = operation.answer ∧
      Remembers (perform e operation).2 (ts ++ operation.templates) := by
  cases operation with
  | parse t =>
    obtain ⟨hparse, hnext⟩ := h.parse hcollision
    exact ⟨congrArg Answer.parsed hparse, hnext⟩
  | resolve t data => exact ⟨rfl, h.mono (List.subset_append_left _ _)⟩
  | render t data =>
    obtain ⟨hrender, hnext⟩ := h.render hcollision data
    exact ⟨congrArg Answer.rendering hrender, hnext⟩
  | renderText text =>
    simp only [Operation.templates] at hcollision ⊢
    simp only [Engine.perform, Engine.renderText, Operation.answer]
    cases hrequest : Request.ofText? text with
    | none => exact ⟨rfl, h.mono (List.subset_append_left _ _)⟩
    | some r =>
      rw [hrequest] at hcollision
      obtain ⟨hrender, hnext⟩ := h.render hcollision r.data
      exact ⟨congrArg Answer.rendering hrender, hnext⟩

/-- The store of an engine keeps some of the templates of its operations. -/
theorem remembers_run (options : Options) {operations : List Operation}
    (hcollision : NoCollision (templatesOf operations)) :
    Remembers (run options operations) (templatesOf operations) := by
  induction operations using List.reverseRecOn with
  | nil => exact remembers_ofOptions options
  | append_singleton operations operation ih =>
    have htemplates : templatesOf (operations ++ [operation])
        = templatesOf operations ++ operation.templates := by simp [templatesOf]
    rw [htemplates] at hcollision ⊢
    rw [run, List.foldl_append]
    exact ((ih (hcollision.subset (List.subset_append_left _ _))).perform operation
      hcollision).2

/-- After any history each operation is answered from its arguments. -/
theorem perform_run (options : Options) {operations : List Operation} {operation : Operation}
    (hcollision : NoCollision (templatesOf (operations ++ [operation]))) :
    (perform (run options operations) operation).1 = operation.answer := by
  have htemplates : templatesOf (operations ++ [operation])
      = templatesOf operations ++ operation.templates := by simp [templatesOf]
  rw [htemplates] at hcollision
  have hremembers := remembers_run options (hcollision.subset (List.subset_append_left _ _))
  exact (hremembers.perform operation hcollision).1

/-! ### Formats -/

/-- A template under another identifier and in another format. -/
def relabel (t : ParsedTemplate) (id : String) (format : Format) : ParsedTemplate :=
  { t with id, format }

/-- In another format a content has the same parsed template but for the labels. -/
theorem parse_eq_relabel (content : String) (format other : Format) :
    Template.parse ⟨content, other⟩
      = relabel (Template.parse ⟨content, format⟩) (Template.id ⟨content, other⟩) other := by
  simp only [relabel, Template.parse, Template.parseWithId]

section Relabel

variable (t : ParsedTemplate) (id : String) (format : Format) (r : Resolved)

@[simp]
theorem id_relabel : (relabel t id format).id = id := rfl

@[simp]
theorem warnings_relabel : (relabel t id format).warnings = t.warnings := rfl

@[simp]
theorem resolve_relabel (data : Json) : (relabel t id format).resolve data = t.resolve data := rfl

/-- The labels do not reach the rendered parts. -/
theorem renderFrom?_relabel (cursor : Nat) (regions : List Span) :
    renderFrom? (relabel t id format) r cursor regions = renderFrom? t r cursor regions := by
  induction regions generalizing cursor with
  | nil => rfl
  | cons region regions ih =>
    rw [renderFrom?, renderFrom?, ih]
    rfl

/-- The labels do not reach the rendered content. -/
@[simp]
theorem renderText?_relabel : renderText? (relabel t id format) r = renderText? t r := by
  have hregions : repeatRegions? (relabel t id format) = repeatRegions? t := rfl
  simp only [renderText?, hregions, renderFrom?_relabel]

end Relabel

/-- Every template can be rendered, and in every format its content gives the same
text and the same warnings. -/
theorem exists_rendered (content : String) (data : Json) :
    ∃ text warnings, ∀ format,
      rendered ⟨content, format⟩ data = some ⟨text, Template.id ⟨content, format⟩, warnings⟩ := by
  have hfits := fits_parse ⟨content, .txt⟩
  generalize hparse : Template.parse ⟨content, .txt⟩ = first at hfits
  have hcontent : first.content = content := by rw [← hparse]; rfl
  let r := first.resolve data
  obtain ⟨regions, blocks, -, -, -, htext⟩ := exists_renderText? (hcontent ▸ hfits) r
  refine ⟨String.ofList (blocks.flatMap (Block.render first.content.toList r)),
    first.warnings.map Template.Warning.display ++ r.warnings.map Resolved.Warning.display,
    fun format => ?_⟩
  rw [rendered, parse_eq_relabel content .txt format, hparse, ParsedTemplate.render?,
    resolve_relabel, renderText?_relabel, htext, Option.map_some, id_relabel, warnings_relabel]

end TagTemplate.Proofs.Engine
