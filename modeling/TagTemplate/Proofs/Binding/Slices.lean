import TagTemplate.Binding.Evaluate
import TagTemplate.Proofs.Support.Sequences
import TagTemplate.Proofs.Template.WellFormed

/-!
# `TagTemplate.Proofs.Binding.Slices`: evaluation cuts paths only where they go on

Evaluation cuts a marked path into the way to the array and the way from an element,
and a list that is too short would be cut short without a word. Here the same
evaluation is written with slices that have to exist (`arrayPath?`, `elementPath?`):
it is `none` as soon as one of them goes past the end of a path. `resolve?` is that
evaluation, and `key?` the key of an array.

`resolve?_eq_some` says that the two evaluations agree where each marker stands on a
segment of its path (`MarkerInPath`). The parser gives no other tags
(`wellFormed_of_mem_tags`), and for its tags the key tells marked paths apart
(`arrayKey?_inj`), since no name has a point in it.
-/

set_option autoImplicit false

namespace TagTemplate.Proofs.Binding

open TagTemplate.Template
open TagTemplate.Proofs.Support TagTemplate.Proofs.Template

/-! ### Slices -/

/-- The path through a marked segment, if the path has the segment. -/
def arrayPath? (e : Expression) (marker : Marker) : Option (List String) :=
  if marker.segment < e.path.length then some (e.arrayPath marker) else none

/-- The path after a marked segment, if the path has the segment. -/
def elementPath? (e : Expression) (marker : Marker) : Option (List String) :=
  if marker.segment < e.path.length then some (e.elementPath marker) else none

/-- The key of the array that a tag walks, if it walks one. -/
def key? (e : Expression) : Option (Option String) :=
  match e.marker with
  | none => some none
  | some marker => do return some (".".intercalate (← arrayPath? e marker))

/-! ### Evaluation by slices -/

/-- The elements of the array under a marker. -/
def elements? (e : Expression) (marker : Marker) (data : Json) : Option (List Json) := do
  let path ← arrayPath? e marker
  return ((data.follow? path).bind Json.elements?).getD []

/-- The value that an element has at the end of the path. -/
def elementValue? (e : Expression) (marker : Marker) (element : Json) : Option Value := do
  let path ← elementPath? e marker
  return Value.ofJson? (element.follow? path)

/-- The values that a chain gives for the elements of the array. -/
def valuesOf? (e : Expression) (marker : Marker) (calls : List Call) (data : Json) :
    Option (List Value) := do
  let elements ← elements? e marker data
  elements.mapM fun element => do
    return applyCalls element calls (← elementValue? e marker element)

/-- The value of a tag that does not repeat or reduce. -/
def scalarValue? (e : Expression) (data : Json) : Option Value :=
  match e.marker with
  | none => some (applyCalls data e.calls (Value.ofJson? (data.follow? e.path)))
  | some marker =>
    match marker.index with
    | .direct position => do
      let elements ← elements? e marker data
      match elements[position]? with
      | some element => return applyCalls data e.calls (← elementValue? e marker element)
      | none => return applyCalls data e.calls .missing
    | _ => some (applyCalls data e.calls .missing)

/-- The value of a reducing tag. -/
def aggregatedValue? (e : Expression) (marker : Marker) (data : Json) : Option Value :=
  match e.callsFrom with
  | [] => some .missing
  | reducer :: after => do
    let values ← valuesOf? e marker e.callsBefore data
    let present := values.filter fun value => !value.isMissing
    let reduced := (reducer.formatter?.bind fun f => f.reduce? present).getD .missing
    return applyCalls data after reduced

/-- The messages of a tag. -/
def messages? (e : Expression) (data : Json) : Option (List String) :=
  match e.marker with
  | none => some (callMessages e.calls)
  | some marker =>
    match marker.index with
    | .direct _ => some (callMessages e.calls)
    | .iterate => do
      let elements ← elements? e marker data
      return elements.flatMap fun _ => callMessages e.calls
    | .aggregate =>
      match e.callsFrom with
      | [] => some [Expression.noReductionMessage]
      | _ :: after => do
        let elements ← elements? e marker data
        return (elements.flatMap fun _ => callMessages e.callsBefore) ++ callMessages after

/-- Adds the entry and the warnings of a tag. -/
def addTag? (data : Json) (r : Resolved) (tag : Tag) : Option Resolved := do
  let e := tag.toExpression
  let messages ← messages? e data
  let r := { r with warnings := messages.foldl (Resolved.warn tag.id) r.warnings }
  match e.marker with
  | none =>
    return { r with scalar := Dictionary.insert tag.id (← scalarValue? e data) r.scalar }
  | some marker =>
    match marker.index with
    | .direct _ =>
      return { r with scalar := Dictionary.insert tag.id (← scalarValue? e data) r.scalar }
    | .iterate =>
      let values ← valuesOf? e marker e.calls data
      return { r with perElement := Dictionary.insert tag.id values r.perElement }
    | .aggregate =>
      let value ← aggregatedValue? e marker data
      return { r with aggregated := Dictionary.insert tag.id value r.aggregated }

/-- The values that the tags of a template have for a data tree; `none` if a slice of a
path goes past its end. -/
def resolve? (t : ParsedTemplate) (data : Json) : Option Resolved :=
  t.tags.foldlM (addTag? data) Resolved.empty

/-! ### The slices exist -/

/-- The marker stands on a segment of the path. -/
def MarkerInPath (e : Expression) : Prop :=
  ∀ marker ∈ e.marker, marker.segment < e.path.length

section

variable {e : Expression} {marker : Marker}

section

variable (h : marker.segment < e.path.length)
include h

/-- The way to the array is a slice of the path. -/
theorem arrayPath?_eq_some : arrayPath? e marker = some (e.arrayPath marker) := if_pos h

/-- The way from an element is a slice of the path. -/
theorem elementPath?_eq_some : elementPath? e marker = some (e.elementPath marker) := if_pos h

/-- The elements are found by the slice. -/
theorem elements?_eq_some (data : Json) :
    elements? e marker data = some (e.elements marker data) := by
  rw [elements?, arrayPath?_eq_some h]
  rfl

/-- The value of an element is found by the slice. -/
theorem elementValue?_eq_some (element : Json) :
    elementValue? e marker element = some (e.elementValue marker element) := by
  rw [elementValue?, elementPath?_eq_some h]
  rfl

/-- The values of the elements are found by the slices. -/
theorem valuesOf?_eq_some (calls : List Call) (data : Json) :
    valuesOf? e marker calls data
      = some ((e.elements marker data).map (e.valueAt marker calls)) := by
  rw [valuesOf?, elements?_eq_some h]
  refine mapM_eq_some_map fun element _ => ?_
  rw [elementValue?_eq_some h]
  rfl

/-- A reducing tag has its value. -/
theorem aggregatedValue?_eq_some (data : Json) :
    aggregatedValue? e marker data = some (e.aggregatedValue marker data) := by
  unfold aggregatedValue? Expression.aggregatedValue
  cases e.callsFrom with
  | nil => rfl
  | cons reducer after =>
    show (valuesOf? e marker e.callsBefore data).bind _ = _
    rw [valuesOf?_eq_some h]
    rfl

end

section

variable (h : MarkerInPath e)
include h

/-- The key of the array is found by the slice. -/
theorem key?_eq_some : key? e = some e.arrayKey? := by
  unfold key? Expression.arrayKey?
  cases hmarker : e.marker with
  | none => rfl
  | some marker =>
    dsimp only
    rw [arrayPath?_eq_some (h marker hmarker)]
    rfl

/-- A tag that does not repeat or reduce has its value. -/
theorem scalarValue?_eq_some (data : Json) : scalarValue? e data = some (e.scalarValue data) := by
  unfold scalarValue? Expression.scalarValue Expression.baseValue
  cases hmarker : e.marker with
  | none => rfl
  | some marker =>
    have hin := h marker hmarker
    obtain ⟨segment, index⟩ := marker
    cases index with
    | iterate => rfl
    | aggregate => rfl
    | direct position =>
      show (elements? e _ data).bind _ = _
      rw [elements?_eq_some hin, Option.bind_some]
      dsimp only
      cases (e.elements ⟨segment, .direct position⟩ data)[position]? with
      | none => rfl
      | some element =>
        show (elementValue? e _ element).bind _ = _
        rw [elementValue?_eq_some hin]
        rfl

/-- A tag has its messages. -/
theorem messages?_eq_some (data : Json) : messages? e data = some (e.messages data) := by
  unfold messages? Expression.messages
  cases hmarker : e.marker with
  | none => rfl
  | some marker =>
    have hin := h marker hmarker
    obtain ⟨segment, index⟩ := marker
    cases index with
    | direct position => rfl
    | iterate =>
      show (elements? e _ data).bind _ = _
      rw [elements?_eq_some hin]
      rfl
    | aggregate =>
      dsimp only
      cases e.callsFrom with
      | nil => rfl
      | cons reducer after =>
        show (elements? e _ data).bind _ = _
        rw [elements?_eq_some hin]
        rfl

end

end

/-- A tag has its entry. -/
theorem addTag?_eq_some {tag : Tag} (h : MarkerInPath tag.toExpression) (data : Json)
    (r : Resolved) : addTag? data r tag = some (Resolved.addTag data r tag) := by
  show (messages? tag.toExpression data).bind _ = _
  rw [messages?_eq_some h, Option.bind_some, Resolved.addTag]
  cases hmarker : tag.marker with
  | none =>
    show (scalarValue? tag.toExpression data).bind _ = _
    rw [scalarValue?_eq_some h]
    rfl
  | some marker =>
    have hin := h marker hmarker
    obtain ⟨segment, index⟩ := marker
    cases index with
    | direct position =>
      show (scalarValue? tag.toExpression data).bind _ = _
      rw [scalarValue?_eq_some h]
      rfl
    | iterate =>
      show (valuesOf? tag.toExpression _ tag.calls data).bind _ = _
      rw [valuesOf?_eq_some hin]
      rfl
    | aggregate =>
      show (aggregatedValue? tag.toExpression _ data).bind _ = _
      rw [aggregatedValue?_eq_some hin]
      rfl

/-- Evaluation by slices gives what evaluation gives. The induction is on the tags. -/
theorem resolve?_eq_some {t : ParsedTemplate} (h : ∀ tag ∈ t.tags, MarkerInPath tag.toExpression)
    (data : Json) : resolve? t data = some (t.resolve data) := by
  unfold resolve? ParsedTemplate.resolve
  generalize Resolved.empty = r
  generalize t.tags = tags at h
  induction tags generalizing r with
  | nil => rfl
  | cons tag tags ih =>
    rw [List.foldlM_cons, addTag?_eq_some (h tag List.mem_cons_self)]
    exact ih _ fun other hother => h other (List.mem_cons_of_mem _ hother)

/-! ### Keys -/

/-- No name of a path has a point in it. -/
theorem notMem_of_wellFormedPath {path : List String} {marker : Option Marker}
    (h : WellFormedPath path marker) {name : String} (hname : name ∈ path) :
    '.' ∉ name.toList := by
  rcases h.isName_or_empty hname with hname | rfl
  · exact notMem_of_isName hname (by decide)
  · simp

/-- Names without points can be told from their row with points between them. -/
theorem eq_of_intercalate_eq {first second : List String} (hfirst : first ≠ [])
    (hsecond : second ≠ []) (hpointFirst : ∀ name ∈ first, '.' ∉ name.toList)
    (hpointSecond : ∀ name ∈ second, '.' ∉ name.toList)
    (h : ".".intercalate first = ".".intercalate second) : first = second := by
  have hsplit : ∀ names : List String, names ≠ [] → (∀ name ∈ names, '.' ∉ name.toList) →
      splitAt '.' (".".intercalate names).toList = names.map String.toList := by
    intro names hne hpoint
    rw [String.toList_intercalate]
    refine splitAt_intercalate (by simpa using hne) fun part hpart => ?_
    obtain ⟨name, hname, rfl⟩ := List.mem_map.mp hpart
    exact hpoint name hname
  have heq : first.map String.toList = second.map String.toList := by
    rw [← hsplit first hfirst hpointFirst, ← hsplit second hsecond hpointSecond, h]
  exact List.map_injective_iff.mpr (fun _ _ => String.toList_injective) heq

/-- Two tags have one key if and only if their marked paths are one list of names. -/
theorem arrayKey?_inj {a b : Expression} (ha : WellFormedExpression a)
    (hb : WellFormedExpression b) {m n : Marker} (hm : a.marker = some m)
    (hn : b.marker = some n) : a.arrayKey? = b.arrayKey? ↔ a.arrayPath m = b.arrayPath n := by
  have hkey : ∀ {e : Expression} {marker : Marker}, e.marker = some marker →
      e.arrayKey? = some (".".intercalate (e.arrayPath marker)) := by
    intro e marker hmarker
    rw [Expression.arrayKey?, hmarker]
    rfl
  have hne : ∀ {e : Expression} {marker : Marker}, WellFormedExpression e →
      e.marker = some marker → e.arrayPath marker ≠ [] := by
    intro e marker he hmarker hnil
    have hlt := he.path.segment_lt marker hmarker
    rcases List.take_eq_nil_iff.mp hnil with hzero | hempty
    · cases hzero
    · rw [hempty] at hlt
      exact Nat.not_lt_zero _ hlt
  have hpoint : ∀ {e : Expression} {marker : Marker}, WellFormedExpression e →
      ∀ name ∈ e.arrayPath marker, '.' ∉ name.toList :=
    fun he name hname => notMem_of_wellFormedPath he.path (List.mem_of_mem_take hname)
  rw [hkey hm, hkey hn, Option.some_inj]
  exact ⟨eq_of_intercalate_eq (hne ha hm) (hne hb hn) (hpoint ha) (hpoint hb),
    fun h => congrArg _ h⟩

/-! ### Parsed templates -/

/-- The tags of a parsed template are well formed. So evaluating it for any data and
finding the keys of its arrays take only slices that exist, and two marked tags have
one key if and only if their marked paths are one list of names. -/
theorem sliceable_parse (t : Template) :
    (∀ tag ∈ t.parse.tags, WellFormedExpression tag.toExpression) ∧
      (∀ data, resolve? t.parse data = some (t.parse.resolve data)) ∧
      (∀ tag ∈ t.parse.tags, key? tag.toExpression = some tag.arrayKey?) ∧
      ∀ a ∈ t.parse.tags, ∀ b ∈ t.parse.tags, ∀ m n, a.marker = some m → b.marker = some n →
        (a.arrayKey? = b.arrayKey? ↔ a.arrayPath m = b.arrayPath n) := by
  have hwell : ∀ tag ∈ t.parse.tags, WellFormedExpression tag.toExpression :=
    fun tag htag => wellFormed_of_mem_tags htag
  have hin : ∀ tag ∈ t.parse.tags, MarkerInPath tag.toExpression :=
    fun tag htag => (hwell tag htag).path.segment_lt
  refine ⟨hwell, resolve?_eq_some hin, fun tag htag => key?_eq_some (hin tag htag), ?_⟩
  intro a ha b hb m n hm hn
  exact arrayKey?_inj (hwell a ha) (hwell b hb) hm hn

end TagTemplate.Proofs.Binding
