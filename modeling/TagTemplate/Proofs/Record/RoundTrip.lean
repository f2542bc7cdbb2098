import TagTemplate.Layout.Rendering
import TagTemplate.Proofs.Record.Documents
import TagTemplate.Proofs.Template.WellFormed

/-!
# `TagTemplate.Proofs.Record.RoundTrip`: what is written is read back

A parsed template, the values that it resolves to, and a request that was read are
each read back from the compact text of their document (`documents_roundTrip`).

What the documents ask of the records holds of all that the pipeline makes. Numbers
are finite. Natural numbers are offsets into the content, segments and indices, which
64 bits hold if they hold the size of the content. Resolved values are in the order of
their identifiers, and data that was read is well-formed.

What is assumed of numbers is that those which occur read back. It is a condition on
each of them and not on all finite numbers at once: the reader rounds twice and does
not give back every number that is written in the fewest digits.
-/

set_option autoImplicit false

namespace TagTemplate.Proofs.Record

open TagTemplate.Json (Document)
open TagTemplate.Json.Numeral (coefficientLimit)
open TagTemplate.Template TagTemplate.Text
open TagTemplate.Proofs.Binding TagTemplate.Proofs.Json TagTemplate.Proofs.Template
open TagTemplate.Proofs.Text

/-- The number of a tame value is finite. -/
theorem isFinite_of_mem_valueNumbers {v : Value} (hv : Tame v) {x : Binary64}
    (h : x ∈ valueNumbers v) : x.isFinite = true := by
  cases v with
  | number y =>
    obtain rfl := List.mem_singleton.mp h
    exact tame_number.mp hv
  | _ => cases h

/-- Numbers that read back and are finite are read as decimals. -/
theorem readsAsDecimal_of_readBack {xs : List Binary64} (h : NumbersReadBack xs)
    (hfinite : ∀ x ∈ xs, x.isFinite = true) : ∀ x ∈ xs, ReadsAsDecimal x :=
  fun x hx => literalNumber?_numberText (hfinite x hx) (h x hx (hfinite x hx))

/-! ### Parsed templates -/

section Parsed

variable {t : Template}

/-- The literals of a tag of a parsed template are tame. -/
theorem tameCalls_of_mem_tags {tag : Tag} (h : tag ∈ t.parse.tags) : TameCalls tag.calls :=
  (wellFormed_of_mem_tags h).tameCalls

/-- The binary64 values of a parsed template are finite. -/
theorem isFinite_of_mem_templateNumbers {x : Binary64} (h : x ∈ templateNumbers t.parse) :
    x.isFinite = true := by
  obtain ⟨tag, htag, hx⟩ := List.mem_flatMap.mp h
  obtain ⟨call, hcall, hx⟩ := List.mem_flatMap.mp hx
  obtain ⟨p, hp, hx⟩ := List.mem_flatMap.mp hx
  cases p with
  | dynamic path => cases hx
  | literal v =>
    exact isFinite_of_mem_valueNumbers (tameCalls_of_mem_tags htag call hcall v hp) hx

/-- 64 bits hold the natural numbers of a tag of a parsed template, if they hold the
size of the content. -/
theorem inBounds_of_mem_tags (hsize : byteCount t.content.toList ≤ coefficientLimit) {tag : Tag}
    (h : tag ∈ t.parse.tags) : InBounds tag := by
  obtain ⟨hstart, hstop⟩ := (fits_parse t).isBoundary h
  have hraw := byteCount_slice? ((fits_parse t).slice tag h)
  have hstopSize := hstop.le
  obtain ⟨inner, htext, hinner⟩ := raw_of_mem_tagsFrom (wellFormed_pieces _) h
  -- The text between the braces is no longer than the content, nor is its path.
  have hlength : inner.length ≤ coefficientLimit := by
    have hcharacters := length_le_byteCount tag.raw.toList
    have : tag.raw.toList.length = inner.length + 2 := by simp [htext]
    omega
  have hmarker := boundedMarker_of_ofText? hinner
  exact {
    start := Nat.le_trans hstart.le hsize
    stop := Nat.le_trans hstopSize hsize
    segment := fun m hm => Nat.le_trans (hmarker m hm).1 hlength
    position := fun m hm => (hmarker m hm).2 }

/-- 64 bits hold the offset of a warning, if they hold the size of the content. -/
theorem offset_le_of_mem_warnings (hsize : byteCount t.content.toList ≤ coefficientLimit)
    {w : Template.Warning} (h : w ∈ t.parse.warnings) : w.offset ≤ coefficientLimit := by
  have hmark := (warningMarks_sublist 0 _).subset (List.mem_map_of_mem h)
  have hslice := slice?_of_mem_marksFrom [] hmark
  rw [List.nil_append, flatMap_text_pieces] at hslice
  exact Nat.le_trans (isBoundary_of_slice? hslice).1.le hsize

end Parsed

/-! ### Resolved values -/

section Resolved

variable {r : Resolved}

/-- Tidy values are in order. -/
theorem inOrder_of_tidy (h : Tidy r) : InOrder r :=
  ⟨h.scalar.sorted, h.perElement.sorted, h.aggregated.sorted⟩

/-- The binary64 values of tidy values are finite. -/
theorem isFinite_of_mem_resolvedNumbers (h : Tidy r) {x : Binary64} (hx : x ∈ resolvedNumbers r) :
    x.isFinite = true := by
  obtain ⟨v, hv, hx⟩ := List.mem_flatMap.mp hx
  refine isFinite_of_mem_valueNumbers ?_ hx
  rcases List.mem_append.mp hv with hv | hv
  · rcases List.mem_append.mp hv with hv | hv
    · obtain ⟨entry, hentry, rfl⟩ := List.mem_map.mp hv
      exact h.scalar.values entry hentry
    · obtain ⟨entry, hentry, hv⟩ := List.mem_flatMap.mp hv
      exact h.perElement.values entry hentry v hv
  · obtain ⟨entry, hentry, rfl⟩ := List.mem_map.mp hv
    exact h.aggregated.values entry hentry

end Resolved

/-! ### Requests -/

/-- The data of a request that was read is well-formed. -/
theorem wellFormed_data_of_ofText? {text : String} {r : Request}
    (h : Request.ofText? text = some r) : WellFormed (Json.nestingLimit - 1) r.data := by
  obtain ⟨d, -, h⟩ := Option.bind_eq_some_iff.mp h
  obtain ⟨fields, -, h⟩ := Option.bind_eq_some_iff.mp h
  obtain ⟨template, -, h⟩ := Option.bind_eq_some_iff.mp h
  obtain ⟨data, hdata, h⟩ := Option.bind_eq_some_iff.mp h
  obtain rfl := Option.some.inj h
  -- Data that is left out is null.
  unfold Record.optional? at hdata
  split at hdata
  · exact wellFormed_of_toJson? _ _ _ hdata
  · obtain rfl := Option.some.inj hdata
    trivial

/-! ### Round trips -/

section RoundTrips

variable {t : Template}

/-- A parsed template is read back. -/
theorem ofText?_parse (hsize : byteCount t.content.toList < Nat.pow 2 64)
    (hnumbers : NumbersReadBack (templateNumbers t.parse)) :
    ParsedTemplate.ofText? t.parse.toDocument.compact = some t.parse := by
  have hfits : byteCount t.content.toList ≤ coefficientLimit := Nat.le_sub_one_of_lt hsize
  refine (reads_parsedTemplate (fun tag htag => inBounds_of_mem_tags hfits htag)
    (fun w hw => offset_le_of_mem_warnings hfits hw) ?_).ofText?
  exact readsAsDecimal_of_readBack hnumbers fun x hx => isFinite_of_mem_templateNumbers hx

/-- The values that a template resolves to are read back. -/
theorem ofText?_resolve {data : Json}
    (hnumbers : NumbersReadBack (resolvedNumbers (t.parse.resolve data))) :
    Resolved.ofText? (t.parse.resolve data).toDocument.compact = some (t.parse.resolve data) := by
  have htidy : Tidy (t.parse.resolve data) :=
    tidy_resolve (fun tag htag => tameCalls_of_mem_tags htag) data
  refine (reads_resolved (inOrder_of_tidy htidy) ?_).ofText?
  exact readsAsDecimal_of_readBack hnumbers fun x hx => isFinite_of_mem_resolvedNumbers htidy hx

/-- A request that was read is read back. -/
theorem ofText?_request {text : String} {r : Request} (h : Request.ofText? text = some r)
    (hnumbers : NumbersReadBack (decimals r.data)) :
    Request.ofText? r.toDocument.compact = some r :=
  (reads_request (wellFormed_data_of_ofText? h) hnumbers).ofText?

end RoundTrips

/-- The rendering of what two texts hold, a parsed template and resolved values; `none`
if one of them holds none. -/
def renderTexts? (template values : String) : Option Rendering := do
  let t ← ParsedTemplate.ofText? template
  let r ← Resolved.ofText? values
  t.render? r

/-- The documents of the pipeline round-trip, if the numbers in them read back from
their literals.

* A parsed template is read back from its compact text, if 64 bits hold the size of
  its content, as they do for every text in a memory.
* The values that a template resolves to, for any data, are read back from their
  compact text.
* So what both texts hold renders as the originals do.
* A request that was read from any text is read back from its compact text. -/
theorem documents_roundTrip :
    (∀ t : Template, byteCount t.content.toList < Nat.pow 2 64 →
      NumbersReadBack (templateNumbers t.parse) →
      ParsedTemplate.ofText? t.parse.toDocument.compact = some t.parse) ∧
    (∀ (t : Template) (data : Json), NumbersReadBack (resolvedNumbers (t.parse.resolve data)) →
      Resolved.ofText? (t.parse.resolve data).toDocument.compact = some (t.parse.resolve data)) ∧
    (∀ (t : Template) (data : Json), byteCount t.content.toList < Nat.pow 2 64 →
      NumbersReadBack (templateNumbers t.parse) →
      NumbersReadBack (resolvedNumbers (t.parse.resolve data)) →
      renderTexts? t.parse.toDocument.compact (t.parse.resolve data).toDocument.compact
        = t.parse.render? (t.parse.resolve data)) ∧
    (∀ (text : String) (r : Request), Request.ofText? text = some r →
      NumbersReadBack (decimals r.data) → Request.ofText? r.toDocument.compact = some r) := by
  refine ⟨fun t hsize hnumbers => ?parsed, fun t data hnumbers => ?resolved,
    fun t data hsize htemplate hdata => ?rendered, fun text r hread hnumbers => ?request⟩
  case parsed => exact ofText?_parse hsize hnumbers
  case resolved => exact ofText?_resolve hnumbers
  case rendered =>
    rw [renderTexts?, ofText?_parse hsize htemplate, ofText?_resolve hdata]
    rfl
  case request => exact ofText?_request hread hnumbers

/-- A template that adds a number to a field of its data. -/
def surcharge : Template := ⟨"\x7bd.price:add(0.5)\x7d", .txt⟩

/-- Data with the field, a number. -/
def priceData : Json :=
  .object [("price", .number (.decimal (Binary64.ofDecimal false 125 (-2))))]

/-- A request for the template and the data, not in the compact form. -/
def surchargeRequest : String :=
  "\x7b \"template\": \x7b \"content\": \"\x7bd.price:add(0.5)\x7d\" \x7d, \"data\": \x7b \"price\": 1.25 \x7d \x7d"

/-- The template with its number `0.5`, the value `1.75` that it resolves to, and the
request round-trip. -/
theorem documents_roundTrip_surcharge :
    templateNumbers surcharge.parse = [Binary64.ofDecimal false 5 (-1)] ∧
    resolvedNumbers (surcharge.parse.resolve priceData) = [Binary64.ofDecimal false 175 (-2)] ∧
    ParsedTemplate.ofText? surcharge.parse.toDocument.compact = some surcharge.parse ∧
    Resolved.ofText? (surcharge.parse.resolve priceData).toDocument.compact
      = some (surcharge.parse.resolve priceData) ∧
    renderTexts? surcharge.parse.toDocument.compact
        (surcharge.parse.resolve priceData).toDocument.compact
      = surcharge.parse.render? (surcharge.parse.resolve priceData) ∧
    ∃ r, Request.ofText? surchargeRequest = some r ∧
      Request.ofText? r.toDocument.compact = some r := by
  have hsize : byteCount surcharge.content.toList < Nat.pow 2 64 := by decide +kernel
  have htemplate : NumbersReadBack (templateNumbers surcharge.parse) := by decide +kernel
  have hdata : NumbersReadBack (resolvedNumbers (surcharge.parse.resolve priceData)) := by
    decide +kernel
  have hread : (Request.ofText? surchargeRequest).any
      (fun r => decide (NumbersReadBack (decimals r.data))) = true := by decide +kernel
  obtain ⟨r, hr, hnumbers⟩ := (Option.any_eq_true _ _).mp hread
  exact ⟨by decide +kernel, by decide +kernel, documents_roundTrip.1 _ hsize htemplate,
    documents_roundTrip.2.1 _ _ hdata, documents_roundTrip.2.2.1 _ _ hsize htemplate hdata,
    r, hr, documents_roundTrip.2.2.2 _ r hr (of_decide_eq_true hnumbers)⟩

end TagTemplate.Proofs.Record
