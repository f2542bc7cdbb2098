import TagTemplate.Proofs.Record.Reading
import TagTemplate.Record.Request

/-!
# `TagTemplate.Proofs.Record.Documents`: each record is read from its document

The document of each record is read as that record, from values up to parsed
templates, resolved values and requests. What this needs is said of the record:
its binary64 values are read as themselves (`ReadsAsDecimal`), and its natural
numbers have 64 bits (`InBounds`). The dictionaries of resolved values must be in
order.
-/

set_option autoImplicit false

namespace TagTemplate.Proofs.Record

open TagTemplate.Json (Document)
open TagTemplate.Json.Numeral (coefficientLimit)
open TagTemplate.Record
open TagTemplate.Proofs.Json

/-! ### Values -/

/-- The literal of a value is read as that value. -/
def ReadsAsDecimal (x : Binary64) : Prop :=
  literalNumber? (Json.numberText x) = some (.decimal x)

/-- The binary64 values of a value: itself, if it is a number. -/
def valueNumbers : Value → List Binary64
  | .number x => [x]
  | _ => []

/-- A value is read from its document. -/
theorem reads_value {v : Value} (h : ∀ x ∈ valueNumbers v, ReadsAsDecimal x) :
    Reads Value.ofDocument? v.toDocument v := by
  cases v with
  | missing => exact ⟨trivial, rfl⟩
  | boolean b => exact ⟨trivial, rfl⟩
  | text s => exact ⟨rfl, rfl⟩
  | number x =>
    have hliteral : literalNumber? (Json.numberText x) = some (.decimal x) :=
      h x (List.mem_singleton_self x)
    refine ⟨isSome_of_literalNumber? hliteral, ?_⟩
    show (number? (.number (Json.numberText x))).map _ = _
    rw [number?_number, hliteral]
    rfl

/-- A format is read from its document. -/
theorem reads_format (f : Format) : Reads Format.ofDocument? f.toDocument f :=
  ⟨rfl, Format.exactly?_name f⟩

/-! ### Tags -/

/-- The binary64 values of a parameter. -/
def parameterNumbers : Parameter → List Binary64
  | .literal value => valueNumbers value
  | .dynamic _ => []

/-- The binary64 values in the parameters of a tag. -/
def tagNumbers (tag : Tag) : List Binary64 :=
  tag.calls.flatMap fun call => call.parameters.flatMap parameterNumbers

/-- The natural numbers of a tag have 64 bits. -/
structure InBounds (tag : Tag) : Prop where
  start : tag.span.start ≤ coefficientLimit
  stop : tag.span.stop ≤ coefficientLimit
  segment : ∀ marker ∈ tag.marker, marker.segment ≤ coefficientLimit
  position : ∀ marker ∈ tag.marker, ∀ position, marker.index = .direct position →
    position ≤ coefficientLimit

/-- A span is read from its document. -/
theorem reads_span {s : Span} (hstart : s.start ≤ coefficientLimit)
    (hstop : s.stop ≤ coefficientLimit) : Reads Span.ofDocument? s.toDocument s := by
  have hfirst := reads_natural hstart
  have hsecond := reads_natural hstop
  refine ⟨writable_record_iff.mpr (by simp [hfirst.writable, hsecond.writable]), ?_⟩
  simp [Span.toDocument, Span.ofDocument?, hfirst.read, hsecond.read]

/-- An index is read from its document. -/
theorem reads_index {i : Index} (h : ∀ position, i = .direct position → position ≤ coefficientLimit) :
    Reads Index.ofDocument? i.toDocument i := by
  cases i with
  | direct position =>
    have hposition := reads_natural (h position rfl)
    refine ⟨writable_record_iff.mpr (by simp [hposition.writable]), ?_⟩
    show (natural? (.natural position)).map Index.direct = _
    rw [hposition.read]
    rfl
  | iterate => exact ⟨rfl, rfl⟩
  | aggregate => exact ⟨rfl, rfl⟩

/-- A marker is read from its document. -/
theorem reads_marker {m : Marker} (hsegment : m.segment ≤ coefficientLimit)
    (hposition : ∀ position, m.index = .direct position → position ≤ coefficientLimit) :
    Reads Marker.ofDocument? m.toDocument m := by
  have hfirst := reads_natural hsegment
  have hsecond := reads_index hposition
  refine ⟨writable_record_iff.mpr (by simp [hfirst.writable, hsecond.writable]), ?_⟩
  simp [Marker.toDocument, Marker.ofDocument?, hfirst.read, hsecond.read]

/-- A marker that may be absent is read from its document, or from null. -/
theorem reads_maybeMarker {m : Option Marker}
    (hsegment : ∀ marker ∈ m, marker.segment ≤ coefficientLimit)
    (hposition : ∀ marker ∈ m, ∀ position, marker.index = .direct position →
      position ≤ coefficientLimit) :
    Reads Marker.maybeOfDocument? ((m.map Marker.toDocument).getD .null) m := by
  cases m with
  | none => exact ⟨trivial, rfl⟩
  | some m =>
    have hmarker := reads_marker (hsegment m rfl) (hposition m rfl)
    refine ⟨hmarker.writable, ?_⟩
    show (Marker.ofDocument? m.toDocument).map some = _
    rw [hmarker.read]
    rfl

/-- A parameter is read from its document. -/
theorem reads_parameter {p : Parameter} (h : ∀ x ∈ parameterNumbers p, ReadsAsDecimal x) :
    Reads Parameter.ofDocument? p.toDocument p := by
  cases p with
  | literal value =>
    have hvalue := reads_value h
    refine ⟨writable_record_iff.mpr (by simp [hvalue.writable]), ?_⟩
    show (Value.ofDocument? value.toDocument).map Parameter.literal = _
    rw [hvalue.read]
    rfl
  | dynamic path =>
    have hpath := reads_list (fun name (_ : name ∈ path) => reads_text name)
    refine ⟨writable_record_iff.mpr (by simp [hpath.writable]), ?_⟩
    show (list? text? (.array (path.map Document.text))).map Parameter.dynamic = _
    rw [hpath.read]
    rfl

/-- A call is read from its document. -/
theorem reads_call {c : Call} (h : ∀ x ∈ c.parameters.flatMap parameterNumbers, ReadsAsDecimal x) :
    Reads Call.ofDocument? c.toDocument c := by
  have hparameters := reads_list fun p (hp : p ∈ c.parameters) =>
    reads_parameter fun x hx => h x (List.mem_flatMap.mpr ⟨p, hp, hx⟩)
  have hname := reads_text c.name
  refine ⟨writable_record_iff.mpr (by simp [hname.writable, hparameters.writable]), ?_⟩
  simp [Call.toDocument, Call.ofDocument?, hname.read, hparameters.read]

/-- A tag is read from its document. -/
theorem reads_tag {t : Tag} (hbounds : InBounds t)
    (hnumbers : ∀ x ∈ tagNumbers t, ReadsAsDecimal x) : Reads Tag.ofDocument? t.toDocument t := by
  have hid := reads_text t.id
  have hraw := reads_text t.raw
  have hspan := reads_span hbounds.start hbounds.stop
  have hpath := reads_list (fun name (_ : name ∈ t.path) => reads_text name)
  have hmarker := reads_maybeMarker hbounds.segment hbounds.position
  have hcalls := reads_list fun call (hcall : call ∈ t.calls) =>
    reads_call fun x hx => hnumbers x (List.mem_flatMap.mpr ⟨call, hcall, hx⟩)
  refine ⟨writable_record_iff.mpr ?_, ?_⟩
  · simp [hid.writable, hraw.writable, hspan.writable, hpath.writable, hmarker.writable,
      hcalls.writable]
  · simp [Tag.toDocument, Tag.ofDocument?, hid.read, hraw.read, hspan.read, hpath.read,
      hmarker.read, hcalls.read]

/-! ### Parsed templates -/

/-- A warning about a template is read from its document. -/
theorem reads_templateWarning {w : Template.Warning} (h : w.offset ≤ coefficientLimit) :
    Reads Template.Warning.ofDocument? w.toDocument w := by
  have hoffset := reads_natural h
  have hraw := reads_text w.raw
  have hmessage := reads_text w.message
  refine ⟨writable_record_iff.mpr ?_, ?_⟩
  · simp [hoffset.writable, hraw.writable, hmessage.writable]
  · simp [Template.Warning.toDocument, Template.Warning.ofDocument?, hoffset.read, hraw.read,
      hmessage.read]

/-- The binary64 values of a parsed template. -/
def templateNumbers (t : ParsedTemplate) : List Binary64 :=
  t.tags.flatMap tagNumbers

/-- A parsed template is read from its document. -/
theorem reads_parsedTemplate {t : ParsedTemplate} (htags : ∀ tag ∈ t.tags, InBounds tag)
    (hwarnings : ∀ w ∈ t.warnings, w.offset ≤ coefficientLimit)
    (hnumbers : ∀ x ∈ templateNumbers t, ReadsAsDecimal x) :
    Reads ParsedTemplate.ofDocument? t.toDocument t := by
  have hid := reads_text t.id
  have hcontent := reads_text t.content
  have hformat := reads_format t.format
  have htagList := reads_list fun tag (htag : tag ∈ t.tags) =>
    reads_tag (htags tag htag) fun x hx => hnumbers x (List.mem_flatMap.mpr ⟨tag, htag, hx⟩)
  have hwarningList := reads_list fun w (hw : w ∈ t.warnings) =>
    reads_templateWarning (hwarnings w hw)
  refine ⟨writable_record_iff.mpr ?_, ?_⟩
  · simp [hid.writable, hcontent.writable, hformat.writable, htagList.writable,
      hwarningList.writable]
  · simp [ParsedTemplate.toDocument, ParsedTemplate.ofDocument?, hid.read, hcontent.read,
      hformat.read, htagList.read, hwarningList.read]

/-! ### Resolved values -/

/-- A warning about a tag is read from its document. -/
theorem reads_resolvedWarning (w : Resolved.Warning) :
    Reads Resolved.Warning.ofDocument? w.toDocument w := by
  have hid := reads_text w.tagId
  have hmessage := reads_text w.message
  refine ⟨writable_record_iff.mpr (by simp [hid.writable, hmessage.writable]), ?_⟩
  simp [Resolved.Warning.toDocument, Resolved.Warning.ofDocument?, hid.read, hmessage.read]

/-- The single values and the values for elements that tags resolve to. -/
def resolvedValues (r : Resolved) : List Value :=
  r.scalar.map Prod.snd ++ r.perElement.flatMap Prod.snd ++ r.aggregated.map Prod.snd

/-- The binary64 values that tags resolve to. -/
def resolvedNumbers (r : Resolved) : List Binary64 :=
  (resolvedValues r).flatMap valueNumbers

/-- The dictionaries of resolved values are in order. -/
structure InOrder (r : Resolved) : Prop where
  scalar : Dictionary.Sorted r.scalar
  perElement : Dictionary.Sorted r.perElement
  aggregated : Dictionary.Sorted r.aggregated

/-- Resolved values are read from their document. -/
theorem reads_resolved {r : Resolved} (horder : InOrder r)
    (hnumbers : ∀ x ∈ resolvedNumbers r, ReadsAsDecimal x) :
    Reads Resolved.ofDocument? r.toDocument r := by
  -- Each of the three dictionaries has its values among `resolvedValues`.
  have hvalue : ∀ v ∈ resolvedValues r, Reads Value.ofDocument? v.toDocument v := fun v hv =>
    reads_value fun x hx => hnumbers x (List.mem_flatMap.mpr ⟨v, hv, hx⟩)
  have hscalar := reads_dictionary horder.scalar fun entry hentry => hvalue entry.2
    (List.mem_append_left _ (List.mem_append_left _ (List.mem_map_of_mem hentry)))
  have hlists : ∀ entry ∈ r.perElement, Reads (list? Value.ofDocument?)
      (.array (entry.2.map Value.toDocument)) entry.2 := fun entry hentry =>
    reads_list fun v hv => hvalue v (List.mem_append_left _
      (List.mem_append_right _ (List.mem_flatMap.mpr ⟨entry, hentry, hv⟩)))
  have hperElement : Reads (dictionary? (list? Value.ofDocument?))
      (Resolved.dictionaryDocument (fun values => .array (values.map Value.toDocument)) r.perElement)
      r.perElement :=
    reads_dictionary horder.perElement hlists
  have haggregated := reads_dictionary horder.aggregated fun entry hentry => hvalue entry.2
    (List.mem_append_right _ (List.mem_map_of_mem hentry))
  have hwarnings := reads_list fun w (_ : w ∈ r.warnings) => reads_resolvedWarning w
  refine ⟨writable_record_iff.mpr ?_, ?_⟩
  · simp [hscalar.writable, hperElement.writable, haggregated.writable, hwarnings.writable]
  · simp [Resolved.toDocument, Resolved.ofDocument?, hscalar.read, hperElement.read, haggregated.read,
      hwarnings.read]

/-! ### Requests -/

/-- A template is read from its document. -/
theorem reads_template (t : Template) : Reads Template.ofDocument? t.toDocument t := by
  have hcontent := reads_text t.content
  have hformat := reads_format t.format
  refine ⟨writable_record_iff.mpr (by simp [hcontent.writable, hformat.writable]), ?_⟩
  simp [Template.toDocument, Template.ofDocument?, hcontent.read, hformat.read]

/-- A request is read from its document, if its data could have been read. -/
theorem reads_request {r : Request} (hdata : WellFormed (Json.nestingLimit - 1) r.data)
    (hnumbers : NumbersReadBack (decimals r.data)) :
    Reads Request.ofDocument? r.toDocument r := by
  have htemplate := reads_template r.template
  obtain ⟨hwritable, hread⟩ := toJson?_toDocument r.data _ hdata hnumbers
  refine ⟨writable_record_iff.mpr (by simp [htemplate.writable, hwritable]), ?_⟩
  simp [Request.toDocument, Request.ofDocument?, htemplate.read, hread]

end TagTemplate.Proofs.Record
