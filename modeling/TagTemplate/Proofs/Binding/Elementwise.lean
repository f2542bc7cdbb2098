import TagTemplate.Proofs.Binding.Entries

/-!
# `TagTemplate.Proofs.Binding.Elementwise`: marked tags, element by element

A tag with an array marker has an array path `p`, an element path `q` and a
chain `c`. Repeating, picking and reducing tags are evaluated in three ways, and
each of them comes down to a tag without a marker on the elements of the array
at `p`. `Elementwise` says how, and `elementwise_resolve` says that it holds of
every tag of every parsed template.

* The list of a repeating tag has, for each element, the value of the tag
  `unmarked` with path `q` and chain `c` on this element as the whole data.
* A tag that picks one element has one of these values. Its dynamic parameters
  are taken from the whole data, not from the element, so this is said of chains
  without dynamic parameters.
* A reducing tag reduces the list of the `repeating` tag whose chain is what
  comes before the reducing formatter.

`HasScalar` and `HasElements` speak of the entry of a tag in whatever template
it stands.
-/

set_option autoImplicit false

namespace TagTemplate.Proofs.Binding

variable {data : Json}

/-! ### Chains -/

/-- The call has no dynamic parameter. -/
def isStatic (call : Call) : Bool :=
  call.parameters.all fun
    | .literal _ => true
    | .dynamic _ => false

/-- A call without dynamic parameters does the same in every context. -/
theorem apply_of_isStatic {call : Call} (h : isStatic call = true) (context context' : Json)
    (value : Value) : call.apply context value = call.apply context' value := by
  have hparameters : call.parameters.map (·.resolve context)
      = call.parameters.map (·.resolve context') := by
    refine List.map_congr_left fun p hp => ?_
    have hp' := List.all_eq_true.mp h p hp
    cases p with
    | literal value => rfl
    | dynamic path => cases hp'
  unfold Call.apply
  rw [hparameters]

/-- A chain without dynamic parameters does the same in every context. -/
theorem applyCalls_of_isStatic {calls : List Call} (h : ∀ call ∈ calls, isStatic call = true)
    (context context' : Json) (value : Value) :
    applyCalls context calls value = applyCalls context' calls value := by
  induction calls generalizing value with
  | nil => rfl
  | cons call calls ih =>
    show applyCalls context calls (call.apply context value)
      = applyCalls context' calls (call.apply context' value)
    rw [apply_of_isStatic (h call List.mem_cons_self) context context']
    exact ih (fun other hother => h other (List.mem_cons_of_mem _ hother)) _

/-- The chain of a reducing tag splits at its first reducing formatter. -/
theorem callsBefore_append {e : Expression} {pre post : List Call} {reducer : Call}
    (hcalls : e.calls = pre ++ reducer :: post) (hpre : ∀ call ∈ pre, call.reduces = false)
    (hreducer : reducer.reduces = true) :
    e.callsBefore = pre ∧ e.callsFrom = reducer :: post := by
  have hall : ∀ call ∈ pre, (!call.reduces) = true := fun call hcall => by rw [hpre call hcall]; rfl
  have hstop : ¬ (!reducer.reduces) = true := by rw [hreducer]; exact Bool.false_ne_true
  unfold Expression.callsBefore Expression.callsFrom
  rw [hcalls, List.takeWhile_append_of_pos hall, List.dropWhile_append_of_pos hall]
  have htake : (reducer :: post).takeWhile (fun call => !call.reduces) = [] :=
    List.takeWhile_cons_of_neg hstop
  exact ⟨by rw [htake, List.append_nil], List.dropWhile_cons_of_neg hstop⟩

/-! ### Values of a tag in any template -/

/-- Some template has a tag that says `e`, and in each such template this is its
single value. -/
def HasScalar (e : Expression) (data : Json) (value : Value) : Prop :=
  (∃ t tag, HasTag t tag e) ∧
    ∀ t tag, HasTag t tag e → Dictionary.find? tag.id (t.resolve data).scalar = some value

/-- Some template has a tag that says `e`, and in each such template this is its
list of values. -/
def HasElements (e : Expression) (data : Json) (values : List Value) : Prop :=
  (∃ t tag, HasTag t tag e) ∧
    ∀ t tag, HasTag t tag e → Dictionary.find? tag.id (t.resolve data).perElement = some values

/-- The tag without a marker that has the path behind the marker. -/
def unmarked (e : Expression) (marker : Marker) : Expression :=
  ⟨e.elementPath marker, none, e.calls⟩

/-- The tag that repeats where the marker stands, with a chain of its own. -/
def repeating (e : Expression) (marker : Marker) (calls : List Call) : Expression :=
  ⟨e.path, some ⟨marker.segment, .iterate⟩, calls⟩

/-- On an element, the tag without a marker has the value that the marked tag has
for it. -/
theorem hasScalar_unmarked (e : Expression) (marker : Marker) (element : Json) :
    HasScalar (unmarked e marker) element (e.valueAt marker e.calls element) :=
  ⟨exists_hasTag _, fun _ _ h => h.find?_scalar rfl rfl⟩

/-- A repeating tag has the values of the elements. -/
theorem hasElements_repeating (e : Expression) (marker : Marker) (calls : List Call) :
    HasElements (repeating e marker calls) data
      ((e.elements marker data).map (e.valueAt marker calls)) :=
  ⟨exists_hasTag _, fun _ _ h => h.find?_perElement rfl⟩

/-! ### Marked tags -/

/-- The entry of a marked tag of a template, in terms of tags on the elements. -/
structure Elementwise (t : ParsedTemplate) (tag : Tag) (marker : Marker) (data : Json) :
    Prop where
  /-- A repeating tag has for each element the value of the unmarked tag on it. -/
  iterate : marker.index = .iterate → ∃ values : List Value,
    Dictionary.find? tag.id (t.resolve data).perElement = some values ∧
    values.length = (tag.elements marker data).length ∧
    ∀ (k : Nat) (element : Json), (tag.elements marker data)[k]? = some element → ∃ value,
      values[k]? = some value ∧ HasScalar (unmarked tag.toExpression marker) element value
  /-- A tag that picks an element has the value of the repeating tag for it, and that
  of the chain on nothing where there is no such element. -/
  direct : ∀ n, marker.index = .direct n → (∀ call ∈ tag.calls, isStatic call = true) →
    ∃ value, ∃ values : List Value,
      Dictionary.find? tag.id (t.resolve data).scalar = some value ∧
      HasElements (repeating tag.toExpression marker tag.calls) data values ∧
      (n < (tag.elements marker data).length → values[n]? = some value) ∧
      ((tag.elements marker data).length ≤ n →
        ∀ context, value = applyCalls context tag.calls .missing)
  /-- A reducing tag reduces the values of the repeating tag with the first part of the
  chain, and the rest of the chain is applied to the result on the whole data. -/
  aggregate : marker.index = .aggregate → ∀ pre reducer post f,
    tag.calls = pre ++ reducer :: post → (∀ call ∈ pre, call.reduces = false) →
    reducer.formatter? = some (.reduction f) →
    ∃ values, HasElements (repeating tag.toExpression marker pre) data values ∧
      Dictionary.find? tag.id (t.resolve data).aggregated
        = some (applyCalls data post (f.apply (values.filter fun value => !value.isMissing)))

/-- The value of a tag that picks an element, by the elements of the array. -/
theorem scalarValue_direct (data : Json) {e : Expression} {segment n : Nat}
    (hmarker : e.marker = some ⟨segment, .direct n⟩) :
    e.scalarValue data = applyCalls data e.calls
      (((e.elements ⟨segment, .direct n⟩ data)[n]?.map
        (e.elementValue ⟨segment, .direct n⟩)).getD .missing) := by
  simp only [Expression.scalarValue, Expression.baseValue, hmarker]
  cases (e.elements ⟨segment, .direct n⟩ data)[n]? <;> rfl

/-- Marked tags agree with tags on the elements, for all data and all parsed
templates. -/
theorem elementwise_resolve (t : Template) (data : Json) (tag : Tag) (htag : tag ∈ t.parse.tags)
    (marker : Marker) (hmarker : tag.marker = some marker) :
    Elementwise t.parse tag marker data := by
  have htagged := hasTag_parse htag
  obtain ⟨segment, index⟩ := marker
  constructor
  · rintro rfl
    refine ⟨_, htagged.find?_perElement hmarker, List.length_map _, ?_⟩
    intro k element helement
    -- On an element the unmarked tag has the same base value, chain and context.
    refine ⟨tag.valueAt _ tag.calls element, ?_, hasScalar_unmarked _ _ element⟩
    show ((tag.elements _ data).map _)[k]? = _
    rw [List.getElem?_map, helement]
    rfl
  · rintro n rfl hstatic
    have hvalue := scalarValue_direct data hmarker
    refine ⟨tag.scalarValue data, _, htagged.find?_scalar ?_ ?_, hasElements_repeating _ _ _, ?_,
      ?_⟩
    · unfold Expression.isIterate
      rw [hmarker]
    · unfold Expression.isAggregate
      rw [hmarker]
    · -- Picking applies the chain on the whole data, repeating on the element.
      intro hn
      rw [List.getElem?_map, hvalue, List.getElem?_eq_getElem hn]
      exact congrArg some (applyCalls_of_isStatic hstatic _ _ _)
    · intro hn context
      rw [hvalue, List.getElem?_eq_none hn]
      exact applyCalls_of_isStatic hstatic _ _ _
  · rintro rfl pre reducer post f hcalls hpre hreducer
    have hreduces : reducer.reduces = true := by
      unfold Call.reduces
      rw [hreducer]
      rfl
    obtain ⟨hbefore, hfrom⟩ := callsBefore_append hcalls hpre hreduces
    refine ⟨_, hasElements_repeating _ _ _, (htagged.find?_aggregated hmarker).trans ?_⟩
    unfold Expression.aggregatedValue
    rw [hfrom, hbefore]
    simp only [hreducer, Option.bind_some, Formatter.reduce?, Option.getD_some]

/-- One tag of each kind on the array `a`. -/
def threeKinds : Template :=
  ⟨"\x7bd.a[i].p:print(.q)\x7d\x7bd.a[1].p:upperCase\x7d\x7bd.a[].p:print(.q):aggCount:add(.n)\x7d",
    .txt⟩

/-- An array of two elements. -/
def twoElements : Json :=
  .object [("a", .array [.object [("p", .string "x"), ("q", .string "u")],
    .object [("p", .string "y"), ("q", .string "v")]]), ("n", .number (.integer 5))]

/-- The three tags on the two elements. -/
theorem elementwise_threeKinds :
    (∃ values : List Value,
      Dictionary.find? "tag_0_0" (threeKinds.parse.resolve twoElements).perElement = some values ∧
        values.length = 2) ∧
    (∃ value, ∃ values : List Value,
      Dictionary.find? "tag_1_20" (threeKinds.parse.resolve twoElements).scalar = some value ∧
        HasElements ⟨["a", "p"], some ⟨0, .iterate⟩, [⟨"upperCase", []⟩]⟩ twoElements values ∧
        values[1]? = some value) ∧
    ∃ values : List Value,
      HasElements ⟨["a", "p"], some ⟨0, .iterate⟩, [⟨"print", [.dynamic ["q"]]⟩]⟩ twoElements
        values ∧
        Dictionary.find? "tag_2_40" (threeKinds.parse.resolve twoElements).aggregated
          = some (applyCalls twoElements [⟨"add", [.dynamic ["n"]]⟩]
              (Formatter.aggCount (values.filter fun value => !value.isMissing))) := by
  refine ⟨?_, ?_, ?_⟩
  · have h := elementwise_resolve threeKinds twoElements
      ⟨⟨["a", "p"], some ⟨0, .iterate⟩, [⟨"print", [.dynamic ["q"]]⟩]⟩, "tag_0_0",
        "\x7bd.a[i].p:print(.q)\x7d", ⟨0, 20⟩⟩ (by decide +kernel) ⟨0, .iterate⟩ rfl
    obtain ⟨values, hvalues, hlength, -⟩ := h.iterate rfl
    exact ⟨values, hvalues, hlength⟩
  · have h := elementwise_resolve threeKinds twoElements
      ⟨⟨["a", "p"], some ⟨0, .direct 1⟩, [⟨"upperCase", []⟩]⟩, "tag_1_20",
        "\x7bd.a[1].p:upperCase\x7d", ⟨20, 40⟩⟩ (by decide +kernel) ⟨0, .direct 1⟩ rfl
    obtain ⟨value, values, hvalue, hvalues, hnth, -⟩ := h.direct 1 rfl (by decide)
    exact ⟨value, values, hvalue, hvalues, hnth (by decide)⟩
  · have h := elementwise_resolve threeKinds twoElements
      ⟨⟨["a", "p"], some ⟨0, .aggregate⟩, [⟨"print", [.dynamic ["q"]]⟩, ⟨"aggCount", []⟩,
          ⟨"add", [.dynamic ["n"]]⟩]⟩, "tag_2_40",
        "\x7bd.a[].p:print(.q):aggCount:add(.n)\x7d", ⟨40, 76⟩⟩ (by decide +kernel)
      ⟨0, .aggregate⟩ rfl
    exact h.aggregate rfl [⟨"print", [.dynamic ["q"]]⟩] ⟨"aggCount", []⟩ _ .aggCount rfl (by decide)
      (by decide)

end TagTemplate.Proofs.Binding
