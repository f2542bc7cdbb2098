import TagTemplate.Binding.Evaluate
import TagTemplate.Proofs.Binary64.Finite
import TagTemplate.Proofs.Support.Dictionaries

/-!
# `TagTemplate.Proofs.Binding.FiniteValues`: tags resolve to finite numbers

A value is *tame* if it is no number or a finite one. Numbers from the data and
results of arithmetic are made tame where they arise (`tame_ofBinary64`); the other
formatters answer texts, truth values, or one of the values they were given. So a
formatter keeps values tame (`tame_mapping`, `tame_reduction`), and by induction so does
a chain (`tame_applyCalls`). What it takes is that the literals in the calls are tame.

Adding a tag puts tame values into dictionaries that stay in order (`Tidy.addTag`), so
all that a template resolves to is tame and in order (`tidy_resolve`).
-/

set_option autoImplicit false

namespace TagTemplate.Proofs.Binding

open TagTemplate.Proofs.Binary64

/-! ### Tame values -/

/-- A value that is no number, or a finite one. -/
def Tame (v : Value) : Prop :=
  ∀ x, v = .number x → x.isFinite = true

/-- Nothing is tame. -/
@[simp]
theorem tame_missing : Tame .missing := fun _ h => nomatch h

/-- A truth value is tame. -/
@[simp]
theorem tame_boolean (b : Bool) : Tame (.boolean b) := fun _ h => nomatch h

/-- A text is tame. -/
@[simp]
theorem tame_text (s : String) : Tame (.text s) := fun _ h => nomatch h

/-- A number is tame if it is finite. -/
@[simp]
theorem tame_number {x : Binary64} : Tame (.number x) ↔ x.isFinite = true :=
  ⟨fun h => h x rfl, fun h _ heq => Value.number.inj heq ▸ h⟩

/-- A result of arithmetic is tame. -/
@[simp]
theorem tame_ofBinary64 (x : Binary64) : Tame (Value.ofBinary64 x) := by
  unfold Value.ofBinary64
  split
  · next hx => exact tame_number.mpr hx
  · exact tame_missing

/-- A result that may be lacking is tame. -/
@[simp]
theorem tame_ofBinary64? (x : Option Binary64) : Tame (Value.ofBinary64? x) := by
  cases x with
  | none => exact tame_missing
  | some x => exact tame_ofBinary64 x

/-- The value of a node of the data is tame. -/
@[simp]
theorem tame_ofJson? (j : Option Json) : Tame (Value.ofJson? j) := by
  cases j with
  | none => exact tame_missing
  | some j =>
    show Tame (Value.ofJson j)
    fun_cases Value.ofJson j with
    -- A number is tame if it is finite, and is missing otherwise.
    | case3 n => exact tame_ofBinary64 n.toBinary64
    | _ => simp

/-- The number that a text denotes is finite. -/
theorem isFinite_of_parseNumber? {text : List Char} {x : Binary64}
    (h : Value.parseNumber? text = some x) : x.isFinite = true := by
  rw [Value.parseNumber?_eq] at h
  split at h
  · exact (Option.mem_filter_iff.mp h).2
  · cases h

/-- A tame value is read as a finite number. -/
theorem Tame.isFinite_toNumber? {v : Value} (hv : Tame v) {x : Binary64}
    (h : v.toNumber? = some x) : x.isFinite = true := by
  cases v with
  | missing => cases h
  | boolean b =>
    obtain rfl := Option.some.inj h
    cases b with
    | false => exact isFinite_ofNatSigned (by decide)
    | true => exact isFinite_ofNatSigned (by decide)
  | number y => exact Option.some.inj h ▸ tame_number.mp hv
  | text s => exact isFinite_of_parseNumber? h

/-! ### Formatters -/

section Formatters

open TagTemplate.Formatter

variable {value : Value} {values parameters : List Value}

/-- A parameter that is not given is tame as well. -/
theorem tame_parameter (h : ∀ p ∈ parameters, Tame p) (position : Nat) :
    Tame (parameter parameters position) := by
  unfold parameter
  rw [List.getD_eq_getElem?_getD]
  cases hp : parameters[position]? with
  | none => exact tame_missing
  | some p => exact h p (List.mem_of_getElem? hp)

/-- A formatter on texts gives a text or nothing. -/
@[simp]
theorem tame_mapText (f : String → String) : Tame (mapText value f) := by
  unfold mapText
  split
  · exact tame_missing
  · exact tame_text _

/-- An operation on two numbers gives a tame value. -/
@[simp]
theorem tame_binary (op : Binary64 → Binary64 → Option Binary64) :
    Tame (binary op value parameters) := by
  unfold binary
  split
  · exact tame_ofBinary64? _
  · exact tame_missing

/-- An operation on one number gives a tame value. -/
@[simp]
theorem tame_unary (op : Binary64 → Binary64) : Tame (unary op value) := by
  unfold unary
  split
  · exact tame_ofBinary64 _
  · exact tame_missing

/-- A part of a text is tame. -/
theorem tame_substr : Tame (substr value parameters) := by
  unfold substr
  split
  · exact tame_missing
  · split
    · exact tame_text _
    · exact tame_missing

/-- A rounded number is tame. -/
theorem tame_round : Tame (Formatter.round value parameters) := by
  unfold Formatter.round
  split
  · exact tame_unary _
  · exact tame_missing

/-- A number in groups of digits is a text. -/
theorem tame_formatN : Tame (formatN value parameters) := by
  unfold formatN
  split
  · exact tame_text _
  · exact tame_missing

/-- A choice of two tame values is tame. -/
theorem tame_ite {c : Prop} [Decidable c] {v w : Value} (hv : Tame v) (hw : Tame w) :
    Tame (if c then v else w) := by
  split
  · exact hv
  · exact hw

/-- A formatter that maps one value keeps values tame. -/
theorem tame_mapping (f : Mapping) (hvalue : Tame value) (hparameters : ∀ p ∈ parameters, Tame p) :
    Tame (f.apply value parameters) := by
  have hparameter := tame_parameter hparameters
  -- `print` and the two conditions pass a value on; every other formatter makes one.
  cases f with
  | upperCase => exact tame_mapText Text.toUpper
  | lowerCase => exact tame_mapText Text.toLower
  | ucFirst => exact tame_mapText Text.capitalize
  | trim => exact tame_mapText fun s => String.ofList (Text.trim s.toList)
  | replace =>
    show Tame (replace value parameters)
    unfold replace
    exact tame_mapText _
  | substr => exact tame_substr
  | print => exact hparameter 0
  | add => exact tame_binary _
  | sub => exact tame_binary _
  | mul => exact tame_binary _
  | div => exact tame_binary _
  | round => exact tame_round
  | abs => exact tame_unary _
  | ceil => exact tame_unary _
  | floor => exact tame_unary _
  | formatN => exact tame_formatN
  | eq => exact tame_boolean _
  | ne => exact tame_boolean _
  | gt => exact tame_boolean _
  | lt => exact tame_boolean _
  | gte => exact tame_boolean _
  | lte => exact tame_boolean _
  | ifTrue => exact tame_ite (hparameter 0) (hparameter 1)
  | ifEmpty => exact tame_ite (hparameter 0) hvalue

/-- Numbers are combined to one of them if each two are. -/
theorem isFinite_foldl {pick : Binary64 → Binary64 → Binary64}
    (hpick : ∀ x y, pick x y = x ∨ pick x y = y) {xs : List Binary64} {x : Binary64}
    (hx : x.isFinite = true) (hxs : ∀ y ∈ xs, y.isFinite = true) :
    (xs.foldl pick x).isFinite = true := by
  induction xs generalizing x with
  | nil => exact hx
  | cons y ys ih =>
    refine ih ?_ fun z hz => hxs z (List.mem_cons_of_mem _ hz)
    rcases hpick x y with h | h
    · exact h.symm ▸ hx
    · exact h.symm ▸ hxs y List.mem_cons_self

/-- The extreme of tame values is tame. -/
theorem tame_extreme {pick : Binary64 → Binary64 → Binary64}
    (hpick : ∀ x y, pick x y = x ∨ pick x y = y) (hvalues : ∀ v ∈ values, Tame v) :
    Tame (extreme pick values) := by
  have hnumbers : ∀ x ∈ numbers values, x.isFinite = true := by
    intro x hx
    obtain ⟨v, hv, hread⟩ := List.mem_filterMap.mp hx
    exact (hvalues v hv).isFinite_toNumber? hread
  unfold extreme
  split
  · exact tame_number.mpr rfl
  · next x xs hxs =>
    rw [hxs] at hnumbers
    refine tame_number.mpr (isFinite_foldl hpick (hnumbers x List.mem_cons_self) ?_)
    exact fun y hy => hnumbers y (List.mem_cons_of_mem _ hy)

/-- The lesser of two numbers is one of them. -/
theorem min_eq_or (x y : Binary64) : Binary64.min x y = x ∨ Binary64.min x y = y := by
  unfold Binary64.min
  split
  · exact .inl rfl
  · exact .inl rfl
  · exact .inr rfl

/-- The greater of two numbers is one of them. -/
theorem max_eq_or (x y : Binary64) : Binary64.max x y = x ∨ Binary64.max x y = y := by
  unfold Binary64.max
  split
  · exact .inl rfl
  · exact .inl rfl
  · exact .inr rfl

/-- A formatter that reduces a list gives a tame value for tame values. -/
theorem tame_reduction (f : Reduction) (hvalues : ∀ v ∈ values, Tame v) : Tame (f.apply values) := by
  cases f with
  | aggSum => exact tame_ofBinary64 _
  | aggAvg =>
    show Tame (aggAvg values)
    unfold aggAvg
    split
    · exact tame_number.mpr rfl
    · exact tame_ofBinary64 _
  | aggCount => exact tame_ofBinary64 _
  | aggMin => exact tame_extreme min_eq_or hvalues
  | aggMax => exact tame_extreme max_eq_or hvalues

end Formatters

/-! ### Chains -/

/-- The literals in the parameters of calls are tame. -/
def TameCalls (calls : List Call) : Prop :=
  ∀ call ∈ calls, ∀ v, .literal v ∈ call.parameters → Tame v

/-- A call with tame literals keeps values tame. -/
theorem tame_apply {call : Call} (hcall : ∀ v, .literal v ∈ call.parameters → Tame v)
    (context : Json) {value : Value} (hvalue : Tame value) : Tame (call.apply context value) := by
  unfold Call.apply
  split
  · exact hvalue
  · next f _ =>
    cases f with
    | reduction f => exact hvalue
    | mapping f =>
      refine tame_mapping f hvalue fun p hp => ?_
      obtain ⟨parameter, hparameter, rfl⟩ := List.mem_map.mp hp
      cases parameter with
      | literal v => exact hcall v hparameter
      | dynamic path => exact tame_ofJson? _

/-- A chain with tame literals keeps values tame. -/
theorem tame_applyCalls {calls : List Call} (hcalls : TameCalls calls) (context : Json)
    {value : Value} (hvalue : Tame value) : Tame (applyCalls context calls value) :=
  List.foldlRecOn calls _ hvalue fun _ hv call hcall =>
    tame_apply (hcalls call hcall) context hv

/-! ### Tags -/

section Tags

variable {e : Expression} (hcalls : TameCalls e.calls) (data : Json)

include hcalls

/-- A tag with tame literals that does not repeat or reduce has a tame value. -/
theorem tame_scalarValue : Tame (e.scalarValue data) := by
  refine tame_applyCalls hcalls data ?_
  fun_cases Expression.baseValue e data with
  -- The tag has no marker.
  | case1 => exact tame_ofJson? _
  -- The marker picks an element.
  | case2 => exact tame_ofJson? _
  -- The array has no such element.
  | case3 => exact tame_missing
  -- The marker picks none.
  | case4 => exact tame_missing

/-- A repeating tag with tame literals has tame values. -/
theorem tame_iteratedValues (marker : Marker) : ∀ v ∈ e.iteratedValues marker data, Tame v := by
  intro v hv
  obtain ⟨element, -, rfl⟩ := List.mem_map.mp hv
  exact tame_applyCalls hcalls element (tame_ofJson? _)

/-- A reducing tag with tame literals has a tame value. -/
theorem tame_aggregatedValue (marker : Marker) : Tame (e.aggregatedValue marker data) := by
  -- The chain is cut in two, and both parts have tame literals.
  have hbefore : TameCalls e.callsBefore := fun call hcall =>
    hcalls call ((List.takeWhile_sublist _).subset hcall)
  have hfrom : TameCalls e.callsFrom := fun call hcall =>
    hcalls call ((List.dropWhile_sublist _).subset hcall)
  unfold Expression.aggregatedValue
  split
  · exact tame_missing
  · next reducer after hcut =>
    rw [hcut] at hfrom
    refine tame_applyCalls (fun call hcall => hfrom call (List.mem_cons_of_mem _ hcall)) data ?_
    cases reducer.formatter? with
    | none => exact tame_missing
    | some f =>
      cases f with
      | mapping f => exact tame_missing
      | reduction f =>
        -- What is reduced are some of the values that the first part gives.
        refine tame_reduction f fun v hv => ?_
        obtain ⟨element, -, rfl⟩ := List.mem_map.mp (List.mem_filter.mp hv).1
        exact tame_applyCalls hbefore element (tame_ofJson? _)

end Tags

/-! ### Resolved values -/

/-- Entries in order whose values have a property. -/
structure TidyEntries {α : Type} (P : α → Prop) (entries : Dictionary α) : Prop where
  sorted : Dictionary.Sorted entries
  values : ∀ entry ∈ entries, P entry.2

/-- An entry whose value has the property can be added. -/
theorem TidyEntries.insert {α : Type} {P : α → Prop} {entries : Dictionary α}
    (h : TidyEntries P entries) (key : String) {value : α} (hvalue : P value) :
    TidyEntries P (Dictionary.insert key value entries) where
  sorted := Dictionary.sorted_insert key value h.sorted
  values entry hentry := by
    rcases Dictionary.mem_of_mem_insert hentry with rfl | hold
    · exact hvalue
    · exact h.values entry hold

/-- Resolved values that are tame and in order. -/
structure Tidy (r : Resolved) : Prop where
  scalar : TidyEntries Tame r.scalar
  perElement : TidyEntries (fun values => ∀ v ∈ values, Tame v) r.perElement
  aggregated : TidyEntries Tame r.aggregated

/-- No values are tidy. -/
theorem tidy_empty : Tidy Resolved.empty where
  scalar := ⟨List.Pairwise.nil, fun _ hentry => nomatch hentry⟩
  perElement := ⟨List.Pairwise.nil, fun _ hentry => nomatch hentry⟩
  aggregated := ⟨List.Pairwise.nil, fun _ hentry => nomatch hentry⟩

/-- A tag with tame literals keeps resolved values tidy. -/
theorem Tidy.addTag {r : Resolved} (h : Tidy r) {tag : Tag} (hcalls : TameCalls tag.calls)
    (data : Json) : Tidy (r.addTag data tag) := by
  fun_cases Resolved.addTag data r tag with
  -- The tag repeats.
  | case1 e _ marker hmarker hindex =>
    exact ⟨h.scalar, h.perElement.insert _ (tame_iteratedValues hcalls data marker), h.aggregated⟩
  -- The tag reduces.
  | case2 e _ marker hmarker hindex =>
    exact ⟨h.scalar, h.perElement, h.aggregated.insert _ (tame_aggregatedValue hcalls data marker)⟩
  -- The tag picks an element.
  | case3 e _ marker hmarker position hindex =>
    exact ⟨h.scalar.insert _ (tame_scalarValue hcalls data), h.perElement, h.aggregated⟩
  -- The tag has no marker.
  | case4 e _ hmarker =>
    exact ⟨h.scalar.insert _ (tame_scalarValue hcalls data), h.perElement, h.aggregated⟩

/-- A template whose literals are tame resolves to tidy values. -/
theorem tidy_resolve {t : ParsedTemplate} (h : ∀ tag ∈ t.tags, TameCalls tag.calls)
    (data : Json) : Tidy (t.resolve data) :=
  -- The induction is on the tags; each of them keeps the values tidy.
  List.foldlRecOn t.tags _ tidy_empty fun _ hr tag htag => hr.addTag (h tag htag) data

end TagTemplate.Proofs.Binding
