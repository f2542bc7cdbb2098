import TagTemplate.Layout.Rendering
import TagTemplate.Proofs.Binding.Entries
import TagTemplate.Proofs.Formatter.Catalog
import TagTemplate.Proofs.Support.Dictionaries

/-!
# `TagTemplate.Proofs.Binding.MissingValues`: where a missing value comes from and how far it goes

`Leads` follows a path step by step, to a node or to a miss, and `Vacant` says which ends
have no value. A tag that picks at most one node is `Unresolved` if its path, or one of
the two parts of its marked path, ends so. These are all the ways in which its value can be
missing before the chain is applied (`baseValue_eq_missing_iff`).

From there a missing value stays missing under every formatter that computes on texts or
numbers, whatever the parameters are. The formatters in `catching`, which are `print` and
those of the comparison kind, can make something else of it, and these are the only ones
(`mem_catching_iff`). By induction a chain without a call of such a formatter gives nothing
for nothing (`applyCalls_missing`).

`missing_until_caught` puts both together: an unresolved tag whose chain only computes has a
missing value and shows the empty text, and where a chain makes something of a missing value
there is a call of a catching formatter that does it.
-/

set_option autoImplicit false

namespace TagTemplate.Proofs.Binding

open TagTemplate.Formatter (Mapping)
open TagTemplate.Proofs.Formatter

variable {e : Expression} {data : Json}

/-! ### Paths that miss -/

/-- The path leads from a node to another one, or to nothing: because an object on the way
has no field of the name, or because a name is asked of a node that is no object. The empty
name stays where it is. -/
inductive Leads : Json → List String → Option Json → Prop where
  | here {node : Json} : Leads node [] (some node)
  | stay {node : Json} {names : List String} {target : Option Json} :
    Leads node names target → Leads node ("" :: names) target
  | field {members : List (String × Json)} {name : String} {child : Json} {names : List String}
    {target : Option Json} : name ≠ "" → Dictionary.find? name members = some child →
    Leads child names target → Leads (.object members) (name :: names) target
  | absent {members : List (String × Json)} {name : String} {names : List String} :
    name ≠ "" → name ∉ Dictionary.keys members → Leads (.object members) (name :: names) none
  | notObject {node : Json} {name : String} {names : List String} :
    name ≠ "" → (∀ members, node ≠ .object members) → Leads node (name :: names) none

/-- An end of a path that has no value. A number that is not finite occurs in no JSON text. -/
inductive Vacant : Option Json → Prop where
  | nowhere : Vacant none
  | null : Vacant (some .null)
  | emptyArray : Vacant (some (.array []))
  | emptyObject : Vacant (some (.object []))
  | notFinite {n : Json.Number} : n.toBinary64.isFinite = false → Vacant (some (.number n))

/-- A tag without a marker, or with one that picks an element, does not resolve. -/
inductive Unresolved (e : Expression) (data : Json) : Prop where
  | unmarked {target : Option Json} :
    e.marker = none → Leads data e.path target → Vacant target → Unresolved e data
  | noArray {segment position : Nat} {target : Option Json} :
    e.marker = some ⟨segment, .direct position⟩ →
    Leads data (e.path.take (segment + 1)) target →
    (∀ elements, target ≠ some (.array elements)) → Unresolved e data
  | pastEnd {segment position : Nat} {elements : List Json} :
    e.marker = some ⟨segment, .direct position⟩ →
    Leads data (e.path.take (segment + 1)) (some (.array elements)) →
    elements.length ≤ position → Unresolved e data
  | inElement {segment position : Nat} {elements : List Json} {element : Json}
    {target : Option Json} :
    e.marker = some ⟨segment, .direct position⟩ →
    Leads data (e.path.take (segment + 1)) (some (.array elements)) →
    elements[position]? = some element →
    Leads element (e.path.drop (segment + 1)) target → Vacant target → Unresolved e data

/-- Following a path by its names comes to where the path leads. -/
theorem leads_iff {node : Json} {names : List String} {target : Option Json} :
    Leads node names target ↔ node.follow? names = target := by
  constructor
  · intro h
    induction h with
    | here => rfl
    | stay _ ih => rwa [Json.follow?, if_pos rfl]
    | field hname hchild _ ih =>
      rw [Json.follow?, if_neg hname, Json.member?, hchild]
      exact ih
    | absent hname hkey =>
      rw [Json.follow?, if_neg hname, Json.member?, Dictionary.find?_eq_none_iff.mpr hkey]
      rfl
    | @notObject node name names hname hnode =>
      rw [Json.follow?, if_neg hname]
      cases node with
      | object members => exact absurd rfl (hnode members)
      | _ => rfl
  · rintro rfl
    induction names generalizing node with
    | nil => exact .here
    | cons name names ih =>
      by_cases hname : name = ""
      · subst hname
        rw [Json.follow?, if_pos rfl]
        exact .stay ih
      rw [Json.follow?, if_neg hname]
      cases node with
      | object members =>
        rw [Json.member?]
        cases hchild : Dictionary.find? name members with
        | none => exact .absent hname (Dictionary.find?_eq_none_iff.mp hchild)
        | some child => exact .field hname hchild ih
      | _ => exact .notObject hname fun _ h => nomatch h

/-- A number has no value exactly if it is not finite. -/
theorem ofJson_number_eq_missing_iff {n : Json.Number} :
    Value.ofJson (.number n) = .missing ↔ n.toBinary64.isFinite = false := by
  show Value.ofBinary64 n.toBinary64 = .missing ↔ _
  rw [Value.ofBinary64]
  cases n.toBinary64.isFinite with
  | true => exact iff_of_false (fun h => nomatch h) fun h => nomatch h
  | false => exact iff_of_true rfl rfl

/-- The vacant ends are those without a value. -/
theorem ofJson?_eq_missing_iff {target : Option Json} :
    Value.ofJson? target = .missing ↔ Vacant target := by
  constructor
  · intro h
    rcases target with _ | node
    · exact .nowhere
    cases node with
    | null => exact .null
    | boolean b => cases h
    | number n => exact .notFinite (ofJson_number_eq_missing_iff.mp h)
    | string text => cases h
    | array elements =>
      cases elements with
      | nil => exact .emptyArray
      | cons => cases h
    | object members =>
      cases members with
      | nil => exact .emptyObject
      | cons => cases h
  · intro h
    cases h with
    | notFinite hfinite => exact ofJson_number_eq_missing_iff.mpr hfinite
    | _ => rfl

/-- A tag that picks an element has the value of that element of the array to which its path
leads. -/
theorem baseValue_of_leads {segment position : Nat} {target : Option Json}
    (hmarker : e.marker = some ⟨segment, .direct position⟩)
    (h : Leads data (e.path.take (segment + 1)) target) :
    e.baseValue data = (((target.bind Json.elements?).getD [])[position]?.map
      (e.elementValue ⟨segment, .direct position⟩)).getD .missing := by
  have helements : e.elements ⟨segment, .direct position⟩ data
      = (target.bind Json.elements?).getD [] := by
    rw [Expression.elements, Expression.arrayPath, leads_iff.mp h]
  simp only [Expression.baseValue, hmarker, helements]
  cases ((target.bind Json.elements?).getD [])[position]? <;> rfl

/-- Nothing but an array has elements. -/
theorem bind_elements?_eq_none {target : Option Json}
    (h : ∀ elements, target ≠ some (.array elements)) : target.bind Json.elements? = none := by
  rcases target with _ | node
  · rfl
  · cases node with
    | array elements => exact absurd rfl (h elements)
    | _ => rfl

/-- An unresolved tag has no value before its chain is applied. -/
theorem Unresolved.baseValue_eq (h : Unresolved e data) : e.baseValue data = .missing := by
  cases h with
  | unmarked hmarker hleads hvacant =>
    simp only [Expression.baseValue, hmarker, leads_iff.mp hleads]
    exact ofJson?_eq_missing_iff.mpr hvacant
  | noArray hmarker hleads hnone =>
    rw [baseValue_of_leads hmarker hleads, bind_elements?_eq_none hnone]
    rfl
  | pastEnd hmarker hleads hlength =>
    rw [baseValue_of_leads hmarker hleads, Option.bind_some, Json.elements?, Option.getD_some,
      List.getElem?_eq_none hlength]
    rfl
  | inElement hmarker hleads helement hrest hvacant =>
    rw [baseValue_of_leads hmarker hleads, Option.bind_some, Json.elements?, Option.getD_some,
      helement, Option.map_some, Option.getD_some, Expression.elementValue,
      Expression.elementPath, leads_iff.mp hrest]
    exact ofJson?_eq_missing_iff.mpr hvacant

/-- There are no other ways to have no value, for a tag that picks at most one node. -/
theorem baseValue_eq_missing_iff (hiterate : e.isIterate = false)
    (haggregate : e.isAggregate = false) :
    e.baseValue data = .missing ↔ Unresolved e data := by
  refine ⟨fun h => ?_, Unresolved.baseValue_eq⟩
  have hleads {node : Json} {names : List String} : Leads node names (node.follow? names) :=
    leads_iff.mpr rfl
  obtain ⟨path, marker, calls⟩ := e
  rcases marker with _ | ⟨segment, position | _ | _⟩
  case none => exact .unmarked rfl hleads (ofJson?_eq_missing_iff.mp h)
  case some.direct =>
    by_cases harray : ∃ elements, data.follow? (path.take (segment + 1)) = some (.array elements)
    · obtain ⟨elements, hway⟩ := harray
      have hway := leads_iff.mpr hway
      rw [baseValue_of_leads rfl hway, Option.bind_some, Json.elements?, Option.getD_some] at h
      cases helement : elements[position]? with
      | none => exact .pastEnd rfl hway (List.getElem?_eq_none_iff.mp helement)
      | some element =>
        rw [helement] at h
        exact .inElement rfl hway helement hleads (ofJson?_eq_missing_iff.mp h)
    · exact .noArray rfl hleads fun elements h => harray ⟨elements, h⟩
  case some.iterate => cases hiterate
  case some.aggregate => cases haggregate

/-! ### Formatters on a missing value -/

/-- The formatters that can make something of a missing value. -/
def catching : List Mapping :=
  [.print, .ifTrue, .ifEmpty, .eq, .ne, .gt, .lt, .gte, .lte]

/-- They are `print` and those of the comparison kind. -/
theorem mem_catching {f : Mapping} : f ∈ catching ↔ f = .print ∨ f.category = .comparison := by
  cases f <;> decide

/-- All other formatters leave a missing value missing, for all parameters. -/
theorem mapping_missing {f : Mapping} (h : f ∉ catching) (parameters : List Value) :
    f.apply .missing parameters = .missing := by
  cases f with
  -- These look at the value first, and at the parameters only if it is there.
  | upperCase | lowerCase | ucFirst | trim | replace | substr => rfl
  | add | sub | mul | div | abs | ceil | floor => rfl
  -- These read the count of places first; it may be no number.
  | round =>
    show Formatter.round .missing parameters = .missing
    unfold Formatter.round
    split <;> rfl
  | formatN =>
    show Formatter.formatN .missing parameters = .missing
    unfold Formatter.formatN
    split
    · next hnumber => cases hnumber
    · rfl
  | _ => exact absurd (by decide) h

/-- The formatters that can make something of a missing value are those that do so for some
parameters. -/
theorem mem_catching_iff {f : Mapping} :
    f ∈ catching ↔ ∃ parameters, f.apply .missing parameters ≠ .missing := by
  constructor
  · intro h
    have hall : ∀ f ∈ catching, f.apply .missing [.boolean true, .boolean true] ≠ .missing := by
      decide
    exact ⟨_, hall f h⟩
  · rintro ⟨parameters, happly⟩
    exact by_contra fun h => happly (mapping_missing h parameters)

/-! ### Chains on a missing value -/

/-- The call is one of a formatter that can make something of a missing value. -/
def Catches (call : Call) : Prop :=
  ∃ f ∈ catching, call.name = f.name

/-- The formatter of the call, if it maps a single value, works on texts or on numbers and
is not `print`. -/
def Computes (call : Call) : Prop :=
  ∀ f : Mapping, call.name = f.name → (f.category = .text ∨ f.category = .math) ∧ f ≠ .print

/-- A formatter that works on texts or on numbers catches nothing, `print` apart. -/
theorem Computes.not_catches {call : Call} (h : Computes call) : ¬ Catches call := by
  rintro ⟨f, hf, hname⟩
  obtain ⟨hkind, hprint⟩ := h f hname
  have hcomparison := (mem_catching.mp hf).resolve_left hprint
  rw [hcomparison] at hkind
  rcases hkind with htext | hmath
  · cases htext
  · cases hmath

/-- A call that does not catch leaves a missing value missing. -/
theorem apply_missing {call : Call} (h : ¬ Catches call) (context : Json) :
    call.apply context .missing = .missing := by
  unfold Call.apply
  cases hfound : call.formatter? with
  | none => rfl
  | some f =>
    cases f with
    | reduction f => rfl
    | mapping f =>
      have hf : f ∉ catching := fun hmem => h ⟨f, hmem, (mem_of_named? hfound).2.symm⟩
      exact mapping_missing hf _

/-- Calls that do not catch leave a missing value missing, one after the other. -/
theorem applyCalls_missing {calls : List Call} (h : ∀ call ∈ calls, ¬ Catches call)
    (context : Json) : applyCalls context calls .missing = .missing := by
  induction calls with
  | nil => rfl
  | cons call calls ih =>
    show applyCalls context calls (call.apply context .missing) = .missing
    rw [apply_missing (h call List.mem_cons_self) context]
    exact ih fun other hother => h other (List.mem_cons_of_mem _ hother)

/-- Where a chain makes something of a missing value, the first of its calls to do so
catches. -/
theorem exists_catches {context : Json} {calls : List Call}
    (h : applyCalls context calls .missing ≠ .missing) :
    ∃ pre call post, calls = pre ++ call :: post ∧ applyCalls context pre .missing = .missing ∧
      call.apply context .missing ≠ .missing ∧ Catches call := by
  induction calls with
  | nil => exact absurd rfl h
  | cons call calls ih =>
    change applyCalls context calls (call.apply context .missing) ≠ .missing at h
    by_cases hcall : call.apply context .missing = .missing
    · rw [hcall] at h
      obtain ⟨pre, other, post, rfl, hpre, hother⟩ := ih h
      refine ⟨call :: pre, other, post, rfl, ?_, hother⟩
      show applyCalls context pre (call.apply context .missing) = .missing
      rw [hcall, hpre]
    · have hcatches : Catches call := by_contra fun hnot => hcall (apply_missing hnot context)
      exact ⟨[], call, calls, rfl, rfl, hcall, hcatches⟩

/-! ### Tags -/

/-- The tag has a missing value, and an empty text in its place, also in the copies of a
repeated line. -/
structure ShowsNothing (t : ParsedTemplate) (tag : Tag) (data : Json) : Prop where
  value : Dictionary.find? tag.id (t.resolve data).scalar = some .missing
  singleText : Layout.singleText (t.resolve data) tag = ""
  elementText : ∀ position, Layout.elementText (t.resolve data) position tag = ""

/-- An unresolved tag picks at most one node. -/
theorem Unresolved.picksOne (h : Unresolved e data) :
    e.isIterate = false ∧ e.isAggregate = false := by
  unfold Expression.isIterate Expression.isAggregate
  cases h with
  | unmarked hmarker => rw [hmarker]; exact ⟨rfl, rfl⟩
  | noArray hmarker => rw [hmarker]; exact ⟨rfl, rfl⟩
  | pastEnd hmarker => rw [hmarker]; exact ⟨rfl, rfl⟩
  | inElement hmarker => rw [hmarker]; exact ⟨rfl, rfl⟩

/-- A tag with a missing value shows nothing. -/
theorem HasTag.showsNothing {t : ParsedTemplate} {tag : Tag} (h : HasTag t tag e)
    (hiterate : e.isIterate = false) (haggregate : e.isAggregate = false)
    (hvalue : e.scalarValue data = .missing) : ShowsNothing t tag data := by
  have hentry : Dictionary.find? tag.id (t.resolve data).scalar = some .missing := by
    rw [h.find?_scalar hiterate haggregate, hvalue]
  have hsingle : Layout.singleText (t.resolve data) tag = "" := by
    rw [Layout.singleText, Resolved.single, hentry]
    rfl
  refine ⟨hentry, hsingle, fun position => ?_⟩
  rw [← h.expression] at hiterate
  rw [Layout.elementText, hiterate]
  exact hsingle

/-- A missing value stays missing until it is caught. A tag of any template that has its
identifier alone, as each tag of a parsed template has, shows nothing if its path does not
resolve and its registered single-value formatters work on texts or numbers and are not
`print`; and for a tag that picks at most one node, not to resolve is to have no value before
the chain. Where a chain has come to a missing value and goes on to something else, a call of
a catching formatter makes it so; the catching formatters are the only ones that can. -/
theorem missing_until_caught :
    (∀ (t : ParsedTemplate) (tag : Tag) (e : Expression) (data : Json), HasTag t tag e →
      Unresolved e data → (∀ call ∈ e.calls, Computes call) → ShowsNothing t tag data) ∧
    (∀ (e : Expression) (data : Json), e.isIterate = false → e.isAggregate = false →
      (e.baseValue data = .missing ↔ Unresolved e data)) ∧
    (∀ (context : Json) (calls after : List Call) (value : Value),
      applyCalls context calls value = .missing →
        applyCalls context (calls ++ after) value ≠ .missing →
          ∃ pre call post, after = pre ++ call :: post ∧
            applyCalls context (calls ++ pre) value = .missing ∧
            applyCalls context (calls ++ pre ++ [call]) value ≠ .missing ∧ Catches call) ∧
    ∀ f : Mapping, f ∈ catching ↔ ∃ parameters, f.apply .missing parameters ≠ .missing := by
  have happend (context : Json) (calls after : List Call) (value : Value) :
      applyCalls context (calls ++ after) value
        = applyCalls context after (applyCalls context calls value) := List.foldl_append
  refine ⟨?_, fun _ _ => baseValue_eq_missing_iff, ?_, fun _ => mem_catching_iff⟩
  · intro t tag e data htag hunresolved hcalls
    obtain ⟨hiterate, haggregate⟩ := hunresolved.picksOne
    refine htag.showsNothing hiterate haggregate ?_
    rw [Expression.scalarValue, hunresolved.baseValue_eq]
    exact applyCalls_missing (fun call hcall => (hcalls call hcall).not_catches) data
  · intro context calls after value hvalue hafter
    rw [happend, hvalue] at hafter
    obtain ⟨pre, call, post, hsplit, hpre, hcall, hcatches⟩ := exists_catches hafter
    refine ⟨pre, call, post, hsplit, ?_, ?_, hcatches⟩
    · rw [happend, hvalue, hpre]
    · rw [happend, happend, hvalue, hpre]
      exact hcall

/-- A tag that picks the fourth row, with an unregistered name and a dynamic parameter in its
chain. -/
def fourthRow : Template :=
  ⟨"\x7bd.a[3].b:upperCase:odd:add(.n):formatN(2)\x7d", .txt⟩

/-- Data with one row. -/
def oneRow : Json :=
  .object [("a", .array [.object [("b", .string "x")]]), ("n", .number (.integer 5))]

/-- The chain of the tag. -/
def fourthRowCalls : List Call :=
  [⟨"upperCase", []⟩, ⟨"odd", []⟩, ⟨"add", [.dynamic ["n"]]⟩,
    ⟨"formatN", [.literal (.number (Binary64.ofNat 2))]⟩]

/-- The registered formatters of the chain work on texts and numbers. -/
theorem computes_fourthRowCalls : ∀ call ∈ fourthRowCalls, Computes call := by
  intro call hcall f hname
  simp only [fourthRowCalls, List.mem_cons, List.not_mem_nil, or_false] at hcall
  rcases hcall with rfl | rfl | rfl | rfl <;> cases f <;> revert hname <;> decide

/-- There is no fourth row, so that the tag shows nothing; `ifEmpty` at the end of the chain
would catch that. -/
theorem missing_until_caught_fourthRow :
    (∃ tag, HasTag fourthRow.parse tag ⟨["a", "b"], some ⟨0, .direct 3⟩, fourthRowCalls⟩ ∧
      Unresolved ⟨["a", "b"], some ⟨0, .direct 3⟩, fourthRowCalls⟩ oneRow ∧
      (∀ call ∈ fourthRowCalls, Computes call) ∧ ShowsNothing fourthRow.parse tag oneRow) ∧
    Expression.baseValue ⟨["a", "b"], some ⟨0, .direct 3⟩, fourthRowCalls⟩ oneRow = .missing ∧
    applyCalls oneRow fourthRowCalls .missing = .missing ∧
    applyCalls oneRow (fourthRowCalls ++ [⟨"ifEmpty", [.literal (.text "none")]⟩]) .missing
      ≠ .missing ∧
    ∃ pre call post, [⟨"ifEmpty", [.literal (.text "none")]⟩] = pre ++ call :: post ∧
      applyCalls oneRow (fourthRowCalls ++ pre) .missing = .missing ∧
      applyCalls oneRow (fourthRowCalls ++ pre ++ [call]) .missing ≠ .missing ∧
      Catches call := by
  obtain ⟨hshows, hbase, hcaught, -⟩ := missing_until_caught
  have hmem : (⟨⟨["a", "b"], some ⟨0, .direct 3⟩, fourthRowCalls⟩, "tag_0_0", fourthRow.content,
      ⟨0, 43⟩⟩ : Tag) ∈ fourthRow.parse.tags := by decide +kernel
  have htag := hasTag_parse hmem
  have hpast : Unresolved ⟨["a", "b"], some ⟨0, .direct 3⟩, fourthRowCalls⟩ oneRow :=
    .pastEnd rfl (.field (by decide) rfl .here) (by decide)
  have hmissing : applyCalls oneRow fourthRowCalls .missing = .missing := by decide +kernel
  have hfallback : applyCalls oneRow
      (fourthRowCalls ++ [⟨"ifEmpty", [.literal (.text "none")]⟩]) .missing ≠ .missing := by
    decide +kernel
  exact ⟨⟨_, htag, hpast, computes_fourthRowCalls,
    hshows _ _ _ _ htag hpast computes_fourthRowCalls⟩, (hbase _ _ rfl rfl).mpr hpast, hmissing,
    hfallback, hcaught _ _ _ _ hmissing hfallback⟩

end TagTemplate.Proofs.Binding
