import Mathlib.Data.List.Perm.Subperm
import TagTemplate.Proofs.Binding.Warnings

/-!
# `TagTemplate.Proofs.Binding.InsertedCalls`: calls that change nothing

A call of an unregistered name changes nothing wherever it stands in a chain. A call of a
reducing formatter changes nothing either, unless it is the first one of a reducing tag,
which is where the chain is cut. `Padded` relates a chain to the chain with such calls
inserted, `PaddedTag` does so for a tag.

A padded chain gives the value of the chain (`Padded.applyCalls_eq`). It is cut at the same
call, and its two parts are the two parts of the chain, padded (`Padded.cut`); so a padded
tag has the value or the values of the tag. Its messages are those of the tag and some for
the inserted names (`messages_subset`, `PaddedTag.exists_remark?`).

`transparent_resolve` puts this together for a template. The order of its warnings can
change: an inserted name that is called again further on is warned about earlier.
-/

set_option autoImplicit false

namespace TagTemplate.Proofs.Binding

open TagTemplate.Proofs.Formatter TagTemplate.Proofs.Support

variable {data : Json}

/-! ### Padded chains -/

/-- The second chain is the first one with calls inserted: of unregistered names anywhere,
and of reducing names where `free` says so and behind a reducing name of the chain. -/
inductive Padded : Bool → List Call → List Call → Prop where
  | nil {free : Bool} : Padded free [] []
  | keep {free : Bool} {calls padded : List Call} (call : Call) :
    Padded (free || isReducingName call.name) calls padded →
    Padded free (call :: calls) (call :: padded)
  | unregistered {free : Bool} {calls padded : List Call} (call : Call) :
    isRegistered call.name = false → Padded free calls padded → Padded free calls (call :: padded)
  | reducing {calls padded : List Call} (call : Call) :
    isReducingName call.name = true → Padded true calls padded → Padded true calls (call :: padded)

/-- A call of an unregistered name does not reduce. -/
theorem reduces_of_unregistered {call : Call} (h : isRegistered call.name = false) :
    call.reduces = false := by
  unfold Call.reduces
  rw [formatter?_eq_none_iff.mpr h]

/-- A call of an unregistered name changes nothing. -/
theorem apply_of_unregistered {call : Call} (h : isRegistered call.name = false) (context : Json)
    (value : Value) : call.apply context value = value := by
  unfold Call.apply
  rw [formatter?_eq_none_iff.mpr h]

/-- A call of a reducing formatter changes no single value. -/
theorem apply_of_reduces {call : Call} (h : call.reduces = true) (context : Json)
    (value : Value) : call.apply context value = value := by
  unfold Call.reduces at h
  unfold Call.apply
  split
  · rfl
  · next f hf =>
    rw [hf] at h
    exact if_pos h

section Chains

variable {free : Bool} {calls padded : List Call}

/-- A padded chain has the calls of the chain in their order. -/
theorem Padded.sublist (h : Padded free calls padded) : calls.Sublist padded := by
  induction h with
  | nil => exact List.Sublist.slnil
  | keep call _ ih => exact ih.cons_cons call
  | unregistered call _ _ ih => exact ih.cons call
  | reducing call _ _ ih => exact ih.cons call

/-- A padded chain gives the value of the chain, in every context. -/
theorem Padded.applyCalls_eq (h : Padded free calls padded) (context : Json) (value : Value) :
    applyCalls context padded value = applyCalls context calls value := by
  induction h generalizing value with
  | nil => rfl
  | keep call _ ih => exact ih (call.apply context value)
  | unregistered call hname _ ih =>
    show applyCalls context _ (call.apply context value) = _
    rw [apply_of_unregistered hname, ih]
  | reducing call hname _ ih =>
    show applyCalls context _ (call.apply context value) = _
    rw [apply_of_reduces ((reduces_eq call).trans hname), ih]

/-- How a chain and a padded one are cut before their first calls that reduce. -/
structure PaddedCut (calls padded : List Call) : Prop where
  before : Padded false (calls.takeWhile fun call => !call.reduces)
    (padded.takeWhile fun call => !call.reduces)
  after : calls.dropWhile (fun call => !call.reduces) = [] ∧
      padded.dropWhile (fun call => !call.reduces) = [] ∨
    ∃ reducer post post', calls.dropWhile (fun call => !call.reduces) = reducer :: post ∧
      padded.dropWhile (fun call => !call.reduces) = reducer :: post' ∧ Padded true post post'

/-- Where reducing names are inserted behind another one only, the chain and the padded one
are cut at the same call, and each part is padded. -/
theorem Padded.cut (h : Padded false calls padded) : PaddedCut calls padded := by
  generalize hfree : false = free at h
  induction h with
  | nil => exact ⟨.nil, .inl ⟨rfl, rfl⟩⟩
  | @keep free calls padded call hrest ih =>
    subst hfree
    have hreduces := reduces_eq call
    cases hname : isReducingName call.name with
    | true =>
      -- This is the cut.
      rw [hname] at hrest hreduces
      constructor
      · simp only [List.takeWhile_cons, hreduces]
        exact .nil
      · simp only [List.dropWhile_cons, hreduces]
        exact .inr ⟨call, calls, padded, rfl, rfl, hrest⟩
    | false =>
      -- The call stands before the cut in both chains.
      rw [hname] at hrest hreduces
      obtain ⟨hbefore, hafter⟩ := ih (by rw [hname]; rfl)
      constructor
      · simp only [List.takeWhile_cons, hreduces]
        exact .keep call (by rw [hname]; exact hbefore)
      · simp only [List.dropWhile_cons, hreduces]
        exact hafter
  | unregistered call hname _ ih =>
    have hreduces := reduces_of_unregistered hname
    obtain ⟨hbefore, hafter⟩ := ih hfree
    constructor
    · simp only [List.takeWhile_cons, hreduces]
      exact .unregistered call hname hbefore
    · simp only [List.dropWhile_cons, hreduces]
      exact hafter
  | reducing => cases hfree

end Chains

/-! ### Padded tags -/

/-- The second tag is the first one with calls inserted that change nothing. Before the
cut of a reducing tag these are calls of unregistered names only. The text and the place
of a tag do not matter. -/
structure PaddedTag (tag tag' : Tag) : Prop where
  id : tag'.id = tag.id
  path : tag'.path = tag.path
  marker : tag'.marker = tag.marker
  calls : Padded (!tag.isAggregate) tag.calls tag'.calls

section Tags

variable {path : List String} {calls calls' : List Call}

/-- A padded tag that neither repeats nor reduces has the value of the tag. -/
theorem scalarValue_padded {free : Bool} (h : Padded free calls calls') (marker : Option Marker)
    (data : Json) :
    Expression.scalarValue ⟨path, marker, calls'⟩ data
      = Expression.scalarValue ⟨path, marker, calls⟩ data :=
  h.applyCalls_eq data _

/-- A padded tag that repeats has the values of the tag. -/
theorem iteratedValues_padded {free : Bool} (h : Padded free calls calls') (marker : Marker)
    (data : Json) :
    Expression.iteratedValues ⟨path, some marker, calls'⟩ marker data
      = Expression.iteratedValues ⟨path, some marker, calls⟩ marker data :=
  List.map_congr_left fun element _ => h.applyCalls_eq element _

/-- A padded tag that reduces has the value of the tag: the same elements are reduced by
the same formatter. -/
theorem aggregatedValue_padded (h : Padded false calls calls') (marker : Marker) (data : Json) :
    Expression.aggregatedValue ⟨path, some marker, calls'⟩ marker data
      = Expression.aggregatedValue ⟨path, some marker, calls⟩ marker data := by
  obtain ⟨hbefore, hafter⟩ := h.cut
  unfold Expression.aggregatedValue Expression.callsFrom
  dsimp only
  rcases hafter with ⟨hnil, hnil'⟩ | ⟨reducer, post, post', hcons, hcons', hpost⟩
  · rw [hnil, hnil']
  · have hvalues : ∀ element,
        Expression.valueAt ⟨path, some marker, calls'⟩ marker
            (Expression.callsBefore ⟨path, some marker, calls'⟩) element
          = Expression.valueAt ⟨path, some marker, calls⟩ marker
            (Expression.callsBefore ⟨path, some marker, calls⟩) element :=
      fun element => hbefore.applyCalls_eq element _
    rw [hcons, hcons']
    dsimp only
    rw [hpost.applyCalls_eq, List.map_congr_left fun element _ => hvalues element]
    rfl

/-- The messages of a chain are among those of a padded one. -/
theorem callMessages_subset {free : Bool} (h : Padded free calls calls') :
    callMessages calls ⊆ callMessages calls' :=
  (h.sublist.filterMap Call.message?).subset

/-- So they are if both are made for some elements. -/
theorem flatMap_callMessages_subset {free : Bool} (h : Padded free calls calls')
    (elements : List Json) :
    (elements.flatMap fun _ => callMessages calls)
      ⊆ elements.flatMap fun _ => callMessages calls' := by
  intro message hmessage
  obtain ⟨element, helement, hmessage⟩ := List.mem_flatMap.mp hmessage
  exact List.mem_flatMap.mpr ⟨element, helement, callMessages_subset h hmessage⟩

end Tags

variable {tag tag' : Tag}

/-- A padded tag has the messages of the tag. The cases are the kinds of tags. -/
theorem PaddedTag.messages_subset (h : PaddedTag tag tag') (data : Json) :
    tag.messages data ⊆ tag'.messages data := by
  obtain ⟨⟨path, marker, calls⟩, id, raw, span⟩ := tag
  obtain ⟨⟨path', marker', calls'⟩, id', raw', span'⟩ := tag'
  obtain ⟨rfl, rfl, rfl, hcalls⟩ := h
  rcases marker' with _ | ⟨segment, position | _ | _⟩
  case none => exact callMessages_subset hcalls
  case some.direct => exact callMessages_subset hcalls
  case some.iterate => exact flatMap_callMessages_subset hcalls _
  case some.aggregate =>
    obtain ⟨hbefore, hafter⟩ := hcalls.cut
    unfold Expression.messages Expression.callsFrom
    dsimp only
    rcases hafter with ⟨hnil, hnil'⟩ | ⟨reducer, post, post', hcons, hcons', hpost⟩
    · rw [hnil, hnil']
      exact List.Subset.refl _
    · rw [hcons, hcons']
      exact List.append_subset.mpr
        ⟨List.Subset.trans (flatMap_callMessages_subset hbefore _) (List.subset_append_left _ _),
          List.Subset.trans (callMessages_subset hpost) (List.subset_append_right _ _)⟩

/-- A message of some calls of a chain is about a name in the chain. -/
theorem exists_remark?_of_mem_callMessages {calls chain : List Call} {message : String}
    (hsubset : calls ⊆ chain) (h : message ∈ callMessages calls) :
    ∃ call ∈ chain, remark? call.name = some message := by
  obtain ⟨call, hcall, hmessage⟩ := List.mem_filterMap.mp h
  exact ⟨call, hsubset hcall, message?_eq call ▸ hmessage⟩

/-- The messages of a padded tag that the tag does not have are about names in the padded
chain. -/
theorem PaddedTag.exists_remark? (h : PaddedTag tag tag') {message : String}
    (hmessage : message ∈ tag'.messages data) (hnew : message ∉ tag.messages data) :
    ∃ call ∈ tag'.calls, remark? call.name = some message := by
  obtain ⟨⟨path, marker, calls⟩, id, raw, span⟩ := tag
  obtain ⟨⟨path', marker', calls'⟩, id', raw', span'⟩ := tag'
  obtain ⟨rfl, rfl, rfl, hcalls⟩ := h
  rcases marker' with _ | ⟨segment, position | _ | _⟩
  case none => exact exists_remark?_of_mem_callMessages (List.Subset.refl _) hmessage
  case some.direct => exact exists_remark?_of_mem_callMessages (List.Subset.refl _) hmessage
  case some.iterate =>
    obtain ⟨_, -, hmessage⟩ := List.mem_flatMap.mp hmessage
    exact exists_remark?_of_mem_callMessages (List.Subset.refl _) hmessage
  case some.aggregate =>
    obtain ⟨-, hafter⟩ := hcalls.cut
    unfold Expression.messages Expression.callsFrom at hmessage hnew
    dsimp only at hmessage hnew
    rcases hafter with ⟨hnil, hnil'⟩ | ⟨reducer, post, post', hcons, hcons', hpost⟩
    · -- Without a cut both have the one message that it is missing.
      rw [hnil] at hnew
      rw [hnil'] at hmessage
      exact absurd hmessage hnew
    · rw [hcons'] at hmessage
      rcases List.mem_append.mp hmessage with hbefore | hafter
      · obtain ⟨_, -, hbefore⟩ := List.mem_flatMap.mp hbefore
        exact exists_remark?_of_mem_callMessages (List.takeWhile_subset _) hbefore
      · have hpart : reducer :: post' ⊆ calls' := hcons' ▸ (List.dropWhile_sublist _).subset
        exact exists_remark?_of_mem_callMessages (List.cons_subset.mp hpart).2 hafter

/-! ### Padded templates -/

/-- Evaluation does not notice the calls that the second template has besides. -/
structure Transparent (t t' : ParsedTemplate) (data : Json) : Prop where
  scalar : (t'.resolve data).scalar = (t.resolve data).scalar
  perElement : (t'.resolve data).perElement = (t.resolve data).perElement
  aggregated : (t'.resolve data).aggregated = (t.resolve data).aggregated
  /-- No warning is lost. -/
  warnings : (t.resolve data).warnings.Subperm (t'.resolve data).warnings
  /-- A new warning says what is wrong with a name in the chain of its tag. -/
  added : ∀ w ∈ (t'.resolve data).warnings, w ∉ (t.resolve data).warnings →
    ∃ tag ∈ t'.tags, w.tagId = tag.id ∧ ∃ call ∈ tag.calls, remark? call.name = some w.message

/-- Resolved values that differ in their warnings only. -/
structure SameValues (r r' : Resolved) : Prop where
  scalar : r'.scalar = r.scalar
  perElement : r'.perElement = r.perElement
  aggregated : r'.aggregated = r.aggregated

/-- A padded tag adds the values that the tag adds. The cases are the kinds of tags. -/
theorem SameValues.addTag {r r' : Resolved} (h : SameValues r r') (htag : PaddedTag tag tag') :
    SameValues (Resolved.addTag data r tag) (Resolved.addTag data r' tag') := by
  obtain ⟨hscalar, hperElement, haggregated⟩ := h
  obtain ⟨⟨path, marker, calls⟩, id, raw, span⟩ := tag
  obtain ⟨⟨path', marker', calls'⟩, id', raw', span'⟩ := tag'
  obtain ⟨rfl, rfl, rfl, hcalls⟩ := htag
  rcases marker' with _ | ⟨segment, position | _ | _⟩
  case none =>
    refine ⟨?_, hperElement, haggregated⟩
    exact congrArg₂ (Dictionary.insert _) (scalarValue_padded hcalls _ data) hscalar
  case some.direct =>
    refine ⟨?_, hperElement, haggregated⟩
    exact congrArg₂ (Dictionary.insert _) (scalarValue_padded hcalls _ data) hscalar
  case some.iterate =>
    refine ⟨hscalar, ?_, haggregated⟩
    exact congrArg₂ (Dictionary.insert _) (iteratedValues_padded hcalls _ data) hperElement
  case some.aggregate =>
    refine ⟨hscalar, hperElement, ?_⟩
    exact congrArg₂ (Dictionary.insert _) (aggregatedValue_padded hcalls _ data) haggregated

/-- Padded tags add the values that the tags add, one tag after the other. -/
theorem SameValues.foldl {r r' : Resolved} (h : SameValues r r') {tags tags' : List Tag}
    (htags : List.Forall₂ PaddedTag tags tags') :
    SameValues (tags.foldl (Resolved.addTag data) r) (tags'.foldl (Resolved.addTag data) r') := by
  induction htags generalizing r r' with
  | nil => exact h
  | cons htag _ ih => exact ih (h.addTag htag)

/-- A template has the same values for all data after calls were inserted into the chains
of its tags that change nothing; only warnings are added. -/
theorem transparent_resolve (t t' : ParsedTemplate) (h : List.Forall₂ PaddedTag t.tags t'.tags)
    (data : Json) : Transparent t t' data := by
  obtain ⟨hscalar, hperElement, haggregated⟩ :
      SameValues (t.resolve data) (t'.resolve data) := SameValues.foldl ⟨rfl, rfl, rfl⟩ h
  refine ⟨hscalar, hperElement, haggregated, ?_, ?_⟩
  · -- No warning is repeated, so it is enough that each of them is still there.
    refine List.subperm_of_subset (nodup_warnings t data) fun w hw => ?_
    obtain ⟨tag, htag, hid, hmessage⟩ := mem_warnings.mp hw
    obtain ⟨tag', htag', hpadded⟩ := exists_mem_of_mem_left h htag
    exact mem_warnings.mpr
      ⟨tag', htag', hid.trans hpadded.id.symm, hpadded.messages_subset data hmessage⟩
  · intro w hw hnew
    obtain ⟨tag', htag', hid, hmessage⟩ := mem_warnings.mp hw
    obtain ⟨tag, htag, hpadded⟩ := exists_mem_of_mem_left h.flip htag'
    -- The tag without the inserted calls would have left the same warning.
    have hother : w.message ∉ tag.messages data := fun hmem =>
      hnew (mem_warnings.mpr ⟨tag, htag, hid.trans hpadded.id, hmem⟩)
    exact ⟨tag', htag', hid, hpadded.exists_remark? hmessage hother⟩

/-- A tag with a formatter before and one after the cut. -/
def roundedSum : Template :=
  ⟨"\x7bd.a[].b:mul(2):aggSum:round\x7d", .txt⟩

/-- The tag with unregistered names in all parts of the chain and another reducing one. -/
def paddedSum : Template :=
  ⟨"\x7bd.a[].b:odd:mul(2):aggSum:aggMax:odd:round\x7d", .txt⟩

/-- The second tag is the first one, padded. -/
theorem padded_roundedSum : List.Forall₂ PaddedTag roundedSum.parse.tags paddedSum.parse.tags := by
  have htags : roundedSum.parse.tags
      = [⟨⟨["a", "b"], some ⟨0, .aggregate⟩, [⟨"mul", [.literal (.number (Binary64.ofNat 2))]⟩,
          ⟨"aggSum", []⟩, ⟨"round", []⟩]⟩, "tag_0_0", roundedSum.content, ⟨0, 29⟩⟩] := by
    decide +kernel
  have htags' : paddedSum.parse.tags
      = [⟨⟨["a", "b"], some ⟨0, .aggregate⟩, [⟨"odd", []⟩,
          ⟨"mul", [.literal (.number (Binary64.ofNat 2))]⟩, ⟨"aggSum", []⟩, ⟨"aggMax", []⟩,
          ⟨"odd", []⟩, ⟨"round", []⟩]⟩, "tag_0_0", paddedSum.content, ⟨0, 44⟩⟩] := by
    decide +kernel
  have hodd : isRegistered "odd" = false := by decide +kernel
  have hcut : isReducingName "aggSum" = true := by decide +kernel
  have hmax : isReducingName "aggMax" = true := by decide +kernel
  rw [htags, htags']
  refine .cons ⟨rfl, rfl, rfl, ?_⟩ .nil
  refine .unregistered _ hodd (.keep _ (.keep _ ?_))
  rw [hcut, Bool.or_true]
  exact .reducing _ hmax (.unregistered _ hodd (.keep _ .nil))

/-- Both tags round the doubled sum of the elements. -/
theorem transparent_roundedSum :
    List.Forall₂ PaddedTag roundedSum.parse.tags paddedSum.parse.tags ∧
      Transparent roundedSum.parse paddedSum.parse
        (.object [("a", .array [.object [("b", .number (.integer 2))],
          .object [("b", .string "3")]])]) :=
  ⟨padded_roundedSum, transparent_resolve _ _ padded_roundedSum _⟩

end TagTemplate.Proofs.Binding
