import Mathlib.Data.List.Induction
import Mathlib.Data.List.Nodup
import Mathlib.Data.List.TakeWhile
import TagTemplate.Proofs.Binding.Entries
import TagTemplate.Proofs.Formatter.Catalog
import TagTemplate.Proofs.Support.Sequences

/-!
# `TagTemplate.Proofs.Binding.Warnings`: the warnings of a template

A tag is warned about for the names in its chain: `remark?` says of a name what is wrong
with it, and `tagRemarks` lists these messages for a tag. All that this takes from the
data is whether the array of the tag has an element. Evaluation instead leaves the
messages of a chain once for each element and keeps those that are new.

`eraseDups_messages` shows that the repetitions make no difference to the different
messages in the order in which they first occur. Since no two tags share an identifier,
the warnings of one tag are never held to be those of another (`foldl_warn`), and those
of a template are the warnings of its tags, one tag after the other.
`warningsInOrder_parse` states the result.
-/

set_option autoImplicit false

namespace TagTemplate.Proofs.Binding

open Resolved (warn)
open TagTemplate.Proofs.Formatter TagTemplate.Proofs.Support TagTemplate.Proofs.Template

variable {data : Json}

/-! ### Names in a chain -/

/-- What is wrong with a name that is not registered. -/
def unknownRemark (name : String) : String :=
  "unknown formatter '" ++ name ++ "'"

/-- What is wrong with a name in a chain for single values, if anything is. -/
def remark? (name : String) : Option String :=
  if !isRegistered name then some (unknownRemark name)
  else if isReducingName name then
    some ("aggregation formatter '" ++ name ++ "' is only valid once in a [] tag")
  else none

/-- What is wrong with the unregistered and the reducing names of a chain. -/
def remarks (calls : List Call) : List String :=
  calls.filterMap fun call => remark? call.name

/-- What is wrong with the unregistered names of a chain. -/
def unknownRemarks (calls : List Call) : List String :=
  (calls.filter fun call => !isRegistered call.name).map fun call => unknownRemark call.name

/-- The message of a call says what is wrong with its name. -/
theorem message?_eq (call : Call) : call.message? = remark? call.name := by
  have hreduces := reduces_eq call
  unfold Call.reduces at hreduces
  unfold Call.message? remark?
  cases hf : call.formatter? with
  | none =>
    rw [formatter?_eq_none_iff.mp hf]
    rfl
  | some f =>
    have hregistered : isRegistered call.name = true := by
      rw [← Bool.not_eq_false, ← formatter?_eq_none_iff, hf]
      exact Option.some_ne_none f
    rw [hf] at hreduces
    dsimp only at hreduces ⊢
    rw [hregistered, hreduces]
    rfl

/-- The messages of a chain are about its unregistered and its reducing names. -/
theorem callMessages_eq (calls : List Call) : callMessages calls = remarks calls :=
  List.filterMap_congr fun call _ => message?_eq call

/-- In a chain without reducing names only the unregistered ones are wrong. -/
theorem remarks_eq_unknownRemarks {calls : List Call}
    (h : ∀ call ∈ calls, isReducingName call.name = false) :
    remarks calls = unknownRemarks calls := by
  unfold remarks unknownRemarks
  rw [← List.filterMap_eq_map, List.filterMap_filter]
  refine List.filterMap_congr fun call hcall => ?_
  unfold remark?
  rw [h call hcall]
  rfl

/-! ### The messages of a tag -/

/-- The array under the marker of the tag has an element. -/
def hasElements (e : Expression) (data : Json) : Bool :=
  e.marker.any fun marker => !(e.elements marker data).isEmpty

/-- What is wrong with the names of a tag, where `present` says whether its array has an
element. The calls before the first reducing name of a reducing tag are made for elements
only, and those after it once. -/
def tagRemarks (e : Expression) (present : Bool) : List String :=
  match e.marker with
  | some ⟨_, .iterate⟩ => if present then remarks e.calls else []
  | some ⟨_, .aggregate⟩ =>
    match e.calls.findIdx? fun call => isReducingName call.name with
    | none => ["aggregate marker [] without an aggregation formatter"]
    | some cut =>
      (if present then unknownRemarks (e.calls.take cut) else [])
        ++ remarks (e.calls.drop (cut + 1))
  | _ => remarks e.calls

section Cut

variable {e : Expression} {cut : Nat}

/-- A chain without a reducing name is not cut. -/
theorem callsFrom_eq_nil (h : e.calls.findIdx? (fun call => isReducingName call.name) = none) :
    e.callsFrom = [] := by
  rw [List.findIdx?_eq_none_iff] at h
  refine List.dropWhile_eq_nil_iff.mpr fun call hcall => ?_
  rw [reduces_eq, h call hcall]
  rfl

variable (h : e.calls.findIdx? (fun call => isReducingName call.name) = some cut)
include h

/-- The calls before the cut are those before the first reducing name. -/
theorem callsBefore_eq_take : e.callsBefore = e.calls.take cut := by
  obtain ⟨-, hcut⟩ := List.findIdx?_eq_some_iff_findIdx_eq.mp h
  simp only [Expression.callsBefore, List.takeWhile_eq_take_findIdx_not, reduces_eq, Bool.not_not,
    hcut]

/-- The calls from the cut on are the first one with a reducing name and those after it. -/
theorem exists_callsFrom_eq_cons : ∃ reducer, e.callsFrom = reducer :: e.calls.drop (cut + 1) := by
  obtain ⟨hlt, hcut⟩ := List.findIdx?_eq_some_iff_findIdx_eq.mp h
  refine ⟨e.calls[cut], ?_⟩
  simp only [Expression.callsFrom, List.dropWhile_eq_drop_findIdx_not, reduces_eq, Bool.not_not,
    hcut, List.drop_eq_getElem_cons hlt]

end Cut

/-- No name before the cut is a reducing one. -/
theorem callMessages_callsBefore (e : Expression) :
    callMessages e.callsBefore = unknownRemarks e.callsBefore := by
  rw [callMessages_eq]
  refine remarks_eq_unknownRemarks fun call hcall => ?_
  have hnot := List.mem_takeWhile_imp hcall
  rwa [reduces_eq, Bool.not_eq_true'] at hnot

/-- The messages of a chain for each element are those of one, if there is an element. -/
theorem eraseDups_flatMap_append (elements : List Json) (messages more : List String) :
    ((elements.flatMap fun _ => messages) ++ more).eraseDups
      = ((if !elements.isEmpty then messages else []) ++ more).eraseDups := by
  cases elements with
  | nil => rfl
  | cons element elements =>
    rw [List.flatMap_cons]
    refine eraseDups_append_of_subset (fun m hm => ?_) more
    obtain ⟨_, _, hm⟩ := List.mem_flatMap.mp hm
    exact hm

/-- The different messages that evaluation leaves for a tag are those about its names, in
the order in which they first occur. The cases are the kinds of tags. -/
theorem eraseDups_messages (e : Expression) (data : Json) :
    (e.messages data).eraseDups = (tagRemarks e (hasElements e data)).eraseDups := by
  unfold Expression.messages tagRemarks hasElements
  cases e.marker with
  | none => exact congrArg List.eraseDups (callMessages_eq e.calls)
  | some marker =>
    obtain ⟨segment, index⟩ := marker
    cases index with
    | direct position => exact congrArg List.eraseDups (callMessages_eq e.calls)
    | iterate =>
      have h := eraseDups_flatMap_append (e.elements ⟨segment, .iterate⟩ data) (remarks e.calls) []
      rw [List.append_nil, List.append_nil, ← callMessages_eq] at h
      rw [← callMessages_eq]
      exact h
    | aggregate =>
      dsimp only
      cases hcut : e.calls.findIdx? fun call => isReducingName call.name with
      | none =>
        rw [callsFrom_eq_nil hcut]
        rfl
      | some cut =>
        obtain ⟨reducer, hfrom⟩ := exists_callsFrom_eq_cons hcut
        rw [hfrom]
        dsimp only
        rw [callMessages_callsBefore, callsBefore_eq_take hcut, callMessages_eq]
        exact eraseDups_flatMap_append _ _ _

/-! ### One tag after the other -/

/-- A warning is there after another was added if it was before or is the new one. -/
theorem mem_warn {id message : String} {ws : List Resolved.Warning} {w : Resolved.Warning} :
    w ∈ warn id ws message ↔ w ∈ ws ∨ w = ⟨id, message⟩ := by
  unfold warn
  split
  · next h =>
    rw [List.contains_iff_mem] at h
    exact ⟨.inl, fun hw => hw.elim (fun hw => hw) fun heq => heq ▸ h⟩
  · rw [List.mem_append, List.mem_singleton]

/-- The warnings after some messages are those before and one for each message. -/
theorem mem_foldl_warn {id : String} {messages : List String} {ws : List Resolved.Warning}
    {w : Resolved.Warning} :
    w ∈ messages.foldl (warn id) ws ↔ w ∈ ws ∨ w.tagId = id ∧ w.message ∈ messages := by
  induction messages generalizing ws with
  | nil => simp
  | cons message messages ih =>
    have heq : w = ⟨id, message⟩ ↔ w.tagId = id ∧ w.message = message := by
      cases w
      exact Resolved.Warning.mk.injEq _ _ _ _ ▸ Iff.rfl
    rw [List.foldl_cons, ih, mem_warn, heq, List.mem_cons, or_assoc, and_or_left]

/-- Adding a warning repeats none. -/
theorem nodup_warn {ws : List Resolved.Warning} (h : ws.Nodup) (id message : String) :
    (warn id ws message).Nodup := by
  unfold warn
  split
  · exact h
  · next hnew =>
    rw [List.contains_iff_mem] at hnew
    rw [← List.concat_eq_append]
    exact List.Nodup.concat hnew h

/-- Where no warning has the identifier yet, the different messages are added in the order
in which they first occur. The induction is from the last message. -/
theorem foldl_warn {id : String} {ws : List Resolved.Warning} (hid : ∀ w ∈ ws, w.tagId ≠ id)
    (messages : List String) :
    messages.foldl (warn id) ws = ws ++ messages.eraseDups.map (Resolved.Warning.mk id) := by
  induction messages using List.reverseRecOn with
  | nil => exact (List.append_nil ws).symm
  | append_singleton messages message ih =>
    rw [List.foldl_append, ih, List.foldl_cons, List.foldl_nil, warn]
    -- The warnings before have other identifiers and do not hide the message.
    have hmem : ⟨id, message⟩ ∈ ws ++ messages.eraseDups.map (Resolved.Warning.mk id)
        ↔ message ∈ messages := by
      have hnot : ⟨id, message⟩ ∉ ws := fun hw => hid _ hw rfl
      simp [hnot, List.mem_eraseDups]
    by_cases hold : message ∈ messages
    · rw [if_pos (List.contains_iff_mem.mpr (hmem.mpr hold)), eraseDups_concat_of_mem hold]
    · rw [if_neg (fun h => hold (hmem.mp (List.contains_iff_mem.mp h))),
        eraseDups_concat_of_notMem hold, List.map_append, List.append_assoc]
      rfl

/-- A tag leaves warnings about its messages. -/
theorem warnings_addTag (r : Resolved) (tag : Tag) :
    (Resolved.addTag data r tag).warnings
      = (tag.toExpression.messages data).foldl (warn tag.id) r.warnings := by
  fun_cases Resolved.addTag data r tag <;> rfl

/-- The warnings of a template are the messages of its tags with their identifiers. -/
theorem mem_warnings {t : ParsedTemplate} {w : Resolved.Warning} :
    w ∈ (t.resolve data).warnings
      ↔ ∃ tag ∈ t.tags, w.tagId = tag.id ∧ w.message ∈ tag.messages data := by
  have hfold : ∀ (tags : List Tag) (r : Resolved),
      w ∈ (tags.foldl (Resolved.addTag data) r).warnings
        ↔ w ∈ r.warnings ∨ ∃ tag ∈ tags, w.tagId = tag.id ∧ w.message ∈ tag.messages data := by
    intro tags
    induction tags with
    | nil => simp
    | cons tag tags ih =>
      intro r
      rw [List.foldl_cons, ih, warnings_addTag, mem_foldl_warn, or_assoc]
      simp only [List.mem_cons, or_and_right, exists_or, exists_eq_left]
  exact (hfold t.tags Resolved.empty).trans (or_iff_right List.not_mem_nil)

/-- No warning of a template is repeated. -/
theorem nodup_warnings (t : ParsedTemplate) (data : Json) : (t.resolve data).warnings.Nodup := by
  refine List.foldlRecOn (motive := fun r : Resolved => r.warnings.Nodup) t.tags _
    List.nodup_nil fun r hr tag _ => ?_
  rw [warnings_addTag]
  exact List.foldlRecOn _ _ hr fun _ h message _ => nodup_warn h tag.id message

/-- The warnings of a tag: the different messages about its names, in the order in which
they first occur, with its identifier. -/
def ownWarnings (tag : Tag) (data : Json) : List Resolved.Warning :=
  (tagRemarks tag.toExpression (hasElements tag.toExpression data)).eraseDups.map
    (Resolved.Warning.mk tag.id)

/-- Tags with identifiers of their own leave their own warnings, one tag after the
other. -/
theorem warnings_foldl {r : Resolved} {tags : List Tag} (hids : (tags.map (·.id)).Nodup)
    (hnew : ∀ tag ∈ tags, ∀ w ∈ r.warnings, w.tagId ≠ tag.id) :
    (tags.foldl (Resolved.addTag data) r).warnings
      = r.warnings ++ tags.flatMap fun tag => ownWarnings tag data := by
  induction tags generalizing r with
  | nil => exact (List.append_nil _).symm
  | cons tag tags ih =>
    rw [List.map_cons, List.nodup_cons] at hids
    have hadd : (Resolved.addTag data r tag).warnings = r.warnings ++ ownWarnings tag data := by
      rw [warnings_addTag, foldl_warn (hnew tag List.mem_cons_self), eraseDups_messages]
      rfl
    rw [List.foldl_cons, ih hids.2, hadd, List.flatMap_cons, List.append_assoc]
    -- What this tag left has its identifier, which no later tag has.
    intro other hother w hw
    rw [hadd, List.mem_append] at hw
    rcases hw with hw | hw
    · exact hnew other (List.mem_cons_of_mem _ hother) w hw
    · obtain ⟨_, -, rfl⟩ := List.mem_map.mp hw
      exact fun heq : tag.id = other.id => hids.1 (heq ▸ List.mem_map_of_mem hother)

/-! ### Parsed templates -/

/-- The warnings of a template: complete, in order, and never repeated. -/
structure WarningsInOrder (t : ParsedTemplate) (data : Json) : Prop where
  /-- They are those of its tags, in the order of the tags. -/
  warnings : (t.resolve data).warnings = t.tags.flatMap fun tag => ownWarnings tag data
  nodup : (t.resolve data).warnings.Nodup
  /-- They are the same for data in which the arrays of the same repeating and reducing
  tags have elements. -/
  elements : ∀ other, (∀ tag ∈ t.tags, tag.isIterate = true ∨ tag.isAggregate = true →
      hasElements tag.toExpression other = hasElements tag.toExpression data) →
    (t.resolve other).warnings = (t.resolve data).warnings

/-- Only a repeating or reducing tag looks at its array for its warnings. -/
theorem tagRemarks_eq {e : Expression} {present present' : Bool}
    (h : e.isIterate = true ∨ e.isAggregate = true → present = present') :
    tagRemarks e present = tagRemarks e present' := by
  unfold Expression.isIterate Expression.isAggregate at h
  unfold tagRemarks
  split
  · next hmarker =>
    rw [hmarker] at h
    rw [h (.inl rfl)]
  · next hmarker =>
    rw [hmarker] at h
    rw [h (.inr rfl)]
  · rfl

/-- The warnings of a parsed template are complete, in order and never repeated, for all
data. -/
theorem warningsInOrder_parse (t : Template) (data : Json) : WarningsInOrder t.parse data := by
  have hids : (t.parse.tags.map (·.id)).Nodup := nodup_ids_tagsFrom 0 0 _
  have hwarnings : ∀ data, (t.parse.resolve data).warnings
      = t.parse.tags.flatMap fun tag => ownWarnings tag data := fun data =>
    (warnings_foldl hids fun _ _ _ hw => absurd hw List.not_mem_nil).trans (List.nil_append _)
  refine ⟨hwarnings data, nodup_warnings _ data, fun other hother => ?_⟩
  rw [hwarnings other, hwarnings data]
  refine List.flatMap_congr fun tag htag => ?_
  unfold ownWarnings
  rw [tagRemarks_eq (hother tag htag)]

/-- A reducing tag without elements is warned about what comes after the cut only, and a
name that is called twice once. -/
example :
    ((Template.mk "\x7bd.a[].b:odd:aggSum:even:even\x7d" .txt).parse.resolve .null).warnings
      = [⟨"tag_0_0", "unknown formatter 'even'"⟩] := by
  decide +kernel

end TagTemplate.Proofs.Binding
