import TagTemplate.Proofs.Json.Texts
import TagTemplate.Proofs.Support.Dictionaries

/-!
# `TagTemplate.Proofs.Json.Trees`: written data trees are read back

A data tree that was read is well-formed: it is not nested deeper than the reader
allows, its numbers are proper, and the members of each object are in the order of
their keys (`wellFormed_of_toJson?`). A well-formed tree whose binary64 values read
back is the tree of the document that writes it (`toJson?_toDocument`).

Both inductions follow the trees, with a statement each for values, elements and
members.
-/

set_option autoImplicit false

namespace TagTemplate.Proofs.Json

open TagTemplate.Json TagTemplate.Json.Document
open TagTemplate.Dictionary (Sorted sorted_ofList ofList_of_sorted mem_of_mem_ofList)

/-! ### Numbers -/

/-- The finite values of a list read back. -/
def NumbersReadBack (xs : List Binary64) : Prop :=
  ∀ x ∈ xs, x.isFinite = true → ReadsBack x

instance (xs : List Binary64) : Decidable (NumbersReadBack xs) :=
  inferInstanceAs (Decidable (∀ x ∈ xs, x.isFinite = true → ReadsBack x))

/-- What reads back of two lists reads back of each. -/
theorem numbersReadBack_append {xs ys : List Binary64} :
    NumbersReadBack (xs ++ ys) ↔ NumbersReadBack xs ∧ NumbersReadBack ys :=
  List.forall_mem_append

mutual

/-- The binary64 values of a data tree. -/
def decimals : TagTemplate.Json → List Binary64
  | .number (.decimal x) => [x]
  | .array elements => elementDecimals elements
  | .object members => memberDecimals members
  | _ => []

/-- The binary64 values of the elements of an array. -/
def elementDecimals : List TagTemplate.Json → List Binary64
  | [] => []
  | j :: js => decimals j ++ elementDecimals js

/-- The binary64 values of the members of an object. -/
def memberDecimals : List (String × TagTemplate.Json) → List Binary64
  | [] => []
  | (_, j) :: js => decimals j ++ memberDecimals js

end

/-- The literal of a proper number is read back, if it is an integer or reads
back. -/
theorem literalNumber?_literal {n : Number} (h : Proper n)
    (hnumbers : NumbersReadBack (decimals (.number n))) :
    literalNumber? n.literal = some n := by
  cases n with
  | integer n => exact literalNumber?_integer h
  | decimal x =>
    exact literalNumber?_numberText h (hnumbers x (List.mem_singleton_self x) h)

/-- What is read back as a number is a literal. -/
theorem isSome_of_literalNumber? {literal : String} {n : Number}
    (h : literalNumber? literal = some n) : (Numeral.ofText? literal.toList).isSome = true := by
  obtain ⟨numeral, hnumeral, -⟩ := Option.bind_eq_some_iff.mp h
  rw [hnumeral]
  rfl

/-! ### Trees that were read -/

mutual

/-- A data tree with at most `room` nested containers, as the reader gives it. -/
def WellFormed (room : Nat) : TagTemplate.Json → Prop
  | .null => True
  | .boolean _ => True
  | .number n => Proper n
  | .string _ => True
  | .array elements => ∃ inner, room = inner + 1 ∧ ElementsWellFormed inner elements
  | .object members => ∃ inner, room = inner + 1 ∧ Sorted members ∧ MembersWellFormed inner members

/-- The elements of an array are well-formed. -/
def ElementsWellFormed (room : Nat) : List TagTemplate.Json → Prop
  | [] => True
  | j :: js => WellFormed room j ∧ ElementsWellFormed room js

/-- The members of an object are well-formed. -/
def MembersWellFormed (room : Nat) : List (String × TagTemplate.Json) → Prop
  | [] => True
  | (_, j) :: js => WellFormed room j ∧ MembersWellFormed room js

end

/-- Members are well-formed if each of them is. -/
theorem membersWellFormed_iff {room : Nat} {members : List (String × TagTemplate.Json)} :
    MembersWellFormed room members ↔ ∀ member ∈ members, WellFormed room member.2 := by
  induction members with
  | nil => simp [MembersWellFormed]
  | cons member members ih =>
    rw [MembersWellFormed, ih, List.forall_mem_cons]

mutual

/-- A tree that was read is well-formed. -/
theorem wellFormed_of_toJson? : ∀ (d : Document) (room : Nat) (j : TagTemplate.Json),
    toJson? room d = some j → WellFormed room j
  | .null, room, j, h => by
    obtain rfl := Option.some.inj h
    trivial
  | .boolean b, room, j, h => by
    obtain rfl := Option.some.inj h
    trivial
  | .number literal, room, j, h => by
    simp only [toJson?, Option.bind_eq_bind, Option.bind_eq_some_iff] at h
    obtain ⟨numeral, -, number, hnumber, hj⟩ := h
    obtain rfl := Option.some.inj hj
    exact proper_of_value? hnumber
  | .string text, room, j, h => by
    obtain ⟨s, -, rfl⟩ := Option.map_eq_some_iff.mp h
    trivial
  | .array elements, 0, j, h => nomatch h
  | .array elements, room + 1, j, h => by
    obtain ⟨js, hjs, rfl⟩ := Option.map_eq_some_iff.mp h
    exact ⟨room, rfl, elementsWellFormed_of_toJson? elements room js hjs⟩
  | .object members, 0, j, h => nomatch h
  | .object members, room + 1, j, h => by
    obtain ⟨pairs, hpairs, rfl⟩ := Option.map_eq_some_iff.mp h
    -- The members that are kept are among those that were read.
    have hmembers := membersWellFormed_of_toJson? members room pairs hpairs
    refine ⟨room, rfl, sorted_ofList pairs, membersWellFormed_iff.mpr fun member hmember => ?_⟩
    exact membersWellFormed_iff.mp hmembers member (mem_of_mem_ofList hmember)

/-- Elements that were read are well-formed. -/
theorem elementsWellFormed_of_toJson? : ∀ (ds : List Document) (room : Nat)
    (js : List TagTemplate.Json), elementsToJson? room ds = some js → ElementsWellFormed room js
  | [], room, js, h => by
    obtain rfl := Option.some.inj h
    trivial
  | d :: ds, room, js, h => by
    simp only [elementsToJson?, Option.bind_eq_bind, Option.bind_eq_some_iff] at h
    obtain ⟨first, hfirst, others, hothers, hjs⟩ := h
    obtain rfl := Option.some.inj hjs
    exact ⟨wellFormed_of_toJson? d room first hfirst,
      elementsWellFormed_of_toJson? ds room others hothers⟩

/-- Members that were read are well-formed. -/
theorem membersWellFormed_of_toJson? : ∀ (ds : List (Option String × Document)) (room : Nat)
    (pairs : List (String × TagTemplate.Json)), membersToJson? room ds = some pairs →
    MembersWellFormed room pairs
  | [], room, pairs, h => by
    obtain rfl := Option.some.inj h
    trivial
  | (key, d) :: ds, room, pairs, h => by
    simp only [membersToJson?, Option.bind_eq_bind, Option.bind_eq_some_iff] at h
    obtain ⟨key, -, first, hfirst, others, hothers, hpairs⟩ := h
    obtain rfl := Option.some.inj hpairs
    exact ⟨wellFormed_of_toJson? d room first hfirst,
      membersWellFormed_of_toJson? ds room others hothers⟩

end

/-! ### Trees that are written -/

mutual

/-- A well-formed tree is the tree of its document, which can be written. -/
theorem toJson?_toDocument : ∀ (j : TagTemplate.Json) (room : Nat), WellFormed room j →
    NumbersReadBack (decimals j) →
    Writable j.toDocument ∧ toJson? room j.toDocument = some j
  | .null, room, _, _ => ⟨trivial, rfl⟩
  | .boolean b, room, _, _ => ⟨trivial, rfl⟩
  | .number n, room, h, hnumbers => by
    have hliteral := literalNumber?_literal h hnumbers
    refine ⟨isSome_of_literalNumber? hliteral, ?_⟩
    obtain ⟨numeral, hnumeral, hvalue⟩ := Option.bind_eq_some_iff.mp hliteral
    simp only [toDocument, toJson?, hnumeral, hvalue, Option.bind_eq_bind, Option.bind_some]
    rfl
  | .string s, room, _, _ => ⟨rfl, rfl⟩
  | .array elements, room, h, hnumbers => by
    obtain ⟨inner, rfl, helements⟩ := h
    obtain ⟨hwritable, hread⟩ := elementsToJson?_elementDocuments elements inner helements hnumbers
    refine ⟨hwritable, ?_⟩
    simp only [toDocument, toJson?, hread, Option.map_some]
  | .object members, room, h, hnumbers => by
    obtain ⟨inner, rfl, hsorted, hmembers⟩ := h
    obtain ⟨hwritable, hread⟩ := membersToJson?_memberDocuments members inner hmembers hnumbers
    refine ⟨hwritable, ?_⟩
    simp only [toDocument, toJson?, hread, Option.map_some, ofList_of_sorted hsorted]

/-- Well-formed elements are the elements of their documents. -/
theorem elementsToJson?_elementDocuments : ∀ (js : List TagTemplate.Json) (room : Nat),
    ElementsWellFormed room js → NumbersReadBack (elementDecimals js) →
    ElementsWritable (elementDocuments js) ∧
      elementsToJson? room (elementDocuments js) = some js
  | [], room, _, _ => ⟨trivial, rfl⟩
  | j :: js, room, h, hnumbers => by
    obtain ⟨hfirst, hothers⟩ := numbersReadBack_append.mp hnumbers
    obtain ⟨hwritable, hread⟩ := toJson?_toDocument j room h.1 hfirst
    obtain ⟨hwritables, hreads⟩ := elementsToJson?_elementDocuments js room h.2 hothers
    refine ⟨⟨hwritable, hwritables⟩, ?_⟩
    simp only [elementDocuments, elementsToJson?, hread, hreads, Option.bind_eq_bind,
      Option.bind_some]
    rfl

/-- Well-formed members are the members of their documents. -/
theorem membersToJson?_memberDocuments : ∀ (js : List (String × TagTemplate.Json)) (room : Nat),
    MembersWellFormed room js → NumbersReadBack (memberDecimals js) →
    MembersWritable (memberDocuments js) ∧
      membersToJson? room (memberDocuments js) = some js
  | [], room, _, _ => ⟨trivial, rfl⟩
  | (key, j) :: js, room, h, hnumbers => by
    obtain ⟨hfirst, hothers⟩ := numbersReadBack_append.mp hnumbers
    obtain ⟨hwritable, hread⟩ := toJson?_toDocument j room h.1 hfirst
    obtain ⟨hwritables, hreads⟩ := membersToJson?_memberDocuments js room h.2 hothers
    refine ⟨⟨rfl, hwritable, hwritables⟩, ?_⟩
    simp only [memberDocuments, membersToJson?, hread, hreads, Option.bind_eq_bind,
      Option.bind_some]
    rfl

end

end TagTemplate.Proofs.Json
