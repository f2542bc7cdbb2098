import TagTemplate.Proofs.Binding.FiniteValues
import TagTemplate.Proofs.Template.Bounds
import TagTemplate.Proofs.Template.Marks
import TagTemplate.Proofs.Template.Writing

/-!
# `TagTemplate.Proofs.Template.WellFormed`: what a tag can say

`WellFormedExpression e` says what every use of a tag relies on: the marker stands on a segment
of the path, the segments have names, the first one perhaps not if it has the marker,
formatters and the fields in parameters have names, and a literal is a text, a truth
value or a finite number. The parser accepts nothing else (`wellFormed_of_ofText?`).

The parts follow the grammar: `WellFormedPath` for the path, `WellFormedParameter` and
`WellFormedCall` for the chain.
-/

set_option autoImplicit false

namespace TagTemplate.Proofs.Template

open TagTemplate.Template TagTemplate.Text
open TagTemplate.Proofs.Binding TagTemplate.Proofs.Support

/-! ### Parameters and calls -/

/-- A parameter that a tag can have. Nothing is no literal. -/
inductive WellFormedParameter : Parameter → Prop where
  | text (value : String) : WellFormedParameter (.literal (.text value))
  | boolean (value : Bool) : WellFormedParameter (.literal (.boolean value))
  | number {x : Binary64} : x.isFinite = true → WellFormedParameter (.literal (.number x))
  | dynamic {names : List String} : names ≠ [] → (∀ name ∈ names, isName name.toList = true) →
    WellFormedParameter (.dynamic names)

/-- A call that a tag can have. -/
structure WellFormedCall (call : Call) : Prop where
  name : isName call.name.toList = true
  parameters : ∀ p ∈ call.parameters, WellFormedParameter p

/-- What a tag can say. -/
structure WellFormedExpression (e : Expression) : Prop where
  path : WellFormedPath e.path e.marker
  calls : ∀ call ∈ e.calls, WellFormedCall call

/-- A path as a parameter is made of names. -/
theorem wellFormed_of_readDynamic? {text rest : List Char} {p : Parameter}
    (h : readDynamic? text rest = .ok p) : WellFormedParameter p := by
  unfold readDynamic? at h
  dsimp only at h
  split at h
  · next hnames =>
    cases h
    refine .dynamic (fun hnil => ?_) fun name hname => ?_
    · have hlength := length_splitAt '.' rest
      rw [List.map_eq_nil_iff.mp hnil] at hlength
      simp at hlength
    · obtain ⟨part, hpart, rfl⟩ := List.mem_map.mp hname
      rw [String.toList_ofList]
      exact List.all_eq_true.mp hnames part hpart
  · cases h

/-- A parameter without quotes is well formed. -/
theorem wellFormed_of_readBare? {text : List Char} {p : Parameter} (h : readBare? text = .ok p) :
    WellFormedParameter p := by
  unfold readBare? at h
  split at h
  · cases h
    exact .boolean true
  split at h
  · cases h
    exact .boolean false
  split at h
  · next x hx =>
    cases h
    exact .number (isFinite_of_parseNumber? hx)
  split at h
  · exact wellFormed_of_readDynamic? h
  split at h
  · cases h
  · cases h
    exact .text _

/-- A parameter is well formed. -/
theorem wellFormed_of_readParameter? {text : List Char} {p : Parameter}
    (h : readParameter? text = .ok p) : WellFormedParameter p := by
  unfold readParameter? at h
  split at h
  · cases h
  split at h
  · unfold readQuoted? at h
    split at h
    · cases h
      exact .text _
    · cases h
  · exact wellFormed_of_readBare? h

/-- A call is well formed. -/
theorem wellFormed_of_readCall? {text : List Char} {call : Call} (h : readCall? text = .ok call) :
    WellFormedCall call := by
  obtain ⟨name, hname, hcall, hrest⟩ := readCall?_eq_ok_iff.mp h
  refine ⟨by rwa [hcall, String.toList_ofList], fun p hp => ?_⟩
  rcases hrest with ⟨-, hnone⟩ | ⟨inside, -, hparameters⟩
  · rw [hnone] at hp
    cases hp
  · rcases readParameters?_eq_ok_iff.mp hparameters with ⟨-, hnone⟩ | ⟨-, parts, -, hparts⟩
    · rw [hnone] at hp
      cases hp
    · obtain ⟨part, hpart⟩ := exists_of_mem_right hparts hp
      exact wellFormed_of_readParameter? hpart

/-! ### Paths -/

section

variable {position : Nat} {marker found : Option Marker} {pieces : List (List Char)}
  {names : List String}

/-- A marker that has been met is the only one. -/
theorem eq_some_of_readSegments? {m : Marker}
    (h : readSegments? position (some m) pieces = .ok (names, found)) : found = some m := by
  induction pieces generalizing position names with
  | nil =>
    cases h
    rfl
  | cons piece pieces ih =>
    obtain ⟨_, index, _, _, _, honce, hrest, _⟩ := readSegments?_cons_eq_ok h
    obtain rfl := honce.resolve_right (Option.some_ne_none m)
    exact ih hrest

/-- Each segment gives one name. -/
theorem length_of_readSegments? (h : readSegments? position marker pieces = .ok (names, found)) :
    names.length = pieces.length := by
  induction pieces generalizing position marker names with
  | nil =>
    cases h
    rfl
  | cons piece pieces ih =>
    obtain ⟨_, _, others, _, _, _, hrest, rfl⟩ := readSegments?_cons_eq_ok h
    rw [List.length_cons, List.length_cons, ih hrest]

/-- A segment has a name, unless it is the first and has the marker. -/
theorem isName_of_readSegments? (h : readSegments? position marker pieces = .ok (names, found))
    {i : Nat} {name : String} (hname : names[i]? = some name) :
    isName name.toList = true ∨
      (position + i = 0 ∧ name = "" ∧ ∃ index, found = some ⟨0, index⟩) := by
  induction pieces generalizing position marker names i with
  | nil =>
    cases h
    cases hname
  | cons piece pieces ih =>
    obtain ⟨first, index, others, _, hfirst, _, hrest, rfl⟩ := readSegments?_cons_eq_ok h
    cases i with
    | zero =>
      obtain rfl := Option.some.inj hname
      rcases hfirst with hfirst | ⟨rfl, rfl, hindex⟩
      · exact .inl (by rwa [String.toList_ofList])
      · -- The index of the first segment is the marker, and no other can follow.
        obtain ⟨index, rfl⟩ := Option.isSome_iff_exists.mp hindex
        exact .inr ⟨rfl, rfl, index, eq_some_of_readSegments? hrest⟩
    | succ i =>
      rcases ih hrest hname with hname | ⟨hzero, -⟩
      · exact .inl hname
      · omega

/-- The segments of a path and its marker are well formed. -/
theorem wellFormed_of_readSegments? (h : readSegments? 0 none pieces = .ok (names, found)) :
    WellFormedPath names found where
  segment_lt m hm := by
    have hlength := length_of_readSegments? h
    cases pieces with
    | nil =>
      cases h
      cases hm
    | cons piece pieces =>
      have hbound : 0 + (piece :: pieces).length ≤ pieces.length + 1 := by
        rw [List.length_cons]
        omega
      have hbounded := boundedMarker_of_readSegments? h hbound (fun m hm => nomatch hm) m hm
      rw [hlength, List.length_cons]
      exact Nat.lt_succ_of_le hbounded.1
  position_le segment place hm := by
    have hbound : 0 + pieces.length ≤ pieces.length + 1 := by omega
    have hbounded := boundedMarker_of_readSegments? h hbound (fun m hm => nomatch hm) _ hm
    exact hbounded.2 place rfl
  names i name hname := by
    have := isName_of_readSegments? h hname
    rwa [Nat.zero_add] at this

end

/-- A path is well formed. The root alone has no segments and no marker. -/
theorem wellFormed_of_readPath? {text : List Char} {names : List String} {marker : Option Marker}
    (h : readPath? text = .ok (names, marker)) : WellFormedPath names marker := by
  unfold readPath? at h
  split at h
  · cases h
    have hnone : readSegments? 0 none [] = .ok ([], none) := rfl
    exact wellFormed_of_readSegments? hnone
  · cases h
  · exact wellFormed_of_readSegments? h

/-! ### Tags -/

/-- What is read as a tag is well formed. -/
theorem wellFormed_of_ofText? {inner : List Char} {e : Expression}
    (h : Expression.ofText? inner = .ok e) : WellFormedExpression e := by
  obtain ⟨-, path, calls, -, hpath, hcalls⟩ := ofText?_eq_ok_iff.mp h
  refine ⟨wellFormed_of_readPath? hpath, fun call hcall => ?_⟩
  obtain ⟨text, htext⟩ := exists_of_mem_right hcalls hcall
  exact wellFormed_of_readCall? htext

/-- The tags of a parsed template are well formed. -/
theorem wellFormed_of_mem_tags {t : Template} {tag : Tag} (h : tag ∈ t.parse.tags) :
    WellFormedExpression tag.toExpression := by
  obtain ⟨inner, -, hinner⟩ := raw_of_mem_tagsFrom (wellFormed_pieces _) h
  exact wellFormed_of_ofText? hinner

/-- The literals of a well-formed tag are tame. -/
theorem WellFormedExpression.tameCalls {e : Expression} (h : WellFormedExpression e) :
    TameCalls e.calls := by
  intro call hcall v hv
  cases (h.calls call hcall).parameters _ hv with
  | text value => exact tame_text value
  | boolean value => exact tame_boolean value
  | number hx => exact tame_number.mpr hx

end TagTemplate.Proofs.Template
