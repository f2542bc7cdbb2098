import TagTemplate.Proofs.Support.Sequences
import TagTemplate.Proofs.Template.Splitting

/-!
# `TagTemplate.Proofs.Template.Reading`: what a reading is made of

The readers of `Template.Grammar` stop at the first fault. Each lemma here says
when one of them succeeds, and with what, in terms of the texts that it cuts
out: a tag is a path and calls between colons (`ofText?_eq_ok_iff`), a call is a
name alone or a name with parameters in parentheses (`readCall?_eq_ok_iff`), and
parameters are nothing at all or texts between commas
(`readParameters?_eq_ok_iff`). Proofs about what is read go through these and do
not open the readers.

A name has no character with a meaning in the grammar (`notMem_of_isName`), so
cutting at such a character leaves names whole.
-/

set_option autoImplicit false

namespace TagTemplate.Proofs.Template

open TagTemplate.Text TagTemplate.Template
open TagTemplate.Proofs.Support

/-! ### Names -/

/-- A name can go on with a character that it can start with. -/
theorem isNamePart_of_isNameStart {c : Char} (h : isNameStart c = true) : isNamePart c = true := by
  simp only [isNameStart, Bool.or_eq_true] at h
  simp only [isNamePart, Bool.or_eq_true]
  rcases h with (h | h) | h
  · exact .inl (.inl (.inl (.inl h)))
  · exact .inl (.inl (.inr h))
  · exact .inl (.inr h)

/-- All characters of a name are characters that a name can go on with. -/
theorem isNamePart_of_mem {name : List Char} (hname : isName name = true) {c : Char}
    (hc : c ∈ name) : isNamePart c = true := by
  cases name with
  | nil => cases hc
  | cons first rest =>
    rw [isName, Bool.and_eq_true, List.all_eq_true] at hname
    rcases List.mem_cons.mp hc with rfl | hc
    · exact isNamePart_of_isNameStart hname.1
    · exact hname.2 c hc

/-- No other character is in a name. -/
theorem notMem_of_isName {name : List Char} (hname : isName name = true) {c : Char}
    (hc : isNamePart c = false) : c ∉ name := by
  intro hmem
  rw [isNamePart_of_mem hname hmem] at hc
  cases hc

/-- The empty text is no name. -/
theorem ne_nil_of_isName {name : List Char} (hname : isName name = true) : name ≠ [] := by
  rintro rfl
  cases hname

/-! ### Texts before a character -/

/-- A text without its last character is there if the text ends with it. -/
theorem before?_eq_some_iff {last : Char} {text inside : List Char} :
    before? last text = some inside ↔ text = inside ++ [last] := by
  unfold before?
  constructor
  · intro h
    split at h
    · rename_i hlast
      obtain ⟨rest, rfl⟩ := List.getLast?_eq_some_iff.mp hlast
      rw [List.dropLast_concat] at h
      rw [Option.some.inj h]
    · cases h
  · rintro rfl
    rw [if_pos List.getLast?_concat, List.dropLast_concat]

/-- What comes before the first of a character, where the text goes on with it. -/
theorem takeWhile_ne_append {c : Char} {before : List Char} (hc : c ∉ before) (rest : List Char) :
    (before ++ c :: rest).takeWhile (· ≠ c) = before ∧
      (before ++ c :: rest).dropWhile (· ≠ c) = c :: rest := by
  have hall : ∀ d ∈ before, decide (d ≠ c) = true := by
    intro d hd
    rw [decide_eq_true_eq]
    rintro rfl
    exact hc hd
  rw [List.takeWhile_append_of_pos hall, List.dropWhile_append_of_pos hall]
  simp

/-- A text without the character is all before it. -/
theorem takeWhile_ne_self {c : Char} {text : List Char} (hc : c ∉ text) :
    text.takeWhile (· ≠ c) = text ∧ text.dropWhile (· ≠ c) = [] := by
  have hall : ∀ d ∈ text, decide (d ≠ c) = true := by
    intro d hd
    rw [decide_eq_true_eq]
    rintro rfl
    exact hc hd
  have hsame : (text ++ []).takeWhile (· ≠ c) = text ++ [] := List.takeWhile_append_of_pos hall
  have hnone : (text ++ []).dropWhile (· ≠ c) = [] := List.dropWhile_append_of_pos hall
  rw [List.append_nil] at hsame hnone
  exact ⟨hsame, hnone⟩

/-! ### Paths -/

/-- A segment that was read has a name, unless it is the first and has an index. It has
no index if one was met before, and the others are read after it. -/
theorem readSegments?_cons_eq_ok {position : Nat} {marker found : Option Marker}
    {piece : List Char} {pieces : List (List Char)} {names : List String}
    (h : readSegments? position marker (piece :: pieces) = .ok (names, found)) :
    ∃ name index others, readSegment? piece = .ok (name, index) ∧
      (isName name = true ∨ (position = 0 ∧ name = [] ∧ index.isSome)) ∧
      (index = none ∨ marker = none) ∧
      readSegments? (position + 1) ((index.map (Marker.mk position)).or marker) pieces
        = .ok (others, found) ∧
      names = String.ofList name :: others := by
  rw [readSegments?] at h
  obtain ⟨⟨name, index⟩, hpiece, h⟩ := except_bind_eq_ok.mp h
  dsimp only at h
  split at h
  · cases h
  · next hname =>
    have hname : isName name = true ∨ (position = 0 ∧ name = [] ∧ index.isSome) := by
      by_contra hnot
      rw [not_or, Bool.not_eq_true] at hnot
      exact hname ⟨hnot.2, by rw [hnot.1]; rfl⟩
    split at h
    · cases h
    · next hone =>
      obtain ⟨⟨others, result⟩, hrest, h⟩ := except_bind_eq_ok.mp h
      cases h
      refine ⟨name, index, others, hpiece, hname, ?_, hrest, rfl⟩
      cases index with
      | none => exact .inl rfl
      | some index =>
        cases marker with
        | none => exact .inr rfl
        | some marker => exact absurd rfl (hone index marker rfl)

/-! ### Parameters and calls -/

/-- Parameters are nothing but white space, or texts between commas. -/
theorem readParameters?_eq_ok_iff {text : List Char} {ps : List Parameter} :
    readParameters? text = .ok ps ↔
      (trim text = [] ∧ ps = []) ∨
      (trim text ≠ [] ∧ ∃ parts, splitTopLevel? ',' text = .ok parts ∧
        List.Forall₂ (fun part p => readParameter? part = .ok p) parts ps) := by
  unfold readParameters?
  by_cases hblank : trim text = []
  · simp [hblank, pure, Except.pure, eq_comm]
  · have hnotEmpty : ¬ (trim text).isEmpty = true := by rwa [List.isEmpty_iff]
    rw [if_neg hnotEmpty]
    simp only [hblank, false_and, false_or, ne_eq, not_false_iff, true_and]
    exact except_bind_eq_ok.trans (by simp only [mapM_eq_ok_iff])

/-- A call without a parenthesis is a name. -/
theorem readCall?_of_notMem {text : List Char} (h : '(' ∉ trimEnd text) :
    readCall? text = if isName (trimEnd text) then .ok ⟨String.ofList (trimEnd text), []⟩
      else .error (.invalidName (String.ofList (trimEnd text))) := by
  obtain ⟨htake, hdrop⟩ := takeWhile_ne_self h
  unfold readCall?
  simp only [htake, hdrop]
  cases isName (trimEnd text) <;> rfl

/-- A call with a parenthesis is what comes before it, if that is a name, with the
parameters up to the closing parenthesis at its end. -/
theorem readCall?_of_parenthesis {text name rest : List Char} (hname : '(' ∉ name)
    (htext : trimEnd text = name ++ '(' :: rest) :
    readCall? text =
      match before? ')' rest with
      | none => .error (.missingParenthesis (String.ofList (trimEnd text)))
      | some inside =>
        if isName name then
          (readParameters? inside).map fun parameters => ⟨String.ofList name, parameters⟩
        else .error (.invalidName (String.ofList name)) := by
  obtain ⟨htake, hdrop⟩ := takeWhile_ne_append hname rest
  unfold readCall?
  rw [htext]
  simp only [htake, hdrop]
  cases before? ')' rest with
  | none => rfl
  | some inside =>
    cases isName name with
    | false => rfl
    | true =>
      cases hparameters : readParameters? inside with
      | ok parameters => simp [hparameters, bind, Except.bind, pure, Except.pure, Except.map]
      | error fault => simp [hparameters, bind, Except.bind, pure, Except.pure, Except.map]

/-- A call is a name alone, or a name and parameters in parentheses. -/
theorem readCall?_eq_ok_iff {text : List Char} {call : Call} :
    readCall? text = .ok call ↔
      ∃ name, isName name = true ∧ call.name = String.ofList name ∧
        ((trimEnd text = name ∧ call.parameters = []) ∨
          ∃ inside, trimEnd text = name ++ '(' :: (inside ++ [')']) ∧
            readParameters? inside = .ok call.parameters) := by
  constructor
  · intro h
    by_cases hmem : '(' ∈ trimEnd text
    · obtain ⟨name, rest, htext, hnone⟩ := List.eq_append_cons_of_mem hmem
      rw [readCall?_of_parenthesis hnone htext] at h
      cases hinside : before? ')' rest with
      | none =>
        rw [hinside] at h
        cases h
      | some inside =>
        simp only [hinside] at h
        split at h
        · rename_i hname
          obtain ⟨parameters, hparameters, rfl⟩ := except_map_eq_ok.mp h
          rw [before?_eq_some_iff] at hinside
          exact ⟨name, hname, rfl, .inr ⟨inside, hinside ▸ htext, hparameters⟩⟩
        · cases h
    · rw [readCall?_of_notMem hmem] at h
      split at h
      · rename_i hname
        cases h
        exact ⟨trimEnd text, hname, rfl, .inl ⟨rfl, rfl⟩⟩
      · cases h
  · obtain ⟨callName, parameters⟩ := call
    rintro ⟨name, hname, rfl, ⟨htext, rfl⟩ | ⟨inside, htext, hparameters⟩⟩
    · have hnone : '(' ∉ trimEnd text := htext ▸ notMem_of_isName hname (by decide)
      rw [readCall?_of_notMem hnone, htext, if_pos hname]
    · have hnone : '(' ∉ name := notMem_of_isName hname (by decide)
      rw [readCall?_of_parenthesis hnone htext, before?_eq_some_iff.mpr rfl]
      simp only [if_pos hname]
      exact except_map_eq_ok.mpr ⟨_, hparameters, rfl⟩

/-- A tag is a path and calls between colons. -/
theorem ofText?_eq_ok_iff {inner : List Char} {e : Expression} :
    Expression.ofText? inner = .ok e ↔
      trim inner ≠ [] ∧ ∃ path calls, splitTopLevel? ':' (trim inner) = .ok (path :: calls) ∧
        readPath? (trim path) = .ok (e.path, e.marker) ∧
        List.Forall₂ (fun text call => readCall? text = .ok call) calls e.calls := by
  unfold Expression.ofText?
  by_cases hblank : trim inner = []
  · simp [hblank, throw, throwThe, MonadExceptOf.throw, bind, Except.bind]
  · have hnotEmpty : ¬ (trim inner).isEmpty = true := by rwa [List.isEmpty_iff]
    simp only [if_neg hnotEmpty, ne_eq, hblank, not_false_iff, true_and]
    constructor
    · intro h
      obtain ⟨parts, hparts, h⟩ := except_bind_eq_ok.mp h
      obtain ⟨⟨path, marker⟩, hpath, h⟩ := except_bind_eq_ok.mp h
      obtain ⟨calls, hcalls, h⟩ := except_bind_eq_ok.mp h
      cases h
      cases parts with
      | nil => exact absurd rfl (ne_nil_of_splitTopLevel? hparts)
      | cons first others => exact ⟨first, others, hparts, hpath, mapM_eq_ok_iff.mp hcalls⟩
    · rintro ⟨path, calls, hparts, hpath, hcalls⟩
      refine except_bind_eq_ok.mpr ⟨path :: calls, hparts, ?_⟩
      refine except_bind_eq_ok.mpr ⟨(e.path, e.marker), hpath, ?_⟩
      exact except_bind_eq_ok.mpr ⟨e.calls, mapM_eq_ok_iff.mpr hcalls, rfl⟩

end TagTemplate.Proofs.Template
