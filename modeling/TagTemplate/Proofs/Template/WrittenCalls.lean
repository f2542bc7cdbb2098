import TagTemplate.Proofs.Template.QuotedParameters
import TagTemplate.Proofs.Template.Writing

/-!
# `TagTemplate.Proofs.Template.WrittenCalls`: calls that were written

A parameter in writing is read as the parameter (`readParameter?_writes`), and a
call as the call (`readCall?_writes`).

The readers of a parameter are tried in a fixed order, so a text must not be
taken by an earlier one. Texts in quotes are told by the quote. A number is no
truth value because of its characters. A path begins with a point, as numbers
may too, but no name starts with a digit (`parseNumber?_dotted`).
-/

set_option autoImplicit false

namespace TagTemplate.Proofs.Template

open TagTemplate.Text TagTemplate.Template
open TagTemplate.Proofs.Support TagTemplate.Proofs.Text

/-! ### Parameters -/

/-- An inert text is no quotation. -/
theorem readParameter?_of_inert {text : List Char} (hne : text ≠ []) (h : Inert text) :
    readParameter? text = readBare? text := by
  unfold readParameter?
  rw [h.trim_eq]
  cases text with
  | nil => exact absurd rfl hne
  | cons c rest =>
    have hc : ¬ (c = '"' ∨ c = '\'') := by
      rintro (rfl | rfl)
      · exact h.notMem (by decide) List.mem_cons_self
      · exact h.notMem (by decide) List.mem_cons_self
    exact if_neg hc

/-- A point and a name are no number. -/
theorem parseNumber?_dotted {rest : List Char} (h : Inert rest)
    (hhead : ∀ c ∈ rest.head?, isNameStart c = true) :
    Value.parseNumber? ('.' :: rest) = none := by
  have hdigits : rest.takeWhile Char.isDigit = [] := by
    cases rest with
    | nil => rfl
    | cons c rest =>
      refine List.takeWhile_cons_of_neg fun hdigit => ?_
      have hstart := hhead c rfl
      rw [isNameStart_of_isDigit hdigit] at hstart
      cases hstart
  have htrim : trim ('.' :: rest) = '.' :: rest := Inert.trim_eq (inert_cons.mpr ⟨by decide, h⟩)
  have hread : Binary64.read? ('.' :: rest) = none := by
    show ((Binary64.readMagnitude? ('.' :: rest)).map _) = none
    have hnone : Binary64.readMagnitude? ('.' :: rest) = none := by
      unfold Binary64.readMagnitude?
      have hwhole : ('.' :: rest).takeWhile Char.isDigit = [] := rfl
      have hafter : ('.' :: rest).dropWhile Char.isDigit = '.' :: rest := rfl
      simp only [hwhole, hafter, hdigits, List.isEmpty_nil, Bool.and_self, if_true]
    rw [hnone]
    rfl
  rw [Value.parseNumber?_eq, htrim, hread]
  split <;> rfl

/-- Names with points between them begin as a name does. -/
theorem isNameStart_of_head?_dotted {names : List String} (hne : names ≠ [])
    (h : ∀ name ∈ names, isName name.toList = true) :
    ∀ c ∈ (dotted names).head?, isNameStart c = true := by
  cases names with
  | nil => exact absurd rfl hne
  | cons name names =>
    have hname := h name List.mem_cons_self
    cases hlist : name.toList with
    | nil => exact absurd hlist (ne_nil_of_isName hname)
    | cons first rest =>
      rw [hlist, isName, Bool.and_eq_true] at hname
      obtain ⟨more, hmore⟩ := exists_intercalate_cons ['.'] name.toList (names.map String.toList)
      intro c hc
      show isNameStart c = true
      rw [dotted, List.map_cons, hmore, hlist] at hc
      exact Option.some.inj hc ▸ hname.1

/-- The names come back from between the points. -/
theorem splitAt_dotted {names : List String} (hne : names ≠ [])
    (h : ∀ name ∈ names, isName name.toList = true) :
    splitAt '.' (dotted names) = names.map String.toList := by
  refine splitAt_intercalate (by simpa using hne) fun part hpart => ?_
  obtain ⟨name, hname, rfl⟩ := List.mem_map.mp hpart
  exact notMem_of_isName (h name hname) (by decide)

/-- A parameter is read as it was written. -/
theorem readParameter?_writes {p : Parameter} {text : List Char} (h : WritesParameter p text) :
    readParameter? text = .ok p := by
  cases h with
  | text value =>
    have htrim : trim ('"' :: escape value.toList ++ ['"'])
        = '"' :: (escape value.toList ++ '"' :: []) := by
      refine trim_eq_self (fun c hc => ?_) fun c hc => ?_
      · rw [← Option.some.inj hc]
        decide
      · rw [List.getLast?_concat] at hc
        rw [← Option.some.inj hc]
        decide
    rw [readParameter?_of_quotation ⟨rfl, htrim, quoteBody_escape _⟩, unescape_escape,
      String.ofList_toList]
  | boolean value => cases value <;> rfl
  | number htrim hnumber =>
    obtain ⟨hne, hdecimal⟩ := isDecimalCharacter_of_parseNumber? htrim hnumber
    -- No truth value consists of decimal characters.
    have hword : ∀ word : List Char, ¬ word.all Value.isDecimalCharacter = true → text ≠ word :=
      fun word hword heq => hword (List.all_eq_true.mpr (heq ▸ hdecimal))
    rw [readParameter?_of_inert hne fun c hc => isInert_of_isDecimalCharacter (hdecimal c hc)]
    unfold readBare?
    rw [if_neg (hword _ (by decide)), if_neg (hword _ (by decide)), hnumber]
  | dynamic hne hnames =>
    rename_i names
    have hnumber := parseNumber?_dotted (inert_dotted hnames)
      (isNameStart_of_head?_dotted hne hnames)
    have hinert : Inert ('.' :: dotted names) :=
      inert_cons.mpr ⟨by decide, inert_dotted hnames⟩
    have hall : (names.map String.toList).all isName = true := by
      rw [List.all_eq_true]
      intro part hpart
      obtain ⟨name, hname, rfl⟩ := List.mem_map.mp hpart
      exact hnames name hname
    rw [readParameter?_of_inert (List.cons_ne_nil _ _) hinert]
    unfold readBare?
    rw [if_neg (by simp), if_neg (by simp), hnumber]
    show readDynamic? ('.' :: dotted names) (dotted names) = _
    unfold readDynamic?
    simp only [splitAt_dotted hne hnames, if_pos hall, List.map_map]
    congr 2
    exact (List.map_congr_left fun name _ => String.ofList_toList).trans (List.map_id names)

/-! ### Calls -/

/-- Parameters are read as they were written. -/
theorem readParameters?_writes {parameters : List Parameter} {texts : List (List Char)}
    (h : List.Forall₂ WritesParameter parameters texts) :
    readParameters? ([','].intercalate texts) = .ok parameters := by
  refine readParameters?_eq_ok_iff.mpr ?_
  cases h with
  | nil => exact .inl ⟨rfl, rfl⟩
  | @cons p text parameters texts hp hparameters =>
    have hall := List.Forall₂.cons hp hparameters
    refine .inr ⟨?_, text :: texts, splitTopLevel?_intercalate (by decide) (List.cons_ne_nil _ _)
      fun part hpart => ?_, ?_⟩
    · obtain ⟨c, hc, hwhite⟩ := hp.exists_notWhite
      obtain ⟨more, hmore⟩ := exists_intercalate_cons [','] text texts
      exact trim_ne_nil (hmore ▸ List.mem_append_left more hc) hwhite
    · obtain ⟨p, hp⟩ := exists_of_mem_right hall hpart
      exact hp.passedOver
    · exact (hall.imp fun _ _ => readParameter?_writes).flip

/-- A call is read as it was written. -/
theorem readCall?_writes {call : Call} {text : List Char} (h : WritesCall call text) :
    readCall? text = .ok call := by
  cases h with
  | @call name parameters texts hname hparameters =>
    refine readCall?_eq_ok_iff.mpr ⟨name.toList, hname, String.ofList_toList.symm, .inr
      ⟨[','].intercalate texts, ?_, readParameters?_writes hparameters⟩⟩
    show trimEnd (name.toList ++ ('(' :: [','].intercalate texts ++ [')'])) = _
    rw [← List.append_assoc, trimEnd_concat _ (by decide), List.append_assoc, List.cons_append]

end TagTemplate.Proofs.Template
