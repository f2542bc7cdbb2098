import TagTemplate.Proofs.Template.Nesting

/-!
# `TagTemplate.Proofs.Template.Writing`: tags in writing

What a tag says can be written down in one way, up to the texts of numbers.
`Writes e text` says that `text` is a tag in writing that says `e`.

* A path is written behind the root `d`, with a point before each name. A
  segment with a marker has the marker behind its name. The first name may be
  missing if it has a marker, and then its point is missing too.
* Each call is written behind a colon, with its parameters in parentheses and
  commas between them.
* A text is written in double quotes, with a backslash before each double quote
  and each backslash. A number is written in any way in which it is read, without
  white space around it. A path as a parameter has a point before each name.

The lemmas say which scans go over these texts: everything but a text in quotes
is inert, so the calls and the path are closed, and a parameter stays whole
between commas.
-/

set_option autoImplicit false

namespace TagTemplate.Proofs.Template

open TagTemplate.Text TagTemplate.Template
open TagTemplate.Proofs.Support

/-! ### Parameters -/

/-- A text with a backslash before each double quote and each backslash. -/
def escape : List Char → List Char
  | [] => []
  | c :: rest => if c = '"' ∨ c = '\\' then '\\' :: c :: escape rest else c :: escape rest

/-- Names with a point between each two. -/
def dotted (names : List String) : List Char :=
  ['.'].intercalate (names.map String.toList)

/-- The parameter in writing. -/
inductive WritesParameter : Parameter → List Char → Prop where
  | text (value : String) :
    WritesParameter (.literal (.text value)) ('"' :: escape value.toList ++ ['"'])
  | boolean (value : Bool) : WritesParameter (.literal (.boolean value)) (toString value).toList
  | number {x : Binary64} {text : List Char} : trim text = text →
    Value.parseNumber? text = some x → WritesParameter (.literal (.number x)) text
  | dynamic {names : List String} : names ≠ [] → (∀ name ∈ names, isName name.toList = true) →
    WritesParameter (.dynamic names) ('.' :: dotted names)

/-- The call in writing. -/
inductive WritesCall : Call → List Char → Prop where
  | call {name : String} {parameters : List Parameter} {texts : List (List Char)} :
    isName name.toList = true → List.Forall₂ WritesParameter parameters texts →
    WritesCall ⟨name, parameters⟩ (name.toList ++ ('(' :: [','].intercalate texts ++ [')']))

/-! ### Paths -/

/-- An index in its brackets. -/
def indexText : Index → List Char
  | .direct position => '[' :: Nat.toDigits 10 position ++ [']']
  | .iterate => ['[', 'i', ']']
  | .aggregate => ['[', ']']

/-- An index in its brackets, if there is one. -/
def indexText? : Option Index → List Char
  | some index => indexText index
  | none => []

/-- The index of the marker, if it stands at the position. -/
def indexAt? (marker : Option Marker) (position : Nat) : Option Index :=
  match marker with
  | some marker => if marker.segment = position then some marker.index else none
  | none => none

/-- The segments of a path in writing, from a position on. -/
def segmentTexts (marker : Option Marker) (position : Nat) : List String → List (List Char)
  | [] => []
  | name :: names =>
    (name.toList ++ indexText? (indexAt? marker position)) ::
      segmentTexts marker (position + 1) names

/-- What holds of each name with any index behind it holds of the segments. -/
theorem forall_segmentTexts {P : List Char → Prop} (marker : Option Marker) (position : Nat)
    {names : List String} (h : ∀ name ∈ names, ∀ index, P (name.toList ++ indexText? index)) :
    ∀ part ∈ segmentTexts marker position names, P part := by
  induction names generalizing position with
  | nil => exact fun _ hpart => absurd hpart List.not_mem_nil
  | cons name names ih =>
    intro part hpart
    rcases List.mem_cons.mp hpart with rfl | hpart
    · exact h name List.mem_cons_self _
    · exact ih (position + 1) (fun other hother => h other (List.mem_cons_of_mem _ hother)) part
        hpart

/-- A path in writing. -/
def pathText (path : List String) (marker : Option Marker) : List Char :=
  let segments := segmentTexts marker 0 path
  if path.head? = some "" then 'd' :: ['.'].intercalate segments
  else ['.'].intercalate (['d'] :: segments)

/-- A point comes before the first name. -/
theorem pathText_of_ne {name : String} {names : List String} {marker : Option Marker}
    (h : name ≠ "") : pathText (name :: names) marker
      = 'd' :: '.' :: ['.'].intercalate (segmentTexts marker 0 (name :: names)) := by
  have hhead : ¬ (name :: names).head? = some "" := fun heq => h (Option.some.inj heq)
  unfold pathText
  simp only [if_neg hhead]
  rw [segmentTexts, List.intercalate_cons_cons]
  rfl

/-- No point comes before a bracket without a name. -/
theorem pathText_unnamed (names : List String) (marker : Option Marker) :
    pathText ("" :: names) marker
      = 'd' :: ['.'].intercalate (segmentTexts marker 0 ("" :: names)) := rfl

/-- A path begins with its root. -/
theorem exists_pathText (path : List String) (marker : Option Marker) :
    ∃ rest, pathText path marker = 'd' :: rest := by
  cases path with
  | nil => exact ⟨[], rfl⟩
  | cons name names =>
    by_cases h : name = ""
    · subst h
      exact ⟨_, pathText_unnamed names marker⟩
    · exact ⟨_, pathText_of_ne h⟩

/-- A path that a tag can have: the marker is on one of its segments, with an index
in range, and the segments have names. Only the first may lack it, if the marker
is there. -/
structure WellFormedPath (path : List String) (marker : Option Marker) : Prop where
  segment_lt : ∀ m ∈ marker, m.segment < path.length
  position_le : ∀ segment position, marker = some ⟨segment, .direct position⟩ →
    position ≤ indexLimit
  names : ∀ position name, path[position]? = some name →
    isName name.toList = true ∨
      (position = 0 ∧ name = "" ∧ ∃ index, marker = some ⟨0, index⟩)

/-- The first name of such a path may be empty, and no other. -/
theorem WellFormedPath.isName_or_empty {path : List String} {marker : Option Marker}
    (h : WellFormedPath path marker) {name : String} (hname : name ∈ path) :
    isName name.toList = true ∨ name = "" := by
  obtain ⟨position, hposition⟩ := List.mem_iff_getElem?.mp hname
  rcases h.names position name hposition with hname | ⟨-, hempty, -⟩
  · exact .inl hname
  · exact .inr hempty

/-! ### Tags -/

/-- The text between the braces of a tag in writing. -/
def innerText (path : List String) (marker : Option Marker) (calls : List (List Char)) :
    List Char :=
  [':'].intercalate (pathText path marker :: calls)

/-- The tag in writing. -/
def Writes (e : Expression) (text : List Char) : Prop :=
  WellFormedPath e.path e.marker ∧ ∃ calls, List.Forall₂ WritesCall e.calls calls ∧
    text = '{' :: innerText e.path e.marker calls ++ ['}']

/-! ### Quotations and inert texts -/

/-- A text with its escapes can stand in double quotes. -/
theorem quoteBody_escape (text : List Char) : QuoteBody '"' (escape text) := by
  induction text with
  | nil => exact .nil
  | cons c text ih =>
    unfold escape
    split
    · exact ih.escaped c
    · rename_i hc
      rw [not_or] at hc
      exact .plain hc.2 hc.1 ih

/-- It stands for the text. -/
theorem unescape_escape (text : List Char) : unescape (escape text) = text := by
  induction text with
  | nil => rfl
  | cons c text ih =>
    unfold escape
    split
    · show c :: unescape (escape text) = _
      rw [ih]
    · rename_i hc
      rw [not_or] at hc
      rw [unescape_cons hc.2, ih]

/-- What holds of nothing, and of two texts in a row if it holds of both, holds of
texts with separators between them. -/
theorem intercalate_of_append {P : List Char → Prop} (hnil : P [])
    (happend : ∀ {first second}, P first → P second → P (first ++ second))
    {separator : List Char} (hseparator : P separator) {parts : List (List Char)}
    (h : ∀ part ∈ parts, P part) : P (separator.intercalate parts) := by
  induction parts with
  | nil => exact hnil
  | cons part parts ih =>
    have hpart := h part List.mem_cons_self
    cases parts with
    | nil => rwa [List.intercalate_singleton]
    | cons next parts =>
      rw [List.intercalate_cons_cons]
      exact happend (happend hpart hseparator) (ih fun p hp => h p (List.mem_cons_of_mem _ hp))

/-- Texts with separators between them begin with the first. -/
theorem exists_intercalate_cons (separator first : List Char) (others : List (List Char)) :
    ∃ rest, separator.intercalate (first :: others) = first ++ rest := by
  cases others with
  | nil => exact ⟨[], by rw [List.intercalate_singleton, List.append_nil]⟩
  | cons next others =>
    exact ⟨_, by rw [List.intercalate_cons_cons, List.append_assoc]⟩

/-- Nothing is inert. -/
theorem inert_nil : Inert [] := fun _ hc => absurd hc List.not_mem_nil

/-- Names with points between them are inert. -/
theorem inert_dotted {names : List String} (h : ∀ name ∈ names, isName name.toList = true) :
    Inert (dotted names) := by
  refine intercalate_of_append inert_nil Inert.append (by decide) fun part hpart => ?_
  obtain ⟨name, hname, rfl⟩ := List.mem_map.mp hpart
  exact inert_of_isName (h name hname)

/-- An index in its brackets is inert. -/
theorem inert_indexText? (index : Option Index) : Inert (indexText? index) := by
  match index with
  | none => exact inert_nil
  | some (.direct position) =>
    have hdigits : Inert (Nat.toDigits 10 position) := fun c hc =>
      isInert_of_isDigit (Nat.isDigit_of_mem_toDigits (by decide) (by decide) hc)
    exact inert_cons.mpr ⟨by decide, hdigits.append (by decide)⟩
  | some .iterate => exact (by decide : Inert ['[', 'i', ']'])
  | some .aggregate => exact (by decide : Inert ['[', ']'])

/-- A path in writing is inert. -/
theorem WellFormedPath.inert_pathText {path : List String} {marker : Option Marker}
    (h : WellFormedPath path marker) : Inert (pathText path marker) := by
  have hsegments : ∀ part ∈ segmentTexts marker 0 path, Inert part := by
    refine forall_segmentTexts marker 0 fun name hname index => ?_
    refine Inert.append ?_ (inert_indexText? index)
    rcases h.isName_or_empty hname with hname | rfl
    · exact inert_of_isName hname
    · exact inert_nil
  unfold pathText
  split
  · exact inert_cons.mpr ⟨by decide,
      intercalate_of_append inert_nil Inert.append (by decide) hsegments⟩
  · refine intercalate_of_append inert_nil Inert.append (by decide) fun part hpart => ?_
    rcases List.mem_cons.mp hpart with rfl | hpart
    · decide
    · exact hsegments part hpart

/-- The text of a number is not empty and has decimal characters only. -/
theorem isDecimalCharacter_of_parseNumber? {text : List Char} {x : Binary64}
    (htrim : trim text = text) (h : Value.parseNumber? text = some x) :
    text ≠ [] ∧ ∀ c ∈ text, Value.isDecimalCharacter c = true := by
  rw [Value.parseNumber?_eq, htrim] at h
  split at h
  · rename_i hall
    refine ⟨?_, List.all_eq_true.mp hall⟩
    rintro rfl
    cases h
  · cases h

/-- Decimal characters are inert. -/
theorem isInert_of_isDecimalCharacter {c : Char} (h : Value.isDecimalCharacter c = true) :
    isInert c = true := by
  simp only [Value.isDecimalCharacter, Bool.or_eq_true, decide_eq_true_eq] at h
  rcases h with ((((h | rfl) | rfl) | rfl) | rfl) | rfl
  · exact isInert_of_isDigit h
  all_goals decide

/-! ### What is gone over -/

/-- A parameter in writing is a quotation, or inert. -/
theorem WritesParameter.quotation_or_inert {p : Parameter} {text : List Char}
    (h : WritesParameter p text) :
    (∃ value, text = '"' :: escape value ++ ['"']) ∨ (text ≠ [] ∧ Inert text) := by
  cases h with
  | text value => exact .inl ⟨value.toList, rfl⟩
  | boolean value => cases value <;> exact .inr (by decide)
  | number htrim hnumber =>
    obtain ⟨hne, hdecimal⟩ := isDecimalCharacter_of_parseNumber? htrim hnumber
    exact .inr ⟨hne, fun c hc => isInert_of_isDecimalCharacter (hdecimal c hc)⟩
  | dynamic _ hnames =>
    exact .inr ⟨List.cons_ne_nil _ _, inert_cons.mpr ⟨by decide, inert_dotted hnames⟩⟩

/-- A parameter in writing is closed inside parentheses. -/
theorem WritesParameter.closed {p : Parameter} {text : List Char} (h : WritesParameter p text)
    (depth : Nat) : Closed (depth + 1) text := by
  rcases h.quotation_or_inert with ⟨value, rfl⟩ | ⟨-, hinert⟩
  · exact closed_quotation rfl (quoteBody_escape value)
  · exact hinert.closed

/-- A parameter in writing stays whole between commas. -/
theorem WritesParameter.passedOver {p : Parameter} {text : List Char}
    (h : WritesParameter p text) : PassedOver ',' 0 text := by
  rcases h.quotation_or_inert with ⟨value, rfl⟩ | ⟨-, hinert⟩
  · exact passedOver_quotation rfl (quoteBody_escape value)
  · exact hinert.passedOver (by decide)

/-- A parameter in writing is more than white space. -/
theorem WritesParameter.exists_notWhite {p : Parameter} {text : List Char}
    (h : WritesParameter p text) : ∃ c ∈ text, Unicode.isWhiteSpace c = false := by
  rcases h.quotation_or_inert with ⟨value, rfl⟩ | ⟨hne, hinert⟩
  · exact ⟨'"', List.mem_cons_self, by decide⟩
  · obtain ⟨c, hc⟩ := List.exists_mem_of_ne_nil text hne
    exact ⟨c, hc, isWhiteSpace_of_isInert (hinert c hc)⟩

/-- A call in writing is closed. -/
theorem WritesCall.closed {call : Call} {text : List Char} (h : WritesCall call text) :
    Closed 0 text := by
  cases h with
  | call hname hparameters =>
    refine (inert_of_isName hname).closed.append (closed_parentheses ?_)
    refine intercalate_of_append closed_nil Closed.append closed_comma fun part hpart => ?_
    obtain ⟨p, hp⟩ := exists_of_mem_right hparameters hpart
    exact hp.closed 0

end TagTemplate.Proofs.Template
