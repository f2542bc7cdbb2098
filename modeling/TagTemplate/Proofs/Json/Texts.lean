import TagTemplate.Proofs.Json.Numerals
import TagTemplate.Proofs.Json.Strings

/-!
# `TagTemplate.Proofs.Json.Texts`: written documents are read back

A document can be written if its literals are literals and its strings are texts
(`Writable`). The reader finds such a document again in its compact text, whatever
stands behind it, as long as that does not go on a number (`readsValue`).
The induction follows the documents, with one statement for values, one for the
elements of an array and one for the members of an object. Twice the length of the
text is enough steps for each of them.
-/

set_option autoImplicit false

namespace TagTemplate.Proofs.Json

open TagTemplate.Json TagTemplate.Json.Document

/-! ### Documents that can be written -/

mutual

/-- The literals of a document are literals, and its strings and keys are texts. -/
def Writable : Document → Prop
  | .null => True
  | .boolean _ => True
  | .number literal => (Numeral.ofText? literal.toList).isSome = true
  | .string text => text.isSome = true
  | .array elements => ElementsWritable elements
  | .object members => MembersWritable members

/-- The elements of an array can be written. -/
def ElementsWritable : List Document → Prop
  | [] => True
  | d :: ds => Writable d ∧ ElementsWritable ds

/-- The members of an object can be written. -/
def MembersWritable : List (Option String × Document) → Prop
  | [] => True
  | (key, d) :: ds => key.isSome = true ∧ Writable d ∧ MembersWritable ds

end

/-! ### Values without parts -/

variable {rest : List Char} {steps : Nat}

/-- What stands behind a number does not go on it. -/
def EndsNumber (rest : List Char) : Prop :=
  ∀ c ∈ rest.head?, isNumberCharacter c = false

/-- A number character begins no other value and is no blank. -/
theorem ne_of_isNumberCharacter {c : Char} (h : isNumberCharacter c = true) :
    isBlank c = false ∧ c ≠ '"' ∧ c ≠ '[' ∧ c ≠ ']' ∧ c ≠ '{' ∧ c ≠ 'n' ∧ c ≠ 't' ∧ c ≠ 'f' := by
  refine ⟨?_, ?_, ?_, ?_, ?_, ?_, ?_, ?_⟩
  · by_contra hblank
    simp only [isBlank, Bool.not_eq_false, Bool.or_eq_true, decide_eq_true_eq] at hblank
    rcases hblank with ((rfl | rfl) | rfl) | rfl <;> exact absurd h (by decide)
  all_goals
    rintro rfl
    exact absurd h (by decide)

/-- A character that is no blank is not skipped. -/
theorem skipBlanks_cons {c : Char} (h : isBlank c = false) (cs : List Char) :
    skipBlanks (c :: cs) = c :: cs :=
  List.dropWhile_cons_of_neg (by rw [h]; exact Bool.false_ne_true)

/-- A literal begins with a number character. -/
theorem exists_literal {literal : List Char} (h : (Numeral.ofText? literal).isSome = true) :
    (∀ c ∈ literal, isNumberCharacter c = true) ∧ ∃ c cs, literal = c :: cs := by
  obtain ⟨n, hn⟩ := Option.isSome_iff_exists.mp h
  refine ⟨(isNumberCharacter_of_ofText? hn).1, ?_⟩
  cases literal with
  | nil => cases hn
  | cons c cs => exact ⟨c, cs, rfl⟩

/-- A literal is read up to its end. -/
theorem readValue?_number {literal : String}
    (h : (Numeral.ofText? literal.toList).isSome = true) (hrest : EndsNumber rest) :
    readValue? (steps + 1) (literal.toList ++ rest) = some (.number literal, rest) := by
  obtain ⟨hall, c, cs, hcons⟩ := exists_literal h
  have htake : (literal.toList ++ rest).takeWhile isNumberCharacter = literal.toList := by
    rw [List.takeWhile_append_of_pos hall]
    cases rest with
    | nil => exact List.append_nil _
    | cons r rest => rw [List.takeWhile_cons_of_neg (by simp [hrest r rfl]), List.append_nil]
  have hdrop : (literal.toList ++ rest).dropWhile isNumberCharacter = rest := by
    have hsplit := List.takeWhile_append_dropWhile (p := isNumberCharacter)
      (l := literal.toList ++ rest)
    rw [htake] at hsplit
    exact List.append_cancel_left hsplit
  obtain ⟨hblank, hquote, harray, -, hobject, hn, ht, hf⟩ :=
    ne_of_isNumberCharacter (hall c (hcons ▸ List.mem_cons_self))
  rw [hcons, List.cons_append] at htake hdrop
  rw [hcons, List.cons_append, readValue?, skipBlanks_cons hblank]
  have hliteral : String.ofList (c :: cs) = literal := by rw [← hcons, String.ofList_toList]
  rw [hcons] at h
  simp [hquote, harray, hobject, hn, ht, hf, htake, hdrop, h, hliteral]

/-- A quoted text is read up to its closing quote. -/
theorem readString?_quoted {text : Option String} (htext : text.isSome = true) :
    ∃ body, stringText text = '"' :: body ∧ ∀ steps rest, body.length ≤ steps →
      readString? steps (body ++ rest) = some (text, rest) := by
  obtain ⟨s, rfl⟩ := Option.isSome_iff_exists.mp htext
  refine ⟨s.toList.flatMap escape ++ ['"'], rfl, fun steps rest hsteps => ?_⟩
  rw [List.append_assoc]
  refine readString?_escape ?_ rest
  have := length_le_length_escape s.toList
  rw [List.length_append, List.length_singleton] at hsteps
  omega

/-! ### Documents -/

/-- What stands behind an element does not go on a number. -/
theorem endsNumber_compactElements (ds : List Document) (rest : List Char) :
    EndsNumber (compactElements ds ++ rest) := by
  cases ds with
  | nil => rintro c ⟨⟩; rfl
  | cons d ds => rintro c ⟨⟩; rfl

/-- The closing bracket is written at least. -/
theorem length_compactElements_pos (ds : List Document) : 0 < (compactElements ds).length := by
  cases ds with
  | nil => exact Nat.one_pos
  | cons d ds => exact Nat.succ_pos _

/-- What stands behind a member does not go on a number. -/
theorem endsNumber_compactMembers (ds : List (Option String × Document)) (rest : List Char) :
    EndsNumber (compactMembers ds ++ rest) := by
  cases ds with
  | nil => rintro c ⟨⟩; rfl
  | cons d ds => rintro c ⟨⟩; rfl

/-- A written value begins neither with a blank nor with a closing bracket. -/
theorem exists_compactText {d : Document} (h : Writable d) :
    ∃ c cs, compactText d = c :: cs ∧ isBlank c = false ∧ c ≠ ']' := by
  cases d with
  | null => exact ⟨_, _, rfl, by decide, by decide⟩
  | boolean b =>
    cases b with
    | true => exact ⟨_, _, rfl, by decide, by decide⟩
    | false => exact ⟨_, _, rfl, by decide, by decide⟩
  | number literal =>
    obtain ⟨hall, c, cs, hcons⟩ := exists_literal h
    obtain ⟨hblank, -, -, hclose, -⟩ := ne_of_isNumberCharacter (hall c (hcons ▸ List.mem_cons_self))
    exact ⟨c, cs, hcons, hblank, hclose⟩
  | string text => exact ⟨_, _, rfl, by decide, by decide⟩
  | array elements =>
    cases elements with
    | nil => exact ⟨_, _, rfl, by decide, by decide⟩
    | cons d ds => exact ⟨_, _, rfl, by decide, by decide⟩
  | object members =>
    cases members with
    | nil => exact ⟨_, _, rfl, by decide, by decide⟩
    | cons member members => exact ⟨_, _, rfl, by decide, by decide⟩

/-- The reader finds a value at the head of each text that begins with its compact
text. -/
def ReadsValue (d : Document) : Prop :=
  ∀ steps rest, EndsNumber rest → 2 * (compactText d).length ≤ steps →
    readValue? steps (compactText d ++ rest) = some (d, rest)

mutual

/-- A value is read back from its text. -/
theorem readsValue : ∀ d : Document, Writable d → ReadsValue d
  | d, h, 0, rest, _, hsteps => by
    -- No text is so short that no step is left for it.
    obtain ⟨c, cs, hcons, -⟩ := exists_compactText h
    rw [hcons, List.length_cons] at hsteps
    omega
  | .null, _, steps + 1, rest, _, _ => by
    simp [compactText, readValue?, skipBlanks, isBlank, afterWord?]
  | .boolean true, _, steps + 1, rest, _, _ => by
    simp [compactText, readValue?, skipBlanks, isBlank, afterWord?]
  | .boolean false, _, steps + 1, rest, _, _ => by
    simp [compactText, readValue?, skipBlanks, isBlank, afterWord?]
  | .number literal, h, steps + 1, rest, hrest, _ => readValue?_number h hrest
  | .string text, h, steps + 1, rest, _, hsteps => by
    obtain ⟨body, hquoted, hread⟩ := readString?_quoted h
    rw [compactText, hquoted, List.length_cons] at hsteps
    have hbody := hread steps rest (by omega)
    show readValue? (steps + 1) (stringText text ++ rest) = _
    simp [hquoted, readValue?, skipBlanks, isBlank, hbody]
  | .array [], _, steps + 1, rest, _, _ => by
    simp [compactText, readValue?, skipBlanks, isBlank]
  | .array (d :: ds), h, steps + 1, rest, _, hsteps => by
    -- The reader looks for a closing bracket first, and the first element begins with none.
    simp only [compactText, List.length_cons, List.length_append] at hsteps
    have helements := readElements?_compactElements ds d steps rest (readsValue d h.1) h.2 (by omega)
    obtain ⟨c, cs, hcons, hblank, hclose⟩ := exists_compactText h.1
    have hopen : isBlank '[' = false := by decide
    rw [hcons, List.cons_append] at helements
    simp [compactText, hcons, readValue?, skipBlanks_cons hopen, skipBlanks_cons hblank, hclose,
      helements]
  | .object [], _, steps + 1, rest, _, _ => by
    simp [compactText, readValue?, skipBlanks, isBlank]
  | .object ((key, d) :: ds), h, steps + 1, rest, _, hsteps => by
    simp only [compactText, List.length_cons, List.length_append] at hsteps
    have hmembers := readMembers?_compactMembers ds key d steps rest h.1 (readsValue d h.2.1) h.2.2
      (by omega)
    obtain ⟨body, hquoted, -⟩ := readString?_quoted h.1
    rw [hquoted, List.cons_append] at hmembers
    simp [compactText, hquoted, readValue?, skipBlanks, isBlank, hmembers]

/-- The elements of an array are read back up to the closing bracket. -/
theorem readElements?_compactElements : ∀ (ds : List Document) (d : Document) (steps : Nat)
    (rest : List Char), ReadsValue d → ElementsWritable ds →
    2 * ((compactText d).length + (compactElements ds).length) ≤ steps →
    readElements? steps (compactText d ++ (compactElements ds ++ rest)) = some (d :: ds, rest)
  | ds, _, 0, _, _, _, hsteps => by
    have := length_compactElements_pos ds
    omega
  | [], d, steps + 1, rest, hd, _, hsteps => by
    simp only [compactElements, List.length_cons, List.length_nil] at hsteps
    have hvalue := hd steps (']' :: rest) (endsNumber_compactElements [] rest) (by omega)
    simp [readElements?, compactElements, hvalue, skipBlanks, isBlank]
  | e :: es, d, steps + 1, rest, hd, hes, hsteps => by
    simp only [compactElements, List.length_cons, List.length_append] at hsteps
    have hvalue := hd steps _ (endsNumber_compactElements (e :: es) rest) (by omega)
    have hothers := readElements?_compactElements es e steps rest (readsValue e hes.1) hes.2
      (by omega)
    rw [readElements?, hvalue]
    simp [compactElements, skipBlanks, isBlank, hothers]

/-- The members of an object are read back up to the closing brace. -/
theorem readMembers?_compactMembers : ∀ (ds : List (Option String × Document))
    (key : Option String) (d : Document) (steps : Nat) (rest : List Char),
    key.isSome = true → ReadsValue d → MembersWritable ds →
    2 * ((stringText key).length + 1 + (compactText d).length + (compactMembers ds).length) ≤ steps →
    readMembers? steps (stringText key ++ ':' :: (compactText d ++ (compactMembers ds ++ rest)))
      = some ((key, d) :: ds, rest)
  | _, _, _, 0, _, _, _, _, hsteps => by omega
  | [], key, d, steps + 1, rest, hkey, hd, _, hsteps => by
    simp only [compactMembers, List.length_cons, List.length_nil] at hsteps
    obtain ⟨body, hquoted, hread⟩ := readString?_quoted hkey
    have hvalue := hd steps _ (endsNumber_compactMembers [] rest) (by omega)
    rw [hquoted, List.length_cons] at hsteps
    have hstring := hread steps (':' :: (compactText d ++ (compactMembers [] ++ rest))) (by omega)
    rw [hquoted, List.cons_append, readMembers?]
    simp [skipBlanks, isBlank, hstring, hvalue]
    simp [compactMembers, isBlank]
  | (other, e) :: es, key, d, steps + 1, rest, hkey, hd, hes, hsteps => by
    simp only [compactMembers, List.length_cons, List.length_append] at hsteps
    obtain ⟨body, hquoted, hread⟩ := readString?_quoted hkey
    have hvalue := hd steps _ (endsNumber_compactMembers ((other, e) :: es) rest) (by omega)
    have hothers := readMembers?_compactMembers es other e steps rest hes.1 (readsValue e hes.2.1)
      hes.2.2 (by omega)
    rw [hquoted, List.length_cons] at hsteps
    have hstring := hread steps (':' :: (compactText d ++ (compactMembers ((other, e) :: es) ++ rest)))
      (by omega)
    rw [hquoted, List.cons_append, readMembers?]
    simp [skipBlanks, isBlank, hstring, hvalue]
    simp [compactMembers, isBlank, hothers]

end

/-- A document is read back from its compact text. -/
theorem ofText?_compact {d : Document} (h : Writable d) : Document.ofText? d.compact = some d := by
  have hlength : d.compact.length = (compactText d).length := String.length_ofList
  have hread := readsValue d h (2 * d.compact.length + 2) [] (fun _ hc => nomatch hc) (by omega)
  rw [List.append_nil] at hread
  rw [Document.ofText?, Document.compact, String.toList_ofList]
  rw [Document.compact] at hread
  simp only [hread]
  rfl

end TagTemplate.Proofs.Json
