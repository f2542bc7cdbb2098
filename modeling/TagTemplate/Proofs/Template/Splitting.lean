import TagTemplate.Proofs.Template.Quotation

/-!
# `TagTemplate.Proofs.Template.Splitting`: cutting at separators

`splitFrom` cuts a text at the separators outside parentheses and quotes. What
it has read so far goes to the first part of what follows, so its work on a text
is a change of state: `Passes` says that the cut goes over a text without
cutting it, from one depth and quotation to another. Each character is such a
step or is a separator, and steps follow each other (`Passes.append`).

A text that leads from a depth back to it, outside quotes, stays whole wherever
it stands (`PassedOver`). So do quotations and texts in parentheses.

* `splitTopLevel?_intercalate`: texts that stay whole come back as the parts when
  separators are put between them.
* `splitTopLevel?_part`: conversely each part of a cut stays whole when it is cut
  alone, so every quotation that opens in it closes in it.
* `splitAt_intercalate`: the same for the cut at every separator.
-/

set_option autoImplicit false

namespace TagTemplate.Proofs.Template

open TagTemplate.Template

variable {separator : Char} {depth depth' depth'' : Nat} {quote quote' quote'' : Option Char}

/-! ### The first part -/

/-- Puts a text at the head of the first part. -/
def extendWith (text : List Char) (parts : List (List Char)) : List (List Char) :=
  text.foldr extendFirst parts

/-- The first part then begins with the text. -/
theorem extendWith_cons (text part : List Char) (parts : List (List Char)) :
    extendWith text (part :: parts) = (text ++ part) :: parts := by
  induction text with
  | nil => rfl
  | cons c text ih =>
    show extendFirst c (extendWith text (part :: parts)) = _
    rw [ih]
    rfl

/-- Two texts are put in front one after the other. -/
theorem extendWith_append (first second : List Char) :
    extendWith (first ++ second) = fun parts => extendWith first (extendWith second parts) :=
  funext fun _ => List.foldr_append

/-- Mapping a result twice is mapping it once. -/
theorem except_map_map {α β γ : Type} (f : α → β) (g : β → γ) (x : Except Fault α) :
    (x.map f).map g = x.map (fun a => g (f a)) := by
  cases x <;> rfl

/-- Mapping a result by nothing changes nothing. -/
theorem except_map_id {α : Type} (x : Except Fault α) : x.map (fun a => a) = x := by
  cases x <;> rfl

/-- A mapped result is there if and only if the result was. -/
theorem except_map_eq_ok {α β : Type} {f : α → β} {x : Except Fault α} {b : β} :
    x.map f = .ok b ↔ ∃ a, x = .ok a ∧ f a = b := by
  cases x <;> simp [Except.map]

/-! ### Steps of the cut -/

/-- The cut goes over the text without cutting it, and its state changes from one
depth and quotation to another. -/
def Passes (separator : Char) (depth : Nat) (quote : Option Char) (text : List Char)
    (depth' : Nat) (quote' : Option Char) : Prop :=
  ∀ rest, splitFrom separator depth quote (text ++ rest)
    = (splitFrom separator depth' quote' rest).map (extendWith text)

/-- Nothing is gone over in one state. -/
theorem passes_nil : Passes separator depth quote [] depth quote :=
  fun rest => (except_map_id (splitFrom separator depth quote rest)).symm

/-- Texts in a row are gone over one after the other. -/
theorem Passes.append {first second : List Char}
    (hfirst : Passes separator depth quote first depth' quote')
    (hsecond : Passes separator depth' quote' second depth'' quote'') :
    Passes separator depth quote (first ++ second) depth'' quote'' := by
  intro rest
  rw [List.append_assoc, hfirst, hsecond, except_map_map, extendWith_append]

/-- The inside of a quotation changes nothing. -/
theorem passes_quoteBody {q : Char} {body : List Char} (hbody : QuoteBody q body) :
    Passes separator depth (some q) body depth (some q) := by
  intro rest
  induction hbody with
  | nil => exact passes_nil rest
  | escaped c _ ih =>
    rw [List.cons_append, List.cons_append, splitFrom, if_pos rfl, ih, except_map_map]
    rfl
  | plain hslash hquote _ ih =>
    rw [List.cons_append, splitFrom.eq_def]
    simp only [if_neg hslash, if_neg hquote]
    rw [ih, except_map_map]
    rfl

/-- A quotation ends at its quote. -/
theorem passes_closingQuote {q : Char} (hq : q ≠ '\\') :
    Passes separator depth (some q) [q] depth none := by
  intro rest
  rw [List.singleton_append, splitFrom.eq_def]
  simp only [if_neg hq, if_pos]
  rfl

/-- A quote begins a quotation. -/
theorem passes_openingQuote {q : Char} (hq : isQuote q = true) :
    Passes separator depth none [q] depth (some q) := by
  intro rest
  rw [List.singleton_append, splitFrom.eq_def]
  simp only [if_pos (isQuote_iff.mp hq)]
  rfl

/-- An opening parenthesis leads one level down. -/
theorem passes_openingParenthesis : Passes separator depth none ['('] (depth + 1) none := by
  intro rest
  rw [List.singleton_append, splitFrom.eq_def]
  simp only [Char.reduceEq, or_self, if_false, if_true]
  rfl

/-- A closing parenthesis leads one level up. -/
theorem passes_closingParenthesis : Passes separator (depth + 1) none [')'] depth none := by
  intro rest
  rw [List.singleton_append, splitFrom.eq_def]
  simp only [Char.reduceEq, or_self, if_false, if_true]
  rfl

/-- A character with no meaning to the cut at a depth. -/
def isPlainFor (separator : Char) (depth : Nat) (c : Char) : Bool :=
  !isQuote c && c != '(' && c != ')' && (c != separator || depth != 0)

/-- A character without meaning changes nothing. -/
theorem passes_plain {c : Char} (hc : isPlainFor separator depth c = true) :
    Passes separator depth none [c] depth none := by
  intro rest
  simp only [isPlainFor, Bool.and_eq_true, Bool.not_eq_true', Bool.or_eq_true, bne_iff_ne] at hc
  obtain ⟨⟨⟨hquote, hopen⟩, hclose⟩, hseparator⟩ := hc
  have hnotQuote : ¬ (c = '"' ∨ c = '\'') := by simpa [isQuote] using hquote
  have hnotSeparator : ¬ (c = separator ∧ depth = 0) := by
    rintro ⟨rfl, rfl⟩
    exact hseparator.elim (absurd rfl) (absurd rfl)
  rw [List.singleton_append, splitFrom.eq_def]
  simp only [if_neg hnotQuote, if_neg hopen, if_neg hclose, if_neg hnotSeparator]
  rfl

/-- Inside a quotation that never closes the cut fails. -/
theorem splitFrom_of_unclosed {q : Char} {text : List Char} (h : Unclosed q text) :
    splitFrom separator depth (some q) text = .error .unterminatedString := by
  rcases quoteBody_cases q text with hbody | ⟨body, after, htext, hbody⟩ | ⟨body, rfl, hbody⟩
  · have hcut : splitFrom separator depth (some q) (text ++ []) = _ := passes_quoteBody hbody []
    rwa [List.append_nil] at hcut
  · exact absurd hbody (h body after htext)
  · rw [passes_quoteBody hbody]
    rfl

/-! ### Texts that stay whole -/

/-- The cut leaves the text whole at a depth, whatever follows. -/
def PassedOver (separator : Char) (depth : Nat) (text : List Char) : Prop :=
  Passes separator depth none text depth none

/-- Characters without meaning stay together. -/
theorem passedOver_of_plain {text : List Char}
    (h : ∀ c ∈ text, isPlainFor separator depth c = true) : PassedOver separator depth text := by
  induction text with
  | nil => exact passes_nil
  | cons c text ih =>
    have hrest := ih fun d hd => h d (List.mem_cons_of_mem _ hd)
    exact (passes_plain (h c List.mem_cons_self)).append hrest

/-- A quotation stays whole at every depth. -/
theorem passedOver_quotation {q : Char} {body : List Char} (hq : isQuote q = true)
    (hbody : QuoteBody q body) : PassedOver separator depth (q :: body ++ [q]) :=
  (passes_openingQuote hq).append
    ((passes_quoteBody hbody).append (passes_closingQuote (ne_backslash_of_isQuote hq)))

/-- A text in parentheses stays whole if the text does one level down. -/
theorem passedOver_parentheses {text : List Char} (h : PassedOver separator (depth + 1) text) :
    PassedOver separator depth ('(' :: text ++ [')']) :=
  passes_openingParenthesis.append (h.append passes_closingParenthesis)

/-- A text that stays whole is the only part of itself. -/
theorem PassedOver.splitTopLevel?_eq {text : List Char} (h : PassedOver separator 0 text) :
    splitTopLevel? separator text = .ok [text] := by
  have hcut := h []
  rw [List.append_nil] at hcut
  show splitFrom separator 0 none text = _
  rw [hcut]
  show Except.ok (extendWith text [[]]) = _
  rw [extendWith_cons, List.append_nil]

/-- A separator at the top level ends a part. -/
theorem splitFrom_separator
    (h : isQuote separator = false ∧ separator ≠ '(' ∧ separator ≠ ')') (rest : List Char) :
    splitFrom separator 0 none (separator :: rest)
      = (splitFrom separator 0 none rest).map ([] :: ·) := by
  obtain ⟨hquote, hopen, hclose⟩ := h
  have hnotQuote : ¬ (separator = '"' ∨ separator = '\'') := by simpa [isQuote] using hquote
  rw [splitFrom.eq_def]
  simp only [if_neg hnotQuote, if_neg hopen, if_neg hclose, and_self, if_pos]

/-- Texts that stay whole, with separators between them, are the parts. -/
theorem splitTopLevel?_intercalate {parts : List (List Char)}
    (hseparator : isQuote separator = false ∧ separator ≠ '(' ∧ separator ≠ ')')
    (hne : parts ≠ []) (h : ∀ part ∈ parts, PassedOver separator 0 part) :
    splitTopLevel? separator ([separator].intercalate parts) = .ok parts := by
  induction parts with
  | nil => exact absurd rfl hne
  | cons part parts ih =>
    have hpart := h part List.mem_cons_self
    cases parts with
    | nil =>
      rw [List.intercalate_singleton]
      exact hpart.splitTopLevel?_eq
    | cons next parts =>
      have hrest := ih (List.cons_ne_nil _ _) fun p hp => h p (List.mem_cons_of_mem _ hp)
      rw [List.intercalate_cons_cons, List.append_assoc, List.singleton_append]
      show splitFrom separator 0 none _ = _
      rw [hpart, splitFrom_separator hseparator]
      show ((splitTopLevel? separator _).map _).map _ = _
      rw [hrest]
      show Except.ok (extendWith part ([] :: next :: parts)) = _
      rw [extendWith_cons, List.append_nil]

/-! ### The parts of a cut -/

/-- The first part is cut from the present state as the whole text was, and every
later part stays whole. -/
def PartsFrom (separator : Char) (depth : Nat) (quote : Option Char)
    (parts : List (List Char)) : Prop :=
  ∃ first others, parts = first :: others ∧
    splitFrom separator depth quote first = .ok [first] ∧
    ∀ part ∈ others, splitTopLevel? separator part = .ok [part]

/-- What is gone over is put to the first part. -/
theorem PartsFrom.extend {text rest : List Char} {parts : List (List Char)}
    (hstep : Passes separator depth quote text depth' quote')
    (ih : ∀ {parts}, splitFrom separator depth' quote' rest = .ok parts →
      PartsFrom separator depth' quote' parts)
    (h : (splitFrom separator depth' quote' rest).map (extendWith text) = .ok parts) :
    PartsFrom separator depth quote parts := by
  obtain ⟨restParts, hrest, rfl⟩ := except_map_eq_ok.mp h
  obtain ⟨first, others, rfl, hfirst, hothers⟩ := ih hrest
  refine ⟨text ++ first, others, extendWith_cons text first others, ?_, hothers⟩
  rw [hstep, hfirst]
  show Except.ok (extendWith text [first]) = _
  rw [extendWith_cons]

/-- A cut that succeeds has a first part. The induction is on the recursion of the
cut: each character is a step, or ends a part. -/
theorem partsFrom_of_splitFrom {text : List Char} {parts : List (List Char)}
    (h : splitFrom separator depth quote text = .ok parts) :
    PartsFrom separator depth quote parts := by
  fun_induction splitFrom separator depth quote text generalizing parts with
  -- The text ends inside quotes.
  | case1 => cases h
  -- The text ends inside parentheses.
  | case2 => cases h
  -- The text ends.
  | case3 depth quote hquote hdepth =>
    cases h
    refine ⟨[], [], rfl, ?_, by simp⟩
    rw [splitFrom, if_neg hquote, if_neg hdepth]
  -- The text ends behind a backslash inside quotes.
  | case4 => cases h
  -- A backslash inside quotes takes the next character with it.
  | case5 depth q c rest ih => exact PartsFrom.extend (passes_quoteBody (.escaped c .nil)) ih h
  -- Another character inside quotes, which may close them.
  | case6 depth c rest q hslash ih =>
    by_cases hclose : c = q
    · subst hclose
      rw [if_pos rfl] at ih h
      exact PartsFrom.extend (passes_closingQuote hslash) ih h
    · rw [if_neg hclose] at ih h
      exact PartsFrom.extend (passes_quoteBody (.plain hslash hclose .nil)) ih h
  -- Quotes open.
  | case7 depth c rest hkind ih =>
    exact PartsFrom.extend (passes_openingQuote (by simpa [isQuote] using hkind)) ih h
  -- A parenthesis opens.
  | case8 depth rest hkind ih => exact PartsFrom.extend passes_openingParenthesis ih h
  -- A parenthesis closes that has not opened.
  | case9 => cases h
  -- A parenthesis closes.
  | case10 rest depth hkind hopen ih => exact PartsFrom.extend passes_closingParenthesis ih h
  -- A separator outside parentheses.
  | case11 depth c rest hkind hopen hclose hseparator ih =>
    obtain ⟨restParts, hrest, rfl⟩ := except_map_eq_ok.mp h
    obtain ⟨rfl, rfl⟩ := hseparator
    obtain ⟨first, others, rfl, hfirst, hothers⟩ := ih hrest
    refine ⟨[], first :: others, rfl, rfl, ?_⟩
    intro part hpart
    rcases List.mem_cons.mp hpart with rfl | hpart
    · exact hfirst
    · exact hothers part hpart
  -- Any other character.
  | case12 depth c rest hkind hopen hclose hseparator ih =>
    have hplain : isPlainFor separator depth c = true := by
      simp only [isPlainFor, isQuote, Bool.and_eq_true, Bool.not_eq_true', Bool.or_eq_true,
        bne_iff_ne]
      exact ⟨⟨⟨by simpa using hkind, hopen⟩, hclose⟩, Decidable.not_and_iff_not_or_not.mp hseparator⟩
    exact PartsFrom.extend (passes_plain hplain) ih h

/-- Each part of a cut is the only part of itself. -/
theorem splitTopLevel?_part {text part : List Char} {parts : List (List Char)}
    (h : splitTopLevel? separator text = .ok parts) (hpart : part ∈ parts) :
    splitTopLevel? separator part = .ok [part] := by
  obtain ⟨first, others, rfl, hfirst, hothers⟩ := partsFrom_of_splitFrom h
  rcases List.mem_cons.mp hpart with rfl | hpart
  · exact hfirst
  · exact hothers part hpart

/-- A cut has at least one part. -/
theorem ne_nil_of_splitTopLevel? {text : List Char} {parts : List (List Char)}
    (h : splitTopLevel? separator text = .ok parts) : parts ≠ [] := by
  obtain ⟨first, others, rfl, -, -⟩ := partsFrom_of_splitFrom h
  exact List.cons_ne_nil _ _

/-- A quotation that opens in a part outside quotes closes in it. -/
theorem exists_quoteBody_of_part {q : Char} {before rest : List Char} (hq : isQuote q = true)
    (hbefore : PassedOver separator 0 before)
    (h : splitTopLevel? separator (before ++ q :: rest) = .ok [before ++ q :: rest]) :
    ∃ body after, rest = body ++ q :: after ∧ QuoteBody q body := by
  rcases Classical.em (∃ body after, rest = body ++ q :: after ∧ QuoteBody q body)
    with hclosed | hnone
  · exact hclosed
  have hunclosed : Unclosed q rest := fun body after hrest hbody =>
    hnone ⟨body, after, hrest, hbody⟩
  have hcut : splitFrom separator 0 none (before ++ [q] ++ rest) = _ :=
    (hbefore.append (passes_openingQuote hq)) rest
  rw [splitFrom_of_unclosed hunclosed, List.append_assoc] at hcut
  exact absurd (hcut.symm.trans h) (by simp [Except.map])

/-! ### Cutting at every separator -/

/-- A text without separators is the only part of itself, and goes before the parts
of what follows the first separator. -/
theorem splitAt_append {text : List Char} (h : separator ∉ text) (rest : List Char) :
    splitAt separator (text ++ rest) = extendWith text (splitAt separator rest) := by
  induction text with
  | nil => rfl
  | cons c text ih =>
    rw [List.mem_cons, not_or] at h
    rw [List.cons_append, splitAt, if_neg (Ne.symm h.1), ih h.2]
    rfl

/-- Texts without separators, with separators between them, are the parts. -/
theorem splitAt_intercalate {parts : List (List Char)} (hne : parts ≠ [])
    (h : ∀ part ∈ parts, separator ∉ part) :
    splitAt separator ([separator].intercalate parts) = parts := by
  induction parts with
  | nil => exact absurd rfl hne
  | cons part parts ih =>
    have hpart := h part List.mem_cons_self
    cases parts with
    | nil =>
      have hcut := splitAt_append hpart []
      rw [List.append_nil] at hcut
      rw [List.intercalate_singleton, hcut]
      show extendWith part [[]] = _
      rw [extendWith_cons, List.append_nil]
    | cons next parts =>
      have hrest := ih (List.cons_ne_nil _ _) fun p hp => h p (List.mem_cons_of_mem _ hp)
      rw [List.intercalate_cons_cons, List.append_assoc, List.singleton_append,
        splitAt_append hpart, splitAt, if_pos rfl, hrest, extendWith_cons, List.append_nil]

end TagTemplate.Proofs.Template
