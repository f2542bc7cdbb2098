import TagTemplate.Proofs.Template.Reading
import TagTemplate.Proofs.Text.Trim

/-!
# `TagTemplate.Proofs.Template.Nesting`: texts that are gone over

Three scans look for a character outside quotes and parentheses: the scan for
the brace that ends a tag, the cut at colons and the cut at commas. They differ
in where quotes count: for the end of a tag only inside parentheses.

A text is `Closed` at a depth if both the scan for the end of a tag and the cut
at colons go over it and are as before. Inert characters, quotations inside
parentheses, and closed texts in parentheses are closed, and so is a sequence of
closed texts. The cut at commas has to do with single parameters only, and
`PassedOver ','` says the same of it.
-/

set_option autoImplicit false

namespace TagTemplate.Proofs.Template

open TagTemplate.Text TagTemplate.Template TagTemplate.Unicode
open TagTemplate.Proofs.Text

variable {depth : Nat}

/-! ### Inert characters -/

/-- A character without meaning to the scans: no white space, quote, parenthesis or
brace, and no separator. -/
def isInert (c : Char) : Bool :=
  !isWhiteSpace c && !isQuote c && c != '(' && c != ')' && c != '{' && c != '}' && c != ':'
    && c != ','

/-- All characters of the text are inert. -/
def Inert (text : List Char) : Prop :=
  ∀ c ∈ text, isInert c = true

instance (text : List Char) : Decidable (Inert text) :=
  decidable_of_iff (text.all isInert = true) List.all_eq_true

/-- Inert characters in a row are an inert text. -/
theorem inert_cons {c : Char} {text : List Char} :
    Inert (c :: text) ↔ isInert c = true ∧ Inert text :=
  List.forall_mem_cons

/-- Inert texts in a row are inert. -/
theorem Inert.append {first second : List Char} (hfirst : Inert first) (hsecond : Inert second) :
    Inert (first ++ second) :=
  List.forall_mem_append.mpr ⟨hfirst, hsecond⟩

/-- A character that is not inert is not in an inert text. -/
theorem Inert.notMem {text : List Char} (h : Inert text) {c : Char} (hc : isInert c = false) :
    c ∉ text := by
  intro hmem
  have hinert := h c hmem
  rw [hc] at hinert
  cases hinert

/-- An inert character is no white space. -/
theorem isWhiteSpace_of_isInert {c : Char} (hc : isInert c = true) : isWhiteSpace c = false := by
  simp only [isInert, Bool.and_eq_true, Bool.not_eq_true'] at hc
  exact hc.1.1.1.1.1.1.1

/-- An inert text has nothing to be trimmed. -/
theorem Inert.trim_eq {text : List Char} (h : Inert text) : trim text = text :=
  trim_eq_self (fun c hc => isWhiteSpace_of_isInert (h c (List.mem_of_mem_head? hc)))
    fun c hc => isWhiteSpace_of_isInert (h c (List.mem_of_mem_getLast? hc))

/-- The code points of a finite set, run by run. -/
def members : InversionList → List Nat
  | first :: stop :: rest => List.range' first (stop - first) ++ members rest
  | _ => []

/-- A set whose last run ends has no other code points. -/
theorem mem_members {set : InversionList} {code : Nat} (hset : set.length % 2 = 0)
    (h : set.contains code = true) : code ∈ members set := by
  fun_induction members set with
  -- A run of code points that ends, and the runs after it.
  | case1 first stop rest ih =>
    simp only [InversionList.contains] at h
    split at h
    · cases h
    · rename_i hfirst
      split at h
      · rename_i hstop
        exact List.mem_append_left _ (List.mem_range'_1.mpr (by omega))
      · simp only [Bool.not_not] at h
        refine List.mem_append_right _ (ih ?_ h)
        simp only [List.length_cons] at hset
        omega
  -- No run that ends is left.
  | case2 set hnone =>
    match set with
    | [] => cases h
    | [_] => cases hset
    | first :: stop :: rest => exact absurd rfl (hnone first stop rest)

/-- No name has a white space in it. There are few code points that are white
space, and they are tried one by one. -/
theorem isNamePart_of_isWhiteSpace {c : Char} (h : isWhiteSpace c = true) :
    isNamePart c = false := by
  have hall : ∀ code ∈ members whiteSpace, isNamePart (Char.ofNat code) = false := by
    decide +kernel
  have hname := hall c.toNat (mem_members (by decide) h)
  rwa [Char.ofNat_toNat] at hname

/-- What holds of the ten digits holds of every digit. -/
theorem forall_isDigit {P : Char → Prop} (h : ∀ code < 58, 48 ≤ code → P (Char.ofNat code))
    {c : Char} (hc : c.isDigit = true) : P c := by
  obtain ⟨hle, hlt⟩ := Char.isDigit_iff_toNat.mp hc
  have hcode := h c.toNat (Nat.lt_succ_of_le hlt) hle
  rwa [Char.ofNat_toNat] at hcode

/-- No name starts with a digit. -/
theorem isNameStart_of_isDigit {c : Char} (h : c.isDigit = true) : isNameStart c = false :=
  forall_isDigit (P := fun c => isNameStart c = false) (by decide) h

/-- Digits are inert. -/
theorem isInert_of_isDigit {c : Char} (h : c.isDigit = true) : isInert c = true :=
  forall_isDigit (P := fun c => isInert c = true) (by decide) h

/-- The characters of names are inert. -/
theorem isInert_of_isNamePart {c : Char} (h : isNamePart c = true) : isInert c = true := by
  have hne : ∀ {d : Char}, isNamePart d = false → c ≠ d := by
    rintro d hd rfl
    rw [h] at hd
    cases hd
  have hwhite : isWhiteSpace c = false := by
    cases hwhite : isWhiteSpace c with
    | false => rfl
    | true => exact absurd (isNamePart_of_isWhiteSpace hwhite) (by rw [h]; exact Bool.noConfusion)
  simp only [isInert, isQuote, hwhite, Bool.and_eq_true, Bool.not_eq_true', Bool.or_eq_false_iff,
    decide_eq_false_iff_not, bne_iff_ne]
  exact ⟨⟨⟨⟨⟨⟨⟨trivial, hne (by decide), hne (by decide)⟩, hne (by decide)⟩, hne (by decide)⟩,
    hne (by decide)⟩, hne (by decide)⟩, hne (by decide)⟩, hne (by decide)⟩

/-- Names are inert. -/
theorem inert_of_isName {name : List Char} (h : isName name = true) : Inert name :=
  fun _ hc => isInert_of_isNamePart (isNamePart_of_mem h hc)

/-! ### The scan for the end of a tag -/

/-- The scan for the end of a tag goes over the text at a depth, whatever
follows. -/
def Crossed (depth : Nat) (text : List Char) : Prop :=
  ∀ rest, closing depth none (text ++ rest) = (closing depth none rest).shift text.length

/-- Texts in a row are gone over one after the other. -/
theorem Crossed.append {first second : List Char} (hfirst : Crossed depth first)
    (hsecond : Crossed depth second) : Crossed depth (first ++ second) := by
  intro rest
  rw [List.append_assoc, hfirst, hsecond, shift_shift, List.length_append, Nat.add_comm]

/-- A character that is no quote, parenthesis or brace is gone over. -/
theorem crossed_character {c : Char} (hquote : isQuote c = false)
    (hc : c ≠ '(' ∧ c ≠ ')' ∧ c ≠ '{' ∧ c ≠ '}') : Crossed depth [c] := by
  intro rest
  obtain ⟨hopen, hclose, hbegin, hend⟩ := hc
  have hdepth : depthAfter depth c = depth := by
    rw [depthAfter, if_neg hopen, if_neg hclose]
  rw [List.singleton_append, closing.eq_def]
  simp only [hquote, Bool.false_and, Bool.false_eq_true, if_false, if_neg hbegin, if_neg hend,
    hdepth]
  rfl

/-- A quotation inside parentheses is gone over. -/
theorem crossed_quotation {q : Char} {body : List Char} (hq : isQuote q = true)
    (hbody : QuoteBody q body) : Crossed (depth + 1) (q :: body ++ [q]) := by
  intro rest
  have hopening : ∀ text, closing (depth + 1) none (q :: text)
      = (closing (depth + 1) (some q) text).shift 1 := by
    intro text
    rw [closing.eq_def]
    simp [hq]
  rw [List.cons_append, List.cons_append, List.append_assoc, List.singleton_append, hopening,
    closing_quoteBody _ hbody, closing_quote _ (ne_backslash_of_isQuote hq), shift_shift,
    shift_shift]
  congr 1
  simp only [List.length_cons, List.length_append, List.length_nil]
  omega

/-- A text in parentheses is gone over if the text is gone over inside them. -/
theorem crossed_parentheses {text : List Char} (h : Crossed (depth + 1) text) :
    Crossed depth ('(' :: text ++ [')']) := by
  intro rest
  have hopening : ∀ more, closing depth none ('(' :: more)
      = (closing (depth + 1) none more).shift 1 := by
    intro more
    rw [closing.eq_def]
    rfl
  have hclosing : closing (depth + 1) none (')' :: rest) = (closing depth none rest).shift 1 := by
    rw [closing.eq_def]
    rfl
  rw [List.cons_append, List.cons_append, List.append_assoc, List.singleton_append, hopening, h,
    hclosing, shift_shift, shift_shift]
  congr 1
  simp only [List.length_cons, List.length_append, List.length_nil]
  omega

/-! ### Closed texts -/

/-- The scan for the end of a tag and the cut at colons both go over the text at a
depth. -/
structure Closed (depth : Nat) (text : List Char) : Prop where
  crossed : Crossed depth text
  passedOver : PassedOver ':' depth text

/-- Nothing is closed. -/
theorem closed_nil : Closed depth [] :=
  ⟨fun _ => (shift_zero _).symm, passes_nil⟩

/-- Closed texts in a row are closed. -/
theorem Closed.append {first second : List Char} (hfirst : Closed depth first)
    (hsecond : Closed depth second) : Closed depth (first ++ second) :=
  ⟨hfirst.crossed.append hsecond.crossed, Passes.append hfirst.passedOver hsecond.passedOver⟩

/-- An inert text stays whole when it is cut at a separator. -/
theorem Inert.passedOver {text : List Char} (h : Inert text) {separator : Char}
    (hseparator : isInert separator = false) : PassedOver separator depth text := by
  refine passedOver_of_plain fun c hc => ?_
  have hne : c ≠ separator := fun heq => h.notMem hseparator (heq ▸ hc)
  have hinert := h c hc
  simp only [isInert, Bool.and_eq_true] at hinert
  simp only [isPlainFor, Bool.and_eq_true, Bool.or_eq_true, bne_iff_ne]
  exact ⟨⟨⟨hinert.1.1.1.1.1.1.2, by simpa using hinert.1.1.1.1.1.2⟩,
    by simpa using hinert.1.1.1.1.2⟩, .inl hne⟩

/-- Inert texts are closed. -/
theorem Inert.closed {text : List Char} (h : Inert text) : Closed depth text := by
  refine ⟨?_, h.passedOver (by decide)⟩
  induction text with
  | nil => exact closed_nil.crossed
  | cons c text ih =>
    obtain ⟨hc, htext⟩ := inert_cons.mp h
    simp only [isInert, Bool.and_eq_true, Bool.not_eq_true', bne_iff_ne] at hc
    obtain ⟨⟨⟨⟨⟨⟨⟨-, hquote⟩, hopen⟩, hclose⟩, hbegin⟩, hend⟩, -⟩, -⟩ := hc
    exact (crossed_character hquote ⟨hopen, hclose, hbegin, hend⟩).append (ih htext)

/-- A comma is closed. -/
theorem closed_comma : Closed depth [','] :=
  ⟨crossed_character (by decide) (by decide),
    passedOver_of_plain fun c hc => by rw [List.mem_singleton.mp hc]; rfl⟩

/-- A quotation inside parentheses is closed. -/
theorem closed_quotation {q : Char} {body : List Char} (hq : isQuote q = true)
    (hbody : QuoteBody q body) : Closed (depth + 1) (q :: body ++ [q]) :=
  ⟨crossed_quotation hq hbody, passedOver_quotation hq hbody⟩

/-- A text in parentheses is closed if the text is closed inside them. -/
theorem closed_parentheses {text : List Char} (h : Closed (depth + 1) text) :
    Closed depth ('(' :: text ++ [')']) :=
  ⟨crossed_parentheses h.crossed, passedOver_parentheses h.passedOver⟩

end TagTemplate.Proofs.Template
