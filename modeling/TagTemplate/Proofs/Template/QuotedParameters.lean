import TagTemplate.Proofs.Template.Marks
import TagTemplate.Proofs.Template.Reading
import TagTemplate.Proofs.Text.Trim

/-!
# `TagTemplate.Proofs.Template.QuotedParameters`: parameters that begin with a quote

The cut at commas knows where a quotation ends; the reader of a quoted parameter
only looks at the first and the last character. `QuotationRead` says what comes
of this. Where the quotation closes at the end of the parameter, the parameter
is one quoted string and stands for the inside of it (`IsQuotedString`). Where
more text follows, the parameter is read all the same if another quote of the
kind ends it, and then it stands for everything between the outer quotes.
With any other text behind the closing quote it is refused, and with it the tag
(`QuotationRefused`).

`quoted_parameters_parse` says this for every parsed template, and
`gluedStrings_not_isQuotedString` shows two strings in a row that are read as
one.
-/

set_option autoImplicit false

namespace TagTemplate.Proofs.Template

open TagTemplate.Text TagTemplate.Template TagTemplate.Unicode
open TagTemplate.Proofs.Support TagTemplate.Proofs.Text

/-! ### The texts of parameters -/

/-- The texts between the commas of the parameters of a call. -/
def argumentTexts? (call : List Char) : Option (List (List Char)) :=
  match (trimEnd call).dropWhile (· ≠ '(') with
  | [] => some []
  | _ :: rest => do
    let inside ← before? ')' rest
    if (trim inside).isEmpty then some [] else (splitTopLevel? ',' inside).toOption

/-- The texts of the calls of a tag. -/
def callTexts? (inner : List Char) : Option (List (List Char)) :=
  (splitTopLevel? ':' (trim inner)).toOption.map List.tail

/-- The text of a parameter of a tag, by the places of its call and of itself. -/
def parameterText? (inner : List Char) (i j : Nat) : Option (List Char) := do
  let calls ← callTexts? inner
  let call ← calls[i]?
  let texts ← argumentTexts? call
  texts[j]?

/-- The parameter of an expression at the place `j` of the call at the place
`i`. -/
def parameter? (e : Expression) (i j : Nat) : Option Parameter :=
  e.calls[i]?.bind fun call => call.parameters[j]?

/-- The parameters of a call are read from the texts between its commas. -/
theorem exists_argumentTexts? {text : List Char} {call : Call} (h : readCall? text = .ok call) :
    ∃ texts, argumentTexts? text = some texts ∧
      List.Forall₂ (fun text p => readParameter? text = .ok p) texts call.parameters := by
  obtain ⟨name, hname, -, ⟨htext, hnone⟩ | ⟨inside, htext, hparameters⟩⟩ :=
    readCall?_eq_ok_iff.mp h
  · obtain ⟨-, hdrop⟩ := takeWhile_ne_self (notMem_of_isName hname (c := '(') (by decide))
    refine ⟨[], ?_, hnone ▸ .nil⟩
    unfold argumentTexts?
    rw [htext, hdrop]
  · obtain ⟨-, hdrop⟩ := takeWhile_ne_append (notMem_of_isName hname (c := '(') (by decide))
      (inside ++ [')'])
    have hbefore : before? ')' (inside ++ [')']) = some inside := before?_eq_some_iff.mpr rfl
    unfold argumentTexts?
    rw [htext, hdrop]
    simp only [hbefore, Option.bind_eq_bind, Option.bind_some]
    rcases readParameters?_eq_ok_iff.mp hparameters with ⟨hblank, hnone⟩ | ⟨hblank, parts, hparts,
      hread⟩
    · exact ⟨[], by rw [hblank]; rfl, hnone ▸ .nil⟩
    · refine ⟨parts, ?_, hread⟩
      rw [if_neg (by rwa [List.isEmpty_iff]), hparts]
      rfl

/-- Each parameter of a tag is read from its text, and each text is that of a
parameter. -/
theorem rel_parameterText? {inner : List Char} {e : Expression}
    (h : Expression.ofText? inner = .ok e) (i j : Nat) :
    Option.Rel (fun text p => readParameter? text = .ok p) (parameterText? inner i j)
      (parameter? e i j) := by
  obtain ⟨-, path, calls, hparts, -, hcalls⟩ := ofText?_eq_ok_iff.mp h
  have htexts : callTexts? inner = some calls := by
    unfold callTexts?
    rw [hparts]
    rfl
  unfold parameterText? parameter?
  rw [htexts, Option.bind_eq_bind, Option.bind_some]
  refine rel_bind (rel_getElem? hcalls i) fun text call hread => ?_
  obtain ⟨texts, hargs, hparameters⟩ := exists_argumentTexts? hread
  rw [hargs, Option.bind_some]
  exact rel_getElem? hparameters j

/-- A text that is cut out as a parameter is the only part of itself. -/
theorem splitTopLevel?_of_parameterText? {inner text : List Char} {i j : Nat}
    (h : parameterText? inner i j = some text) : splitTopLevel? ',' text = .ok [text] := by
  unfold parameterText? at h
  obtain ⟨calls, -, h⟩ := Option.bind_eq_some_iff.mp h
  obtain ⟨call, -, h⟩ := Option.bind_eq_some_iff.mp h
  obtain ⟨texts, htexts, h⟩ := Option.bind_eq_some_iff.mp h
  have hmem : text ∈ texts := List.mem_of_getElem? h
  unfold argumentTexts? at htexts
  split at htexts
  · cases htexts
    cases hmem
  · obtain ⟨inside, -, htexts⟩ := Option.bind_eq_some_iff.mp htexts
    split at htexts
    · cases htexts
      cases hmem
    · cases hparts : splitTopLevel? ',' inside with
      | error fault =>
        rw [hparts] at htexts
        cases htexts
      | ok parts =>
        rw [hparts] at htexts
        cases htexts
        exact splitTopLevel?_part hparts hmem

/-! ### Quotations at the head of a parameter -/

/-- The trimmed text begins with a quotation of kind `q`: `body` is its inside, and
`after` is what follows its closing quote. -/
structure BeginsWithQuotation (text : List Char) (q : Char) (body after : List Char) : Prop where
  isQuote : isQuote q = true
  trim : Text.trim text = q :: (body ++ q :: after)
  body : QuoteBody q body

/-- White space has no meaning to the cut at commas. -/
theorem isPlainFor_of_isWhiteSpace {c : Char} (h : isWhiteSpace c = true) :
    isPlainFor ',' 0 c = true := by
  have hne : ∀ {d : Char}, isWhiteSpace d = false → c ≠ d := by
    rintro d hd rfl
    rw [h] at hd
    cases hd
  simp only [isPlainFor, isQuote, Bool.and_eq_true, Bool.not_eq_true', Bool.or_eq_false_iff,
    decide_eq_false_iff_not, bne_iff_ne, Bool.or_eq_true]
  exact ⟨⟨⟨⟨hne (by decide), hne (by decide)⟩, hne (by decide)⟩, hne (by decide)⟩,
    .inl (hne (by decide))⟩

/-- A quotation mark is no white space. -/
theorem isWhiteSpace_of_isQuote {q : Char} (hq : isQuote q = true) : isWhiteSpace q = false := by
  rcases isQuote_iff.mp hq with rfl | rfl <;> decide

/-- A parameter that begins with a quote begins with a quotation: the cut at commas
has seen it close. -/
theorem exists_beginsWithQuotation {text rest : List Char} {q : Char}
    (hpart : splitTopLevel? ',' text = .ok [text]) (hq : isQuote q = true)
    (htrim : trim text = q :: rest) :
    ∃ body after, rest = body ++ q :: after ∧ BeginsWithQuotation text q body after := by
  obtain ⟨before, white, htext, hbefore, hwhite⟩ := exists_trim text
  rw [htrim, List.cons_append] at htext
  have hpassed : PassedOver ',' 0 before :=
    passedOver_of_plain fun c hc => isPlainFor_of_isWhiteSpace (hbefore c hc)
  obtain ⟨body, after, hclosed, hbody⟩ :=
    exists_quoteBody_of_part hq hpassed (htext ▸ hpart)
  -- The closing quote is no white space, so it stands before the white space at the end.
  rw [← List.singleton_append, ← List.append_assoc] at hclosed
  rcases List.append_eq_append_iff.mp hclosed with ⟨more, hmore, hafter⟩ | ⟨more, hrest, -⟩
  · rcases List.eq_nil_or_concat more with rfl | ⟨first, c, rfl⟩
    · have hrest : rest = body ++ q :: [] := by rw [List.append_nil] at hmore; exact hmore.symm
      exact ⟨body, [], hrest, hq, hrest ▸ htrim, hbody⟩
    · rw [List.concat_eq_append, ← List.append_assoc] at hmore
      obtain ⟨-, hlast⟩ := List.append_inj' hmore rfl
      obtain rfl : q = c := List.singleton_inj.mp hlast
      have hmem : q ∈ white := by
        rw [hafter, List.concat_eq_append]
        simp
      have hspace := hwhite q hmem
      rw [isWhiteSpace_of_isQuote hq] at hspace
      cases hspace
  · have hrest' : rest = body ++ q :: more := by
      rw [hrest, List.append_assoc]
      rfl
    exact ⟨body, more, hrest', hq, hrest' ▸ htrim, hbody⟩

/-- A quotation alone is read as the text that its inside stands for. -/
theorem readParameter?_of_quotation {text body : List Char} {q : Char}
    (h : BeginsWithQuotation text q body []) :
    readParameter? text = .ok (.literal (.text (String.ofList (unescape body)))) := by
  have hkind := isQuote_iff.mp h.isQuote
  unfold readParameter?
  rw [h.trim]
  simp only [if_pos hkind, readQuoted?, before?_eq_some_iff.mpr rfl]

/-- With text behind its closing quote, a quotation is read if another quote of the
kind is the last character. Then the parameter stands for all that is between
the first quote and the last. -/
theorem readParameter?_of_quotation_concat {text body middle : List Char} {q c : Char}
    (h : BeginsWithQuotation text q body (middle ++ [c])) :
    readParameter? text =
      if c = q then .ok (.literal (.text (String.ofList (unescape body ++ q :: unescape middle))))
      else .error (.unterminatedParameter (String.ofList (trim text))) := by
  have hkind := isQuote_iff.mp h.isQuote
  have hinside : unescape (body ++ q :: middle) = unescape body ++ q :: unescape middle := by
    rw [unescape_append h.body, unescape_cons (ne_backslash_of_isQuote h.isQuote)]
  have hrest : body ++ q :: (middle ++ [c]) = (body ++ q :: middle) ++ [c] := by
    rw [List.append_assoc, List.cons_append]
  unfold readParameter?
  rw [h.trim]
  simp only [if_pos hkind, readQuoted?]
  by_cases hc : c = q
  · subst hc
    rw [if_pos rfl, before?_eq_some_iff.mpr hrest, ← hinside]
  · have hnone : before? q (body ++ q :: (middle ++ [c])) = none := by
      rw [Option.eq_none_iff_forall_ne_some]
      intro inside hinside
      rw [before?_eq_some_iff, hrest] at hinside
      exact hc (List.singleton_inj.mp (List.append_inj' hinside rfl).2)
    rw [if_neg hc, hnone]

/-! ### Parameters of parsed tags -/

/-- A parameter whose text begins with a quote is one quoted string: the first
quote of the kind outside an escape is the last character, and the value is the
text between the two without the escapes. -/
def IsQuotedString (text : List Char) (p : Parameter) : Prop :=
  ∀ q rest, isQuote q = true → trim text = q :: rest →
    ∃ body, rest = body ++ [q] ∧ QuoteBody q body ∧
      p = .literal (.text (String.ofList (unescape body)))

/-- What is accepted of a text that begins with a quote. A quotation closes in it.
The parameter is one quoted string exactly if the quotation closes at the end.
Otherwise another quote of the kind stands at the end, and the parameter is the
text between the outer quotes, with the closing quote in it. -/
def QuotationRead (text : List Char) (p : Parameter) : Prop :=
  ∀ q rest, isQuote q = true → trim text = q :: rest →
    ∃ body after, BeginsWithQuotation text q body after ∧
      (IsQuotedString text p ↔ after = []) ∧
      (after = [] ∨ ∃ middle, after = middle ++ [q] ∧
        p = .literal (.text (String.ofList (unescape body ++ q :: unescape middle))))

/-- The text begins with a quotation, and behind the closing quote stands more text
that does not end with a quote of the kind. -/
def QuotationRefused (text : List Char) : Prop :=
  ∃ q body middle c, BeginsWithQuotation text q body (middle ++ [c]) ∧ c ≠ q

/-- The inside of a quotation at the head of a text, and what follows it, are
determined. -/
theorem BeginsWithQuotation.eq_of_trim {text body after body' after' : List Char} {q : Char}
    (h : BeginsWithQuotation text q body after) (hbody' : QuoteBody q body')
    (htext : Text.trim text = q :: (body' ++ q :: after')) : body = body' ∧ after = after' :=
  eq_of_quoteBody_closed (ne_backslash_of_isQuote h.isQuote) h.body hbody'
    (List.cons.inj (h.trim.symm.trans htext)).2

/-- What the reader accepts of a parameter that is cut out by the commas. -/
theorem quotationRead_of_readParameter? {text : List Char} {p : Parameter}
    (hpart : splitTopLevel? ',' text = .ok [text]) (hread : readParameter? text = .ok p) :
    QuotationRead text p := by
  intro q rest hq htrim
  obtain ⟨body, after, rfl, hquotation⟩ := exists_beginsWithQuotation hpart hq htrim
  refine ⟨body, after, hquotation, ⟨fun hstring => ?_, ?_⟩, ?_⟩
  · obtain ⟨body', hrest, hbody', -⟩ := hstring q _ hq htrim
    exact (hquotation.eq_of_trim hbody' (htrim.trans (congrArg _ hrest))).2
  · rintro rfl q' rest' - htrim'
    obtain ⟨rfl, hrest⟩ := List.cons.inj (htrim.symm.trans htrim')
    have halone := readParameter?_of_quotation hquotation
    exact ⟨body, hrest.symm, hquotation.body, Except.ok.inj (hread.symm.trans halone)⟩
  · rcases List.eq_nil_or_concat after with rfl | ⟨middle, c, rfl⟩
    · exact .inl rfl
    · rw [List.concat_eq_append] at hquotation ⊢
      rw [readParameter?_of_quotation_concat hquotation] at hread
      split at hread
      · rename_i hc
        exact .inr ⟨middle, by rw [hc], (Except.ok.inj hread).symm⟩
      · cases hread

/-- A refused quotation makes the whole tag fail. -/
theorem ofText?_ne_ok_of_quotationRefused {inner text : List Char} {i j : Nat}
    (htext : parameterText? inner i j = some text) (hrefused : QuotationRefused text)
    (e : Expression) : Expression.ofText? inner ≠ .ok e := by
  intro he
  obtain ⟨q, body, middle, c, hquotation, hc⟩ := hrefused
  have hrel := rel_parameterText? he i j
  rw [htext] at hrel
  obtain ⟨p, hread⟩ := exists_of_rel_some hrel
  rw [readParameter?_of_quotation_concat hquotation, if_neg hc] at hread
  cases hread

/-- A refused piece leaves a warning with its text. -/
theorem exists_warning_of_mem (offset : Nat) {ps : List Piece} {text : List Char} {fault : Fault}
    (h : Piece.refused text fault ∈ ps) :
    ∃ w ∈ warningsFrom offset ps, w.raw.toList = text := by
  induction ps generalizing offset with
  | nil => cases h
  | cons piece ps ih =>
    cases piece with
    | plain other => exact ih _ ((List.mem_cons.mp h).resolve_left (by simp))
    | tag other expression => exact ih _ ((List.mem_cons.mp h).resolve_left (by simp))
    | refused other otherFault =>
      rcases List.mem_cons.mp h with heq | h
      · cases heq
        exact ⟨_, List.mem_cons_self, String.toList_ofList⟩
      · obtain ⟨w, hw, hraw⟩ := ih (offset + byteCount other) h
        exact ⟨w, List.mem_cons_of_mem _ hw, hraw⟩

/-- Parameters that begin with a quote, in every parsed template. Each parameter of
a tag that does is accepted as `QuotationRead` says. A span in braces with a
parameter that has other text behind its closing quote, and no quote of the kind
at its end, is no tag, and there is a warning for it. -/
theorem quoted_parameters_parse (t : Template) :
    (∀ tag ∈ t.parse.tags, ∃ inner, tag.raw.toList = '{' :: inner ++ ['}'] ∧
      ∀ i j, Option.Rel QuotationRead (parameterText? inner i j)
        (parameter? tag.toExpression i j)) ∧
    ∀ inner, Piece.ofInner inner ∈ pieces t.content.toList →
      (∃ i j text, parameterText? inner i j = some text ∧ QuotationRefused text) →
      (∀ tag ∈ t.parse.tags, tag.raw.toList ≠ '{' :: inner ++ ['}']) ∧
        ∃ w ∈ t.parse.warnings, w.raw.toList = '{' :: inner ++ ['}'] := by
  constructor
  · intro tag htag
    obtain ⟨inner, hraw, hinner⟩ := raw_of_mem_tagsFrom (wellFormed_pieces _) htag
    refine ⟨inner, hraw, fun i j => ?_⟩
    refine rel_imp (rel_parameterText? hinner i j) fun text p htext hread => ?_
    exact quotationRead_of_readParameter? (splitTopLevel?_of_parameterText? htext) hread
  · -- The text between the braces is refused wherever it stands, so no tag has it.
    rintro inner hpiece ⟨i, j, text, htext, hrefused⟩
    have hfault := ofText?_ne_ok_of_quotationRefused htext hrefused
    constructor
    · intro tag htag hraw
      obtain ⟨inner', hraw', hinner'⟩ := raw_of_mem_tagsFrom (wellFormed_pieces _) htag
      rw [hraw, List.cons_append, List.cons_append] at hraw'
      obtain rfl : inner = inner' := List.append_cancel_right (List.cons.inj hraw').2
      exact hfault _ hinner'
    · cases hexpression : Expression.ofText? inner with
      | ok e => exact absurd hexpression (hfault e)
      | error fault =>
        have hrefusal : Piece.ofInner inner = .refused ('{' :: inner ++ ['}']) fault := by
          simp [Piece.ofInner, hexpression]
        exact exists_warning_of_mem 0 (hrefusal ▸ hpiece)

/-- Two strings in a row as one parameter. -/
def gluedStrings : Template := ⟨"\x7bd.a:print(\"x\" \"y\")\x7d", .txt⟩

/-- The two strings are accepted as one parameter, which is no quoted string: the
first quote behind the opening one is not the last character. -/
theorem gluedStrings_not_isQuotedString :
    ∃ tag ∈ gluedStrings.parse.tags, ∃ inner text p,
      tag.raw.toList = '{' :: inner ++ ['}'] ∧ parameterText? inner 0 0 = some text ∧
        parameter? tag.toExpression 0 0 = some p ∧ ¬ IsQuotedString text p := by
  refine ⟨⟨⟨["a"], none, [⟨"print", [.literal (.text "x\" \"y")]⟩]⟩, "tag_0_0",
      "\x7bd.a:print(\"x\" \"y\")\x7d", ⟨0, 20⟩⟩, by decide +kernel, "d.a:print(\"x\" \"y\")".toList,
    "\"x\" \"y\"".toList, .literal (.text "x\" \"y"), rfl, by decide +kernel, rfl, ?_⟩
  intro hstring
  obtain ⟨body, hrest, hbody, -⟩ := hstring '"' "x\" \"y\"".toList rfl (by decide)
  have hfirst : QuoteBody '"' ['x'] := .plain (by decide) (by decide) .nil
  obtain ⟨-, hnil⟩ := eq_of_quoteBody_closed (by decide) hfirst hbody
    (show ['x'] ++ '"' :: " \"y\"".toList = body ++ '"' :: [] from hrest)
  exact absurd hnil (by decide)

end TagTemplate.Proofs.Template
