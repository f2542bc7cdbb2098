import TagTemplate.Proofs.Template.Quotation
import TagTemplate.Proofs.Template.Tokens

/-!
# `TagTemplate.Proofs.Template.OpenQuotes`: remembered quotations change no piece

The scan that cuts a template remembers where a quotation of each kind ran out
of text, and gives up as soon as a later one of that kind opens. `freshClosing`
is the same scan with nothing remembered. The two cut every content into the
same pieces (`piecesBy_eq_fresh`). So the pieces obey a plain recursion in which nothing is
remembered (`pieces_brace`).

`Recalls content memory` is the invariant: at each remembered place of the
content a quotation of the kind opens that never closes. A scan keeps it and
reports what `closing` reports (`closingFrom_spec`). The places count from the
start of the content, so the lemmas carry how much of it has been `seen`.
-/

set_option autoImplicit false

namespace TagTemplate.Proofs.Template

open TagTemplate.Template

/-- A quotation of kind `q` opens at a place of the content and never closes. -/
def OpensAt (content : List Char) (q : Char) (place : Nat) : Prop :=
  ∃ before after, content = before ++ q :: after ∧ before.length = place ∧ Unclosed q after

/-- What is remembered is true of the content. -/
def Recalls (content : List Char) (memory : OpenQuotes) : Prop :=
  ∀ q place, isQuote q = true → memory.place? q = some place → OpensAt content q place

variable {content : List Char} {memory : OpenQuotes}

/-- Nothing remembered is true of every content. -/
theorem recalls_none (content : List Char) : Recalls content OpenQuotes.none := by
  intro q place _ hplace
  unfold OpenQuotes.place? OpenQuotes.none at hplace
  split at hplace <;> cases hplace

/-- Remembering a place concerns the quotes of one kind, and an earlier place
stays. -/
theorem place?_remember {q q' : Char} (hq : isQuote q = true) (hq' : isQuote q' = true)
    (place : Nat) :
    (memory.remember q place).place? q'
      = if q' = q then (memory.place? q).or (some place) else memory.place? q' := by
  have hkind : ∀ {c : Char}, isQuote c = true → c = '"' ∨ c = '\'' := by
    intro c hc
    simpa [isQuote] using hc
  rcases hkind hq with rfl | rfl <;> rcases hkind hq' with rfl | rfl <;> rfl

/-- A true place can be remembered. -/
theorem Recalls.remember (h : Recalls content memory) {q : Char} {place : Nat}
    (hq : isQuote q = true) (hplace : OpensAt content q place) :
    Recalls content (memory.remember q place) := by
  intro q' place' hq' hplace'
  rw [place?_remember hq hq'] at hplace'
  split at hplace'
  · rename_i heq
    subst heq
    rcases Option.or_eq_some_iff.mp hplace' with hold | ⟨-, hnew⟩
    · exact h q' place' hq hold
    · cases hnew
      exact hplace
  · exact h q' place' hq' hplace'

/-- The scan gives up only before a quotation that never closes. -/
theorem Recalls.unclosed (h : Recalls content memory) {q : Char} {seen after : List Char}
    (hq : isQuote q = true) (hcontent : content = seen ++ q :: after)
    (hopens : memory.opensBefore q seen.length = true) : Unclosed q after := by
  unfold OpenQuotes.opensBefore at hopens
  split at hopens
  · rename_i earlier hplace
    obtain ⟨before, rest, hbefore, rfl, hunclosed⟩ := h q earlier hq hplace
    have hlt : before.length < seen.length := of_decide_eq_true hopens
    -- The earlier quotation opens among what has been seen.
    rw [hcontent] at hbefore
    rcases List.append_eq_append_iff.mp hbefore with ⟨middle, hmiddle, -⟩ | ⟨middle, hseen, hrest⟩
    · rw [hmiddle, List.length_append] at hlt
      omega
    · cases middle with
      | nil =>
        rw [hseen, List.append_nil] at hlt
        omega
      | cons c middle =>
        obtain ⟨rfl, hmore⟩ := List.cons.inj hrest
        rw [hmore] at hunclosed
        exact hunclosed.later
  · cases hopens

/-! ### One scan -/

/-- The quotation that a scan is in opened at its place, and all since then is its
inside. -/
def OpenedAt (content text : List Char) : Option (Char × Nat) → Prop
  | none => True
  | some (q, opened) => isQuote q = true ∧ ∃ before body, content = before ++ q :: (body ++ text) ∧
      before.length = opened ∧ QuoteBody q body

/-- A scan with true memories reports the end that `closing` reports, and what it
remembers afterwards is true. The induction is on the recursion of the scan. -/
theorem closingFrom_spec (hmemory : Recalls content memory) (place length depth : Nat)
    (quote : Option (Char × Nat)) (text : List Char)
    (hplace : ∃ seen, content = seen ++ text ∧ seen.length = place)
    (hquote : OpenedAt content text quote) :
    (memory.closingFrom place length depth quote text).1
        = (closing depth (quote.map Prod.fst) text).shift length ∧
      Recalls content (memory.closingFrom place length depth quote text).2 := by
  fun_induction OpenQuotes.closingFrom memory place length depth quote text with
  -- The text ends inside quotes.
  | case1 place length depth q opened =>
    obtain ⟨hq, before, body, hcontent, hopened, hbody⟩ := hquote
    rw [List.append_nil] at hcontent
    exact ⟨rfl, hmemory.remember hq
      ⟨before, body, hcontent, hopened, hbody.unclosed (ne_backslash_of_isQuote hq)⟩⟩
  -- The text ends outside quotes.
  | case2 place length depth => exact ⟨rfl, hmemory⟩
  -- The text ends behind a backslash inside quotes.
  | case3 place length depth q opened =>
    obtain ⟨hq, before, body, hcontent, hopened, hbody⟩ := hquote
    exact ⟨rfl, hmemory.remember hq
      ⟨before, _, hcontent, hopened, hbody.unclosed_backslash (ne_backslash_of_isQuote hq)⟩⟩
  -- A backslash inside quotes takes the next character with it.
  | case4 place length depth q opened c rest ih =>
    obtain ⟨hq, before, body, hcontent, hopened, hbody⟩ := hquote
    obtain ⟨seen, hseen, rfl⟩ := hplace
    have hscan := ih ⟨seen ++ ['\\', c], by rw [hseen, List.append_assoc]; rfl, by simp⟩
      ⟨hq, before, body ++ ['\\', c], by rw [hcontent, List.append_assoc]; rfl, hopened,
        hbody.append (.escaped c .nil)⟩
    refine ⟨?_, hscan.2⟩
    rw [hscan.1]
    show _ = (closing depth (some q) ('\\' :: c :: rest)).shift length
    rw [closing, if_pos rfl, shift_shift, Nat.add_comm 2]
    rfl
  -- Another character inside quotes, which may close them.
  | case5 place length depth c cs q opened hslash ih =>
    obtain ⟨hq, before, body, hcontent, hopened, hbody⟩ := hquote
    obtain ⟨seen, hseen, rfl⟩ := hplace
    have hscan := ih ⟨seen ++ [c], by rw [hseen, List.append_assoc]; rfl, by simp⟩ ?_
    · refine ⟨?_, hscan.2⟩
      rw [hscan.1]
      show _ = (closing depth (some q) (c :: cs)).shift length
      rw [closing_inside depth hslash, shift_shift, Nat.add_comm 1]
      split <;> rfl
    · split
      · trivial
      · rename_i hne
        exact ⟨hq, before, body ++ [c], by rw [hcontent, List.append_assoc]; rfl, hopened,
          hbody.append (.plain hslash hne .nil)⟩
  -- Quotes open that are known not to close.
  | case6 place length depth c cs hcount hknown =>
    rw [Bool.and_eq_true] at hcount
    obtain ⟨seen, hseen, rfl⟩ := hplace
    refine ⟨?_, hmemory⟩
    -- The scan gives up, and the quotation that opens here runs out of text.
    show _ = (closing depth none (c :: cs)).shift length
    rw [closing, if_pos (by rw [Bool.and_eq_true]; exact hcount),
      closing_of_unclosed depth (hmemory.unclosed hcount.1 hseen hknown)]
    rfl
  -- Quotes open.
  | case7 place length depth c cs hcount hknown ih =>
    obtain ⟨seen, hseen, rfl⟩ := hplace
    have hq : isQuote c = true := (Bool.and_eq_true _ _ ▸ hcount).1
    have hscan := ih ⟨seen ++ [c], by rw [hseen, List.append_assoc]; rfl, by simp⟩
      ⟨hq, seen, [], hseen, rfl, .nil⟩
    refine ⟨?_, hscan.2⟩
    rw [hscan.1]
    show _ = (closing depth none (c :: cs)).shift length
    rw [closing, if_pos hcount, shift_shift, Nat.add_comm 1]
    rfl
  -- Another brace opens.
  | case8 place length depth cs hcount =>
    refine ⟨?_, hmemory⟩
    show _ = (closing depth none ('{' :: cs)).shift length
    rw [closing, if_neg hcount, if_pos rfl]
    exact congrArg Closing.interrupted (Nat.zero_add length).symm
  -- A brace closes.
  | case9 place length depth cs hcount hopen =>
    refine ⟨?_, hmemory⟩
    show _ = (closing depth none ('}' :: cs)).shift length
    rw [closing, if_neg hcount, if_neg hopen, if_pos rfl]
    exact congrArg Closing.closed (Nat.zero_add length).symm
  -- Any other character.
  | case10 place length depth c cs hcount hopen hclose ih =>
    obtain ⟨seen, hseen, rfl⟩ := hplace
    have hscan := ih ⟨seen ++ [c], by rw [hseen, List.append_assoc]; rfl, by simp⟩ trivial
    refine ⟨?_, hscan.2⟩
    rw [hscan.1]
    show _ = (closing depth none (c :: cs)).shift length
    rw [closing, if_neg hcount, if_neg hopen, if_neg hclose, shift_shift, Nat.add_comm 1]
    rfl

/-- The scan from an opening brace, where some of the content has been seen. -/
theorem openQuotes_closing_spec (hmemory : Recalls content memory) {seen text : List Char}
    (hseen : content = seen ++ text) :
    (memory.closing seen.length text).1 = closing 0 none text ∧
      Recalls content (memory.closing seen.length text).2 := by
  have hscan := closingFrom_spec hmemory seen.length 0 0 none text ⟨seen, hseen, rfl⟩ trivial
  rwa [shift_zero] at hscan

/-! ### The cut -/

/-- The scan with nothing remembered, anew at each opening brace. -/
def freshClosing (_ : Unit) (place : Nat) (text : List Char) : Closing × Unit :=
  ((OpenQuotes.none.closing place text).1, ())

/-- The fresh scan is the plain rule, at every place. -/
theorem freshClosing_fst (place : Nat) (text : List Char) :
    (freshClosing () place text).1 = closing 0 none text := by
  -- Any text of the right length can stand before the scanned one.
  obtain ⟨seen, hseen⟩ : ∃ seen : List Char, seen.length = place :=
    ⟨List.replicate place ' ', List.length_replicate⟩
  obtain ⟨hending, -⟩ := openQuotes_closing_spec (recalls_none (seen ++ text)) rfl
  rwa [hseen] at hending

/-- With true memories the cut makes the same pieces as with none. The induction
is on the length of what is left: after a piece less is left, and the memories are
still true. -/
theorem piecesBy_eq_fresh (hmemory : Recalls content memory) {seen rest : List Char}
    (hseen : content = seen ++ rest) (place : Nat) :
    piecesBy OpenQuotes.closing memory seen.length rest = piecesBy freshClosing () place rest := by
  induction hlength : rest.length using Nat.strongRecOn
    generalizing memory seen rest place with
  | ind n ih =>
    by_cases hmem : '{' ∈ rest
    · obtain ⟨before, after, rfl, hbefore⟩ := List.eq_append_cons_of_mem hmem
      have hbrace : content = (seen ++ before ++ ['{']) ++ after := by
        rw [hseen, List.append_assoc, List.append_assoc]
        rfl
      have hplace : (seen ++ before ++ ['{']).length = seen.length + before.length + 1 := by
        rw [List.length_append, List.length_append, List.length_singleton]
      obtain ⟨hending, hmemory'⟩ := openQuotes_closing_spec hmemory hbrace
      rw [hplace] at hending hmemory'
      -- The piece that the brace starts is cut out of what is left.
      have hsound := openQuotes_sound memory (seen.length + before.length + 1) after
      have htext := text_bracePiece hsound
      rw [hending] at htext
      rw [piecesBy_brace _ _ _ _ hbefore, piecesBy_brace _ _ _ _ hbefore, hending,
        freshClosing_fst]
      obtain ⟨piece, left, hpiece⟩ : ∃ piece left, bracePiece after (closing 0 none after)
        = (piece, left) := ⟨_, _, rfl⟩
      have hle := length_bracePiece_le after (closing 0 none after)
      rw [hpiece] at htext hle ⊢
      have hleft : content = (seen ++ before ++ piece.text) ++ left := by
        rw [List.append_assoc, htext, hbrace, List.append_assoc]
        rfl
      have hpieces := ih left.length
        (by rw [← hlength, List.length_append, List.length_cons]; simp only at hle; omega)
        hmemory' hleft (place + before.length + piece.text.length) rfl
      rw [List.length_append, List.length_append] at hpieces
      rw [hpieces]
    · rw [piecesBy_of_notMem _ _ _ hmem, piecesBy_of_notMem _ _ _ hmem]

/-- The pieces of a content, by the plain rule for where a tag ends: plain text,
the piece that the first opening brace starts, and the pieces of the rest. -/
theorem pieces_brace {before : List Char} (after : List Char) (h : '{' ∉ before) :
    pieces (before ++ '{' :: after)
      = plainPiece before ++ (bracePiece after (closing 0 none after)).1 ::
          pieces (bracePiece after (closing 0 none after)).2 := by
  have hfresh : ∀ rest, pieces rest = piecesBy freshClosing () 0 rest := fun rest =>
    piecesBy_eq_fresh (recalls_none rest) (List.nil_append rest).symm 0
  have hplace : ∀ place rest, piecesBy freshClosing () place rest = pieces rest := fun place rest =>
    (piecesBy_eq_fresh (recalls_none rest) (List.nil_append rest).symm place).symm
  rw [hfresh, piecesBy_brace _ _ _ _ h, freshClosing_fst, hplace]

/-- A content without an opening brace is one plain piece. -/
theorem pieces_of_notMem (h : '{' ∉ content) : pieces content = plainPiece content :=
  piecesBy_of_notMem _ _ _ h

end TagTemplate.Proofs.Template
