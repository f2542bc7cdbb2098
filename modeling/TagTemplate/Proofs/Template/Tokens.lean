import TagTemplate.Template.Piece

/-!
# `TagTemplate.Proofs.Template.Tokens`: pieces lose nothing

`Template.piecesBy` cuts a content into plain text, tags and refused braces
with a scan that it is given. Here that scan need only be *sound*
(`SoundScan`): where it says that a tag closes or is interrupted after some
characters, the brace that it speaks of stands there. The scan that remembers
open quotations is sound (`openQuotes_sound`), so what is proved for sound
scans holds of `Template.pieces`:

* `flatMap_text_pieces`: the texts of the pieces make up the content;
* `wellFormed_pieces`: a plain piece has no opening brace, a tag runs from an
  opening to a closing brace and says what the text between them says, and a
  refused piece starts with an opening brace.

The one step of the cut is `bracePiece`, and both facts are proved for it
first.
-/

set_option autoImplicit false

namespace TagTemplate.Proofs.Template

open TagTemplate.Template

/-! ### Sound scans -/

/-- The end of a tag that a scan reports, after `seen` characters of the tag, is
there in the text that is still to be scanned. -/
def EndsIn (seen : Nat) (text : List Char) : Closing → Prop
  | .closed length => ∃ inner rest, text = inner ++ '}' :: rest ∧ seen + inner.length = length
  | .interrupted length => ∃ inner rest, text = inner ++ '{' :: rest ∧ seen + inner.length = length
  | .unterminated => True

/-- A scan whose every report is true, whatever it remembers. -/
def SoundScan {σ : Type} (scan : σ → Nat → List Char → Closing × σ) : Prop :=
  ∀ memory place text, EndsIn 0 text (scan memory place text).1

/-- What is reported from one character on is true from that character on. -/
theorem EndsIn.cons {seen : Nat} {text : List Char} {ending : Closing} (c : Char)
    (h : EndsIn (seen + 1) text ending) : EndsIn seen (c :: text) ending := by
  cases ending with
  | closed length =>
    obtain ⟨inner, rest, rfl, hlen⟩ := h
    exact ⟨c :: inner, rest, rfl, by rw [List.length_cons]; omega⟩
  | interrupted length =>
    obtain ⟨inner, rest, rfl, hlen⟩ := h
    exact ⟨c :: inner, rest, rfl, by rw [List.length_cons]; omega⟩
  | unterminated => trivial

/-- The scan that remembers open quotations reports true ends, from every state
of the scan. The induction is on its recursion, which takes one character, or
two after a backslash. -/
theorem endsIn_closingFrom (memory : OpenQuotes) (place length depth : Nat)
    (quote : Option (Char × Nat)) (text : List Char) :
    EndsIn length text (memory.closingFrom place length depth quote text).1 := by
  fun_induction OpenQuotes.closingFrom memory place length depth quote text with
  -- The text ends inside quotes.
  | case1 => trivial
  -- The text ends outside quotes.
  | case2 => trivial
  -- The text ends behind a backslash inside quotes.
  | case3 => trivial
  -- A backslash inside quotes takes the next character with it.
  | case4 place length depth q opened c rest ih => exact (EndsIn.cons c ih).cons _
  -- Another character inside quotes, which may close them.
  | case5 place length depth c cs q opened hslash ih => exact ih.cons c
  -- Quotes open that are known not to close.
  | case6 => trivial
  -- Quotes open.
  | case7 place length depth c cs hquote hknown ih => exact ih.cons c
  -- Another brace opens, and the scan stands at it.
  | case8 place length depth cs hquote => exact ⟨[], cs, rfl, rfl⟩
  -- A brace closes, and the scan stands at it.
  | case9 place length depth cs hquote hopen => exact ⟨[], cs, rfl, rfl⟩
  -- Any other character.
  | case10 place length depth c cs hquote hopen hclose ih => exact ih.cons c

/-- The scan that remembers open quotations is sound. -/
theorem openQuotes_sound : SoundScan OpenQuotes.closing := fun memory place text =>
  endsIn_closingFrom memory place 0 0 none text

/-! ### The cut -/

/-- What the text of a piece is made of. -/
def WellFormed : Piece → Prop
  | .plain text => '{' ∉ text
  | .tag text expression =>
    ∃ inner, text = '{' :: inner ++ ['}'] ∧ Expression.ofText? inner = .ok expression
  | .refused text _ => ∃ rest, text = '{' :: rest

/-- Text that is taken while no brace opens has no opening brace. -/
theorem brace_notMem_takeWhile (content : List Char) : '{' ∉ content.takeWhile notBrace := by
  intro hmem
  have hall := List.all_takeWhile (p := notBrace) (l := content)
  have := List.all_eq_true.mp hall _ hmem
  simp [notBrace] at this

/-- The text that a brace piece from `{` to `}` has. -/
theorem text_ofInner (inner : List Char) : (Piece.ofInner inner).text = '{' :: inner ++ ['}'] := by
  unfold Piece.ofInner
  cases Expression.ofText? inner <;> rfl

/-- A brace piece from `{` to `}` is a tag or is refused, and well formed in
either case. -/
theorem wellFormed_ofInner (inner : List Char) : WellFormed (Piece.ofInner inner) := by
  unfold Piece.ofInner
  cases h : Expression.ofText? inner with
  | ok expression => exact ⟨inner, rfl, h⟩
  | error fault => exact ⟨inner ++ ['}'], rfl⟩

/-- The piece that a brace starts and the text after it make up the text from
the brace on, if the ending is there. -/
theorem text_bracePiece {after : List Char} {ending : Closing} (h : EndsIn 0 after ending) :
    (bracePiece after ending).1.text ++ (bracePiece after ending).2 = '{' :: after := by
  cases ending with
  | closed length =>
    obtain ⟨inner, rest, rfl, hlen⟩ := h
    -- The piece keeps as many characters as the scan counted up to the brace.
    obtain rfl : inner.length = length := by omega
    simp [bracePiece, text_ofInner, List.drop_append]
  | interrupted length =>
    obtain ⟨inner, rest, rfl, hlen⟩ := h
    obtain rfl : inner.length = length := by omega
    simp [bracePiece, Piece.text]
  | unterminated => simp [bracePiece, Piece.text]

/-- The piece that a brace starts is well formed. -/
theorem wellFormed_bracePiece (after : List Char) (ending : Closing) :
    WellFormed (bracePiece after ending).1 := by
  cases ending with
  | closed length => exact wellFormed_ofInner _
  | interrupted length => exact ⟨_, rfl⟩
  | unterminated => exact ⟨_, rfl⟩

/-- The text of the pieces that plain text makes. -/
theorem flatMap_text_plainPiece (text : List Char) :
    (plainPiece text).flatMap Piece.text = text := by
  unfold plainPiece
  cases text <;> simp [Piece.text]

/-- The pieces that text without an opening brace makes are well formed. -/
theorem wellFormed_plainPiece {text : List Char} (h : '{' ∉ text) :
    ∀ piece ∈ plainPiece text, WellFormed piece := by
  unfold plainPiece
  cases text with
  | nil => simp
  | cons c cs => simpa [WellFormed] using h

/-- Without an opening brace all characters are others. -/
theorem all_notBrace {text : List Char} (h : '{' ∉ text) : ∀ c ∈ text, notBrace c = true := by
  intro c hc
  rw [notBrace, bne_iff_ne]
  rintro rfl
  exact h hc

/-- Text without an opening brace is one plain piece. -/
theorem piecesBy_of_notMem {σ : Type} (scan : σ → Nat → List Char → Closing × σ) (memory : σ)
    (place : Nat) {content : List Char} (h : '{' ∉ content) :
    piecesBy scan memory place content = plainPiece content := by
  have hall := all_notBrace h
  have hrest : (content ++ []).dropWhile notBrace = [] := List.dropWhile_append_of_pos hall
  have hbefore : (content ++ []).takeWhile notBrace = content ++ [] :=
    List.takeWhile_append_of_pos hall
  rw [List.append_nil] at hrest hbefore
  rw [piecesBy]
  split
  · rw [hbefore]
  · rename_i hcons
    rw [hrest] at hcons
    cases hcons

/-- The first opening brace starts a piece, and the cut goes on after it. -/
theorem piecesBy_brace {σ : Type} (scan : σ → Nat → List Char → Closing × σ) (memory : σ)
    (place : Nat) {before : List Char} (after : List Char) (h : '{' ∉ before) :
    piecesBy scan memory place (before ++ '{' :: after)
      = plainPiece before ++
        (bracePiece after (scan memory (place + before.length + 1) after).1).1 ::
          piecesBy scan (scan memory (place + before.length + 1) after).2
            (place + before.length
              + (bracePiece after (scan memory (place + before.length + 1) after).1).1.text.length)
            (bracePiece after (scan memory (place + before.length + 1) after).1).2 := by
  have hall := all_notBrace h
  have hrest : (before ++ '{' :: after).dropWhile notBrace = '{' :: after := by
    rw [List.dropWhile_append_of_pos hall]
    rfl
  have hbefore : (before ++ '{' :: after).takeWhile notBrace = before := by
    rw [List.takeWhile_append_of_pos hall]
    exact List.append_nil before
  rw [piecesBy]
  split
  · rename_i hnil
    rw [hrest] at hnil
    cases hnil
  · rename_i hcons
    rw [hrest] at hcons
    obtain ⟨-, rfl⟩ := List.cons.inj hcons
    rw [hbefore]

/-- The texts of the pieces make up the content, for any sound scan. -/
theorem flatMap_text_piecesBy {σ : Type} {scan : σ → Nat → List Char → Closing × σ}
    (hscan : SoundScan scan) (memory : σ) (place : Nat) (content : List Char) :
    (piecesBy scan memory place content).flatMap Piece.text = content := by
  fun_induction piecesBy scan memory place content with
  -- No brace is left.
  | case1 memory place content before hrest =>
    rw [flatMap_text_plainPiece]
    have hsplit := List.takeWhile_append_dropWhile (p := notBrace) (l := content)
    rwa [hrest, List.append_nil] at hsplit
  -- A brace opens.
  | case2 memory place content before c after hrest ending found restPlace ih =>
    -- What is not plain starts with the brace at which the plain text stopped.
    obtain rfl : c = '{' := by
      have := List.head?_dropWhile_not notBrace content
      simpa [hrest, notBrace] using this
    rw [List.flatMap_append, List.flatMap_cons, ih, flatMap_text_plainPiece,
      text_bracePiece (hscan _ _ _), ← hrest]
    exact List.takeWhile_append_dropWhile

/-- The pieces are well formed, for any scan. -/
theorem wellFormed_piecesBy {σ : Type} (scan : σ → Nat → List Char → Closing × σ) (memory : σ)
    (place : Nat) (content : List Char) :
    ∀ piece ∈ piecesBy scan memory place content, WellFormed piece := by
  fun_induction piecesBy scan memory place content with
  -- No brace is left.
  | case1 memory place content before hrest =>
    exact wellFormed_plainPiece (brace_notMem_takeWhile content)
  -- A brace opens.
  | case2 memory place content before c after hrest ending found restPlace ih =>
    intro piece hpiece
    rcases List.mem_append.mp hpiece with hplain | hpiece
    · exact wellFormed_plainPiece (brace_notMem_takeWhile content) piece hplain
    · rcases List.mem_cons.mp hpiece with rfl | hpiece
      · exact wellFormed_bracePiece _ _
      · exact ih piece hpiece

/-- The texts of the pieces of a content make up the content. -/
theorem flatMap_text_pieces (content : List Char) :
    (pieces content).flatMap Piece.text = content :=
  flatMap_text_piecesBy openQuotes_sound _ _ _

/-- The pieces of a content are well formed. -/
theorem wellFormed_pieces (content : List Char) : ∀ piece ∈ pieces content, WellFormed piece :=
  wellFormed_piecesBy _ _ _ _

end TagTemplate.Proofs.Template
