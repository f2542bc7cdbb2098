import TagTemplate.Text.Blank

/-!
# `TagTemplate.Proofs.Text.Trim`: what trimming leaves

Trimming takes white space off the ends and nothing else. A text that begins and
ends with other characters stays as it is (`trim_eq_self`, `trimEnd_concat`),
and every text is its trimmed form between white space (`exists_trim`).
-/

set_option autoImplicit false

namespace TagTemplate.Proofs.Text

open TagTemplate.Text TagTemplate.Unicode

/-- A text is the white space that it begins with and what is left of it. -/
theorem exists_trimStart (text : List Char) :
    ∃ before, text = before ++ trimStart text ∧ ∀ c ∈ before, isWhiteSpace c = true :=
  ⟨text.takeWhile isWhiteSpace, List.takeWhile_append_dropWhile.symm,
    fun _ hc => List.all_eq_true.mp List.all_takeWhile _ hc⟩

/-- A text is what is left of it and the white space that it ends with. -/
theorem exists_trimEnd (text : List Char) :
    ∃ after, text = trimEnd text ++ after ∧ ∀ c ∈ after, isWhiteSpace c = true := by
  obtain ⟨before, hbefore, hwhite⟩ := exists_trimStart text.reverse
  refine ⟨before.reverse, ?_, fun c hc => hwhite c (List.mem_reverse.mp hc)⟩
  calc text = text.reverse.reverse := text.reverse_reverse.symm
    _ = (before ++ trimStart text.reverse).reverse := congrArg List.reverse hbefore
    _ = trimEnd text ++ before.reverse := List.reverse_append

/-- Every text is its trimmed form between white space. -/
theorem exists_trim (text : List Char) :
    ∃ before after, text = before ++ (trim text ++ after) ∧
      (∀ c ∈ before, isWhiteSpace c = true) ∧ ∀ c ∈ after, isWhiteSpace c = true := by
  obtain ⟨before, hbefore, hbeforeWhite⟩ := exists_trimStart text
  obtain ⟨after, hafter, hafterWhite⟩ := exists_trimEnd (trimStart text)
  refine ⟨before, after, ?_, hbeforeWhite, hafterWhite⟩
  show text = before ++ (trimEnd (trimStart text) ++ after)
  rw [← hafter]
  exact hbefore

/-- A text that ends with another character keeps its end. -/
theorem trimEnd_concat (text : List Char) {c : Char} (hc : isWhiteSpace c = false) :
    trimEnd (text ++ [c]) = text ++ [c] := by
  show ((text ++ [c]).reverse.dropWhile isWhiteSpace).reverse = _
  rw [List.reverse_append, List.reverse_singleton, List.singleton_append,
    List.dropWhile_cons_of_neg (by rw [hc]; exact Bool.false_ne_true), List.reverse_cons,
    List.reverse_reverse]

/-- A text whose ends are other characters stays as it is. -/
theorem trim_eq_self {text : List Char} (hhead : ∀ c ∈ text.head?, isWhiteSpace c = false)
    (hlast : ∀ c ∈ text.getLast?, isWhiteSpace c = false) : trim text = text := by
  have hstart : trimStart text = text := by
    cases text with
    | nil => rfl
    | cons c text =>
      exact List.dropWhile_cons_of_neg (by rw [hhead c rfl]; exact Bool.false_ne_true)
  show trimEnd (trimStart text) = text
  rw [hstart]
  rcases List.eq_nil_or_concat text with rfl | ⟨first, c, rfl⟩
  · rfl
  · rw [List.concat_eq_append] at hlast ⊢
    exact trimEnd_concat first (hlast c (by rw [List.getLast?_concat]; rfl))

/-- A text with a character that is no white space does not trim to nothing. -/
theorem trim_ne_nil {text : List Char} {c : Char} (hmem : c ∈ text)
    (hc : isWhiteSpace c = false) : trim text ≠ [] := by
  intro hnil
  obtain ⟨before, after, htext, hbefore, hafter⟩ := exists_trim text
  rw [hnil, List.nil_append] at htext
  rw [htext] at hmem
  have hwhite : isWhiteSpace c = true := (List.mem_append.mp hmem).elim (hbefore c) (hafter c)
  rw [hc] at hwhite
  cases hwhite

end TagTemplate.Proofs.Text
