import TagTemplate.Binary64.Order
import TagTemplate.Binary64.Shortest
import TagTemplate.Text.Blank

/-!
# `TagTemplate.Value.NumberText`: numbers in texts

`formatNumber` writes a number in the fewest digits that read back, never with
an exponent and never with a point after a whole number; both zeros are `0`.
`parseNumber?` takes a decimal text with white space around it, if its number
is finite. Names such as `inf` are not numbers.
-/

set_option autoImplicit false

namespace TagTemplate.Value

/-- The decimal form of a number. -/
def formatNumber : Binary64 → String
  | .finite negative rank =>
    if rank.val = 0 then "0"
    else
      let text := (Binary64.shortest .up rank).positional
      String.ofList (if negative then '-' :: text else text)
  | .infinite negative => if negative then "-inf" else "inf"
  | .nan => "NaN"

/-- A character of a decimal text: digits, the point, signs and the mark of an
exponent. -/
def isDecimalCharacter (c : Char) : Bool :=
  c.isDigit || c = '.' || c = '-' || c = '+' || c = 'e' || c = 'E'

/-- The finite number that a text denotes. -/
def parseNumber? (text : List Char) : Option Binary64 :=
  let trimmed := Text.trim text
  if trimmed.all isDecimalCharacter then
    (Binary64.readWithNames? trimmed).filter Binary64.isFinite
  else
    none

/-- A decimal character is not the letter `n`. -/
theorem toLower_ne_of_isDecimalCharacter {c : Char} (h : isDecimalCharacter c = true) :
    c.toLower ≠ 'n' := by
  simp only [isDecimalCharacter, Bool.or_eq_true, decide_eq_true_eq] at h
  rcases h with ((((h | rfl) | rfl) | rfl) | rfl) | rfl
  · simp only [Char.isDigit, Bool.and_eq_true, decide_eq_true_eq] at h
    have hlower : c.toLower = c :=
      dif_neg fun hupper => absurd (UInt32.le_trans hupper.1 h.2) (by decide)
    intro hn
    rw [hlower] at hn
    subst hn
    exact absurd h.2 (by decide)
  all_goals decide

/-- The names of infinities and of `nan` are no decimal texts, so that a number in a text
is written in digits. -/
theorem parseNumber?_eq (text : List Char) :
    parseNumber? text =
      if (Text.trim text).all isDecimalCharacter then
        (Binary64.read? (Text.trim text)).filter Binary64.isFinite
      else none := by
  unfold parseNumber?
  dsimp only
  split
  · next hall =>
    have hmem (c : Char) (hc : c ∈ (Binary64.readSign (Text.trim text)).2) :
        c ∈ Text.trim text := by
      unfold Binary64.readSign at hc
      split at hc
      · next hminus => exact hminus ▸ List.mem_cons_of_mem _ hc
      · next hplus => exact hplus ▸ List.mem_cons_of_mem _ hc
      · exact hc
    rw [Binary64.readWithNames?_eq_read?]
    intro hn
    obtain ⟨c, hc, hlower⟩ := List.mem_map.mp hn
    exact toLower_ne_of_isDecimalCharacter (List.all_eq_true.mp hall c (hmem c hc)) hlower
  · rfl

end TagTemplate.Value
