import Mathlib.Tactic.SplitIfs
import TagTemplate.Json.Printer
import TagTemplate.Json.Reader

/-!
# `TagTemplate.Proofs.Json.Strings`: written strings are read back

Each character of a text is written as itself or as an escape. Either form is one
part of a string to the reader, and that part is the character
(`stringPart?_escape`). Hence the reader finds the text again up to the closing
quote, whatever follows it (`readString?_escape`).
-/

set_option autoImplicit false

namespace TagTemplate.Proofs.Json

open TagTemplate.Json.Document

/-! ### Characters -/

/-- A hexadecimal digit has its value. -/
theorem hexDigit?_hexCharacter : ∀ n < 16, hexDigit? (hexCharacter n) = some n := by
  decide

/-- Two hexadecimal digits after two zeros are the unit of a control character. -/
theorem hexUnit?_control {n : Nat} (h : n < 0x20) (rest : List Char) :
    hexUnit? ('0' :: '0' :: hexCharacter (n / 16) :: hexCharacter (n % 16) :: rest)
      = some (n, rest) := by
  have hhigh := hexDigit?_hexCharacter (n / 16) (by omega)
  have hlow := hexDigit?_hexCharacter (n % 16) (by omega)
  have hzero : hexDigit? '0' = some 0 := by decide
  have hunit : ((0 * 16 + 0) * 16 + n / 16) * 16 + n % 16 = n := by omega
  simp only [hexUnit?, hzero, hhigh, hlow, Option.bind_eq_bind, Option.bind_some, hunit]
  rfl

/-- A unit below the surrogates is a character. -/
theorem ofUnit_toNat {c : Char} (h : c.toNat < 0x20) :
    StringPart.ofUnit c.toNat = .character c := by
  rw [StringPart.ofUnit, if_neg (by omega), Char.ofNat_toNat]

/-- The reader takes a written character for the character. -/
theorem stringPart?_escape (c : Char) (rest : List Char) :
    stringPart? (escape c ++ rest) = some (some (.character c), rest) := by
  unfold escape
  split_ifs with hquote hbackslash hb hf hn hr ht hcontrol
  · subst hquote
    rfl
  · subst hbackslash
    rfl
  · subst hb
    rfl
  · subst hf
    rfl
  · subst hn
    rfl
  · subst hr
    rfl
  · subst ht
    rfl
  · simp only [List.cons_append, List.nil_append, stringPart?, hexUnit?_control hcontrol,
      Option.map_some, ofUnit_toNat hcontrol]
  · simp [stringPart?, hbackslash, hcontrol]

/-- A written character is not empty. -/
theorem escape_ne_nil (c : Char) : escape c ≠ [] := by
  unfold escape
  split_ifs <;> exact List.cons_ne_nil _ _

/-! ### Texts -/

/-- Writing a text makes it no shorter. -/
theorem length_le_length_escape (text : List Char) :
    text.length ≤ (text.flatMap escape).length := by
  induction text with
  | nil => exact Nat.le_refl _
  | cons c text ih =>
    have hpos := List.length_pos_iff.mpr (escape_ne_nil c)
    rw [List.flatMap_cons, List.length_append, List.length_cons]
    omega

/-- The parts of a written text are its characters. -/
theorem stringParts?_escape {text : List Char} {steps : Nat} (h : text.length < steps)
    (rest : List Char) :
    stringParts? steps (text.flatMap escape ++ '"' :: rest)
      = some (text.map .character, rest) := by
  induction text generalizing steps with
  | nil =>
    obtain ⟨steps, rfl⟩ := Nat.exists_eq_add_one.mpr h
    rfl
  | cons c text ih =>
    obtain ⟨steps, rfl⟩ := Nat.exists_eq_add_one.mpr (Nat.zero_lt_of_lt h)
    have hrest := ih (Nat.lt_of_succ_lt_succ h)
    rw [List.flatMap_cons, List.append_assoc, stringParts?, stringPart?_escape]
    simp only [hrest, Option.map_some, List.map_cons]

/-- Parts that are characters are a text. -/
theorem characters?_map (text : List Char) :
    characters? (text.map .character) = some text := by
  induction text with
  | nil => rfl
  | cons c text ih => rw [List.map_cons, characters?, ih, Option.map_some]

/-- A written text is read back up to the closing quote. -/
theorem readString?_escape {text : String} {steps : Nat} (h : text.toList.length < steps)
    (rest : List Char) :
    readString? steps (text.toList.flatMap escape ++ '"' :: rest) = some (some text, rest) := by
  simp only [readString?, stringParts?_escape h, Option.map_some, characters?_map,
    String.ofList_toList]

end TagTemplate.Proofs.Json
