/-!
# `TagTemplate.Text.Bytes`: byte offsets into a text

Offsets and sizes count the bytes of the UTF-8 form. `dropBytes?`,
`takeBytes?` and `slice?` cut a text at byte offsets; each is `none` when an
offset lies past the end or inside a character.
-/

set_option autoImplicit false

namespace TagTemplate.Text

/-- The number of bytes of a text. -/
def byteCount : List Char → Nat
  | [] => 0
  | c :: cs => c.utf8Size + byteCount cs

@[simp] theorem byteCount_append (as bs : List Char) :
    byteCount (as ++ bs) = byteCount as + byteCount bs := by
  induction as with
  | nil => simp [byteCount]
  | cons c cs ih => simp [byteCount, ih]; omega

/-- The text after its first `n` bytes. -/
def dropBytes? : Nat → List Char → Option (List Char)
  | 0, cs => some cs
  | _ + 1, [] => none
  | n + 1, c :: cs => if c.utf8Size ≤ n + 1 then dropBytes? (n + 1 - c.utf8Size) cs else none

/-- The first `n` bytes of the text. -/
def takeBytes? : Nat → List Char → Option (List Char)
  | 0, _ => some []
  | _ + 1, [] => none
  | n + 1, c :: cs =>
    if c.utf8Size ≤ n + 1 then (takeBytes? (n + 1 - c.utf8Size) cs).map (c :: ·) else none

/-- The text from byte `start` up to byte `stop`. -/
def slice? (cs : List Char) (start stop : Nat) : Option (List Char) :=
  if start ≤ stop then (dropBytes? start cs).bind (takeBytes? (stop - start)) else none

/-- Dropping the bytes of a first part leaves the second. -/
theorem dropBytes?_append (as bs : List Char) : dropBytes? (byteCount as) (as ++ bs) = some bs := by
  induction as with
  | nil => cases bs <;> rfl
  | cons c cs ih =>
    obtain ⟨n, hn⟩ : ∃ n, c.utf8Size = n + 1 :=
      ⟨c.utf8Size - 1, by have := c.utf8Size_pos; omega⟩
    have hsum : byteCount (c :: cs) = n + byteCount cs + 1 := by simp [byteCount, hn]; omega
    rw [hsum, List.cons_append, dropBytes?, if_pos (by omega)]
    rw [show n + byteCount cs + 1 - c.utf8Size = byteCount cs by omega]
    exact ih

/-- Taking the bytes of a first part gives that part. -/
theorem takeBytes?_append (as bs : List Char) : takeBytes? (byteCount as) (as ++ bs) = some as := by
  induction as with
  | nil => cases bs <;> rfl
  | cons c cs ih =>
    obtain ⟨n, hn⟩ : ∃ n, c.utf8Size = n + 1 :=
      ⟨c.utf8Size - 1, by have := c.utf8Size_pos; omega⟩
    have hsum : byteCount (c :: cs) = n + byteCount cs + 1 := by simp [byteCount, hn]; omega
    rw [hsum, List.cons_append, takeBytes?, if_pos (by omega)]
    rw [show n + byteCount cs + 1 - c.utf8Size = byteCount cs by omega]
    simp [ih]

end TagTemplate.Text
