import TagTemplate.Text.Bytes

/-!
# `TagTemplate.Proofs.Text.Slice`: what the byte slices cut out

`dropBytes?`, `takeBytes?` and `slice?` answer `none` where an offset lies past
the end or inside a character. The lemmas here say when they answer, and with
what: exactly where the text splits into parts of the right sizes
(`dropBytes?_eq_some_iff`, `takeBytes?_eq_some_iff`, `slice?_eq_some_iff`).

`IsBoundary content k` says that byte `k` lies between two characters, or at an
end. A text has one split at each boundary (`eq_of_append_eq_append`), and the
splits at two boundaries refine each other (`exists_middle`). All later
arguments about offsets go through these two facts and not through the
recursions.
-/

set_option autoImplicit false

namespace TagTemplate.Proofs.Text

open TagTemplate.Text

/-- Only the empty text has no bytes: every character has at least one. -/
@[simp] theorem byteCount_eq_zero_iff {cs : List Char} : byteCount cs = 0 ↔ cs = [] := by
  cases cs with
  | nil => simp [byteCount]
  | cons c cs =>
    have := c.utf8Size_pos
    simp only [byteCount, reduceCtorEq, iff_false]
    omega

/-- The empty text has no bytes. -/
@[simp] theorem byteCount_nil : byteCount [] = 0 := rfl

/-- The bytes of a text are those of its first character and of the rest. -/
@[simp] theorem byteCount_cons (c : Char) (cs : List Char) :
    byteCount (c :: cs) = c.utf8Size + byteCount cs := rfl

/-- The order of the characters does not matter to the number of bytes. -/
theorem byteCount_reverse (cs : List Char) : byteCount cs.reverse = byteCount cs := by
  induction cs with
  | nil => rfl
  | cons c cs ih => simp [ih]; omega

/-- Dropping bytes answers exactly where the text splits after that many. -/
theorem dropBytes?_eq_some_iff {n : Nat} {cs rest : List Char} :
    dropBytes? n cs = some rest ↔ ∃ before, cs = before ++ rest ∧ byteCount before = n := by
  constructor
  · intro h
    fun_induction dropBytes? n cs with
    -- No bytes are left to be passed over.
    | case1 cs =>
      cases h
      exact ⟨[], rfl, rfl⟩
    -- The text is too short.
    | case2 => simp at h
    -- The first character fits.
    | case3 n c cs hle ih =>
      obtain ⟨before, rfl, hsize⟩ := ih h
      refine ⟨c :: before, rfl, ?_⟩
      rw [byteCount_cons, hsize]
      omega
    -- The first character has too many bytes.
    | case4 => simp at h
  · rintro ⟨before, rfl, rfl⟩
    exact dropBytes?_append before rest

/-- Taking bytes answers exactly where the text splits after that many. -/
theorem takeBytes?_eq_some_iff {n : Nat} {cs before : List Char} :
    takeBytes? n cs = some before ↔ ∃ rest, cs = before ++ rest ∧ byteCount before = n := by
  constructor
  · intro h
    fun_induction takeBytes? n cs generalizing before with
    -- No bytes are left to be taken.
    | case1 cs =>
      cases h
      exact ⟨cs, rfl, rfl⟩
    -- The text is too short.
    | case2 => simp at h
    -- The first character fits.
    | case3 n c cs hle ih =>
      obtain ⟨taken, htaken, rfl⟩ := Option.map_eq_some_iff.mp h
      obtain ⟨rest, rfl, hsize⟩ := ih htaken
      refine ⟨rest, rfl, ?_⟩
      rw [byteCount_cons, hsize]
      omega
    -- The first character has too many bytes.
    | case4 => simp at h
  · rintro ⟨rest, rfl, rfl⟩
    exact takeBytes?_append before rest

/-- A text splits in one way after a number of bytes. -/
theorem eq_of_append_eq_append {as bs cs ds : List Char} (h : as ++ bs = cs ++ ds)
    (hsize : byteCount as = byteCount cs) : as = cs ∧ bs = ds := by
  -- Both passes can read the text as either split, and answer once.
  have htake := takeBytes?_append as bs
  have hdrop := dropBytes?_append as bs
  rw [h, hsize] at htake hdrop
  rw [takeBytes?_append] at htake
  rw [dropBytes?_append] at hdrop
  exact ⟨(Option.some.inj htake).symm, (Option.some.inj hdrop).symm⟩

/-- Of two splits of a text the one after fewer bytes comes first: the other
goes on from it. -/
theorem exists_middle {as bs cs ds : List Char} (h : as ++ bs = cs ++ ds)
    (hle : byteCount as ≤ byteCount cs) : ∃ middle, cs = as ++ middle ∧ bs = middle ++ ds := by
  rcases List.append_eq_append_iff.mp h with ⟨middle, hcs, hbs⟩ | ⟨extra, has, hds⟩
  · exact ⟨middle, hcs, hbs⟩
  · -- The first split is not the longer one, so what it has more is empty.
    have hextra : extra = [] := by
      rw [has, byteCount_append] at hle
      rw [← byteCount_eq_zero_iff]
      omega
    subst hextra
    exact ⟨[], by simpa using has.symm, by simpa using hds.symm⟩

/-- The slice between two offsets is the text between the splits there. -/
theorem slice?_eq_some_iff {cs middle : List Char} {start stop : Nat} :
    slice? cs start stop = some middle ↔
      ∃ before after, cs = before ++ (middle ++ after) ∧ byteCount before = start ∧
        start + byteCount middle = stop := by
  unfold slice?
  constructor
  · intro h
    split at h
    · rename_i hle
      obtain ⟨rest, hdrop, htake⟩ := Option.bind_eq_some_iff.mp h
      obtain ⟨before, rfl, hbefore⟩ := dropBytes?_eq_some_iff.mp hdrop
      obtain ⟨after, rfl, hmiddle⟩ := takeBytes?_eq_some_iff.mp htake
      exact ⟨before, after, rfl, hbefore, by omega⟩
    · simp at h
  · rintro ⟨before, after, rfl, rfl, rfl⟩
    rw [if_pos (by omega), dropBytes?_append, Option.bind_some, Nat.add_sub_cancel_left,
      takeBytes?_append]

/-- The slice that a middle part fills. -/
theorem slice?_append (before middle after : List Char) :
    slice? (before ++ (middle ++ after)) (byteCount before) (byteCount before + byteCount middle)
      = some middle :=
  slice?_eq_some_iff.mpr ⟨before, after, rfl, rfl, rfl⟩

/-- The bytes of a slice are those between its offsets. -/
theorem byteCount_slice? {cs middle : List Char} {start stop : Nat}
    (h : slice? cs start stop = some middle) : start + byteCount middle = stop := by
  obtain ⟨_, _, _, _, hstop⟩ := slice?_eq_some_iff.mp h
  exact hstop

/-- A character of the content that stands inside a slice is a character of the
slice. -/
theorem mem_of_slice? {before after middle : List Char} {c : Char} {start stop : Nat}
    (h : slice? (before ++ c :: after) start stop = some middle) (hstart : start ≤ byteCount before)
    (hstop : byteCount before < stop) : c ∈ middle := by
  obtain ⟨first, last, hsplit, rfl, rfl⟩ := slice?_eq_some_iff.mp h
  -- What is before the slice ends before the character.
  obtain ⟨skipped, rfl, hrest⟩ := exists_middle hsplit.symm hstart
  rw [byteCount_append] at hstop
  -- What of the slice is before the character is not all of it, so the character follows.
  obtain ⟨kept, rfl, hkept⟩ := exists_middle hrest.symm (by omega)
  cases kept with
  | nil => simp at hstop
  | cons d kept =>
    obtain ⟨rfl, -⟩ := List.cons.inj hkept
    simp

/-- Byte `k` of a text lies between two characters, or at an end of the text. -/
def IsBoundary (content : List Char) (k : Nat) : Prop :=
  ∃ before after, content = before ++ after ∧ byteCount before = k

/-- No boundary lies past the end. -/
theorem IsBoundary.le {content : List Char} {k : Nat} (h : IsBoundary content k) :
    k ≤ byteCount content := by
  obtain ⟨before, after, rfl, rfl⟩ := h
  simp

/-- A slice begins and ends at boundaries. -/
theorem isBoundary_of_slice? {content middle : List Char} {start stop : Nat}
    (h : slice? content start stop = some middle) :
    IsBoundary content start ∧ IsBoundary content stop := by
  obtain ⟨before, after, rfl, rfl, rfl⟩ := slice?_eq_some_iff.mp h
  exact ⟨⟨before, middle ++ after, rfl, rfl⟩, ⟨before ++ middle, after, by simp, by simp⟩⟩

/-- Between two boundaries there is a slice. -/
theorem exists_slice? {content : List Char} {start stop : Nat} (hstart : IsBoundary content start)
    (hstop : IsBoundary content stop) (hle : start ≤ stop) :
    ∃ middle, slice? content start stop = some middle := by
  obtain ⟨before, rest, rfl, rfl⟩ := hstart
  obtain ⟨upto, after, hsplit, rfl⟩ := hstop
  obtain ⟨middle, rfl, rfl⟩ := exists_middle hsplit hle
  exact ⟨middle, slice?_eq_some_iff.mpr ⟨before, after, rfl, rfl, by simp⟩⟩

end TagTemplate.Proofs.Text
