import Mathlib.Order.Bounds.Basic
import TagTemplate.Layout.LineBlock
import TagTemplate.Proofs.Text.Slice

/-!
# `TagTemplate.Proofs.Layout.Lines`: where lines begin and end

A line begins at the start of a content or just after a line feed
(`IsLineStart`), and ends just after a line feed or at the end of the content
(`IsLineEnd`). `Layout.lineBlock?` widens a span to whole lines. Its two ends
are independent of each other and are named here:

* `lineStartBefore content k`, the greatest line start that is not past `k`
  (`isGreatest_lineStartBefore`);
* `lineEndAfter content k`, the least line end past `k`, or the end of the
  content (`isLeast_lineEndAfter`).

`lineBlock?_eq` says that `lineBlock?` is made of these two. Note the *past*:
from an offset that is a line end already, `lineEndAfter` goes on through one
more line, while `lineStartBefore` stays at a line start
(`lineStartBefore_of_isLineStart`).
-/

set_option autoImplicit false

namespace TagTemplate.Proofs.Layout

open TagTemplate.Text TagTemplate.Layout
open TagTemplate.Proofs.Text

variable {content : List Char} {k : Nat}

/-- A line begins at byte `k`. -/
def IsLineStart (content : List Char) (k : Nat) : Prop :=
  ∃ before after, content = before ++ after ∧ byteCount before = k ∧
    (before = [] ∨ before.getLast? = some '\n')

/-- A line ends at byte `k`, its line feed included. -/
def IsLineEnd (content : List Char) (k : Nat) : Prop :=
  ∃ before after, content = before ++ after ∧ byteCount before = k ∧
    (after = [] ∨ before.getLast? = some '\n')

theorem IsLineStart.isBoundary (h : IsLineStart content k) : IsBoundary content k := by
  obtain ⟨before, after, hsplit, hsize, _⟩ := h
  exact ⟨before, after, hsplit, hsize⟩

theorem IsLineEnd.isBoundary (h : IsLineEnd content k) : IsBoundary content k := by
  obtain ⟨before, after, hsplit, hsize, _⟩ := h
  exact ⟨before, after, hsplit, hsize⟩

/-- The first line begins with the content. -/
theorem isLineStart_zero (content : List Char) : IsLineStart content 0 :=
  ⟨[], content, rfl, rfl, Or.inl rfl⟩

/-- The last line ends with the content. -/
theorem isLineEnd_end (content : List Char) : IsLineEnd content (byteCount content) :=
  ⟨content, [], by simp, rfl, Or.inl rfl⟩

/-- Where a line begins, another has ended, unless it is the first. -/
theorem IsLineStart.isLineEnd (h : IsLineStart content k) (hpos : 0 < k) :
    IsLineEnd content k := by
  obtain ⟨before, after, rfl, rfl, hbefore⟩ := h
  refine ⟨before, after, rfl, rfl, Or.inr (hbefore.resolve_left ?_)⟩
  rintro rfl
  exact Nat.lt_irrefl 0 hpos

/-- Where a line ends, another begins, unless it is the last. -/
theorem IsLineEnd.isLineStart (h : IsLineEnd content k) (hlt : k < byteCount content) :
    IsLineStart content k := by
  obtain ⟨before, after, rfl, rfl, hafter⟩ := h
  refine ⟨before, after, rfl, rfl, Or.inr (hafter.resolve_left ?_)⟩
  rintro rfl
  simp at hlt

/-- The greatest line start that is not past an offset. -/
def lineStartBefore (content : List Char) (k : Nat) : Nat :=
  k - lastLineSize ((takeBytes? k content).getD [])

/-- The least line end past an offset, or the end of the content. -/
def lineEndAfter (content : List Char) (k : Nat) : Nat :=
  k + lineSize ((dropBytes? k content).getD [])

/-- A line ends at or after each place on it. -/
theorem le_lineEndAfter (content : List Char) (k : Nat) : k ≤ lineEndAfter content k :=
  Nat.le_add_right _ _

/-- The line block of a span is made of the two ends. -/
theorem lineBlock?_eq {span : Span} (hstart : IsBoundary content span.start)
    (hstop : IsBoundary content span.stop) :
    lineBlock? content span =
      some ⟨lineStartBefore content span.start, lineEndAfter content span.stop⟩ := by
  obtain ⟨before, rest, hsplit, hbefore⟩ := hstart
  obtain ⟨rest', after, hsplit', hrest'⟩ := hstop
  have htake : takeBytes? span.start content = some before :=
    takeBytes?_eq_some_iff.mpr ⟨rest, hsplit, hbefore⟩
  have hdrop : dropBytes? span.stop content = some after :=
    dropBytes?_eq_some_iff.mpr ⟨rest', hsplit', hrest'⟩
  simp [lineBlock?, lineStartBefore, lineEndAfter, htake, hdrop]

/-- A line has no line feed before its end. -/
theorem lineFeed_notMem_takeWhile (text : List Char) : '\n' ∉ text.takeWhile isInLine := by
  intro hmem
  have hall := List.all_takeWhile (p := isInLine) (l := text)
  have := List.all_eq_true.mp hall _ hmem
  simp [isInLine] at this

/-- A text that does not end within its first line goes on with a line feed. -/
theorem eq_lineFeed_of_dropWhile {text rest : List Char} {c : Char}
    (h : text.dropWhile isInLine = c :: rest) : c = '\n' := by
  have := List.head?_dropWhile_not isInLine text
  simpa [h, isInLine] using this

/-- The last character of a text is one of its last part, unless that is
empty. -/
theorem mem_of_getLast?_append {first last : List Char} {c : Char} (hne : last ≠ [])
    (h : (first ++ last).getLast? = some c) : c ∈ last := by
  obtain ⟨front, d, rfl⟩ := (List.eq_nil_or_concat last).resolve_left hne
  rw [List.concat_eq_append, ← List.append_assoc, List.getLast?_concat] at h
  simp [Option.some.inj h]

/-- Both sides of the line that ends after byte `k`: it is a line end, and no
line ends between. -/
theorem isLeast_lineEndAfter (h : IsBoundary content k) :
    IsLeast {e | IsLineEnd content e ∧ (k < e ∨ e = byteCount content)}
      (lineEndAfter content k) := by
  obtain ⟨before, after, rfl, rfl⟩ := h
  have hafter : (dropBytes? (byteCount before) (before ++ after)).getD [] = after := by
    rw [dropBytes?_append, Option.getD_some]
  have hsplit := List.takeWhile_append_dropWhile (p := isInLine) (l := after)
  have hfeed := lineFeed_notMem_takeWhile after
  simp only [lineEndAfter, hafter, lineSize]
  generalize after.takeWhile isInLine = line at hsplit hfeed
  cases hrest : after.dropWhile isInLine with
  | nil =>
    -- The line runs to the end of the content.
    rw [hrest, List.append_nil] at hsplit
    subst hsplit
    refine ⟨⟨⟨before ++ line, [], by simp, by simp, Or.inl rfl⟩, Or.inr (by simp)⟩, ?_⟩
    rintro e ⟨⟨upto, rest, heq, rfl, hends⟩, hpast⟩
    rcases hpast with hpast | hpast
    · obtain ⟨middle, rfl, rfl⟩ := exists_middle heq (Nat.le_of_lt hpast)
      rcases hends with rfl | hends
      · simp
      · -- A line that ended sooner would end with a line feed in `line`.
        have hne : middle ≠ [] := by
          rintro rfl
          simp at hpast
        exact absurd (List.mem_append_left rest (mem_of_getLast?_append hne hends)) hfeed
    · simpa using Nat.le_of_eq hpast.symm
  | cons c rest =>
    -- The line ends just after the first line feed.
    obtain rfl := eq_lineFeed_of_dropWhile hrest
    rw [hrest] at hsplit
    subst hsplit
    refine ⟨⟨⟨before ++ line ++ ['\n'], rest, by simp, ?_, Or.inr (by simp)⟩, Or.inl ?_⟩, ?_⟩
    · simp [show '\n'.utf8Size = 1 from rfl]
    · simp
    · rintro e ⟨⟨upto, tail, heq, rfl, hends⟩, hpast⟩
      simp only [List.isEmpty_cons, Bool.false_eq_true, if_false]
      rcases hpast with hpast | hpast
      · obtain ⟨middle, rfl, hmiddle⟩ := exists_middle heq (Nat.le_of_lt hpast)
        rw [byteCount_append] at hpast ⊢
        -- A line that ended within `line` would end with a line feed there.
        by_contra hlt
        obtain ⟨more, rfl, hmore⟩ := exists_middle hmiddle.symm (by omega)
        rcases hends with rfl | hends
        · simp at hmore
        · have hne : middle ≠ [] := by
            rintro rfl
            simp at hpast
          exact hfeed (List.mem_append_left more (mem_of_getLast?_append hne hends))
      · rw [hpast]
        simp [show '\n'.utf8Size = 1 from rfl]

/-- Both sides of the line that begins before byte `k`: it is a line start, and no
line begins between. -/
theorem isGreatest_lineStartBefore (h : IsBoundary content k) :
    IsGreatest {s | IsLineStart content s ∧ s ≤ k} (lineStartBefore content k) := by
  obtain ⟨before, after, rfl, rfl⟩ := h
  have hbefore : (takeBytes? (byteCount before) (before ++ after)).getD [] = before := by
    rw [takeBytes?_append, Option.getD_some]
  simp only [lineStartBefore, hbefore, lastLineSize]
  -- The last line, read backwards, is what comes before the first line feed.
  have hsplit := List.takeWhile_append_dropWhile (p := isInLine) (l := before.reverse)
  have hfeed := lineFeed_notMem_takeWhile before.reverse
  have hrest : ∀ c, (before.reverse.dropWhile isInLine).head? = some c → c = '\n' := by
    intro c hc
    obtain ⟨rest, hcons⟩ := List.head?_eq_some_iff.mp hc
    exact eq_lineFeed_of_dropWhile hcons
  generalize before.reverse.takeWhile isInLine = line at hsplit hfeed
  generalize before.reverse.dropWhile isInLine = rest at hsplit hrest
  obtain rfl : before = rest.reverse ++ line.reverse := by
    rw [← List.reverse_append, hsplit, List.reverse_reverse]
  -- Taking the size of that line away leaves the size of what is before it.
  have hsize : byteCount (rest.reverse ++ line.reverse) - byteCount line
      = byteCount rest.reverse := by
    rw [byteCount_append, byteCount_reverse line]
    omega
  rw [hsize]
  refine ⟨⟨⟨rest.reverse, line.reverse ++ after, by simp, rfl, ?_⟩, by simp⟩, ?_⟩
  · rw [List.getLast?_reverse]
    cases rest with
    | nil => exact Or.inl rfl
    | cons c rest => exact Or.inr (congrArg some (hrest c rfl))
  · rintro s ⟨⟨upto, tail, heq, rfl, hbegins⟩, hle⟩
    -- A line that began within the last line would begin after a line feed there.
    by_contra hlt
    obtain ⟨last, hlast, -⟩ := exists_middle heq.symm hle
    obtain ⟨middle, rfl, hmiddle⟩ := exists_middle hlast (by omega)
    have hne : middle ≠ [] := by
      rintro rfl
      simp at hlt
    have hmem := mem_of_getLast?_append hne (hbegins.resolve_left (by simp [hne]))
    have : '\n' ∈ line.reverse := by
      rw [hmiddle]
      exact List.mem_append_left last hmem
    exact hfeed (List.mem_reverse.mp this)

/-- A line start is the start of its own line. -/
theorem lineStartBefore_of_isLineStart (h : IsLineStart content k) :
    lineStartBefore content k = k := by
  obtain ⟨⟨_, hle⟩, hgreatest⟩ := isGreatest_lineStartBefore h.isBoundary
  exact Nat.le_antisymm hle (hgreatest ⟨h, Nat.le_refl k⟩)

end TagTemplate.Proofs.Layout
