import Mathlib.Data.Set.Basic
import TagTemplate.Proofs.Layout.Cover

/-!
# `TagTemplate.Proofs.Layout.Merge`: joining spans

`Layout.mergeOverlaps` joins the spans of a list, sorted by their starts, where
they overlap. What comes out starts and stops where some of the spans do, contains
each of them, covers the same places, and is in order and apart from each other.
`Merges` collects these facts and `merges_mergeOverlaps` proves them; each is an
induction on the spans with the span joined so far generalized.
-/

set_option autoImplicit false

namespace TagTemplate.Proofs.Layout

open TagTemplate.Layout
open TagTemplate.Proofs.Support TagTemplate.Proofs.Template

/-- The places that some of the spans cover. -/
def covered (spans : List Span) : Set Nat :=
  {k | ∃ span ∈ spans, span.start ≤ k ∧ k < span.stop}

/-- A joined span starts where one of the spans starts, and contains that one. -/
theorem exists_start_of_mem_mergeFrom {last m : Span} {spans : List Span}
    (h : m ∈ mergeFrom last spans) :
    ∃ span ∈ last :: spans, span.start = m.start ∧ span.stop ≤ m.stop := by
  induction spans generalizing last with
  | nil =>
    obtain rfl := List.mem_singleton.mp h
    exact ⟨m, List.mem_cons_self, rfl, Nat.le_refl _⟩
  | cons span spans ih =>
    rw [mergeFrom] at h
    split at h
    · obtain ⟨other, hother, hstart, hstop⟩ := ih h
      rcases List.mem_cons.mp hother with rfl | hother
      · exact ⟨last, List.mem_cons_self, hstart, Nat.le_trans (Nat.le_max_left _ _) hstop⟩
      · exact ⟨other, by simp [hother], hstart, hstop⟩
    · rcases List.mem_cons.mp h with rfl | h
      · exact ⟨m, List.mem_cons_self, rfl, Nat.le_refl _⟩
      · obtain ⟨other, hother, hstart⟩ := ih h
        exact ⟨other, List.mem_cons_of_mem _ hother, hstart⟩

/-- A joined span stops where one of the spans stops. -/
theorem exists_stop_of_mem_mergeFrom {last m : Span} {spans : List Span}
    (h : m ∈ mergeFrom last spans) : ∃ span ∈ last :: spans, span.stop = m.stop := by
  induction spans generalizing last with
  | nil =>
    obtain rfl := List.mem_singleton.mp h
    exact ⟨m, List.mem_cons_self, rfl⟩
  | cons span spans ih =>
    rw [mergeFrom] at h
    split at h
    · obtain ⟨other, hother, hstop⟩ := ih h
      rcases List.mem_cons.mp hother with rfl | hother
      · -- The join of two spans stops where the longer one does.
        rcases Nat.le_total last.stop span.stop with hle | hle
        · exact ⟨span, by simp, by rw [← hstop, Nat.max_eq_right hle]⟩
        · exact ⟨last, by simp, by rw [← hstop, Nat.max_eq_left hle]⟩
      · exact ⟨other, by simp [hother], hstop⟩
    · rcases List.mem_cons.mp h with rfl | h
      · exact ⟨m, List.mem_cons_self, rfl⟩
      · obtain ⟨other, hother, hstop⟩ := ih h
        exact ⟨other, List.mem_cons_of_mem _ hother, hstop⟩

/-- Spans in order stay so when the first two of them are joined. -/
theorem pairwise_join {last next : Span} {spans : List Span}
    (h : (last :: next :: spans).Pairwise fun a b => a.start ≤ b.start) (stop : Nat) :
    (⟨last.start, stop⟩ :: spans : List Span).Pairwise fun a b => a.start ≤ b.start := by
  simp only [List.pairwise_cons] at h ⊢
  exact ⟨fun span hspan => h.1 span (List.mem_cons_of_mem _ hspan), h.2.2⟩

/-- Each of the spans lies within a joined span. -/
theorem exists_within_mergeFrom {last span : Span} {spans : List Span}
    (hsorted : (last :: spans).Pairwise fun a b => a.start ≤ b.start)
    (h : span ∈ last :: spans) : ∃ m ∈ mergeFrom last spans, Within span m := by
  induction spans generalizing last span with
  | nil =>
    obtain rfl := List.mem_singleton.mp h
    exact ⟨span, List.mem_cons_self, Nat.le_refl _, Nat.le_refl _⟩
  | cons next spans ih =>
    obtain ⟨hlast, hspans⟩ := List.pairwise_cons.mp hsorted
    rw [mergeFrom]
    split
    · -- The first two spans lie within their join, which is the head of the rest.
      have hjoin : Within span ⟨last.start, max last.stop next.stop⟩ ∨ span ∈ spans := by
        rcases List.mem_cons.mp h with rfl | h
        · exact Or.inl ⟨Nat.le_refl _, Nat.le_max_left _ _⟩
        · rcases List.mem_cons.mp h with rfl | h
          · exact Or.inl ⟨hlast span List.mem_cons_self, Nat.le_max_right _ _⟩
          · exact Or.inr h
      rcases hjoin with hjoin | hmem
      · obtain ⟨m, hm, hwithin⟩ := ih (pairwise_join hsorted _) List.mem_cons_self
        exact ⟨m, hm, hjoin.trans hwithin⟩
      · exact ih (pairwise_join hsorted _) (List.mem_cons_of_mem _ hmem)
    · rcases List.mem_cons.mp h with rfl | h
      · exact ⟨span, List.mem_cons_self, Nat.le_refl _, Nat.le_refl _⟩
      · obtain ⟨m, hm, hwithin⟩ := ih hspans h
        exact ⟨m, List.mem_cons_of_mem _ hm, hwithin⟩

/-- Joined spans are in order and apart from each other. -/
theorem pairwise_mergeFrom {last : Span} {spans : List Span}
    (hsorted : (last :: spans).Pairwise fun a b => a.start ≤ b.start) :
    (mergeFrom last spans).Pairwise fun a b => a.stop ≤ b.start := by
  induction spans generalizing last with
  | nil => exact List.pairwise_singleton _ _
  | cons next spans ih =>
    rw [mergeFrom]
    split
    · exact ih (pairwise_join hsorted _)
    · rename_i hapart
      have hspans := (List.pairwise_cons.mp hsorted).2
      refine List.pairwise_cons.mpr ⟨fun m hm => ?_, ih hspans⟩
      -- What is joined from the later spans on starts with one of them.
      obtain ⟨span, hspan, hstart, -⟩ := exists_start_of_mem_mergeFrom hm
      have hle : next.start ≤ span.start := by
        rcases List.mem_cons.mp hspan with rfl | hspan
        · exact Nat.le_refl _
        · exact (List.pairwise_cons.mp hspans).1 span hspan
      omega

/-- Joined spans cover nothing that the spans do not. -/
theorem covered_mergeFrom_subset {last : Span} {spans : List Span} :
    covered (mergeFrom last spans) ⊆ covered (last :: spans) := by
  induction spans generalizing last with
  | nil => exact fun k hk => hk
  | cons next spans ih =>
    rw [mergeFrom]
    split
    · rintro k hk
      obtain ⟨span, hspan, hstart, hstop⟩ := ih hk
      rcases List.mem_cons.mp hspan with rfl | hspan
      · -- The join has no more than the two, for they overlap.
        simp only at hstart hstop
        by_cases hlast : k < last.stop
        · exact ⟨last, by simp, hstart, hlast⟩
        · exact ⟨next, by simp, by omega, by omega⟩
      · exact ⟨span, by simp [hspan], hstart, hstop⟩
    · rintro k ⟨m, hm, hstart, hstop⟩
      rcases List.mem_cons.mp hm with rfl | hm
      · exact ⟨m, List.mem_cons_self, hstart, hstop⟩
      · obtain ⟨span, hspan, hin⟩ := ih ⟨m, hm, hstart, hstop⟩
        exact ⟨span, List.mem_cons_of_mem _ hspan, hin⟩

/-- Spans joined where they overlap. -/
structure Merges (spans merged : List Span) : Prop where
  start : ∀ m ∈ merged, ∃ span ∈ spans, span.start = m.start ∧ span.stop ≤ m.stop
  stop : ∀ m ∈ merged, ∃ span ∈ spans, span.stop = m.stop
  within : ∀ span ∈ spans, ∃ m ∈ merged, Within span m
  covered : covered merged = covered spans
  pairwise : merged.Pairwise fun a b => a.stop ≤ b.start

/-- Sorting spans by their starts and joining the neighbours joins all spans that
overlap. -/
theorem merges_mergeOverlaps (spans : List Span) :
    Merges spans (mergeOverlaps (spans.mergeSort fun a b => a.start ≤ b.start)) := by
  have hperm := List.mergeSort_perm spans fun a b => a.start ≤ b.start
  have hsorted := pairwise_mergeSort_le Span.start spans
  -- Sorting keeps the spans, and from here on only their order and membership matter.
  have hmem : ∀ {span}, span ∈ spans.mergeSort (fun a b => a.start ≤ b.start) ↔ span ∈ spans :=
    hperm.mem_iff
  generalize spans.mergeSort (fun a b => a.start ≤ b.start) = sorted at hsorted hmem
  cases sorted with
  | nil =>
    obtain rfl : spans = [] :=
      List.eq_nil_iff_forall_not_mem.mpr fun span hspan => List.not_mem_nil (hmem.mpr hspan)
    exact ⟨by simp [mergeOverlaps], by simp [mergeOverlaps], by simp, rfl, List.Pairwise.nil⟩
  | cons first rest =>
    have hwithin : ∀ span ∈ spans, ∃ m ∈ mergeFrom first rest, Within span m := fun span hspan =>
      exists_within_mergeFrom hsorted (hmem.mpr hspan)
    refine ⟨fun m hm => ?_, fun m hm => ?_, hwithin, ?_, pairwise_mergeFrom hsorted⟩
    · obtain ⟨span, hspan, hstart⟩ := exists_start_of_mem_mergeFrom hm
      exact ⟨span, hmem.mp hspan, hstart⟩
    · obtain ⟨span, hspan, hstop⟩ := exists_stop_of_mem_mergeFrom hm
      exact ⟨span, hmem.mp hspan, hstop⟩
    · ext k
      constructor
      · intro hk
        obtain ⟨span, hspan, hin⟩ := covered_mergeFrom_subset hk
        exact ⟨span, hmem.mp hspan, hin⟩
      · rintro ⟨span, hspan, hstart, hstop⟩
        obtain ⟨m, hm, hle, hge⟩ := hwithin span hspan
        exact ⟨m, hm, Nat.le_trans hle hstart, Nat.lt_of_lt_of_le hstop hge⟩

end TagTemplate.Proofs.Layout
