import Mathlib.Data.List.Forall2
import Mathlib.Data.Option.Basic

/-!
# `TagTemplate.Proofs.Support.Sequences`: order and places in a list

Facts about lists that the passes over a template share. Sorting by an offset
puts spans in order, and of spans in order two that overlap are one. The first,
the last and the only element that meets a condition have one place each, so a
list has one split at them. Elements that occurred before do not count among the
different ones, which `eraseDups` keeps in the order of their first occurrence.
A pass in `Option` that answers everywhere is a map. Steps in `Except` succeed one
after the other (`except_bind_eq_ok`), also where the reasons of a failure are
forgotten (`except_toOption_bind`), and so a pass that succeeds is one element for
element. Lists that match element for element match at each place, where
`Option.Rel` compares what may be absent.

These facts belong to no single pass, so this module sits outside their
directories.
-/

set_option autoImplicit false

namespace TagTemplate.Proofs.Support

/-- Sorting by a number puts a list in the order of the numbers. -/
theorem pairwise_mergeSort_le {α : Type} (place : α → Nat) (xs : List α) :
    (xs.mergeSort fun a b => place a ≤ place b).Pairwise fun a b => place a ≤ place b := by
  have hsorted : (xs.mergeSort fun a b => place a ≤ place b).Pairwise
      fun a b => decide (place a ≤ place b) = true :=
    List.pairwise_mergeSort
      (fun a b c hab hbc => by simp only [decide_eq_true_eq] at hab hbc ⊢; omega)
      (fun a b => by simp only [Bool.or_eq_true, decide_eq_true_eq]; omega) xs
  exact hsorted.imp of_decide_eq_true

/-- Of elements that follow each other without overlap, two that overlap are
one. -/
theorem eq_of_pairwise_apart {α : Type} (start stop : α → Nat) {xs : List α}
    (h : xs.Pairwise fun a b => stop a ≤ start b) {a b : α} (ha : a ∈ xs) (hb : b ∈ xs)
    (hab : start a < stop b) (hba : start b < stop a) : a = b := by
  obtain ⟨before, after, rfl⟩ := List.mem_iff_append.mp ha
  rw [List.pairwise_append, List.pairwise_cons] at h
  obtain ⟨-, ⟨hafter, -⟩, hbefore⟩ := h
  rcases List.mem_append.mp hb with hb | hb
  · have := hbefore b hb a List.mem_cons_self
    omega
  · rcases List.mem_cons.mp hb with rfl | hb
    · rfl
    · have := hafter b hb
      omega

/-- The first of the elements that meet a condition is determined by the list. -/
theorem eq_of_first_eq {α : Type} {p : α → Bool} {xs ys xs' ys' : List α} {y y' : α}
    (h : xs ++ y :: ys = xs' ++ y' :: ys') (hy : p y) (hy' : p y') (hxs : ∀ x ∈ xs, ¬ p x)
    (hxs' : ∀ x ∈ xs', ¬ p x) : xs = xs' ∧ y = y' ∧ ys = ys' := by
  -- Were one beginning longer, it would have the other list's first such element.
  rcases List.append_eq_append_iff.mp h with ⟨more, rfl, hmore⟩ | ⟨more, rfl, hmore⟩
  · cases more with
    | nil => simpa using hmore
    | cons x more =>
      obtain ⟨rfl, -⟩ := List.cons.inj hmore
      exact absurd hy (hxs' y (by simp))
  · cases more with
    | nil => simpa [eq_comm] using hmore
    | cons x more =>
      obtain ⟨rfl, -⟩ := List.cons.inj hmore
      exact absurd hy' (hxs y' (by simp))

/-- The last of the elements that meet a condition is determined by the list. -/
theorem eq_of_last_eq {α : Type} {p : α → Bool} {xs ys xs' ys' : List α} {y y' : α}
    (h : xs ++ y :: ys = xs' ++ y' :: ys') (hy : p y) (hy' : p y') (hys : ∀ x ∈ ys, ¬ p x)
    (hys' : ∀ x ∈ ys', ¬ p x) : xs = xs' ∧ y = y' ∧ ys = ys' := by
  -- The last element is the first one of the list read backwards.
  have hreverse : ys.reverse ++ y :: xs.reverse = ys'.reverse ++ y' :: xs'.reverse := by
    simpa using congrArg List.reverse h
  obtain ⟨hyseq, hyeq, hxseq⟩ := eq_of_first_eq hreverse hy hy'
    (fun x hx => hys x (List.mem_reverse.mp hx)) (fun x hx => hys' x (List.mem_reverse.mp hx))
  exact ⟨List.reverse_inj.mp hxseq, hyeq, List.reverse_inj.mp hyseq⟩

/-- In a list without repetitions an element has one place. -/
theorem eq_of_split_eq {α : Type} [DecidableEq α] {xs ys xs' ys' : List α} {y : α}
    (hnodup : (xs ++ y :: ys).Nodup) (h : xs ++ y :: ys = xs' ++ y :: ys') :
    xs = xs' ∧ ys = ys' := by
  have hnotMem : ∀ {as bs : List α}, (as ++ y :: bs).Nodup → ∀ x ∈ as, ¬ (x == y) = true := by
    intro as bs hnodup x hx heq
    rw [List.nodup_append] at hnodup
    exact hnodup.2.2 x hx y List.mem_cons_self (beq_iff_eq.mp heq)
  obtain ⟨hxs, -, hys⟩ := eq_of_first_eq (p := (· == y)) h (beq_self_eq_true y)
    (beq_self_eq_true y) (hnotMem hnodup) (hnotMem (h ▸ hnodup))
  exact ⟨hxs, hys⟩

/-- Elements that are there before can be left out from among the different ones. -/
theorem eraseDups_append_of_subset {α : Type} [BEq α] [LawfulBEq α] {as bs : List α}
    (h : bs ⊆ as) (cs : List α) : (as ++ bs ++ cs).eraseDups = (as ++ cs).eraseDups := by
  have hnone : bs.removeAll as = [] := by
    simpa [List.removeAll, List.filter_eq_nil_iff] using fun b hb => h hb
  have hsame : cs.removeAll (as ++ bs) = cs.removeAll as := by
    refine List.filter_congr fun c _ => ?_
    by_cases hc : c ∈ bs
    · simp [h hc]
    · simp [hc]
  rw [List.eraseDups_append, List.eraseDups_append, List.eraseDups_append, hnone, hsame,
    List.eraseDups_nil, List.append_nil]

/-- An element that is there before adds no different one. -/
theorem eraseDups_concat_of_mem {α : Type} [BEq α] [LawfulBEq α] {as : List α} {a : α}
    (h : a ∈ as) : (as ++ [a]).eraseDups = as.eraseDups := by
  have hsubset : [a] ⊆ as := List.cons_subset.mpr ⟨h, List.nil_subset as⟩
  simpa only [List.append_nil] using eraseDups_append_of_subset hsubset []

/-- A new element is the last of the different ones. -/
theorem eraseDups_concat_of_notMem {α : Type} [BEq α] [LawfulBEq α] {as : List α} {a : α}
    (h : a ∉ as) : (as ++ [a]).eraseDups = as.eraseDups ++ [a] := by
  have hnew : [a].removeAll as = [a] := by simp [List.removeAll, h]
  rw [List.eraseDups_append, hnew]
  rfl

/-- A pass that never fails maps the list. -/
theorem mapM_eq_some_map {α β : Type} {f : α → Option β} {g : α → β} {xs : List α}
    (h : ∀ x ∈ xs, f x = some (g x)) : xs.mapM f = some (xs.map g) := by
  induction xs with
  | nil => rfl
  | cons x xs ih =>
    rw [List.mapM_cons, h x List.mem_cons_self, ih fun y hy => h y (List.mem_cons_of_mem _ hy)]
    rfl

/-- Names put on the results of a pass that may fail can be taken off again. -/
theorem map_mapM_map {α β γ : Type} {f : α → Option β} (name : α → β → γ) (plain : γ → β)
    (h : ∀ x y, plain (name x y) = y) (xs : List α) :
    (xs.mapM fun x => (f x).map (name x)).map (List.map plain) = xs.mapM f := by
  induction xs with
  | nil => rfl
  | cons x xs ih =>
    rw [List.mapM_cons, List.mapM_cons, ← ih]
    cases f x with
    | none => rfl
    | some y =>
      simp only [Option.map_some, Option.bind_eq_bind, Option.bind_some]
      cases xs.mapM fun x => (f x).map (name x) with
      | none => rfl
      | some zs => exact congrArg (fun y => some (y :: zs.map plain)) (h x y)

/-- Two steps that may fail succeed if the first does and the second does with its result. -/
theorem except_bind_eq_ok {ε α β : Type} {x : Except ε α} {f : α → Except ε β} {b : β} :
    x >>= f = .ok b ↔ ∃ a, x = .ok a ∧ f a = .ok b := by
  cases x <;> simp [bind, Except.bind]

/-- Without their faults, two steps that may fail are two that may have no result. -/
theorem except_toOption_bind {ε α β : Type} {x : Except ε α} {f : α → Except ε β} :
    (x >>= f).toOption = x.toOption.bind fun a => (f a).toOption := by
  cases x <;> rfl

/-- A pass that may fail succeeds if and only if it does for each element. -/
theorem mapM_eq_ok_iff {ε α β : Type} {f : α → Except ε β} {xs : List α} {ys : List β} :
    xs.mapM f = .ok ys ↔ List.Forall₂ (fun x y => f x = .ok y) xs ys := by
  induction xs generalizing ys with
  | nil =>
    rw [List.mapM_nil, List.forall₂_nil_left_iff]
    exact ⟨fun h => (Except.ok.inj h).symm, fun h => congrArg Except.ok h.symm⟩
  | cons x xs ih =>
    rw [List.mapM_cons, List.forall₂_cons_left_iff]
    cases hx : f x with
    | error e => simp [bind, Except.bind]
    | ok y =>
      cases hxs : xs.mapM f with
      | error e => simp [bind, Except.bind, ← ih, hxs]
      | ok rest => simp [bind, Except.bind, pure, Except.pure, ← ih, hxs, eq_comm]

/-- Lists that match element for element match at each place. -/
theorem rel_getElem? {α β : Type} {R : α → β → Prop} {xs : List α} {ys : List β}
    (h : List.Forall₂ R xs ys) (i : Nat) : Option.Rel R xs[i]? ys[i]? := by
  induction h generalizing i with
  | nil => exact .none
  | cons hxy _ ih =>
    cases i with
    | zero => exact .some hxy
    | succ i => exact ih i

/-- Elements that may be absent and match in one way match in another that follows
from it. -/
theorem rel_imp {α β : Type} {R S : α → β → Prop} {x : Option α} {y : Option β}
    (h : Option.Rel R x y) (himp : ∀ a b, x = some a → R a b → S a b) : Option.Rel S x y := by
  cases h with
  | none => exact .none
  | some hab => exact .some (himp _ _ rfl hab)

/-- Steps after elements that match give elements that match if each step does. -/
theorem rel_bind {α β γ δ : Type} {R : α → β → Prop} {S : γ → δ → Prop} {x : Option α}
    {y : Option β} {f : α → Option γ} {g : β → Option δ} (h : Option.Rel R x y)
    (hstep : ∀ a b, R a b → Option.Rel S (f a) (g b)) : Option.Rel S (x.bind f) (y.bind g) := by
  cases h with
  | none => exact .none
  | some hab => exact hstep _ _ hab

/-- An element that is there has a partner. -/
theorem exists_of_rel_some {α β : Type} {R : α → β → Prop} {a : α} {y : Option β}
    (h : Option.Rel R (some a) y) : ∃ b, R a b := by
  cases h with
  | some hab => exact ⟨_, hab⟩

/-- An element of the second of two lists that match has a partner in the first. -/
theorem exists_of_mem_right {α β : Type} {R : α → β → Prop} {xs : List α} {ys : List β}
    (h : List.Forall₂ R xs ys) {y : β} (hy : y ∈ ys) : ∃ x, R x y := by
  induction h with
  | nil => cases hy
  | cons hxy _ ih =>
    rcases List.mem_cons.mp hy with rfl | hy
    · exact ⟨_, hxy⟩
    · exact ih hy

/-- An element of the first of two lists that match has a partner in the second. -/
theorem exists_mem_of_mem_left {α β : Type} {R : α → β → Prop} {xs : List α} {ys : List β}
    (h : List.Forall₂ R xs ys) {x : α} (hx : x ∈ xs) : ∃ y ∈ ys, R x y := by
  induction h with
  | nil => cases hx
  | cons hxy _ ih =>
    rcases List.mem_cons.mp hx with rfl | hx
    · exact ⟨_, List.mem_cons_self, hxy⟩
    · obtain ⟨y, hy, hrel⟩ := ih hx
      exact ⟨y, List.mem_cons_of_mem _ hy, hrel⟩

end TagTemplate.Proofs.Support
