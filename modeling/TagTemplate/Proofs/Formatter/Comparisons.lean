import TagTemplate.Proofs.Binding.FiniteValues

/-!
# `TagTemplate.Proofs.Formatter.Comparisons`: the six comparisons fit together

Loose equality and loose order are two functions, and each of them chooses between
numbers and texts. They choose alike: where one value is present, the values are equal
exactly if they compare as `.eq` (`looselyEqual_eq`). Exchanging the values exchanges the
order (`looseCompare?_swap`), and two present values without a `nan` always compare
(`exists_looseCompare?_eq_some`). What the six formatters answer follows from the one
ordering of the two values.

`coherent_of_tame` is the result. Present values are less, equal or greater, exactly one
of the three; a missing value is equal to a missing one and comes in no order.
-/

set_option autoImplicit false

namespace TagTemplate.Proofs.Formatter

open TagTemplate.Formatter
open TagTemplate.Proofs.Binding

variable {a b : Value}

/-! ### Numbers -/

/-- Exchanging two numbers exchanges their order. -/
theorem compare?_swap (x y : Binary64) : y.compare? x = (x.compare? y).map Ordering.swap := by
  unfold Binary64.compare?
  cases x.position? with
  | none => cases y.position? <;> rfl
  | some p =>
    cases y.position? with
    | none => rfl
    | some q => exact congrArg some Std.OrientedOrd.eq_swap

/-- Finite numbers compare. -/
theorem exists_compare?_eq_some {x y : Binary64} (hx : x.isFinite = true)
    (hy : y.isFinite = true) : ∃ order, x.compare? y = some order := by
  cases x with
  | infinite s => cases hx
  | nan => cases hx
  | finite s rank =>
    cases y with
    | infinite t => cases hy
    | nan => cases hy
    | finite t other => exact ⟨_, rfl⟩

/-! ### Loose equality and loose order -/

/-- Present values compare as numbers if both are numbers, and else by their texts. -/
theorem looseCompare?_of_present (ha : a ≠ .missing) (hb : b ≠ .missing) :
    a.looseCompare? b = match a.toNumber?, b.toNumber? with
      | some x, some y => x.compare? y
      | _, _ => some (compare a.render b.render) := by
  cases a with
  | missing => exact absurd rfl ha
  | _ =>
    cases b with
    | missing => exact absurd rfl hb
    | _ => rfl

/-- Present values are equal as numbers if both are numbers, and else by their texts. -/
theorem looselyEqual_of_present (ha : a ≠ .missing) (hb : b ≠ .missing) :
    a.looselyEqual b = match a.toNumber?, b.toNumber? with
      | some x, some y => x.equals y
      | _, _ => a.render == b.render := by
  cases a with
  | missing => exact absurd rfl ha
  | _ =>
    cases b with
    | missing => exact absurd rfl hb
    | _ => rfl

/-- Nothing comes in no order. -/
theorem looseCompare?_of_missing (h : a = .missing ∨ b = .missing) : a.looseCompare? b = none := by
  rcases h with rfl | rfl
  · rfl
  · cases a <;> rfl

/-- Nothing is equal to nothing only. -/
theorem looselyEqual_of_missing (h : a = .missing ∨ b = .missing) :
    a.looselyEqual b = true ↔ a = .missing ∧ b = .missing := by
  rcases h with rfl | rfl
  · cases b <;> simp [Value.looselyEqual]
  · cases a <;> simp [Value.looselyEqual]

/-- Equality is the order's equality, since both look at numbers for the same values. -/
theorem looselyEqual_eq (ha : a ≠ .missing) (hb : b ≠ .missing) :
    a.looselyEqual b = (a.looseCompare? b == some .eq) := by
  rw [looselyEqual_of_present ha hb, looseCompare?_of_present ha hb]
  split
  · rfl
  · rw [Bool.eq_iff_iff]
    simp only [beq_iff_eq, Option.some.injEq, Std.compare_eq_iff_eq]

/-- Exchanging two values exchanges their order. -/
theorem looseCompare?_swap (a b : Value) :
    b.looseCompare? a = (a.looseCompare? b).map Ordering.swap := by
  by_cases h : a = .missing ∨ b = .missing
  · rw [looseCompare?_of_missing h, looseCompare?_of_missing h.symm]
    rfl
  · rw [not_or] at h
    rw [looseCompare?_of_present h.1 h.2, looseCompare?_of_present h.2 h.1]
    cases a.toNumber? with
    | none => cases b.toNumber? <;> exact congrArg some Std.OrientedOrd.eq_swap
    | some x =>
      cases b.toNumber? with
      | none => exact congrArg some Std.OrientedOrd.eq_swap
      | some y => exact compare?_swap x y

/-- Exchanging two values leaves their equality. -/
theorem looselyEqual_comm (a b : Value) : b.looselyEqual a = a.looselyEqual b := by
  by_cases h : a = .missing ∨ b = .missing
  · rw [Bool.eq_iff_iff, looselyEqual_of_missing h, looselyEqual_of_missing h.symm]
    exact and_comm
  · rw [not_or] at h
    rw [looselyEqual_eq h.1 h.2, looselyEqual_eq h.2 h.1, looseCompare?_swap a b]
    rcases a.looseCompare? b with _ | _ | _ | _ <;> rfl

/-- Present values with finite numbers compare. -/
theorem exists_looseCompare?_eq_some (ha : a ≠ .missing) (hb : b ≠ .missing) (hta : Tame a)
    (htb : Tame b) : ∃ order, a.looseCompare? b = some order := by
  rw [looseCompare?_of_present ha hb]
  split
  · next x y hx hy =>
    exact exists_compare?_eq_some (hta.isFinite_toNumber? hx) (htb.isFinite_toNumber? hy)
  · exact ⟨_, rfl⟩

/-- A value with a finite number is equal to itself. -/
theorem looselyEqual_self (hta : Tame a) : a.looselyEqual a = true := by
  by_cases ha : a = .missing
  · exact (looselyEqual_of_missing (.inl ha)).mpr ⟨ha, ha⟩
  · -- An order that is its own opposite is `.eq`.
    obtain ⟨order, horder⟩ := exists_looseCompare?_eq_some ha ha hta hta
    have hswap := looseCompare?_swap a a
    rw [horder, Option.map_some, Option.some.injEq] at hswap
    rw [looselyEqual_eq ha ha, horder]
    cases order with
    | eq => rfl
    | lt => cases hswap
    | gt => cases hswap

/-! ### The six formatters -/

/-- The formatters that compare the value with a parameter. -/
def comparisons : List Mapping :=
  [.eq, .ne, .gt, .lt, .gte, .lte]

/-- A comparison answers yes. -/
def Holds (f : Mapping) (a b : Value) : Prop :=
  f.apply a [b] = .boolean true

/-- What the six comparisons say of two values, and what loose equality and loose order
have to do with each other. -/
structure Coherent (a b : Value) : Prop where
  looselyEqual_self : a.looselyEqual a = true
  looselyEqual_comm : b.looselyEqual a = a.looselyEqual b
  looseCompare?_swap : b.looseCompare? a = (a.looseCompare? b).map Ordering.swap
  /-- Each comparison answers with a truth value. -/
  answers : ∀ f ∈ comparisons, ∃ answer, f.apply a [b] = .boolean answer
  /-- Of two present values one is less, or they are equal, or one is greater. -/
  exactlyOne : a ≠ .missing → b ≠ .missing →
    Holds .lt a b ∧ ¬ Holds .eq a b ∧ ¬ Holds .gt a b ∨
      ¬ Holds .lt a b ∧ Holds .eq a b ∧ ¬ Holds .gt a b ∨
      ¬ Holds .lt a b ∧ ¬ Holds .eq a b ∧ Holds .gt a b
  gte_iff : a ≠ .missing → b ≠ .missing → (Holds .gte a b ↔ Holds .gt a b ∨ Holds .eq a b)
  lte_iff : a ≠ .missing → b ≠ .missing → (Holds .lte a b ↔ Holds .lt a b ∨ Holds .eq a b)
  ne_iff : Holds .ne a b ↔ ¬ Holds .eq a b
  /-- A missing value comes in no order and is equal to a missing one only. -/
  missing : a = .missing ∨ b = .missing →
    ¬ Holds .gt a b ∧ ¬ Holds .lt a b ∧ ¬ Holds .gte a b ∧ ¬ Holds .lte a b ∧
      (Holds .eq a b ↔ a = .missing ∧ b = .missing)

/-- `eq` holds of loosely equal values. -/
theorem holds_eq_iff : Holds .eq a b ↔ a.looselyEqual b = true :=
  ⟨Value.boolean.inj, congrArg Value.boolean⟩

/-- `ne` holds where `eq` does not. -/
theorem holds_ne_iff : Holds .ne a b ↔ ¬ Holds .eq a b := by
  have hne : Holds .ne a b ↔ (!a.looselyEqual b) = true :=
    ⟨Value.boolean.inj, congrArg Value.boolean⟩
  rw [hne, holds_eq_iff, Bool.not_eq_true', Bool.not_eq_true]

/-- A comparison by order holds of values in an order that it accepts. -/
theorem inOrder_iff (accept : Ordering → Bool) :
    inOrder accept a [b] = .boolean true ↔ (a.looseCompare? b).any accept = true :=
  ⟨Value.boolean.inj, congrArg Value.boolean⟩

/-- The comparisons say of two values what their order is. -/
structure SaysOrder (a b : Value) (order : Ordering) : Prop where
  lt : Holds .lt a b ↔ order.isLT = true
  eq : Holds .eq a b ↔ order.isEq = true
  gt : Holds .gt a b ↔ order.isGT = true
  gte : Holds .gte a b ↔ order.isGE = true
  lte : Holds .lte a b ↔ order.isLE = true

/-- Two present values with finite numbers are in one order, and that is what all
comparisons look at. -/
theorem exists_saysOrder (hpa : a ≠ .missing) (hpb : b ≠ .missing) (ha : Tame a) (hb : Tame b) :
    ∃ order, SaysOrder a b order := by
  obtain ⟨order, horder⟩ := exists_looseCompare?_eq_some hpa hpb ha hb
  have hany : ∀ accept : Ordering → Bool,
      inOrder accept a [b] = .boolean true ↔ accept order = true := by
    intro accept
    rw [inOrder_iff, horder, Option.any_some]
  have heq : Holds .eq a b ↔ order.isEq = true := by
    rw [holds_eq_iff, looselyEqual_eq hpa hpb, horder]
    cases order <;> decide
  exact ⟨order, hany Ordering.isLT, heq, hany Ordering.isGT, hany Ordering.isGE,
    hany Ordering.isLE⟩

/-- No comparison by order holds of a missing value. -/
theorem not_inOrder_of_missing (h : a = .missing ∨ b = .missing) (accept : Ordering → Bool) :
    ¬ inOrder accept a [b] = .boolean true := by
  rw [inOrder_iff, looseCompare?_of_missing h]
  exact Bool.false_ne_true

/-- The six comparisons are coherent on all values whose numbers are finite. -/
theorem coherent_of_tame (a b : Value) (ha : Tame a) (hb : Tame b) : Coherent a b where
  looselyEqual_self := looselyEqual_self ha
  looselyEqual_comm := looselyEqual_comm a b
  looseCompare?_swap := looseCompare?_swap a b
  answers f hf := by
    simp only [comparisons, List.mem_cons, List.not_mem_nil, or_false] at hf
    rcases hf with rfl | rfl | rfl | rfl | rfl | rfl <;> exact ⟨_, rfl⟩
  exactlyOne hpa hpb := by
    obtain ⟨order, h⟩ := exists_saysOrder hpa hpb ha hb
    rw [h.lt, h.eq, h.gt]
    cases order <;> decide
  gte_iff hpa hpb := by
    obtain ⟨order, h⟩ := exists_saysOrder hpa hpb ha hb
    rw [h.gte, h.gt, h.eq]
    cases order <;> decide
  lte_iff hpa hpb := by
    obtain ⟨order, h⟩ := exists_saysOrder hpa hpb ha hb
    rw [h.lte, h.lt, h.eq]
    cases order <;> decide
  ne_iff := holds_ne_iff
  missing h :=
    have hnot := not_inOrder_of_missing h
    ⟨hnot Ordering.isGT, hnot Ordering.isLT, hnot Ordering.isGE, hnot Ordering.isLE,
      holds_eq_iff.trans (looselyEqual_of_missing h)⟩

/-- A number and a text that denotes it in another form, with white space before it. -/
theorem coherent_numberAndText :
    Tame (.number (Binary64.ofNat 10)) ∧ Tame (.text " 1.0e1") ∧
      Coherent (.number (Binary64.ofNat 10)) (.text " 1.0e1") :=
  have hnumber : Tame (.number (Binary64.ofNat 10)) := tame_number.mpr (by decide +kernel)
  have htext : Tame (.text " 1.0e1") := tame_text _
  ⟨hnumber, htext, coherent_of_tame _ _ hnumber htext⟩

/-- The two are equal although their texts differ. -/
example : (Value.number (Binary64.ofNat 10)).looselyEqual (.text " 1.0e1") = true := by
  decide +kernel

end TagTemplate.Proofs.Formatter
