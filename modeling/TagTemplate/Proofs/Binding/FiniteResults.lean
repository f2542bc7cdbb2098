import TagTemplate.Proofs.Template.WellFormed

/-!
# `TagTemplate.Proofs.Binding.FiniteResults`: no infinity and no `nan` comes out

Arithmetic can overflow on the way, in one formatter or between two of them, and a sum
can even be `nan`. None of this is handed on: a formatter of the catalog that is given
values without such numbers gives a value without one, and so does a reducing formatter
for a list of them. The literals of a parsed template are finite as well, so all that it
resolves to is. `finiteResults_parse` states this for the catalog and for all templates
and data.

The count of a list is the one result whose bound is not in the formatter but in the list:
a list that fits a memory has fewer than `2 ^ 64` elements, and then its count is a finite
number as it stands (`aggCount_eq_number`).
-/

set_option autoImplicit false

namespace TagTemplate.Proofs.Binding

open TagTemplate.Formatter
open TagTemplate.Proofs.Binary64 TagTemplate.Proofs.Template

/-- The count of a list that fits a memory is the number of its elements. -/
theorem aggCount_eq_number {values : List Value} (h : values.length < Nat.pow 2 64) :
    aggCount values = .number (Binary64.ofNat values.length) := by
  have hfinite : (Binary64.ofNat values.length).isFinite = true :=
    isFinite_ofNatSigned (Nat.le_of_lt h)
  unfold aggCount Value.ofBinary64
  rw [if_pos hfinite]

/-- The formatter keeps infinities and `nan` out: it gives none for a value and
parameters without them, and none for a list without them. -/
structure KeepsFinite (f : Formatter) : Prop where
  apply : ∀ value parameters, Tame value → (∀ p ∈ parameters, Tame p) →
    Tame (f.apply value parameters)
  reduce : ∀ values result, (∀ v ∈ values, Tame v) → f.reduce? values = some result → Tame result

/-- Every formatter of the catalog keeps infinities and `nan` out. -/
theorem keepsFinite (f : Formatter) : KeepsFinite f := by
  cases f with
  | mapping f => exact ⟨fun _ _ => tame_mapping f, fun _ _ _ h => nomatch h⟩
  | reduction f =>
    refine ⟨fun _ _ hvalue _ => hvalue, fun values result hvalues h => ?_⟩
    obtain rfl := Option.some.inj h
    exact tame_reduction f hvalues

/-- The numbers among resolved values are finite. -/
structure FiniteResults (r : Resolved) : Prop where
  scalar : ∀ id value, (id, value) ∈ r.scalar → Tame value
  perElement : ∀ id values, (id, values) ∈ r.perElement → ∀ value ∈ values, Tame value
  aggregated : ∀ id value, (id, value) ∈ r.aggregated → Tame value

/-- What a parsed template resolves to has finite numbers only, for all data. So has what
any formatter gives for values with finite numbers, and the count of a list is the plain
number of its elements. -/
theorem finiteResults_parse :
    (∀ (t : Template) (data : Json), FiniteResults (t.parse.resolve data)) ∧
      (∀ f : Formatter, KeepsFinite f) ∧
      ∀ values : List Value, values.length < Nat.pow 2 64 →
        aggCount values = .number (Binary64.ofNat values.length) := by
  refine ⟨fun t data => ?_, keepsFinite, fun _ => aggCount_eq_number⟩
  have htidy : Tidy (t.parse.resolve data) :=
    tidy_resolve (fun _ htag => (wellFormed_of_mem_tags htag).tameCalls) data
  exact ⟨fun _ _ h => htidy.scalar.values _ h, fun _ _ h => htidy.perElement.values _ h,
    fun _ _ h => htidy.aggregated.values _ h⟩

/-- A product that overflows is no number, and nothing follows from it. -/
example :
    applyCalls .null [⟨"mul", [.literal (.text "1e308")]⟩, ⟨"sub", [.literal (.text "1e308")]⟩]
      (.text "1e308") = .missing := by
  decide +kernel

end TagTemplate.Proofs.Binding
