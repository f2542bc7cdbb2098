import TagTemplate.Binding.Chain

/-!
# `TagTemplate.Proofs.Formatter.Catalog`: names and the formatters behind them

A name is registered if a formatter of the catalog has it, and it is a reducing name if one
of the reducing formatters has it. No two formatters share a name (`eq_of_name_eq`),
so these properties of a name decide what a call of it does: looking the name up fails
exactly for the unregistered names (`named?_eq_none_iff`), and finds a reducing formatter
exactly for the reducing ones (`reduces_eq`).
-/

set_option autoImplicit false

namespace TagTemplate.Proofs.Formatter

/-- The catalog has a formatter of the name. -/
def isRegistered (name : String) : Bool :=
  Formatter.all.any fun f => f.name == name

/-- The catalog has a reducing formatter of the name. -/
def isReducingName (name : String) : Bool :=
  (Formatter.all.filter Formatter.isReduction).any fun f => f.name == name

/-- No two formatters of the catalog share a name. -/
theorem eq_of_name_eq {f g : Formatter} (hf : f ∈ Formatter.all) (hg : g ∈ Formatter.all)
    (h : f.name = g.name) : f = g := by
  have hall : ∀ f ∈ Formatter.all, ∀ g ∈ Formatter.all, f.name = g.name → f = g := by
    decide +kernel
  exact hall f hf g hg h

/-- What is found under a name is in the catalog and has the name. -/
theorem mem_of_named? {name : String} {f : Formatter} (h : Formatter.named? name = some f) :
    f ∈ Formatter.all ∧ f.name = name :=
  ⟨List.mem_of_find?_eq_some h,
    beq_iff_eq.mp (List.find?_some (p := fun f : Formatter => f.name == name) h)⟩

/-- A formatter of the catalog is found under its name. -/
theorem named?_name {f : Formatter} (hf : f ∈ Formatter.all) :
    Formatter.named? f.name = some f := by
  obtain ⟨g, hg⟩ : ∃ g, Formatter.named? f.name = some g := by
    rw [← Option.isSome_iff_exists, Formatter.named?, List.find?_isSome]
    exact ⟨f, hf, beq_self_eq_true _⟩
  obtain ⟨hmem, hname⟩ := mem_of_named? hg
  rw [hg, eq_of_name_eq hmem hf hname]

/-- Nothing is found under the names that are not registered. -/
theorem named?_eq_none_iff {name : String} :
    Formatter.named? name = none ↔ isRegistered name = false := by
  rw [Formatter.named?, List.find?_eq_none, isRegistered, List.any_eq_false]

/-- A call reduces if its name is a reducing one. -/
theorem reduces_eq (call : Call) : call.reduces = isReducingName call.name := by
  rw [Bool.eq_iff_iff, isReducingName, List.any_eq_true]
  unfold Call.reduces Call.formatter?
  constructor
  · intro h
    split at h
    · next f hf =>
      obtain ⟨hmem, hname⟩ := mem_of_named? hf
      exact ⟨f, List.mem_filter.mpr ⟨hmem, h⟩, beq_iff_eq.mpr hname⟩
    · cases h
  · rintro ⟨f, hf, hname⟩
    obtain ⟨hmem, hreduces⟩ := List.mem_filter.mp hf
    rw [← beq_iff_eq.mp hname, named?_name hmem]
    exact hreduces

/-- A call finds nothing if its name is not registered. -/
theorem formatter?_eq_none_iff {call : Call} :
    call.formatter? = none ↔ isRegistered call.name = false :=
  named?_eq_none_iff

end TagTemplate.Proofs.Formatter
