import TagTemplate.Value.Coercion

/-!
# `TagTemplate.Formatter.Parameters`: the parameters of a formatter call

A parameter that is not given is missing.
-/

set_option autoImplicit false

namespace TagTemplate.Formatter

/-- The parameter at a position, counted from zero. -/
def parameter (parameters : List Value) (position : Nat) : Value :=
  parameters.getD position .missing

end TagTemplate.Formatter
