import TagTemplate.Formatter.Parameters
import TagTemplate.Value.Comparison

/-!
# `TagTemplate.Formatter.Comparison`: comparisons and conditions

Six comparisons with the first parameter, which answer a truth value, and two
conditions, which answer one of their operands unchanged.
-/

set_option autoImplicit false

namespace TagTemplate.Formatter

/-- `eq(other)`: the values are loosely equal. -/
def eq (value : Value) (parameters : List Value) : Value :=
  .boolean (value.looselyEqual (parameter parameters 0))

/-- `ne(other)`: the values are not loosely equal. -/
def ne (value : Value) (parameters : List Value) : Value :=
  .boolean (!value.looselyEqual (parameter parameters 0))

/-- The value stands to the parameter in an accepted order; nothing stands in no
order. -/
def inOrder (accept : Ordering → Bool) (value : Value) (parameters : List Value) : Value :=
  .boolean ((value.looseCompare? (parameter parameters 0)).any accept)

/-- `gt(other)`: the value is greater. -/
def gt : Value → List Value → Value :=
  inOrder Ordering.isGT

/-- `lt(other)`: the value is less. -/
def lt : Value → List Value → Value :=
  inOrder Ordering.isLT

/-- `gte(other)`: the value is not less. -/
def gte : Value → List Value → Value :=
  inOrder Ordering.isGE

/-- `lte(other)`: the value is not greater. -/
def lte : Value → List Value → Value :=
  inOrder Ordering.isLE

/-- `ifTrue(then, else)`: the first parameter for a true value and the second
for a false one. -/
def ifTrue (value : Value) (parameters : List Value) : Value :=
  if value.isTruthy then parameter parameters 0 else parameter parameters 1

/-- `ifEmpty(fallback)`: the parameter in place of an empty value. -/
def ifEmpty (value : Value) (parameters : List Value) : Value :=
  if value.isEmpty then parameter parameters 0 else value

end TagTemplate.Formatter
