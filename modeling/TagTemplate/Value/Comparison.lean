import TagTemplate.Binary64.Order
import TagTemplate.Value.Coercion

/-!
# `TagTemplate.Value.Comparison`: loose equality and order

Two values compare as numbers when both read as numbers, and otherwise by their
texts. Nothing equals only nothing and has no place in the order.
-/

set_option autoImplicit false

namespace TagTemplate.Value

/-- The values are equal as numbers, or else as texts. -/
def looselyEqual : Value → Value → Bool
  | missing, missing => true
  | missing, _ => false
  | _, missing => false
  | a, b =>
    match a.toNumber?, b.toNumber? with
    | some x, some y => x.equals y
    | _, _ => a.render == b.render

/-- How one value compares with another as numbers, or else as texts in the
order of their code points; `none` if one of them is missing. -/
def looseCompare? : Value → Value → Option Ordering
  | missing, _ => none
  | _, missing => none
  | a, b =>
    match a.toNumber?, b.toNumber? with
    | some x, some y => x.compare? y
    | _, _ => some (compare a.render b.render)

end TagTemplate.Value
