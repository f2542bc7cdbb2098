import TagTemplate.Formatter.Aggregation
import TagTemplate.Formatter.Arithmetic
import TagTemplate.Formatter.Comparison
import TagTemplate.Formatter.Text

/-!
# `TagTemplate.Formatter.Catalog`: the formatters by name

The catalog is fixed: twenty-four formatters that map one value and five that
reduce a list of values. `Formatter.named?` finds one by its name, `apply` maps
a value, and `reduce?` reduces a list. A reducing formatter leaves a single
value as it is.
-/

set_option autoImplicit false

namespace TagTemplate

/-- A formatter that maps one value. -/
inductive Formatter.Mapping where
  | upperCase | lowerCase | ucFirst | trim | substr | replace | print
  | add | sub | mul | div | round | abs | ceil | floor | formatN
  | eq | ne | gt | lt | gte | lte | ifTrue | ifEmpty
  deriving DecidableEq

/-- A formatter that reduces a list of values. -/
inductive Formatter.Reduction where
  | aggSum | aggAvg | aggCount | aggMin | aggMax
  deriving DecidableEq

/-- The kinds of formatters, in the order in which they are listed. -/
inductive Formatter.Category where
  | text | math | comparison | aggregation
  deriving DecidableEq

/-- A formatter of the catalog. -/
inductive Formatter where
  | mapping (f : Formatter.Mapping)
  | reduction (f : Formatter.Reduction)
  deriving DecidableEq

namespace Formatter

/-- The name of a mapping formatter. -/
def Mapping.name : Mapping → String
  | upperCase => "upperCase"
  | lowerCase => "lowerCase"
  | ucFirst => "ucFirst"
  | trim => "trim"
  | substr => "substr"
  | replace => "replace"
  | print => "print"
  | add => "add"
  | sub => "sub"
  | mul => "mul"
  | div => "div"
  | round => "round"
  | abs => "abs"
  | ceil => "ceil"
  | floor => "floor"
  | formatN => "formatN"
  | eq => "eq"
  | ne => "ne"
  | gt => "gt"
  | lt => "lt"
  | gte => "gte"
  | lte => "lte"
  | ifTrue => "ifTrue"
  | ifEmpty => "ifEmpty"

/-- The kind of a mapping formatter. -/
def Mapping.category : Mapping → Category
  | upperCase | lowerCase | ucFirst | trim | substr | replace | print => .text
  | add | sub | mul | div | round | abs | ceil | floor | formatN => .math
  | eq | ne | gt | lt | gte | lte | ifTrue | ifEmpty => .comparison

/-- The value that a mapping formatter gives for a value and its parameters. -/
def Mapping.apply (f : Mapping) (value : Value) (parameters : List Value) : Value :=
  match f with
  | upperCase => Formatter.upperCase value
  | lowerCase => Formatter.lowerCase value
  | ucFirst => Formatter.ucFirst value
  | trim => Formatter.trim value
  | substr => Formatter.substr value parameters
  | replace => Formatter.replace value parameters
  | print => Formatter.print parameters
  | add => Formatter.add value parameters
  | sub => Formatter.sub value parameters
  | mul => Formatter.mul value parameters
  | div => Formatter.div value parameters
  | round => Formatter.round value parameters
  | abs => Formatter.abs value
  | ceil => Formatter.ceil value
  | floor => Formatter.floor value
  | formatN => Formatter.formatN value parameters
  | eq => Formatter.eq value parameters
  | ne => Formatter.ne value parameters
  | gt => Formatter.gt value parameters
  | lt => Formatter.lt value parameters
  | gte => Formatter.gte value parameters
  | lte => Formatter.lte value parameters
  | ifTrue => Formatter.ifTrue value parameters
  | ifEmpty => Formatter.ifEmpty value parameters

/-- The name of a reducing formatter. -/
def Reduction.name : Reduction → String
  | aggSum => "aggSum"
  | aggAvg => "aggAvg"
  | aggCount => "aggCount"
  | aggMin => "aggMin"
  | aggMax => "aggMax"

/-- The value that a reducing formatter gives for a list of values. -/
def Reduction.apply : Reduction → List Value → Value
  | aggSum => Formatter.aggSum
  | aggAvg => Formatter.aggAvg
  | aggCount => Formatter.aggCount
  | aggMin => Formatter.aggMin
  | aggMax => Formatter.aggMax

/-- The name of a kind. -/
def Category.name : Category → String
  | text => "text"
  | math => "math"
  | comparison => "comparison"
  | aggregation => "aggregation"

/-- The name under which a formatter is called. -/
def name : Formatter → String
  | mapping f => f.name
  | reduction f => f.name

/-- The kind of a formatter. -/
def category : Formatter → Category
  | mapping f => f.category
  | reduction _ => .aggregation

/-- The formatter reduces a list. -/
def isReduction : Formatter → Bool
  | mapping _ => false
  | reduction _ => true

/-- The value that a formatter gives for a single value. A reducing formatter
has no meaning there and gives the value itself. -/
def apply : Formatter → Value → List Value → Value
  | mapping f, value, parameters => f.apply value parameters
  | reduction _, value, _ => value

/-- The value that a reducing formatter gives for a list. -/
def reduce? : Formatter → List Value → Option Value
  | mapping _, _ => none
  | reduction f, values => some (f.apply values)

/-- Every formatter, by kind and within a kind by name. -/
def all : List Formatter :=
  [ mapping .lowerCase, mapping .print, mapping .replace, mapping .substr, mapping .trim,
    mapping .ucFirst, mapping .upperCase,
    mapping .abs, mapping .add, mapping .ceil, mapping .div, mapping .floor, mapping .formatN,
    mapping .mul, mapping .round, mapping .sub,
    mapping .eq, mapping .gt, mapping .gte, mapping .ifEmpty, mapping .ifTrue, mapping .lt,
    mapping .lte, mapping .ne,
    reduction .aggAvg, reduction .aggCount, reduction .aggMax, reduction .aggMin,
    reduction .aggSum ]

/-- The formatter of a name. -/
def named? (name : String) : Option Formatter :=
  all.find? fun f => f.name == name

/-- The names of all formatters, in order. -/
def names : List String :=
  (all.map Formatter.name).mergeSort fun a b => a ≤ b

end Formatter

end TagTemplate
