/-!
# `TagTemplate.Template.Fault`: why a brace starts no tag

Each way in which a piece of text in braces fails to be a tag has a
constructor, and `Fault.message` says it in words.
-/

set_option autoImplicit false

namespace TagTemplate

/-- The reason why a brace in a template starts no tag. -/
inductive Fault where
  /-- The content ends before the tag does. -/
  | unterminatedTag
  /-- Another brace opens before the tag ends. -/
  | interruptedTag
  | emptyTag
  | emptyPath
  | invalidSegment (piece : String)
  | unclosedIndex (piece : String)
  | unsupportedIndex (index : String)
  | indexOutOfRange (index : String)
  | severalIndices
  | missingParenthesis (call : String)
  | invalidName (name : String)
  | emptyParameter
  | invalidParameter (parameter : String)
  | invalidDynamicParameter (parameter : String)
  | unterminatedParameter (parameter : String)
  | unterminatedString
  | unbalancedOpening
  | unbalancedClosing
  deriving DecidableEq

namespace Fault

/-- The fault in words. -/
def message : Fault → String
  | unterminatedTag => "unterminated tag"
  | interruptedTag => "tag interrupted by '\x7b'"
  | emptyTag => "empty tag"
  | emptyPath => "empty path"
  | invalidSegment piece => "invalid path segment '" ++ piece ++ "'"
  | unclosedIndex piece => "unclosed index in '" ++ piece ++ "'"
  | unsupportedIndex index => "unsupported index '[" ++ index ++ "]'"
  | indexOutOfRange index => "index '" ++ index ++ "' out of range"
  | severalIndices => "path has more than one array index"
  | missingParenthesis call => "formatter '" ++ call ++ "' is missing ')'"
  | invalidName name => "invalid formatter name '" ++ name ++ "'"
  | emptyParameter => "empty formatter parameter"
  | invalidParameter parameter => "invalid formatter parameter '" ++ parameter ++ "'"
  | invalidDynamicParameter parameter => "invalid dynamic parameter '" ++ parameter ++ "'"
  | unterminatedParameter parameter => "unterminated string " ++ parameter
  | unterminatedString => "unterminated string"
  | unbalancedOpening => "unbalanced '('"
  | unbalancedClosing => "unbalanced ')'"

end Fault

end TagTemplate
