/-!
# Tokens of a YAML text

The tokens between which blank space no longer matters: indentation has become
tokens that open and close blocks.
-/

namespace ChangeImpact.Yaml

inductive ScalarStyle where
  | plain
  | singleQuoted
  | doubleQuoted
  | literal
  | folded
deriving DecidableEq, Inhabited

inductive Token where
  | version (major minor : Nat)
  | tagShorthand (handle expansion : String)
  | documentStart
  | documentEnd
  | blockSequenceStart
  | blockMappingStart
  | blockEnd
  | flowSequenceStart
  | flowSequenceEnd
  | flowMappingStart
  | flowMappingEnd
  | blockEntry
  | flowEntry
  | key
  | value
  | alias (name : String)
  | anchor (name : String)
  | tag (handle suffix : String)
  | scalar (style : ScalarStyle) (text : String)
deriving DecidableEq, Inhabited

inductive Fault where
  | controlCharacter
  | unexpectedCharacter
  | tabInIndentation
  | keyWithoutValue
  | misplacedEntry
  | misplacedKey
  | misplacedValue
  | unclosedQuote
  | badEscape
  | badScalarHeader
  | badAnchor
  | badTag
  | badDirective
  | unknownVersion
  | unknownTagHandle
  | unknownAnchor
  | unexpectedToken
  | severalDocuments
deriving DecidableEq, Inhabited

def Fault.message : Fault → String
  | .controlCharacter => "control characters are not allowed"
  | .unexpectedCharacter => "found a character that cannot start any token"
  | .tabInIndentation => "found a tab where indentation is expected"
  | .keyWithoutValue => "could not find the colon behind a key"
  | .misplacedEntry => "sequence entries are not allowed here"
  | .misplacedKey => "mapping keys are not allowed here"
  | .misplacedValue => "mapping values are not allowed here"
  | .unclosedQuote => "a quoted scalar does not end"
  | .badEscape => "found an unknown escape sequence"
  | .badScalarHeader => "found an invalid block scalar header"
  | .badAnchor => "found an invalid anchor"
  | .badTag => "found an invalid tag"
  | .badDirective => "found an invalid directive"
  | .unknownVersion => "found an incompatible version"
  | .unknownTagHandle => "found an undefined tag handle"
  | .unknownAnchor => "unknown anchor"
  | .unexpectedToken => "did not find the expected node content"
  | .severalDocuments => "more than one document"

end ChangeImpact.Yaml
