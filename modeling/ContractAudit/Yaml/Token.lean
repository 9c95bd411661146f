import ContractAudit.Yaml.Cursor

/-!
# YAML tokens

The words of a YAML text. Indentation shows as tokens that open and close block collections, and a
key that needs no mark of its own gets its token in front of it once the colon behind it is found.
-/

namespace ContractAudit.Yaml

/-- How a scalar was written. -/
inductive ScalarStyle where
  | plain
  | quoted
  | block
  deriving DecidableEq, Repr

/-- A word of a YAML text. -/
inductive TokenKind where
  | streamEnd
  | versionDirective (major minor : Nat)
  | tagDirective (handle lead : String)
  | documentStart
  | documentEnd
  | openBlockSequence
  | openBlockMapping
  | closeBlock
  | openFlowSequence
  | closeFlowSequence
  | openFlowMapping
  | closeFlowMapping
  | blockEntry
  | flowEntry
  | key
  | value
  | alias (name : String)
  | anchor (name : String)
  | tag (handle suffix : String)
  | scalar (style : ScalarStyle) (text : String)
  deriving DecidableEq, Repr

/-- A word and its extent. -/
structure Token where
  kind : TokenKind
  start : Mark
  stop : Mark
  deriving Repr

/-- What makes a text no YAML stream. -/
inductive Problem where
  | forbiddenCharacter
  | noToken
  | missingColon
  | misplacedEntry
  | misplacedKey
  | misplacedValue
  | badDirective
  | badAnchor
  | badTag
  | badUri
  | badBlockHeader
  | tabInIndentation
  | unclosedQuote
  | markerInQuote
  | badEscape
  | badFlowColon
  | missingContent
  | missingEntry
  | missingKey
  | missingSeparator
  | missingDocumentStart
  | repeatedDirective
  | foreignVersion
  | unknownHandle
  deriving DecidableEq, Repr

/-- A problem and where it was found. -/
structure SyntaxError where
  problem : Problem
  mark : Mark
  deriving DecidableEq, Repr

/-- The wording of a problem. -/
def Problem.message : Problem → String
  | .forbiddenCharacter => "control characters are not allowed"
  | .noToken => "found character that cannot start any token"
  | .missingColon => "could not find expected ':'"
  | .misplacedEntry => "block sequence entries are not allowed in this context"
  | .misplacedKey => "mapping keys are not allowed in this context"
  | .misplacedValue => "mapping values are not allowed in this context"
  | .badDirective => "did not find a well-formed directive"
  | .badAnchor => "did not find expected alphabetic or numeric character"
  | .badTag => "did not find expected whitespace or line break"
  | .badUri => "did not find expected tag URI"
  | .badBlockHeader => "did not find expected comment or line break"
  | .tabInIndentation => "found a tab character where an indentation space is expected"
  | .unclosedQuote => "found unexpected end of stream"
  | .markerInQuote => "found unexpected document indicator"
  | .badEscape => "found unknown escape character"
  | .badFlowColon => "found unexpected ':'"
  | .missingContent => "did not find expected node content"
  | .missingEntry => "did not find expected '-' indicator"
  | .missingKey => "did not find expected key"
  | .missingSeparator => "did not find expected ',' or closing bracket"
  | .missingDocumentStart => "did not find expected <document start>"
  | .repeatedDirective => "found duplicate directive"
  | .foreignVersion => "found incompatible YAML document"
  | .unknownHandle => "found undefined tag handle"

/-- A place as people count it, from one. -/
def Mark.text (m : Mark) : String :=
  "line " ++ toString (m.line + 1) ++ " column " ++ toString (m.column + 1)

/-- The wording of a syntax error. -/
def SyntaxError.message (e : SyntaxError) : String := e.problem.message ++ " at " ++ e.mark.text

end ContractAudit.Yaml
