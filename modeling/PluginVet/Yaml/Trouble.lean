/-
# PluginVet.Yaml.Trouble — why a stream cannot be read on

A `Trouble` is the first place where a text leaves the grammar: a problem with its mark, and for most
problems the construct in which it arose, with the mark where that construct began. The wording is in
`Trouble.message`; a mark at the very beginning of the text is not mentioned.
-/

namespace PluginVet.Yaml

/-- A place in a text: characters before it, lines before it, characters before it on its line. -/
structure Mark where
  index : Nat
  line : Nat
  column : Nat
  deriving DecidableEq, Repr

namespace Mark

def start : Mark := ⟨0, 0, 0⟩

/-- The mark at the beginning of a text. -/
def atStart (m : Mark) : Bool := m.line = 0 && m.column = 0

/-- Lines and columns count from one. -/
def describe (m : Mark) : String :=
  "line " ++ toString (m.line + 1) ++ " column " ++ toString (m.column + 1)

/-- The place behind a message, unless it is the beginning of the text. -/
def suffix (m : Mark) : String := if m.atStart then "" else " at " ++ m.describe

end Mark

/-- What is wrong. -/
inductive Problem where
  | controlCharacter
  | expectedFlowSequenceEnd | expectedFlowMappingEnd | expectedKey | expectedDash
  | expectedNode | expectedDocumentStart | undefinedTagHandle
  | duplicateVersion | incompatibleVersion | duplicateTagHandle
  | valueNotAllowed | keyNotAllowed | entryNotAllowed
  | expectedColon | cannotStartToken
  | unexpectedEnd | unexpectedDocumentIndicator | unknownEscape | expectedHex | invalidCodePoint
  | expectedCommentOrBreak | zeroIndentation | tabInIndentation
  | expectedName | expectedTagClose | expectedTagBang | expectedTagUri | expectedTagSpace
  | expectedTagBlank | expectedUriOctet | badLeadingOctet | badTrailingOctet
  | unknownDirective | expectedDirectiveName | nonAlphabetic
  | expectedVersionDot | longVersion | expectedVersion
  | unexpectedColon | tabViolation

def Problem.message : Problem → String
  | .controlCharacter => "control characters are not allowed"
  | .expectedFlowSequenceEnd => "did not find expected ',' or ']'"
  | .expectedFlowMappingEnd => "did not find expected ',' or '\x7d'"
  | .expectedKey => "did not find expected key"
  | .expectedDash => "did not find expected '-' indicator"
  | .expectedNode => "did not find expected node content"
  | .expectedDocumentStart => "did not find expected <document start>"
  | .undefinedTagHandle => "found undefined tag handle"
  | .duplicateVersion => "found duplicate %YAML directive"
  | .incompatibleVersion => "found incompatible YAML document"
  | .duplicateTagHandle => "found duplicate %TAG directive"
  | .valueNotAllowed => "mapping values are not allowed in this context"
  | .keyNotAllowed => "mapping keys are not allowed in this context"
  | .entryNotAllowed => "block sequence entries are not allowed in this context"
  | .expectedColon => "could not find expected ':'"
  | .cannotStartToken => "found character that cannot start any token"
  | .unexpectedEnd => "found unexpected end of stream"
  | .unexpectedDocumentIndicator => "found unexpected document indicator"
  | .unknownEscape => "found unknown escape character"
  | .expectedHex => "did not find expected hexadecimal number"
  | .invalidCodePoint => "found invalid Unicode character escape code"
  | .expectedCommentOrBreak => "did not find expected comment or line break"
  | .zeroIndentation => "found an indentation indicator equal to 0"
  | .tabInIndentation => "found a tab character where an indentation space is expected"
  | .expectedName => "did not find expected alphabetic or numeric character"
  | .expectedTagClose => "did not find the expected '>'"
  | .expectedTagBang => "did not find expected '!'"
  | .expectedTagUri => "did not find expected tag URI"
  | .expectedTagSpace => "did not find expected whitespace or line break"
  | .expectedTagBlank => "did not find expected whitespace"
  | .expectedUriOctet => "did not find URI escaped octet"
  | .badLeadingOctet => "found an incorrect leading UTF-8 octet"
  | .badTrailingOctet => "found an incorrect trailing UTF-8 octet"
  | .unknownDirective => "found unknown directive name"
  | .expectedDirectiveName => "could not find expected directive name"
  | .nonAlphabetic => "found unexpected non-alphabetical character"
  | .expectedVersionDot => "did not find expected digit or '.' character"
  | .longVersion => "found extremely long version number"
  | .expectedVersion => "did not find expected version number"
  | .unexpectedColon => "found unexpected ':'"
  | .tabViolation => "found a tab character that violates indentation"

/-- The construct in which a problem arose. -/
inductive Construct where
  | simpleKey | nextToken | quotedScalar | quotedContent | plainScalar | blockScalar
  | anchor | alias | tag | tagUri | directive | directiveHandle
  | versionDirective | tagDirective | tagDirectiveUri
  | node | blockNode | flowNode | blockCollection | blockMapping | flowSequence | flowMapping

def Construct.message : Construct → String
  | .simpleKey => "while scanning a simple key"
  | .nextToken => "while scanning for the next token"
  | .quotedScalar => "while scanning a quoted scalar"
  | .quotedContent => "while parsing a quoted scalar"
  | .plainScalar => "while scanning a plain scalar"
  | .blockScalar => "while scanning a block scalar"
  | .anchor => "while scanning an anchor"
  | .alias => "while scanning an alias"
  | .tag => "while scanning a tag"
  | .tagUri => "while parsing a tag"
  | .directive => "while scanning a directive"
  | .directiveHandle => "while parsing a directive"
  | .versionDirective => "while scanning a %YAML directive"
  | .tagDirective => "while scanning a %TAG directive"
  | .tagDirectiveUri => "while parsing a %TAG directive"
  | .node => "while parsing a node"
  | .blockNode => "while parsing a block node"
  | .flowNode => "while parsing a flow node"
  | .blockCollection => "while parsing a block collection"
  | .blockMapping => "while parsing a block mapping"
  | .flowSequence => "while parsing a flow sequence"
  | .flowMapping => "while parsing a flow mapping"

/-- **`Trouble`** — the end of what can be read of a stream. -/
inductive Trouble where
  /-- A character that no stream may hold, with the number of bytes before it. -/
  | unreadable (problem : Problem) (offset : Nat)
  /-- The text leaves the grammar. -/
  | malformed (problem : Problem) (mark : Mark) (context : Option (Construct × Mark))
  /-- An alias names no anchor before it. -/
  | unknownAnchor (mark : Mark)

/-- The context is placed where it differs from the problem's own place. -/
def contextSuffix (problem context : Mark) : String :=
  if context.line = problem.line ∧ context.column = problem.column then "" else context.suffix

def Trouble.message : Trouble → String
  | .unreadable problem offset =>
    problem.message ++ if offset = 0 then "" else " at position " ++ toString offset
  | .malformed problem mark none => problem.message ++ mark.suffix
  | .malformed problem mark (some (construct, began)) =>
    problem.message ++ mark.suffix ++ ", " ++ construct.message ++ contextSuffix mark began
  | .unknownAnchor mark => "unknown anchor" ++ mark.suffix

end PluginVet.Yaml
