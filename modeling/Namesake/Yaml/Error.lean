import Namesake.Text.Bytes

/-
  This file defines what can be wrong with a YAML text.

  Key definitions include:
    * `Yaml.Problem`
    * `Yaml.Error`
    * `Yaml.Error.message`
-/

namespace Namesake

namespace Yaml

/- What is wrong with a YAML text. -/
inductive Problem where
  | leadingOctet
  | trailingOctet
  | incompleteOctets
  | octetCount
  | noCharacter
  | lowSurrogate
  | noLowSurrogate
  | incompleteUnit
  | incompletePair
  | controlCharacter
  | noToken
  | noKeyEnd
  | entryNotAllowed
  | keyNotAllowed
  | valueNotAllowed
  | noDirectiveName
  | badDirectiveName
  | unknownDirective
  | noLineEnd
  | noVersionNumber
  | longVersionNumber
  | noVersionDot
  | noAnchorName
  | noBang
  | noTagUri
  | noTagBlank
  | noTagEnd
  | noTagClose
  | noEscapedOctet
  | escapedLeading
  | escapedTrailing
  | zeroIndent
  | tabInIndent
  | tabInPlain
  | documentInQuotes
  | endInQuotes
  | unknownEscape
  | noHexDigit
  | badCodePoint
  | noDocumentStart
  | repeatedVersion
  | wrongVersion
  | repeatedTag
  | undefinedHandle
  | noContent
  | noDash
  | noKey
  | noSequenceEnd
  | noMappingEnd
  | unknownAnchor (name : Bytes)
  | cyclicAnchor (name : Bytes)
  | badBinary
  | badMerge
  | wrongTag (found value wanted : Bytes)
deriving DecidableEq, Repr

namespace Problem

/- The wording of a problem. -/
def text : Problem → Bytes
  | .leadingOctet => utf8 "invalid leading UTF-8 octet"
  | .trailingOctet => utf8 "invalid trailing UTF-8 octet"
  | .incompleteOctets => utf8 "incomplete UTF-8 octet sequence"
  | .octetCount => utf8 "invalid length of a UTF-8 sequence"
  | .noCharacter => utf8 "invalid Unicode character"
  | .lowSurrogate => utf8 "unexpected low surrogate area"
  | .noLowSurrogate => utf8 "expected low surrogate area"
  | .incompleteUnit => utf8 "incomplete UTF-16 character"
  | .incompletePair => utf8 "incomplete UTF-16 surrogate pair"
  | .controlCharacter => utf8 "control characters are not allowed"
  | .noToken => utf8 "found character that cannot start any token"
  | .noKeyEnd => utf8 "could not find expected ':'"
  | .entryNotAllowed =>
      utf8 "block sequence entries are not allowed in this context"
  | .keyNotAllowed =>
      utf8 "mapping keys are not allowed in this context"
  | .valueNotAllowed =>
      utf8 "mapping values are not allowed in this context"
  | .noDirectiveName => utf8 "could not find expected directive name"
  | .badDirectiveName =>
      utf8 "found unexpected non-alphabetical character"
  | .unknownDirective => utf8 "found unknown directive name"
  | .noLineEnd => utf8 "did not find expected comment or line break"
  | .noVersionNumber => utf8 "did not find expected version number"
  | .longVersionNumber => utf8 "found extremely long version number"
  | .noVersionDot =>
      utf8 "did not find expected digit or '.' character"
  | .noAnchorName =>
      utf8 "did not find expected alphabetic or numeric character"
  | .noBang => utf8 "did not find expected '!'"
  | .noTagUri => utf8 "did not find expected tag URI"
  | .noTagBlank => utf8 "did not find expected whitespace"
  | .noTagEnd =>
      utf8 "did not find expected whitespace or line break"
  | .noTagClose => utf8 "did not find the expected '>'"
  | .noEscapedOctet => utf8 "did not find URI escaped octet"
  | .escapedLeading => utf8 "found an incorrect leading UTF-8 octet"
  | .escapedTrailing => utf8 "found an incorrect trailing UTF-8 octet"
  | .zeroIndent => utf8 "found an indentation indicator equal to 0"
  | .tabInIndent =>
      utf8 "found a tab character where an indentation space is expected"
  | .tabInPlain =>
      utf8 "found a tab character that violates indentation"
  | .documentInQuotes => utf8 "found unexpected document indicator"
  | .endInQuotes => utf8 "found unexpected end of stream"
  | .unknownEscape => utf8 "found unknown escape character"
  | .noHexDigit => utf8 "did not find expected hexdecimal number"
  | .badCodePoint => utf8 "found invalid Unicode character escape code"
  | .noDocumentStart => utf8 "did not find expected <document start>"
  | .repeatedVersion => utf8 "found duplicate %YAML directive"
  | .wrongVersion => utf8 "found incompatible YAML document"
  | .repeatedTag => utf8 "found duplicate %TAG directive"
  | .undefinedHandle => utf8 "found undefined tag handle"
  | .noContent => utf8 "did not find expected node content"
  | .noDash => utf8 "did not find expected '-' indicator"
  | .noKey => utf8 "did not find expected key"
  | .noSequenceEnd => utf8 "did not find expected ',' or ']'"
  | .noMappingEnd => utf8 "did not find expected ',' or '\x7d'"
  | .unknownAnchor name =>
      utf8 "unknown anchor '" ++ name ++ utf8 "' referenced"
  | .cyclicAnchor name =>
      utf8 "anchor '" ++ name ++ utf8 "' value contains itself"
  | .badBinary => utf8 "!!binary value contains invalid base64 data"
  | .badMerge =>
      utf8 "map merge requires map or sequence of maps as the value"
  | .wrongTag found value wanted =>
      utf8 "cannot decode " ++ found ++ utf8 " `" ++ value ++
        utf8 "` as a " ++ wanted

end Problem

/- A problem and the line that is shown with it; 0 for none. -/
structure Error where
  problem : Problem
  line : Nat := 0
deriving DecidableEq, Repr

/- The wording of an error. -/
def Error.message
    (e : Error) : Bytes :=
  let place :=
    if e.line = 0 then
      []
    else
      utf8 "line " ++ Bytes.ofNat e.line ++ utf8 ": "
  utf8 "yaml: " ++ place ++ e.problem.text

end Yaml

end Namesake
