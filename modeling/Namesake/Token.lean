import Namesake.Text.Bytes

/-
  This file defines the token kinds of source files and of
  directive arguments, which share one set of tokens.

  Key definitions include:
    * `TokenKind`
    * `TokenKind.spelling`
    * `TokenKind.keyword?`
    * `TokenKind.precedence`
    * `Token`
-/

namespace Namesake

------------------------------------------------------------
-- Token Kinds
------------------------------------------------------------

/- The kind of a token. -/
inductive TokenKind where
  | illegal
  | eof
  | comment
  | ident
  | int
  | float
  | imag
  | char
  | string
  | add
  | sub
  | mul
  | quo
  | rem
  | and
  | or
  | xor
  | shl
  | shr
  | andNot
  | addAssign
  | subAssign
  | mulAssign
  | quoAssign
  | remAssign
  | andAssign
  | orAssign
  | xorAssign
  | shlAssign
  | shrAssign
  | andNotAssign
  | logicalAnd
  | logicalOr
  | arrow
  | increment
  | decrement
  | equal
  | less
  | greater
  | assign
  | negation
  | notEqual
  | lessEqual
  | greaterEqual
  | define
  | ellipsis
  | leftParen
  | leftBracket
  | leftBrace
  | comma
  | period
  | rightParen
  | rightBracket
  | rightBrace
  | semicolon
  | colon
  | tilde
  | kwBreak
  | kwCase
  | kwChan
  | kwConst
  | kwContinue
  | kwDefault
  | kwDefer
  | kwElse
  | kwFallthrough
  | kwFor
  | kwFunc
  | kwGo
  | kwGoto
  | kwIf
  | kwImport
  | kwInterface
  | kwMap
  | kwPackage
  | kwRange
  | kwReturn
  | kwSelect
  | kwStruct
  | kwSwitch
  | kwType
  | kwVar
deriving DecidableEq, Repr, Inhabited

namespace TokenKind

/- The text that stands for a kind in messages. -/
def spelling : TokenKind → String
  | .illegal => "ILLEGAL"
  | .eof => "EOF"
  | .comment => "COMMENT"
  | .ident => "IDENT"
  | .int => "INT"
  | .float => "FLOAT"
  | .imag => "IMAG"
  | .char => "CHAR"
  | .string => "STRING"
  | .add => "+"
  | .sub => "-"
  | .mul => "*"
  | .quo => "/"
  | .rem => "%"
  | .and => "&"
  | .or => "|"
  | .xor => "^"
  | .shl => "<<"
  | .shr => ">>"
  | .andNot => "&^"
  | .addAssign => "+="
  | .subAssign => "-="
  | .mulAssign => "*="
  | .quoAssign => "/="
  | .remAssign => "%="
  | .andAssign => "&="
  | .orAssign => "|="
  | .xorAssign => "^="
  | .shlAssign => "<<="
  | .shrAssign => ">>="
  | .andNotAssign => "&^="
  | .logicalAnd => "&&"
  | .logicalOr => "||"
  | .arrow => "<-"
  | .increment => "++"
  | .decrement => "--"
  | .equal => "=="
  | .less => "<"
  | .greater => ">"
  | .assign => "="
  | .negation => "!"
  | .notEqual => "!="
  | .lessEqual => "<="
  | .greaterEqual => ">="
  | .define => ":="
  | .ellipsis => "..."
  | .leftParen => "("
  | .leftBracket => "["
  | .leftBrace => "\x7b"
  | .comma => ","
  | .period => "."
  | .rightParen => ")"
  | .rightBracket => "]"
  | .rightBrace => "\x7d"
  | .semicolon => ";"
  | .colon => ":"
  | .tilde => "~"
  | .kwBreak => "break"
  | .kwCase => "case"
  | .kwChan => "chan"
  | .kwConst => "const"
  | .kwContinue => "continue"
  | .kwDefault => "default"
  | .kwDefer => "defer"
  | .kwElse => "else"
  | .kwFallthrough => "fallthrough"
  | .kwFor => "for"
  | .kwFunc => "func"
  | .kwGo => "go"
  | .kwGoto => "goto"
  | .kwIf => "if"
  | .kwImport => "import"
  | .kwInterface => "interface"
  | .kwMap => "map"
  | .kwPackage => "package"
  | .kwRange => "range"
  | .kwReturn => "return"
  | .kwSelect => "select"
  | .kwStruct => "struct"
  | .kwSwitch => "switch"
  | .kwType => "type"
  | .kwVar => "var"

/- The reserved words. -/
def keywords : List TokenKind :=
  [
    .kwBreak,
    .kwCase,
    .kwChan,
    .kwConst,
    .kwContinue,
    .kwDefault,
    .kwDefer,
    .kwElse,
    .kwFallthrough,
    .kwFor,
    .kwFunc,
    .kwGo,
    .kwGoto,
    .kwIf,
    .kwImport,
    .kwInterface,
    .kwMap,
    .kwPackage,
    .kwRange,
    .kwReturn,
    .kwSelect,
    .kwStruct,
    .kwSwitch,
    .kwType,
    .kwVar
  ]

/- Is this an identifier or a literal with a text of its own? -/
def isLiteral : TokenKind → Bool
  | .ident | .int | .float | .imag | .char | .string => true
  | _ => false

/- The kind of a word: a reserved word, or an identifier. -/
def ofWord
    (word : Bytes) : TokenKind :=
  (keywords.find? fun k => utf8 k.spelling == word).getD .ident

/- The binding strength of a binary operator; zero for any other token. -/
def precedence : TokenKind → Nat
  | .logicalOr => 1
  | .logicalAnd => 2
  | .equal | .notEqual | .less | .lessEqual | .greater | .greaterEqual => 3
  | .add | .sub | .or | .xor => 4
  | .mul | .quo | .rem | .shl | .shr | .and | .andNot => 5
  | _ => 0

/- Does a line end after a token of this kind end a statement? -/
def endsStatement : TokenKind → Bool
  | .ident | .int | .float | .imag | .char | .string => true
  | .rightParen | .rightBracket | .rightBrace => true
  | .increment | .decrement => true
  | .kwBreak | .kwContinue | .kwFallthrough | .kwReturn => true
  | _ => false

end TokenKind

------------------------------------------------------------
-- Tokens
------------------------------------------------------------

/-
  A token: its kind, the offset of its first byte and its
  text.  Operators and delimiters have no text of their own;
  a semicolon has the text `;` when written and a line feed
  when implied by a line end.
-/
structure Token where
  kind : TokenKind
  offset : Nat
  text : Bytes
deriving DecidableEq, Repr, Inhabited

namespace Token

/- Is this a semicolon implied by a line end? -/
def isImplied
    (t : Token) : Bool :=
  t.kind == .semicolon && t.text == [0x0a]

/- The number of bytes the token counts for in messages. -/
def width
    (t : Token) : Nat :=
  if t.kind = .eof then
    0
  else if t.text.isEmpty then
    (utf8 t.kind.spelling).length
  else
    t.text.length

end Token

end Namesake
