import Namesake.Scanner.Comment
import Namesake.Scanner.Literal
import Namesake.Scanner.Number

/-
  This file defines how a text splits into tokens.  Every
  token comes with the faults found while reading it, up to
  and including the glyph that follows it, and a line end
  after a token that can end a statement implies a semicolon.

  Key definitions include:
    * `Scanner.State`
    * `Scanner.Lexed`
    * `Scanner.operator?`
    * `Scanner.step`
    * `Scanner.tokens`
-/

namespace Namesake

namespace Scanner

------------------------------------------------------------
-- States
------------------------------------------------------------

/-
  A token with the offset behind it and with what was found
  while reading it.
-/
structure Lexed where
  token : Token
  stop : Nat
  faults : List Fault
  mark : Option LineMark := none
deriving DecidableEq, Repr

/-
  The state between two tokens: the place in the text,
  whether a line end implies a semicolon, and the offset of a
  semicolon that a line end inside a comment implied.
-/
structure State where
  cursor : Cursor
  implies : Bool
  pending : Option Nat
deriving DecidableEq, Repr

------------------------------------------------------------
-- Character Classes
------------------------------------------------------------

/- A glyph that can start a name. -/
def isNameStart
    (n : Nat) : Bool :=
  n == 0x5f || isLetter n

/- A glyph that can continue a name. -/
def isNamePart
    (n : Nat) : Bool :=
  isNameStart n || isDigit n

/- Blanks between tokens; a line end counts unless it implies a semicolon. -/
def isBlank
    (implies : Bool)
    (n : Nat) : Bool :=
  n == 0x20 || n == 0x09 || n == 0x0d || (n == 0x0a && !implies)

------------------------------------------------------------
-- Operators
------------------------------------------------------------

/- The operators and delimiters, longer ones first. -/
def operators : List TokenKind :=
  [
    .shlAssign, .shrAssign, .andNotAssign, .ellipsis,
    .shl, .shr, .andNot, .addAssign, .subAssign, .mulAssign,
    .quoAssign, .remAssign, .andAssign, .orAssign, .xorAssign,
    .logicalAnd, .logicalOr, .arrow, .increment, .decrement,
    .equal, .notEqual, .lessEqual, .greaterEqual, .define,
    .add, .sub, .mul, .quo, .rem, .and, .or, .xor, .less,
    .greater, .assign, .negation, .leftParen, .leftBracket,
    .leftBrace, .comma, .period, .rightParen, .rightBracket,
    .rightBrace, .semicolon, .colon, .tilde
  ]

/- The longest operator at the beginning of a text. -/
def operator?
    (s : Bytes) : Option TokenKind :=
  operators.find? fun k => s.startsWith (utf8 k.spelling)

------------------------------------------------------------
-- One Token
------------------------------------------------------------

/- The bytes between two places. -/
def between
    (c d : Cursor) : Bytes :=
  c.rest.take (d.offset - c.offset)

/- A scanned token, the faults and the place behind it. -/
structure Piece where
  kind : TokenKind
  text : Bytes
  faults : List Fault
  cursor : Cursor

/- A name or a reserved word. -/
def word
    (c : Cursor) : Piece :=
  let r := c.skipWhile isNamePart
  let text := between c r.1
  { kind := .ofWord text, text := text, faults := r.2, cursor := r.1 }

/- A number. -/
def number
    (c : Cursor) : Piece :=
  let r := Number.scan c
  { kind := r.1
    text := between c r.2.1
    faults := r.2.2
    cursor := r.2.1 }

/- A string literal. -/
def string
    (c : Cursor) : Piece :=
  let d := c.skip 1
  let r := Literal.stringTail c.offset d
  { kind := .string
    text := between c r.1
    faults := d.arrive ++ r.2
    cursor := r.1 }

/- A raw string literal; its text has no carriage returns. -/
def rawString
    (c : Cursor) : Piece :=
  let d := c.skip 1
  let r := Literal.rawTail c.offset d
  { kind := .string
    text := Literal.withoutReturns (between c r.1)
    faults := d.arrive ++ r.2
    cursor := r.1 }

/- A character literal. -/
def character
    (c : Cursor) : Piece :=
  let d := c.skip 1
  let r := Literal.charTail c.offset 0 true d
  { kind := .char
    text := between c r.1
    faults := d.arrive ++ r.2
    cursor := r.1 }

/- A comment with its raw text. -/
def comment
    (c : Cursor) : Piece :=
  let d := c.skip 2
  let r :=
    if c.rest.startsWith [0x2f, 0x2a] then
      Comment.blockTail c.offset d
    else
      d.skipWhile (· ≠ 0x0a)
  { kind := .comment
    text := between c r.1
    faults := d.arrive ++ r.2
    cursor := r.1 }

/- An operator or delimiter. -/
def operator
    (kind : TokenKind)
    (c : Cursor) : Piece :=
  let d := c.skip (utf8 kind.spelling).length
  { kind := kind
    text := if kind = .semicolon then [0x3b] else []
    faults := d.arrive
    cursor := d }

/- A glyph that starts no token. -/
def stray
    (c : Cursor)
    (code : Nat) : Piece :=
  let wrong : List Fault :=
    if code = 0xfeff then []
    else if code = 0x201c || code = 0x201d then
      [⟨c.offset, .curlyQuote code⟩]
    else
      [⟨c.offset, .illegal code⟩]
  { kind := .illegal
    text := Utf8.encode code
    faults := c.next.arrive ++ wrong
    cursor := c.next }

/- Does a text start with a comment? -/
def startsComment
    (s : Bytes) : Bool :=
  s.startsWith [0x2f, 0x2f] || s.startsWith [0x2f, 0x2a]

/- Does a text start with a number? -/
def startsNumber : Bytes → Bool
  | [] => false
  | [b] => isAsciiDigit b.toNat
  | b :: b' :: _ =>
      isAsciiDigit b.toNat || (b == 0x2e && isAsciiDigit b'.toNat)

/- Read the token at a place that is not blank. -/
def piece
    (c : Cursor)
    (code : Nat) : Piece :=
  if isNameStart code then word c
  else if startsNumber c.rest then number c
  else if code = 0x22 then string c
  else if code = 0x27 then character c
  else if code = 0x60 then rawString c
  else if startsComment c.rest then comment c
  else
    match operator? c.rest with
    | some kind => operator kind c
    | none => stray c code

/- The offset of the first line end in a block comment. -/
def lineEnd?
    (offset : Nat)
    (raw : Bytes) : Option Nat :=
  if raw.startsWith [0x2f, 0x2a] && raw.contains 0x0a then
    some (offset + raw.findIdx (· == 0x0a))
  else
    none

/- The token and the state that follow a piece. -/
def afterPiece
    (implies : Bool)
    (c : Cursor)
    (p : Piece) : Lexed × State :=
  if p.kind = .comment then
    let mark := Comment.lineMark c p.text p.cursor
    let lexed : Lexed :=
      { token := ⟨.comment, c.offset, Comment.text p.text⟩
        stop := p.cursor.offset
        faults := p.faults ++ mark.2
        mark := mark.1 }
    match lineEnd? c.offset p.text with
    | some n =>
        if implies then
          (lexed, ⟨p.cursor, false, some n⟩)
        else
          (lexed, ⟨p.cursor, implies, none⟩)
    | none => (lexed, ⟨p.cursor, implies, none⟩)
  else
    let ends :=
      if p.kind = .illegal then implies else p.kind.endsStatement
    ({ token := ⟨p.kind, c.offset, p.text⟩
       stop := p.cursor.offset
       faults := p.faults },
      ⟨p.cursor, ends, none⟩)

/- A semicolon that a line end implies. -/
def implied
    (offset : Nat)
    (faults : List Fault) : Lexed :=
  { token := ⟨.semicolon, offset, [0x0a]⟩
    stop := offset
    faults := faults }

/- Read the next token. -/
def step
    (s : State) : Lexed × State :=
  match s.pending with
  | some n =>
      (implied n [], { s with pending := none })
  | none =>
      let r := s.cursor.skipWhile (isBlank s.implies)
      let c := r.1
      match c.code? with
      | none =>
          if s.implies then
            (implied c.offset r.2, ⟨c, false, none⟩)
          else
            ({ token := ⟨.eof, c.offset, []⟩
               stop := c.offset
               faults := r.2 },
              ⟨c, false, none⟩)
      | some code =>
          if code = 0x0a then
            (implied c.offset (r.2 ++ c.next.arrive),
              ⟨c.next, false, none⟩)
          else
            let next := afterPiece s.implies c (piece c code)
            ({ next.1 with faults := r.2 ++ next.1.faults }, next.2)

------------------------------------------------------------
-- All Tokens
------------------------------------------------------------

/- The weight of a state, which every token lowers. -/
def State.weight
    (s : State) : Nat :=
  2 * s.cursor.rest.length + (if s.implies then 1 else 0) +
    (if s.pending.isSome then 2 else 0)

/-
  The tokens from a state on, ending with the end of the
  text.  Reading always makes progress, so the guard on the
  weight never cuts the list short.
-/
def tokensFrom
    (s : State) : List Lexed :=
  let r := step s
  if r.1.token.kind = .eof then
    [r.1]
  else if _h : r.2.weight < s.weight then
    r.1 :: tokensFrom r.2
  else
    [r.1]
termination_by s.weight

/-
  The state before the first token.  A byte order mark at the
  very beginning does not count.
-/
def start
    (src : Bytes) : State × List Fault :=
  let c := Cursor.ofText src
  if c.code? = some 0xfeff then
    (⟨c.next, false, none⟩, c.arrive ++ c.next.arrive)
  else
    (⟨c, false, none⟩, c.arrive)

/- All tokens of a text, comments included. -/
def tokens
    (src : Bytes) : List Lexed :=
  let s := start src
  match tokensFrom s.1 with
  | [] => []
  | t :: ts => { t with faults := s.2 ++ t.faults } :: ts

end Scanner

end Namesake
