import Namesake.Yaml.Property
import Namesake.Yaml.Scalar

/-
  This file defines how a YAML text is cut into tokens.

  A key that is not announced is seen only when the colon
  behind it is read.  Its token is then inserted in front of
  the tokens of the key, which wait in a queue until then.

  Key definitions include:
    * `Yaml.SimpleKey`
    * `Yaml.Scanner`
    * `Yaml.Scanner.fetch`
    * `Yaml.Scanner.fill`
    * `Yaml.Scanner.take`
-/

namespace Namesake

namespace Yaml

------------------------------------------------------------
-- States
------------------------------------------------------------

/-
  A place where a key may start: the number of the token
  there, and whether something else would be an error.
-/
structure SimpleKey where
  possible : Bool := false
  required : Bool := false
  number : Nat := 0
  mark : Mark := {}
deriving Repr

/-
  The state of a scanner: the text ahead, the tokens that wait
  and the number of those taken, the indents of the open
  blocks, and a possible key for each open bracket and one for
  the outside.
-/
structure Scanner where
  cursor : Cursor
  queue : List Token := []
  taken : Nat := 0
  started : Bool := false
  indent : Int := -1
  indents : List Int := []
  keyAllowed : Bool := true
  key : SimpleKey := {}
  outerKeys : List SimpleKey := []

namespace Scanner

/- Is the scanner inside brackets? -/
def inFlow
    (s : Scanner) : Bool :=
  !s.outerKeys.isEmpty

/- The number of the next token. -/
def nextNumber
    (s : Scanner) : Nat :=
  s.taken + s.queue.length

/- Add a token to the queue. -/
def push
    (s : Scanner)
    (shape : Shape)
    (start stop : Mark) : Scanner :=
  { s with queue := s.queue ++ [⟨shape, start, stop⟩] }

/- Insert a token so that it has a given number. -/
def insert
    (s : Scanner)
    (number : Nat)
    (shape : Shape)
    (mark : Mark) : Scanner :=
  let (front, back) := s.queue.splitAt (number - s.taken)
  { s with queue := front ++ [⟨shape, mark, mark⟩] ++ back }

/- Add a token of a number of characters. -/
def indicator
    (s : Scanner)
    (shape : Shape)
    (width : Nat) : Scanner :=
  let c := s.cursor.advance width
  { s.push shape s.cursor.mark c.mark with cursor := c }

------------------------------------------------------------
-- Keys
------------------------------------------------------------

/- A key ends on its line, within 1024 characters. -/
def isStale
    (s : Scanner)
    (k : SimpleKey) : Bool :=
  k.mark.line < s.cursor.mark.line ||
    k.mark.index + 1024 < s.cursor.mark.index

/- Forget a possible key; a required one is missed. -/
def dropKey
    (s : Scanner)
    (k : SimpleKey) : Except Error SimpleKey :=
  if k.possible && k.required then
    s.cursor.fail k.mark .noKeyEnd
  else
    .ok { k with possible := false }

/- Forget the possible key of the current bracket. -/
def removeKey
    (s : Scanner) : Except Error Scanner := do
  let key ← s.dropKey s.key
  .ok { s with key }

/- Note that a key may start here. -/
def saveKey
    (s : Scanner) : Except Error Scanner := do
  if s.keyAllowed then
    let required :=
      !s.inFlow && s.indent == (s.cursor.mark.column : Int)
    let s ← s.removeKey
    .ok
      { s with
        key := ⟨true, required, s.nextNumber, s.cursor.mark⟩ }
  else
    .ok s

/- Forget a key that is stale; tell whether it is possible. -/
def checkKey
    (s : Scanner)
    (k : SimpleKey) : Except Error (Bool × SimpleKey) := do
  if k.possible then
    if s.isStale k then
      let k ← s.dropKey k
      .ok (false, k)
    else
      .ok (true, k)
  else
    .ok (false, k)

------------------------------------------------------------
-- Indents
------------------------------------------------------------

/- Open a block at a column, if it is deeper than the last. -/
def roll
    (s : Scanner)
    (column number : Nat)
    (shape : Shape)
    (mark : Mark) : Scanner :=
  if !s.inFlow && s.indent < (column : Int) then
    { s.insert number shape mark with
      indents := s.indent :: s.indents
      indent := column }
  else
    s

/- Close the blocks that are deeper than a column. -/
def unrollFrom
    (column : Int)
    (mark : Mark) : List Int → Scanner → Scanner
  | [], s => s
  | outer :: rest, s =>
      if column < s.indent then
        unrollFrom column mark rest
          { s.push .blockEnd mark mark with
            indent := outer
            indents := rest }
      else
        s

/- Close the blocks that are deeper than a column. -/
def unroll
    (s : Scanner)
    (column : Int)
    (mark : Mark) : Scanner :=
  if s.inFlow then s else unrollFrom column mark s.indents s

------------------------------------------------------------
-- Space Between Tokens
------------------------------------------------------------

/- Are there only blanks and line ends before a comment? -/
def commentAhead : List Char → Bool
  | [] => false
  | c :: rest =>
      if isBlank c || isBreak c then commentAhead rest else c == '#'

/- Step over blanks and line ends. -/
def skipSpace : (fuel : Nat) → Cursor → Cursor
  | 0, c => c
  | fuel + 1, c =>
      match c.rest with
      | [] => c
      | x :: _ =>
          if isBlank x then
            skipSpace fuel c.skip
          else if isBreak x then
            skipSpace fuel c.skipBreak
          else
            c

/- Step over a comment and those that follow it. -/
def skipComments : (fuel : Nat) → Cursor → Cursor
  | 0, c => c
  | fuel + 1, c =>
      let c := c.skipLine
      if commentAhead c.rest then
        skipComments fuel (skipSpace (c.rest.length + 1) c)
      else
        c

/- Step over a byte order mark at the start of a line. -/
def skipOrderMark
    (c : Cursor) : Cursor :=
  if c.mark.column = 0 && c.at? '\ufeff' then c.skip else c

/-
  Step over the space and the comments before the next token.
  A tab may not stand where a key may start.
-/
def skipToToken : (fuel : Nat) → Scanner → Scanner
  | 0, s => s
  | fuel + 1, s =>
      let tabs := s.inFlow || !s.keyAllowed
      let c := skipOrderMark s.cursor
      let c := c.skipWhile fun x => x == ' ' || (tabs && x == '\t')
      let c := if c.at? '#' then skipComments (c.rest.length + 1) c else c
      if !c.atEnd && endsLine c.rest then
        skipToToken fuel
          { s with
            cursor := c.skipBreak
            keyAllowed := s.keyAllowed || !s.inFlow }
      else
        { s with cursor := c }

/- Step over a comment on the line of the last token. -/
def skipLineComment
    (s : Scanner) : Scanner :=
  let c := s.cursor.skipBlanks
  if c.at? '#' then { s with cursor := c.skipLine } else s

------------------------------------------------------------
-- Tokens
------------------------------------------------------------

/- The end of the text. -/
def fetchEnd
    (s : Scanner) : Except Error Scanner := do
  let m := s.cursor.mark
  let mark :=
    if m.column = 0 then m else { m with column := 0, line := m.line + 1 }
  let s := { s with cursor := { s.cursor with mark } }
  let s ← (s.unroll (-1) mark).removeKey
  .ok { s.push .streamEnd mark mark with keyAllowed := false }

/- A directive. -/
def fetchDirective
    (s : Scanner) : Except Error Scanner := do
  let s ← (s.unroll (-1) s.cursor.mark).removeKey
  let (token, c) ← directive s.cursor
  .ok
    { s with
      cursor := c
      keyAllowed := false
      queue := s.queue ++ [token] }

/- The start or the end of a document. -/
def fetchDocument
    (s : Scanner)
    (shape : Shape) : Except Error Scanner := do
  let s ← (s.unroll (-1) s.cursor.mark).removeKey
  .ok { s.indicator shape 3 with keyAllowed := false }

/- An opening bracket. -/
def fetchOpen
    (s : Scanner)
    (shape : Shape) : Except Error Scanner := do
  let s ← s.saveKey
  .ok
    { s.indicator shape 1 with
      outerKeys := s.key :: s.outerKeys
      key := { number := s.nextNumber, mark := s.cursor.mark }
      keyAllowed := true }

/- A closing bracket. -/
def fetchClose
    (s : Scanner)
    (shape : Shape) : Except Error Scanner := do
  let s ← s.removeKey
  let s := { s.indicator shape 1 with keyAllowed := false }
  match s.outerKeys with
  | [] => .ok s
  | k :: ks => .ok { s with key := k, outerKeys := ks }

/- A comma between brackets. -/
def fetchComma
    (s : Scanner) : Except Error Scanner := do
  let s ← s.removeKey
  .ok { s.indicator .flowEntry 1 with keyAllowed := true }

/- A dash in front of an item. -/
def fetchDash
    (s : Scanner) : Except Error Scanner := do
  let mark := s.cursor.mark
  if !s.inFlow && !s.keyAllowed then
    s.cursor.fail mark .entryNotAllowed
  else
    let s :=
      s.roll mark.column s.nextNumber .blockSequenceStart mark
    let s ← s.removeKey
    .ok { s.indicator .blockEntry 1 with keyAllowed := true }

/- A question mark in front of a key. -/
def fetchQuestion
    (s : Scanner) : Except Error Scanner := do
  let mark := s.cursor.mark
  if !s.inFlow && !s.keyAllowed then
    s.cursor.fail mark .keyNotAllowed
  else
    let s :=
      s.roll mark.column s.nextNumber .blockMappingStart mark
    let s ← s.removeKey
    .ok { s.indicator .key 1 with keyAllowed := !s.inFlow }

/- A colon in front of a value. -/
def fetchColon
    (s : Scanner) : Except Error Scanner := do
  let mark := s.cursor.mark
  let (valid, key) ← s.checkKey s.key
  if valid then
    let s := s.insert key.number .key key.mark
    let s :=
      s.roll key.mark.column key.number .blockMappingStart key.mark
    let s := { s with key := { key with possible := false } }
    .ok { s.indicator .value 1 with keyAllowed := false }
  else
    let s := { s with key }
    if !s.inFlow && !s.keyAllowed then
      s.cursor.fail mark .valueNotAllowed
    else
      let s :=
        s.roll mark.column s.nextNumber .blockMappingStart mark
      .ok { s.indicator .value 1 with keyAllowed := !s.inFlow }

/- A token that may start a key. -/
def fetchContent
    (s : Scanner)
    (read : Cursor → Except Error (Shape × Cursor)) :
    Except Error Scanner := do
  let s ← s.saveKey
  let (shape, c) ← read s.cursor
  .ok
    { s.push shape s.cursor.mark c.mark with
      cursor := c
      keyAllowed := false }

/- A block of lines. -/
def fetchBlock
    (s : Scanner)
    (folded : Bool) : Except Error Scanner := do
  let s ← s.removeKey
  let (value, c) ← blockScalar folded s.indent s.cursor
  let style := if folded then Style.folded else .literal
  .ok
    { s.push (.scalar (encode value) style) s.cursor.mark c.mark with
      cursor := c
      keyAllowed := true }

/- A plain scalar.  The second result is whether a line ended. -/
def fetchPlain
    (s : Scanner) : Except Error (Scanner × Bool) := do
  let s ← s.saveKey
  let p ← plainScalar s.inFlow (s.indent + 1).toNat s.cursor
  .ok
    ({ s.push (.scalar (encode p.value) .plain) s.cursor.mark p.stop with
        cursor := p.cursor
        keyAllowed := p.broken },
      p.broken)

/- May the character not start a plain scalar? -/
def isIndicator
    (c : Char) : Bool :=
  [ '-', '?', ':', ',', '[', ']', '\x7b', '\x7d', '#', '&', '*', '!',
    '|', '>', '\x27', '"', '%', '@', '\x60' ].contains c

/- Does a plain scalar start here? -/
def startsPlain
    (s : Scanner) : Bool :=
  match s.cursor.rest with
  | [] => false
  | c :: rest =>
      (!isBlank c && !isBreak c && !isIndicator c) ||
        (c == '-' && !((rest.head?.map isBlank).getD false)) ||
        (!s.inFlow && (c == '?' || c == ':') && !endsWord rest)

/-
  A token that a comment may follow on its line.  The second
  result is whether its last line has ended.
-/
def fetchOnLine
    (s : Scanner) : Except Error (Scanner × Bool) := do
  let same := fun (s : Scanner) => (s, false)
  match s.cursor.rest with
  | [] => s.cursor.fail s.cursor.mark .noToken
  | c :: rest =>
      let alone := endsWord rest
      if c == '[' then
        return same (← s.fetchOpen .flowSequenceStart)
      else if c == '\x7b' then
        return same (← s.fetchOpen .flowMappingStart)
      else if c == ']' then
        return same (← s.fetchClose .flowSequenceEnd)
      else if c == '\x7d' then
        return same (← s.fetchClose .flowMappingEnd)
      else if c == ',' then
        return same (← s.fetchComma)
      else if c == '-' && alone then
        return (← s.fetchDash, true)
      else if c == '?' && (s.inFlow || alone) then
        return same (← s.fetchQuestion)
      else if c == ':' && (s.inFlow || alone) then
        return same (← s.fetchColon)
      else if c == '*' then
        return same (← s.fetchContent fun c => do
          let (name, c) ← anchorName c
          .ok (.reference name, c))
      else if c == '&' then
        return same (← s.fetchContent fun c => do
          let (name, c) ← anchorName c
          .ok (.anchor name, c))
      else if c == '!' then
        return same (← s.fetchContent tag)
      else if c == '|' && !s.inFlow then
        return (← s.fetchBlock false, true)
      else if c == '>' && !s.inFlow then
        return (← s.fetchBlock true, true)
      else if c == '\x27' then
        return same (← s.fetchContent fun c => do
          let (value, c) ← quotedScalar true c
          .ok (.scalar (encode value) .singleQuoted, c))
      else if c == '"' then
        return same (← s.fetchContent fun c => do
          let (value, c) ← quotedScalar false c
          .ok (.scalar (encode value) .doubleQuoted, c))
      else if s.startsPlain then
        s.fetchPlain
      else
        s.cursor.fail s.cursor.mark .noToken

/- Read at least one more token. -/
def fetch
    (s : Scanner) : Except Error Scanner := do
  if !s.started then
    .ok
      { s.push .streamStart s.cursor.mark s.cursor.mark with
        started := true }
  else
    let before := s.cursor.mark
    let s := skipToToken (s.cursor.rest.length + 1) s
    let s := s.unroll s.cursor.mark.column before
    if s.cursor.atEnd then
      s.fetchEnd
    else if s.cursor.mark.column = 0 && s.cursor.at? '%' then
      s.fetchDirective
    else if s.cursor.atIndicator '-' then
      s.fetchDocument .documentStart
    else if s.cursor.atIndicator '.' then
      s.fetchDocument .documentEnd
    else
      let (s, ended) ← s.fetchOnLine
      .ok (if ended then s else s.skipLineComment)

------------------------------------------------------------
-- The Queue
------------------------------------------------------------

/- Is the first token that waits possibly the start of a key? -/
def headIsKey
    (s : Scanner) : Except Error (Bool × Scanner) := do
  if s.key.number = s.taken && s.key.possible then
    let (valid, key) ← s.checkKey s.key
    .ok (valid, { s with key })
  else
    let rec visit : List SimpleKey →
        Except Error (Bool × List SimpleKey)
      | [] => .ok (false, [])
      | k :: ks => do
          if k.number = s.taken && k.possible then
            let (valid, k) ← s.checkKey k
            .ok (valid, k :: ks)
          else
            let (valid, ks) ← visit ks
            .ok (valid, k :: ks)
    let (valid, outerKeys) ← visit s.outerKeys
    .ok (valid, { s with outerKeys })

/-
  Read tokens until three wait and the first of them cannot
  become the start of a key any more.
-/
def fill : (fuel : Nat) → Scanner → Except Error Scanner
  | 0, s => .ok s
  | fuel + 1, s => do
      if s.queue.length ≤ 2 then
        fill fuel (← s.fetch)
      else
        let (open?, s) ← s.headIsKey
        if open? then fill fuel (← s.fetch) else .ok s

/- Look at the next token. -/
def peek
    (s : Scanner) : Except Error (Token × Scanner) := do
  let s ← fill (s.cursor.rest.length + 4) s
  let none : Token := ⟨.streamEnd, s.cursor.mark, s.cursor.mark⟩
  .ok (s.queue.headD none, s)

/- Take the next token. -/
def take
    (s : Scanner) : Scanner :=
  { s with queue := s.queue.drop 1, taken := s.taken + 1 }

end Scanner

end Yaml

end Namesake
