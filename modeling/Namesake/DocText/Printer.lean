import Namesake.DocText.Basic

/-
  This file defines the standard form of doc comments.

  Key definitions include:
    * `DocText.quotes`
    * `DocText.url?`
    * `DocText.linked`
    * `DocText.print`
    * `DocText.isInstruction`
    * `DocText.tidy`
-/

namespace Namesake

namespace DocText

------------------------------------------------------------
-- Addresses
------------------------------------------------------------

/- Is this a letter or a digit? -/
def isAlnum
    (b : UInt8) : Bool :=
  isDigitByte b || isAsciiLetter b.toNat

/- A byte that a host may have. -/
def isHost
    (b : UInt8) : Bool :=
  isAlnum b || (utf8 "_@-.[]:").contains b

/- Punctuation that no address ends with. -/
def isPunctuation
    (b : UInt8) : Bool :=
  (utf8 ".,:;?!").contains b

/- A byte that a path may have, apart from punctuation. -/
def isPath
    (b : UInt8) : Bool :=
  isAlnum b || (utf8 "$'()*+&#=@~_/-[]\x7b\x7d%").contains b

/- The bracket that closes an opening one. -/
def closing? : UInt8 → Option UInt8
  | 0x28 => some 0x29
  | 0x7b => some 0x7d
  | 0x5b => some 0x5d
  | _ => none

/- Is this a closing bracket? -/
def isClosing
    (b : UInt8) : Bool :=
  b == 0x29 || b == 0x7d || b == 0x5d

/-
  The length of the path that a text starts with.  Brackets
  have to match, and punctuation at the end is left out.
  `seen` bytes are behind us, and the first `good` of them are
  known to be part of the path.
-/
def pathLength
    (seen good : Nat)
    (expected : Bytes) : Bytes → Nat
  | [] => good
  | b :: s =>
      if isPunctuation b then
        pathLength (seen + 1) good expected s
      else if !isPath b then
        good
      else
        let next : Option Bytes :=
          match closing? b with
          | some c => some (c :: expected)
          | none =>
              if isClosing b then
                match expected with
                | e :: rest => if e = b then some rest else none
                | [] => none
              else
                some expected
        match next with
        | none => good
        | some expected =>
            let good := if expected.isEmpty then seen + 1 else good
            pathLength (seen + 1) good expected s

/- The length of the host that a text starts with. -/
def hostLength
    (s : Bytes) : Nat :=
  ((s.takeWhile isHost).reverse.dropWhile isPunctuation).length

/- The address that a text starts with. -/
def url?
    (s : Bytes) : Option Bytes :=
  match schemes.find? fun n => s.startsWith (n ++ utf8 "://") with
  | none => none
  | some scheme =>
      let n := scheme.length + 3
      let rest := s.drop n
      match rest with
      | [] => none
      | b :: _ =>
          if isPunctuation b then
            none
          else
            let host := hostLength rest
            if host = 0 then
              none
            else
              let path := pathLength 0 0 [] (rest.drop host)
              some (s.take (n + host + path))

------------------------------------------------------------
-- Texts
------------------------------------------------------------

/- A byte of a word. -/
def isWord
    (b : UInt8) : Bool :=
  isAlnum b || b == 0x5f || b ≥ 0x80

/- The length of the word that a text starts with. -/
def wordLength
    (s : Bytes) : Nat :=
  match s with
  | b :: _ => if isDigitByte b then 0 else (s.takeWhile isWord).length
  | [] => 0

/-
  Write pairs of single quotes as double quotes.  In addresses
  nothing is changed, if `links` says to look for them.
-/
def quotes
    (links : Bool) : (fuel : Nat) → Bytes → Bytes
  | 0, s => s
  | _, [] => []
  | fuel + 1, b :: s =>
      let all := b :: s
      let kept :=
        if links then
          match url? all with
          | some u => u.length
          | none => wordLength all
        else
          0
      if kept > 0 then
        all.take kept ++ quotes links fuel (all.drop kept)
      else if Bytes.startsWith all [0x60, 0x60, 0x60] then
        let ticks := all.takeWhile (· == 0x60)
        ticks ++ quotes links fuel (all.dropWhile (· == 0x60))
      else if Bytes.startsWith all [0x60, 0x60] then
        utf8 "“" ++ quotes links fuel s.tail
      else if Bytes.startsWith all [0x27, 0x27] then
        utf8 "”" ++ quotes links fuel s.tail
      else
        b :: quotes links fuel s

/- A text without links. -/
def plain
    (links : Bool)
    (s : Bytes) : Bytes :=
  quotes links (s.length + 1) s

/- A state in reading a text with links; texts are in reverse. -/
structure Linking where
  output : Bytes := []
  pending : Bytes := []
  inner : Option Bytes := none
  used : List Bytes := []

namespace Linking

/- All text that is not yet in the output. -/
def waiting
    (s : Linking) : Bytes :=
  match s.inner with
  | some inner => inner ++ [0x5b] ++ s.pending
  | none => s.pending

/- Move what waits to the output. -/
def flush
    (s : Linking) : Linking :=
  { s with
    output := (plain true s.waiting.reverse).reverse ++ s.output
    pending := []
    inner := none }

/- The name of a link: its text with blanks for other space. -/
def nameOf
    (inner : Bytes) : Bytes :=
  inner.map fun b => if b == 0x0a || b == 0x09 then 0x20 else b

/- Take a byte. -/
def step
    (links : List LinkDef)
    (s : Linking)
    (b : UInt8) : Linking :=
  if b = 0x5b then
    { s with pending := s.waiting, inner := some [] }
  else
    match s.inner with
    | none => { s with pending := b :: s.pending }
    | some inner =>
        if b != 0x5d then
          { s with inner := some (b :: inner) }
        else
          let text := inner.reverse
          let name := nameOf text
          if links.any fun d => d.text == name then
            let shown := [0x5b] ++ plain false text ++ [0x5d]
            let t := { s with inner := none }.flush
            { t with
              output := shown.reverse ++ t.output
              used := name :: t.used }
          else
            { s with pending := b :: s.waiting, inner := none }

end Linking

/- A text in which links may stand, and the links it uses. -/
def linked
    (links : List LinkDef)
    (text : Bytes) : Bytes × List Bytes :=
  let s := (text.foldl (Linking.step links) {}).flush
  (s.output.reverse, s.used)

------------------------------------------------------------
-- Printing
------------------------------------------------------------

/- A text with space in front of every line but the first. -/
def hang
    (margin text : Bytes) : Bytes :=
  text.replaceByte 0x0a (0x0a :: margin)

/- Four blanks. -/
def fourBlanks : Bytes :=
  utf8 "    "

/- The paragraphs of a list item. -/
def printContent
    (first : Bool) : List Bytes → Bytes
  | [] => []
  | p :: ps =>
      (if first then [] else 0x0a :: fourBlanks) ++
        hang fourBlanks p ++ [0x0a] ++ printContent false ps

/- An item of a list. -/
def printItem
    (item : Item) : Bytes :=
  let mark :=
    if item.number.isEmpty then
      utf8 "  - "
    else
      utf8 " " ++ item.number ++ utf8 ". "
  mark ++ printContent true item.content

/- A block. -/
def printBlock : Block → Bytes
  | .paragraph text => text ++ [0x0a]
  | .heading text => utf8 "# " ++ text ++ [0x0a]
  | .code lines =>
      lines.flatMap fun l =>
        if l.isEmpty then [0x0a] else 0x09 :: l ++ [0x0a]
  | .list items _ loose =>
      Bytes.join (if loose then [0x0a] else []) (items.map printItem)

/- Does a block ask for an empty line in front of it? -/
def Block.isApart : Block → Bool
  | .list _ apart _ => apart
  | _ => true

/- Blocks with the empty lines between them. -/
def printBlocks
    (first : Bool) : List Block → Bytes
  | [] => []
  | b :: bs =>
      (if !first && b.isApart then [0x0a] else []) ++
        printBlock b ++ printBlocks false bs

/- The texts of a block with its links read, and the links used. -/
def Block.link
    (links : List LinkDef) : Block → Block × List Bytes
  | .paragraph text =>
      let (text, used) := linked links text
      (.paragraph text, used)
  | .list items apart loose =>
      let read := items.map fun i =>
        (i, i.content.map (linked links))
      (.list
        (read.map fun r => { r.1 with content := r.2.map Prod.fst })
        apart loose,
        read.flatMap fun r => r.2.flatMap Prod.snd)
  | b => (b, [])

/- Definitions of links behind an empty line. -/
def printLinks
    (links : List LinkDef) : Bytes :=
  if links.isEmpty then
    []
  else
    0x0a :: links.flatMap fun d =>
      [0x5b] ++ d.text ++ utf8 "]: " ++ d.url ++ [0x0a]

/- The links with the first definition of each text, in order. -/
def firstDefs
    (seen : List Bytes) : List LinkDef → List (LinkDef × Bool)
  | [] => []
  | d :: ds =>
      (d, !seen.contains d.text) :: firstDefs (d.text :: seen) ds

/-
  The standard form of a doc text.  Links that are used come
  before links that are not.
-/
def print
    (d : Doc) : Bytes :=
  let read := d.content.map (Block.link d.links)
  let used := read.flatMap Prod.snd
  let marked := firstDefs [] d.links
  let isUsed := fun (p : LinkDef × Bool) =>
    p.2 && used.contains p.1.text
  printBlocks true (read.map Prod.fst) ++
    printLinks ((marked.filter isUsed).map Prod.fst) ++
    printLinks ((marked.filter fun p => !isUsed p).map Prod.fst)

------------------------------------------------------------
-- Comments
------------------------------------------------------------

/- A lower case letter or a digit. -/
def isLowerAlnum
    (b : UInt8) : Bool :=
  isDigitByte b || (0x61 ≤ b && b ≤ 0x7a)

/-
  Is the text behind the slashes of a comment an instruction
  to a tool, such as `go:generate`?
-/
def isInstruction
    (s : Bytes) : Bool :=
  [utf8 "line ", utf8 "extern ", utf8 "export "].any
      (fun word => s.startsWith word) ||
    match Bytes.splitFirst? [0x3a] s with
    | some (tool, b :: _) =>
        !tool.isEmpty && tool.all isLowerAlnum && isLowerAlnum b
    | _ => false

/- Does every line but the first start with a star? -/
def allStars
    (text : Bytes) : Bool :=
  text.lines.tail.all fun l =>
    match l.dropWhile isIndent with
    | b :: _ => b == 0x2a
    | [] => true

/- A line of text as a comment line. -/
def commentLine
    (line : Bytes) : Bytes :=
  if line.isEmpty then utf8 "//"
  else if line.startsWith [0x09] then utf8 "//" ++ line
  else utf8 "// " ++ line

/- The lines of a text that ends with a line feed. -/
def closedLines
    (text : Bytes) : List Bytes :=
  (Bytes.trimEnding text [0x0a]).lines

/- A text without one leading blank. -/
def dropBlank
    (s : Bytes) : Bytes :=
  (List.isPrefixOf? [0x20] s).getD s

/- The standard form of line comments, given without slashes. -/
def tidyLines
    (bodies : List Bytes) : Option (List Bytes) :=
  let texts := bodies.filter fun b => !isInstruction b
  let others := bodies.filter isInstruction
  let text := texts.flatMap fun b => dropBlank b ++ [0x0a]
  if text.isEmpty then
    none
  else
    let text := print (parse text)
    let out :=
      if text.isEmpty then [] else (closedLines text).map commentLine
    let gap := if out.isEmpty || others.isEmpty then [] else [utf8 "//"]
    some (out ++ gap ++ others.map fun b => utf8 "//" ++ b)

/-
  The standard form of a doc comment.  A block comment is left
  alone if it has one line or a star on every line.
-/
def tidy
    (comments : List Bytes) : List Bytes :=
  match comments with
  | [] => []
  | first :: rest =>
      if rest.isEmpty && first.startsWith (utf8 "/*") then
        if !first.contains 0x0a || allStars first then
          comments
        else
          let text := (first.drop 2).take (first.length - 4)
          [utf8 "/*\n" ++ print (parse text) ++ utf8 "*/"]
      else
        match comments.mapM (List.isPrefixOf? (utf8 "//")) with
        | none => comments
        | some bodies => (tidyLines bodies).getD comments

end DocText

end Namesake
