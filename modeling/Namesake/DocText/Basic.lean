import Namesake.Text.Blank
import Namesake.Text.Letter
import Namesake.Text.LowerCase

/-
  This file defines the text of doc comments: paragraphs,
  headings, code and lists, and how lines are read as such.

  Key definitions include:
    * `DocText.Block`
    * `DocText.LinkDef`
    * `DocText.Doc`
    * `DocText.parts`
    * `DocText.parse`
-/

namespace Namesake

namespace DocText

------------------------------------------------------------
-- Blocks
------------------------------------------------------------

/- An item of a list: its number, if any, and its paragraphs. -/
structure Item where
  number : Bytes
  content : List Bytes
deriving Repr

/- A block of a doc text. -/
inductive Block where
  | paragraph (text : Bytes)
  | heading (text : Bytes)
  | code (lines : List Bytes)
  | list (items : List Item) (apart loose : Bool)
deriving Repr

/- The address that a text in brackets stands for. -/
structure LinkDef where
  text : Bytes
  url : Bytes
deriving DecidableEq, Repr

/- A doc text. -/
structure Doc where
  content : List Block := []
  links : List LinkDef := []
deriving Repr

------------------------------------------------------------
-- Lines
------------------------------------------------------------

/- A blank or a tab. -/
def isIndent
    (b : UInt8) : Bool :=
  b == 0x20 || b == 0x09

/- Does a line start with a blank or a tab? -/
def indented : Bytes → Bool
  | b :: _ => isIndent b
  | [] => false

/- The blanks and tabs that a line starts with. -/
def leadingSpace
    (line : Bytes) : Bytes :=
  line.takeWhile isIndent

/- The longest common beginning of two texts. -/
def commonStart : Bytes → Bytes → Bytes
  | a :: s, b :: t => if a = b then a :: commonStart s t else []
  | _, _ => []

/- Drop empty lines at both ends. -/
def dropEmptyEnds
    (lines : List Bytes) : List Bytes :=
  ((lines.dropWhile List.isEmpty).reverse.dropWhile List.isEmpty).reverse

/- Remove the space that all lines start with. -/
def unindent
    (lines : List Bytes) : List Bytes :=
  match dropEmptyEnds lines with
  | [] => []
  | first :: rest =>
      let common :=
        (rest.filter fun l => !l.isEmpty).foldl
          (fun c l => commonStart c (leadingSpace l))
          (leadingSpace first)
      dropEmptyEnds
        ((first :: rest).map fun l =>
          let l := (common.isPrefixOf? l).getD l
          if (Bytes.trimSpace l).isEmpty then [] else l)

------------------------------------------------------------
-- Markers
------------------------------------------------------------

/- The marks that start an item of a list without numbers. -/
def bullets : List Bytes :=
  [utf8 "•", utf8 "*", utf8 "+", utf8 "-"]

/- Is this an ASCII digit? -/
def isDigitByte
    (b : UInt8) : Bool :=
  0x30 ≤ b && b ≤ 0x39

/- What follows the number or bullet of a list item. -/
def marker?
    (line : Bytes) : Option (Bytes × Bytes) :=
  match bullets.filterMap fun b => b.isPrefixOf? line with
  | rest :: _ => some ([], rest)
  | [] =>
      let number := line.takeWhile isDigitByte
      match line.dropWhile isDigitByte with
      | b :: rest =>
          if !number.isEmpty && (b == 0x2e || b == 0x29) then
            some (number, rest)
          else
            none
      | [] => none

/- The number of a list item, if any, and its text. -/
def listMarker?
    (line : Bytes) : Option (Bytes × Bytes) :=
  match marker? (Bytes.trimSpace line) with
  | some (number, rest) =>
      if indented rest && !(Bytes.trimSpace rest).isEmpty then
        some (number, rest)
      else
        none
  | none => none

/- Does a line start an item of a list? -/
def isList
    (line : Bytes) : Bool :=
  (listMarker? line).isSome

/- Is this a heading with a number sign? -/
def isHeading
    (line : Bytes) : Bool :=
  match line with
  | 0x23 :: b :: _ => isIndent b && Bytes.trimSpace line != [0x23]
  | _ => false

/- The bytes that no heading without a number sign has. -/
def isForeign
    (g : Glyph) : Bool :=
  (utf8 ";:!?+*/=[]\x7b\x7d_^°&§~%#@<\">\\").glyphs.any
    fun h => h.code == g.code

/- Is every quote in a text followed by an s that ends a word? -/
def possessive : Bytes → Bool
  | [] => true
  | b :: rest =>
      (b != 0x27 || rest == [0x73] || Bytes.startsWith rest [0x73, 0x20]) &&
        possessive rest

/- Is every period in a text followed by more of a word? -/
def noSentence : Bytes → Bool
  | [] => true
  | b :: rest =>
      (b != 0x2e || !(rest.isEmpty || Bytes.startsWith rest [0x20])) &&
        noSentence rest

/- Does a line read like a heading? -/
def readsAsHeading
    (line : Bytes) : Bool :=
  let line := Bytes.trimSpace line
  let glyphs := line.glyphs
  match glyphs, glyphs.getLast? with
  | first :: _, some last =>
      isLetter first.code && isUpper first.code &&
        (isLetter last.code || isDigit last.code) &&
        !glyphs.any isForeign &&
        possessive line && noSentence line
  | _, _ => false

/-
  Is a line a heading because it stands alone?  `above` says
  whether an empty line is in front of it, and `below` are the
  lines behind it.
-/
def isOldHeading
    (above : Bool)
    (line : Bytes)
    (below : List Bytes) : Bool :=
  match below with
  | [] :: next :: _ => above && !indented next && readsAsHeading line
  | _ => false

------------------------------------------------------------
-- Parts
------------------------------------------------------------

/- The kinds of the parts of a doc text. -/
inductive PartKind where
  | list
  | code
  | oldHeading
  | heading
  | paragraph
deriving DecidableEq, Repr

/- A part of a doc text; `apart` if an empty line is in front. -/
structure Part where
  kind : PartKind
  lines : List Bytes
  apart : Bool
deriving Repr

/-
  The number of lines that continue an indented part.  The
  first `forced` lines count as indented.
-/
def indentedRun
    (forced : Nat)
    (listsCount : Bool) : List Bytes → Nat
  | [] => 0
  | l :: ls =>
      if l.isEmpty || forced > 0 || indented l ||
          (listsCount && isList l) then
        1 + indentedRun (forced - 1) (listsCount && !l.isEmpty) ls
      else
        0

/- The number of lines of an indented part. -/
def indentedSize
    (forced : Nat)
    (lines : List Bytes) : Nat :=
  match lines with
  | [] => 0
  | l :: ls =>
      let n := 1 + indentedRun (forced - 1) (isList l && forced > 0) ls
      let kept :=
        ((lines.take n).reverse.dropWhile List.isEmpty).reverse
      match lines[kept.length]? with
      | some next =>
          if next.startsWith [0x7d] then kept.length + 1 else kept.length
      | none => kept.length

/-
  The number of lines of a part that is not indented, and how
  many lines then count as indented.  Items of a list, or the
  first line of code, right in front of an indented line belong
  to that line.
-/
def plainSize
    (forced : Nat)
    (lines : List Bytes) : Nat × Nat :=
  let run := lines.takeWhile fun l => !l.isEmpty && !indented l
  let n := run.length
  match lines[n]?, run.getLast? with
  | some next, some last =>
      if next.isEmpty || isList next then
        (n, forced)
      else if isList last then
        ((run.reverse.dropWhile isList).length, n)
      else if last.endsWith [0x7b] || last.endsWith [0x5c] then
        (n - 1, n)
      else
        (n, forced)
  | _, _ => (n, forced)

/- The indented part that lines start with. -/
def indentedPart
    (apart : Bool)
    (forced : Nat)
    (lines : List Bytes) : Part :=
  let part := lines.take (indentedSize forced lines)
  let isItems := (lines.head?.map isList).getD false
  ⟨if isItems then .list else .code, part, apart⟩

/- The part of `n` lines, not indented, that lines start with. -/
def plainPart
    (apart above : Bool)
    (n : Nat)
    (lines : List Bytes) : Part :=
  let part := lines.take n
  let kind : PartKind :=
    match part with
    | [line] =>
        if isHeading line then .heading
        else if isOldHeading above line (lines.drop n) then .oldHeading
        else .paragraph
    | _ => .paragraph
  ⟨kind, part, apart⟩

/-
  The parts of lines.  `forced` lines count as indented, and
  `above` says whether an empty line was just skipped.
-/
def partsFrom : (fuel forced : Nat) → (above : Bool) → List Bytes → List Part
  | 0, _, _, _ => []
  | _, _, _, [] => []
  | fuel + 1, forced, above, l :: ls =>
      let lines := l :: ls
      if l.isEmpty then
        partsFrom fuel (forced - 1) true ls
      else
        let (n, forcedNow) :=
          if forced > 0 || indented l then
            (0, forced)
          else
            plainSize forced lines
        if n = 0 then
          let part := indentedPart above forcedNow lines
          let n := part.lines.length
          part :: partsFrom fuel (forcedNow - n) false (lines.drop n)
        else
          plainPart above above n lines ::
            partsFrom fuel (forcedNow - n) false (lines.drop n)

/- The parts of lines. -/
def parts
    (lines : List Bytes) : List Part :=
  partsFrom (lines.length + 1) 0 false lines

------------------------------------------------------------
-- Links
------------------------------------------------------------

/- The schemes of addresses. -/
def schemes : List Bytes :=
  [utf8 "file", utf8 "ftp", utf8 "gopher", utf8 "http", utf8 "https",
    utf8 "mailto", utf8 "nntp"]

/- The definition of a link on a line of its own. -/
def linkDef?
    (line : Bytes) : Option LinkDef :=
  match line with
  | 0x5b :: rest =>
      match Bytes.splitFirst? [0x5d, 0x3a] rest with
      | some (text, b :: c :: after) =>
          let url := Bytes.trimSpace (c :: after)
          match Bytes.splitFirst? (utf8 "://") url with
          | some (scheme, _) =>
              if isIndent b && schemes.contains scheme then
                some ⟨text, url⟩
              else
                none
          | none => none
      | _ => none
  | _ => none

/- The links that lines define, if all of them do. -/
def linkDefs? : List Bytes → Option (List LinkDef)
  | [] => some []
  | l :: ls =>
      match linkDef? l, linkDefs? ls with
      | some d, some ds => some (d :: ds)
      | _, _ => none

/- A paragraph, or the links that its lines define. -/
def paragraph
    (lines : List Bytes) : Option Bytes × List LinkDef :=
  match linkDefs? lines with
  | some defs => (none, defs)
  | none => (some (Bytes.join [0x0a] lines), [])

------------------------------------------------------------
-- Lists
------------------------------------------------------------

/- A list in the making; items and lines are kept in reverse. -/
structure Listing where
  items : List Item := []
  item : Option Item := none
  text : List Bytes := []
  loose : Bool := false
  links : List LinkDef := []

namespace Listing

/- End the current paragraph. -/
def endParagraph
    (s : Listing) : Listing :=
  match s.item, s.text with
  | some item, line :: lines =>
      let (text, links) := paragraph (line :: lines).reverse
      { s with
        item := some { item with content := item.content ++ text.toList }
        text := []
        links := s.links ++ links }
  | _, _ => { s with text := [] }

/- End the current item. -/
def endItem
    (s : Listing) : Listing :=
  let s := s.endParagraph
  { s with items := s.item.toList ++ s.items, item := none }

/- Take a line; only markers of the first item's form count. -/
def step
    (numbered : Bool)
    (s : Listing)
    (line : Bytes) : Listing :=
  let (s, line) :=
    match listMarker? line with
    | some (number, rest) =>
        if number.isEmpty != numbered then
          ({ s.endItem with item := some ⟨number, []⟩ }, rest)
        else
          (s, line)
    | none => (s, line)
  let line := Bytes.trimSpace line
  if line.isEmpty then
    { s.endParagraph with loose := true }
  else
    { s with text := line :: s.text }

end Listing

/- A list and the links that are defined in it. -/
def listOf
    (apart : Bool)
    (lines : List Bytes) : Block × List LinkDef :=
  let numbered :=
    match (lines.head?).bind listMarker? with
    | some (number, _) => !number.isEmpty
    | none => false
  let s := (lines.foldl (Listing.step numbered) {}).endItem
  let items := s.items.reverse
  let loose := s.loose || items.any fun i => i.content.length != 1
  (.list items (apart || loose) loose, s.links)

------------------------------------------------------------
-- Parsing
------------------------------------------------------------

/- The block of a part, if it has one, and the links defined. -/
def blockOf
    (p : Part) : Option Block × List LinkDef :=
  match p.kind with
  | .list =>
      let (block, links) := listOf p.apart p.lines
      (some block, links)
  | .code => (some (.code (unindent p.lines)), [])
  | .oldHeading =>
      (some (.heading (Bytes.trimSpace p.lines.flatten)), [])
  | .heading =>
      (some (.heading (Bytes.trimSpace p.lines.flatten.tail)), [])
  | .paragraph =>
      let (text, links) := paragraph p.lines
      (text.map .paragraph, links)

/- Read a doc text. -/
def parse
    (text : Bytes) : Doc :=
  (parts (unindent text.lines)).foldl
    (fun d p =>
      let (block, links) := blockOf p
      ⟨d.content ++ block.toList, d.links ++ links⟩)
    {}

end DocText

end Namesake
