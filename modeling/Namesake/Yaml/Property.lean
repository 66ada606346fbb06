import Namesake.Yaml.Cursor

/-
  This file defines how the properties of nodes are read,
  anchors and tags, and the directives above a document.

  Key definitions include:
    * `Yaml.anchorName`
    * `Yaml.tagUri`
    * `Yaml.tag`
    * `Yaml.directive`
-/

namespace Namesake

namespace Yaml

------------------------------------------------------------
-- Anchors
------------------------------------------------------------

/- May the text follow the name of an anchor? -/
def endsAnchor : List Char → Bool
  | [] => true
  | c :: _ =>
      isBlank c || isBreak c ||
        [ '?', ':', ',', ']', '\x7d', '%', '@', '\x60' ].contains c

/- Read the name of an anchor or of a reference to one. -/
def anchorName
    (c : Cursor) : Except Error (Bytes × Cursor) :=
  let start := c.mark
  let name := c.skip.rest.takeWhile isWordChar
  let c := c.skip.advance name.length
  if name.isEmpty || !endsAnchor c.rest then
    c.fail start .noAnchorName
  else
    .ok (encode name, c)

------------------------------------------------------------
-- Tags
------------------------------------------------------------

/- May the character be part of a tag? -/
def isUriChar
    (c : Char) : Bool :=
  isWordChar c ||
    [ ';', '/', '?', ':', '@', '&', '=', '+', '$', ',', '.', '!', '~',
      '*', '\x27', '(', ')', '[', ']', '%' ].contains c

/- Read one octet that is written with a percent sign. -/
def escapedOctet
    (start : Mark)
    (c : Cursor) : Except Error (UInt8 × Cursor) :=
  match c.rest with
  | '%' :: a :: b :: _ =>
      match hexValue? a, hexValue? b with
      | some x, some y => .ok ((x * 16 + y).toUInt8, c.advance 3)
      | _, _ => c.fail start .noEscapedOctet
  | _ => c.fail start .noEscapedOctet

/- Read the trailing octets of an escaped character. -/
def escapedTrail
    (start : Mark) : (count : Nat) → Cursor →
      Except Error (Bytes × Cursor)
  | 0, c => .ok ([], c)
  | count + 1, c => do
      let (b, next) ← escapedOctet start c
      if b.toNat / 0x40 = 0x02 then
        let (bs, next) ← escapedTrail start count next
        .ok (b :: bs, next)
      else
        c.fail start .escapedTrailing

/- Read a character that is written with percent signs. -/
def escapedChar
    (start : Mark)
    (c : Cursor) : Except Error (Bytes × Cursor) := do
  let (b, next) ← escapedOctet start c
  let n := b.toNat
  let trail ←
    if n < 0x80 then .ok 0
    else if n / 0x20 = 0x06 then .ok 1
    else if n / 0x10 = 0x0e then .ok 2
    else if n / 0x08 = 0x1e then .ok 3
    else c.fail start .escapedLeading
  let (bs, next) ← escapedTrail start trail next
  .ok (b :: bs, next)

/- Read the characters of a tag. -/
def tagChars
    (start : Mark) : (fuel : Nat) → Cursor →
      Except Error (Bytes × Cursor)
  | 0, c => .ok ([], c)
  | fuel + 1, c =>
      match c.rest with
      | [] => .ok ([], c)
      | x :: _ => do
          if x == '%' then
            let (bs, next) ← escapedChar start c
            let (more, next) ← tagChars start fuel next
            .ok (bs ++ more, next)
          else if isUriChar x then
            let (more, next) ← tagChars start fuel c.skip
            .ok (encode [x] ++ more, next)
          else
            .ok ([], c)

/- Read a tag of which the first part is read already. -/
def tagUri
    (start : Mark)
    (head : Bytes)
    (c : Cursor) : Except Error (Bytes × Cursor) := do
  let (bs, next) ← tagChars start (c.rest.length + 1) c
  if head.isEmpty && c.rest.length = next.rest.length then
    next.fail start .noTagUri
  else
    .ok (head.drop 1 ++ bs, next)

/- Read the handle of a tag: a name between exclamation marks. -/
def tagHandle
    (start : Mark)
    (directive : Bool)
    (c : Cursor) : Except Error (Bytes × Cursor) :=
  if !c.at? '!' then
    c.fail start .noBang
  else
    let name := c.skip.rest.takeWhile isWordChar
    let next := c.skip.advance name.length
    if next.at? '!' then
      .ok (encode ('!' :: name ++ ['!']), next.skip)
    else if directive && !name.isEmpty then
      next.fail start .noBang
    else
      .ok (encode ('!' :: name), next)

/- Read a tag: its handle and what follows the handle. -/
def tagParts
    (c : Cursor) : Except Error (Bytes × Bytes × Cursor) := do
  let start := c.mark
  if c.rest.drop 1 |>.head? |> (· == some '<') then
    let (suffix, c) ← tagUri start [] (c.advance 2)
    if c.at? '>' then
      .ok ([], suffix, c.skip)
    else
      c.fail start .noTagClose
  else
    let (handle, c) ← tagHandle start false c
    if handle.length > 1 && handle.getLast? == some 0x21 then
      let (suffix, c) ← tagUri start [] c
      .ok (handle, suffix, c)
    else
      let (suffix, c) ← tagUri start handle c
      if suffix.isEmpty then
        .ok ([], utf8 "!", c)
      else
        .ok (utf8 "!", suffix, c)

/- Read a tag and make sure that it ends. -/
def tag
    (c : Cursor) : Except Error (Shape × Cursor) := do
  let (handle, suffix, next) ← tagParts c
  if endsWord next.rest then
    .ok (.tag handle suffix, next)
  else
    next.fail c.mark .noTagEnd

------------------------------------------------------------
-- Directives
------------------------------------------------------------

/- Read a number of at most two digits. -/
def versionNumber
    (start : Mark)
    (c : Cursor) : Except Error (Nat × Cursor) :=
  let digits := c.rest.takeWhile isDigit
  if digits.isEmpty then
    c.fail start .noVersionNumber
  else if digits.length > 2 then
    (c.advance 2).fail start .longVersionNumber
  else
    let n := digits.foldl (fun n d => n * 10 + (d.toNat - 0x30)) 0
    .ok (n, c.advance digits.length)

/- Read the version behind the name of a directive. -/
def version
    (start : Mark)
    (c : Cursor) : Except Error (Shape × Cursor) := do
  let (major, c) ← versionNumber start c.skipBlanks
  if c.at? '.' then
    let (minor, c) ← versionNumber start c.skip
    .ok (.versionDirective major minor, c)
  else
    c.fail start .noVersionDot

/- Read a handle and what it stands for. -/
def tagShorthand
    (start : Mark)
    (c : Cursor) : Except Error (Shape × Cursor) := do
  let (handle, c) ← tagHandle start true c.skipBlanks
  if (c.rest.head?.map isBlank).getD false then
    let (uri, c) ← tagUri start [] c.skipBlanks
    if endsWord c.rest then
      .ok (.tagDirective handle uri, c)
    else
      c.fail start .noTagEnd
  else
    c.fail start .noTagBlank

/- Read a directive with the end of its line. -/
def directive
    (c : Cursor) : Except Error (Token × Cursor) := do
  let start := c.mark
  let name := c.skip.rest.takeWhile isWordChar
  let c := c.skip.advance name.length
  if name.isEmpty then
    c.fail start .noDirectiveName
  else if !endsWord c.rest then
    c.fail start .badDirectiveName
  else
    let (shape, c) ←
      if name == [ 'Y', 'A', 'M', 'L' ] then version start c
      else if name == [ 'T', 'A', 'G' ] then tagShorthand start c
      else c.fail start .unknownDirective
    let token : Token := ⟨shape, start, c.mark⟩
    let c := c.skipBlanks
    let c := if c.at? '#' then c.skipLine else c
    if endsLine c.rest then
      .ok (token, c.skipBreak)
    else
      c.fail start .noLineEnd

end Yaml

end Namesake
