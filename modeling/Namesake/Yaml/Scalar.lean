import Namesake.Yaml.Cursor

/-
  This file defines how scalars are read: plain ones, quoted
  ones, and blocks of indented lines.

  Key definitions include:
    * `Yaml.Gap`
    * `Yaml.Gap.text`
    * `Yaml.plainScalar`
    * `Yaml.quotedScalar`
    * `Yaml.blockScalar`
-/

namespace Namesake

namespace Yaml

------------------------------------------------------------
-- Gaps
------------------------------------------------------------

/-
  Blank space inside a scalar: the blanks before the first
  line end, whether there is a line end, and the line ends.
-/
structure Gap where
  blanks : List Char := []
  broken : Bool := false
  first : List Char := []
  later : List Char := []
deriving Repr

namespace Gap

/-
  What a gap stands for: one line end is a space, more of
  them lose the first.
-/
def text
    (g : Gap) : List Char :=
  if g.broken then
    if g.first == ['\n'] then
      if g.later.isEmpty then [' '] else g.later
    else
      g.first ++ g.later
  else
    g.blanks

/- Add a line end to a gap. -/
def addBreak
    (g : Gap)
    (cs : List Char) : Gap :=
  if g.broken then
    { g with later := g.later ++ cs }
  else
    { g with blanks := [], broken := true, first := cs }

/-
  Read a gap.  The column before which a tab may not stand
  after a line end is `indent`.
-/
def read
    (indent : Nat) : (fuel : Nat) → Gap → Cursor →
      Except Cursor (Gap × Cursor)
  | 0, g, c => .ok (g, c)
  | fuel + 1, g, c =>
      match c.rest with
      | [] => .ok (g, c)
      | x :: _ =>
          if isBlank x then
            if g.broken then
              if x == '\t' && c.mark.column < indent then
                .error c
              else
                read indent fuel g c.skip
            else
              read indent fuel { g with blanks := g.blanks ++ [x] } c.skip
          else if isBreak x then
            let (cs, c) := c.takeBreak
            read indent fuel (g.addBreak cs) c
          else
            .ok (g, c)

end Gap

------------------------------------------------------------
-- Plain Scalars
------------------------------------------------------------

/- Does the text end a plain scalar without a blank? -/
def endsPlain
    (flow : Bool) : List Char → Bool
  | [] => true
  | ':' :: rest => endsWord rest
  | c :: _ =>
      flow && (c == ',' || c == '?' || c == '[' || c == ']' ||
        c == '\x7b' || c == '\x7d')

/- The characters of a plain scalar up to the next blank. -/
def plainWord
    (flow : Bool) : List Char → List Char
  | [] => []
  | c :: rest =>
      if isBlank c || isBreak c || endsPlain flow (c :: rest) then
        []
      else
        c :: plainWord flow rest

/- A plain scalar, and whether a line end was read behind it. -/
structure Plain where
  value : List Char
  stop : Mark
  broken : Bool
  cursor : Cursor

/-
  Read the words of a plain scalar.  `value` is what was read
  up to the end of the last word, and `gap` the space since.
-/
def plainFrom
    (flow : Bool)
    (indent : Nat)
    (start : Mark) : (fuel : Nat) → (value : List Char) → (gap : Gap) →
      (stop : Mark) → Cursor → Except Error Plain
  | 0, value, gap, stop, c => .ok ⟨value, stop, gap.broken, c⟩
  | fuel + 1, value, gap, stop, c =>
      if c.atDocument || c.at? '#' then
        .ok ⟨value, stop, gap.broken, c⟩
      else
        let word := plainWord flow c.rest
        let next := c.advance word.length
        let (value, gap, stop) :=
          if word.isEmpty then
            (value, gap, stop)
          else
            (value ++ gap.text ++ word, {}, next.mark)
        match next.rest with
        | [] => .ok ⟨value, stop, gap.broken, next⟩
        | x :: _ =>
            if isBlank x || isBreak x then
              match gap.read indent (next.rest.length + 1) next with
              | .error tab => tab.fail start .tabInPlain
              | .ok (gap, after) =>
                  if !flow && after.mark.column < indent then
                    .ok ⟨value, stop, gap.broken, after⟩
                  else
                    plainFrom flow indent start fuel value gap stop after
            else
              .ok ⟨value, stop, gap.broken, next⟩

/- Read a plain scalar. -/
def plainScalar
    (flow : Bool)
    (indent : Nat)
    (c : Cursor) : Except Error Plain :=
  plainFrom flow indent c.mark (c.rest.length + 1) [] {} c.mark c

------------------------------------------------------------
-- Quoted Scalars
------------------------------------------------------------

/- The character of an escape that is one letter. -/
def simpleEscape? : Char → Option Char
  | '0' => some '\x00'
  | 'a' => some '\x07'
  | 'b' => some '\x08'
  | 't' => some '\t'
  | '\t' => some '\t'
  | 'n' => some '\n'
  | 'v' => some '\x0b'
  | 'f' => some '\x0c'
  | 'r' => some '\r'
  | 'e' => some '\x1b'
  | ' ' => some ' '
  | '"' => some '"'
  | '\'' => some '\''
  | '\\' => some '\\'
  | 'N' => some '\u0085'
  | '_' => some '\u00a0'
  | 'L' => some '\u2028'
  | 'P' => some '\u2029'
  | _ => none

/- The number of digits behind the letter of an escape. -/
def escapeDigits? : Char → Option Nat
  | 'x' => some 2
  | 'u' => some 4
  | 'U' => some 8
  | _ => none

/- The value of exactly `count` hexadecimal digits. -/
def hexNumber? : (count value : Nat) → List Char → Option Nat
  | 0, value, _ => some value
  | _ + 1, _, [] => none
  | count + 1, value, c :: rest =>
      match hexValue? c with
      | some d => hexNumber? count (value * 16 + d) rest
      | none => none

/- How a run of characters between quotes ends. -/
inductive RunEnd where
  | gap
  | foldedLine
deriving DecidableEq, Repr

/- Read an escape; `c` is behind the backslash. -/
def escape
    (start : Mark)
    (back c : Cursor) : Except Error (Char × Cursor) :=
  match c.rest with
  | [] => back.fail start .unknownEscape
  | x :: _ =>
      match simpleEscape? x with
      | some y => .ok (y, c.skip)
      | none =>
          match escapeDigits? x with
          | none => back.fail start .unknownEscape
          | some count =>
              let digits := c.skip
              match hexNumber? count 0 digits.rest with
              | none => digits.fail start .noHexDigit
              | some n =>
                  if (0xd800 ≤ n && n ≤ 0xdfff) || 0x10ffff < n then
                    digits.fail start .badCodePoint
                  else
                    .ok (Char.ofNat n, digits.advance count)

/-
  Read characters between quotes up to a blank, the closing
  quote, or a backslash at the end of a line.
-/
def quotedRun
    (single : Bool)
    (start : Mark) : (fuel : Nat) → Cursor →
      Except Error (List Char × RunEnd × Cursor)
  | 0, c => .ok ([], .gap, c)
  | fuel + 1, c =>
      match c.rest with
      | [] => .ok ([], .gap, c)
      | x :: rest =>
          if isBlank x || isBreak x then
            .ok ([], .gap, c)
          else if single && x == '\'' then
            if rest.head? == some '\'' then do
              let (cs, stop, c) ← quotedRun single start fuel (c.advance 2)
              .ok ('\'' :: cs, stop, c)
            else
              .ok ([], .gap, c)
          else if !single && x == '"' then
            .ok ([], .gap, c)
          else if !single && x == '\\' then
            match rest with
            | y :: _ =>
                if isBreak y then
                  .ok ([], .foldedLine, c.skip.skipBreak)
                else do
                  let (z, next) ← escape start c c.skip
                  let (cs, stop, c) ← quotedRun single start fuel next
                  .ok (z :: cs, stop, c)
            | [] => c.fail start .unknownEscape
          else do
            let (cs, stop, c) ← quotedRun single start fuel c.skip
            .ok (x :: cs, stop, c)

/- Read the inside of a quoted scalar and the closing quote. -/
def quotedFrom
    (single : Bool)
    (start : Mark) : (fuel : Nat) → (value : List Char) → Cursor →
      Except Error (List Char × Cursor)
  | 0, _, c => c.fail start .endInQuotes
  | fuel + 1, value, c =>
      if c.atDocument then
        c.fail start .documentInQuotes
      else if c.atEnd then
        c.fail start .endInQuotes
      else do
        let (cs, stop, c) ← quotedRun single start (c.rest.length + 1) c
        let value := value ++ cs
        if stop == .gap && c.at? (if single then '\'' else '"') then
          .ok (value, c.skip)
        else
          let gap : Gap := { broken := stop == .foldedLine }
          match gap.read 0 (c.rest.length + 1) c with
          | .error c => c.fail start .endInQuotes
          | .ok (gap, c) =>
              quotedFrom single start fuel (value ++ gap.text) c

/- Read a quoted scalar. -/
def quotedScalar
    (single : Bool)
    (c : Cursor) : Except Error (List Char × Cursor) :=
  quotedFrom single c.mark (c.rest.length + 1) [] c.skip

------------------------------------------------------------
-- Block Scalars
------------------------------------------------------------

/- What happens to the line ends at the end of a block. -/
inductive Chomp where
  | strip
  | clip
  | keep
deriving DecidableEq, Repr

/- What a sign in the head of a block asks for. -/
def chomp? : Char → Option Chomp
  | '+' => some .keep
  | '-' => some .strip
  | _ => none

/- Read a sign, if there is one. -/
def readChomp
    (c : Cursor) : Option Chomp × Cursor :=
  match c.rest.head?.bind chomp? with
  | some k => (some k, c.skip)
  | none => (none, c)

/- Read a digit that tells the indent, if there is one. -/
def readIncrement
    (start : Mark)
    (c : Cursor) : Except Error (Nat × Cursor) :=
  match c.rest with
  | [] => .ok (0, c)
  | x :: _ =>
      if x == '0' then
        c.fail start .zeroIndent
      else if isDigit x then
        .ok (x.toNat - 0x30, c.skip)
      else
        .ok (0, c)

/- Read the head of a block: a sign and a digit in any order. -/
def blockHead
    (start : Mark)
    (c : Cursor) : Except Error (Chomp × Nat × Cursor) := do
  match readChomp c with
  | (some k, c) =>
      let (n, c) ← readIncrement start c
      .ok (k, n, c)
  | (none, c) =>
      let (n, c) ← readIncrement start c
      if n = 0 then
        .ok (.clip, 0, c)
      else
        let (k, c) := readChomp c
        .ok (k.getD .clip, n, c)

/-
  Read the indents of lines and the lines that are empty.  An
  indent of 0 is not known yet.  The third result is the
  largest column seen.
-/
def blockBreaks
    (indent : Nat)
    (start : Mark) : (fuel : Nat) → (largest : Nat) → Cursor →
      Except Error (List Char × Nat × Cursor)
  | 0, largest, c => .ok ([], largest, c)
  | fuel + 1, largest, c => do
      let spaces := (c.rest.takeWhile (· == ' ')).length
      let wanted :=
        if indent = 0 then spaces else min spaces (indent - c.mark.column)
      let c := c.advance wanted
      let largest := max largest c.mark.column
      if (indent = 0 || c.mark.column < indent) && c.at? '\t' then
        c.fail start .tabInIndent
      else if !c.atEnd && endsLine c.rest then
        let (cs, c) := c.takeBreak
        let (more, largest, c) ← blockBreaks indent start fuel largest c
        .ok (cs ++ more, largest, c)
      else
        .ok ([], largest, c)

/-
  Read the lines of a block.  `first` is the end of the line
  before, `later` are the empty lines behind it.
-/
def blockLines
    (folded : Bool)
    (indent : Nat)
    (start : Mark) : (fuel : Nat) → (value first later : List Char) →
      (wasBlank : Bool) → Cursor →
      Except Error (List Char × List Char × List Char × Cursor)
  | 0, value, first, later, _, c => .ok (value, first, later, c)
  | fuel + 1, value, first, later, wasBlank, c =>
      if c.mark.column = indent && !c.atEnd then do
        let blank := (c.rest.head?.map isBlank).getD false
        let joint :=
          if folded && !wasBlank && !blank && first.head? == some '\n' then
            if later.isEmpty then [' '] else []
          else
            first
        let line := c.rest.takeWhile fun x => !isBreak x
        let (first, c) := (c.advance line.length).takeBreak
        let value' := value ++ joint ++ later ++ line
        let (later, _, c) ←
          blockBreaks indent start (c.rest.length + 1) 0 c
        blockLines folded indent start fuel value' first later blank c
      else
        .ok (value, first, later, c)

/- Read a block scalar in a part with a given indent. -/
def blockScalar
    (folded : Bool)
    (parent : Int)
    (c : Cursor) : Except Error (List Char × Cursor) := do
  let start := c.mark
  let (chomp, increment, c) ← blockHead start c.skip
  let c := c.skipBlanks
  let c := if c.at? '#' then c.skipLine else c
  if !endsLine c.rest then
    c.fail start .noLineEnd
  else
    let c := c.skipBreak
    let known :=
      if increment = 0 then 0 else parent.toNat + increment
    let (later, largest, c) ←
      blockBreaks known start (c.rest.length + 1) 0 c
    let indent :=
      if known = 0 then
        max (max largest (parent + 1).toNat) 1
      else
        known
    let (value, first, later, c) ←
      blockLines folded indent start (c.rest.length + 1) [] [] later
        false c
    match chomp with
    | .strip => .ok (value, c)
    | .clip => .ok (value ++ first, c)
    | .keep => .ok (value ++ first ++ later, c)

end Yaml

end Namesake
