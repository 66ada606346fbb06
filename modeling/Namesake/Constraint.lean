import Namesake.Text.Blank
import Namesake.Text.Letter

/-
  This file defines build constraints: the conditions under
  which a file takes part in a build, in their two written
  forms, `//go:build` and `// +build`.

  Key definitions include:
    * `Constraint`
    * `Constraint.goBuild?`
    * `Constraint.plusBuild?`
    * `Constraint.parse?`
    * `Constraint.text`
    * `Constraint.plusLines`
    * `Constraint.eval`
-/

namespace Namesake

------------------------------------------------------------
-- Conditions
------------------------------------------------------------

/- A condition on build tags. -/
inductive Constraint where
  | tag (name : Bytes)
  | not (x : Constraint)
  | and (x y : Constraint)
  | or (x y : Constraint)
deriving DecidableEq, Repr

namespace Constraint

/- Does a condition hold for the tags that satisfy `ok`? -/
def eval
    (ok : Bytes → Bool) : Constraint → Bool
  | .tag name => ok name
  | .not x => !eval ok x
  | .and x y => eval ok x && eval ok y
  | .or x y => eval ok x || eval ok y

/- Put a text in parentheses. -/
def parens
    (s : Bytes) : Bytes :=
  [0x28] ++ s ++ [0x29]

/- Is this an alternative? -/
def isOr : Constraint → Bool
  | .or _ _ => true
  | _ => false

/- Is this a conjunction? -/
def isAnd : Constraint → Bool
  | .and _ _ => true
  | _ => false

/- An operand, in parentheses if it needs them. -/
def operand
    (needed : Bool)
    (s : Bytes) : Bytes :=
  if needed then parens s else s

/- The text of a condition behind `//go:build`. -/
def text : Constraint → Bytes
  | .tag name => name
  | .not x => [0x21] ++ operand (x.isAnd || x.isOr) x.text
  | .and x y =>
      operand x.isOr x.text ++ utf8 " && " ++ operand y.isOr y.text
  | .or x y =>
      operand x.isAnd x.text ++ utf8 " || " ++ operand y.isAnd y.text

------------------------------------------------------------
-- Lines
------------------------------------------------------------

/- The rest of a line whose first word ends here. -/
def afterWord?
    (rest : Bytes) : Option Bytes :=
  let trimmed := Bytes.trimSpace rest
  if trimmed.length == rest.length && !rest.isEmpty then
    none
  else
    some trimmed

/- The text behind `//go:build`. -/
def goBuild?
    (line : Bytes) : Option Bytes :=
  if line.contains 0x0a then
    none
  else
    match (utf8 "//go:build").isPrefixOf? line with
    | some _ =>
        ((utf8 "//go:build").isPrefixOf? (Bytes.trimSpace line)).bind
          afterWord?
    | none => none

/- The text behind `// +build`. -/
def plusBuild?
    (line : Bytes) : Option Bytes :=
  if line.contains 0x0a then
    none
  else
    match (utf8 "//").isPrefixOf? line with
    | some rest =>
        ((utf8 "+build").isPrefixOf? (Bytes.trimSpace rest)).bind
          afterWord?
    | none => none

------------------------------------------------------------
-- Tokens
------------------------------------------------------------

/- The words of a condition. -/
inductive Word where
  | tag (name : Bytes)
  | left
  | right
  | bang
  | and
  | or
deriving DecidableEq, Repr

/- A character of a tag. -/
def isTagGlyph
    (g : Glyph) : Bool :=
  isLetter g.code || isDigit g.code || g.code == 0x5f || g.code == 0x2e

/- Read words; there are none if a character is out of place. -/
def wordsFrom? : (fuel : Nat) → Bytes → Option (List Word)
  | 0, _ => none
  | _, [] => some []
  | fuel + 1, b :: s =>
      if b == 0x20 || b == 0x09 then
        wordsFrom? fuel s
      else if b == 0x28 then
        (wordsFrom? fuel s).map (Word.left :: ·)
      else if b == 0x29 then
        (wordsFrom? fuel s).map (Word.right :: ·)
      else if b == 0x21 then
        (wordsFrom? fuel s).map (Word.bang :: ·)
      else if b == 0x26 then
        match s with
        | 0x26 :: rest => (wordsFrom? fuel rest).map (Word.and :: ·)
        | _ => none
      else if b == 0x7c then
        match s with
        | 0x7c :: rest => (wordsFrom? fuel rest).map (Word.or :: ·)
        | _ => none
      else
        let name :=
          ((Bytes.glyphs (b :: s)).takeWhile isTagGlyph).flatMap Glyph.bytes
        if name.isEmpty then
          none
        else
          (wordsFrom? fuel ((b :: s).drop name.length)).map
            (Word.tag name :: ·)

/- The words of a text. -/
def words?
    (s : Bytes) : Option (List Word) :=
  wordsFrom? (s.length + 1) s

------------------------------------------------------------
-- Parsing
------------------------------------------------------------

mutual

/- Alternatives. -/
def orExpr? : (fuel : Nat) → List Word → Option (Constraint × List Word)
  | 0, _ => none
  | fuel + 1, ws =>
      match andExpr? fuel ws with
      | some (x, rest) => orRest? fuel x rest
      | none => none

/- Further alternatives. -/
def orRest? : (fuel : Nat) → Constraint → List Word →
    Option (Constraint × List Word)
  | 0, _, _ => none
  | fuel + 1, x, .or :: ws =>
      match andExpr? fuel ws with
      | some (y, rest) => orRest? fuel (.or x y) rest
      | none => none
  | _, x, ws => some (x, ws)

/- A conjunction. -/
def andExpr? : (fuel : Nat) → List Word → Option (Constraint × List Word)
  | 0, _ => none
  | fuel + 1, ws =>
      match notExpr? fuel ws with
      | some (x, rest) => andRest? fuel x rest
      | none => none

/- Further members of a conjunction. -/
def andRest? : (fuel : Nat) → Constraint → List Word →
    Option (Constraint × List Word)
  | 0, _, _ => none
  | fuel + 1, x, .and :: ws =>
      match notExpr? fuel ws with
      | some (y, rest) => andRest? fuel (.and x y) rest
      | none => none
  | _, x, ws => some (x, ws)

/- A negation or an atom; no negation is negated again. -/
def notExpr? : (fuel : Nat) → List Word → Option (Constraint × List Word)
  | 0, _ => none
  | _, .bang :: .bang :: _ => none
  | fuel + 1, .bang :: ws =>
      (atom? fuel ws).map fun r => (.not r.1, r.2)
  | fuel + 1, ws => atom? fuel ws

/- A tag or a condition in parentheses. -/
def atom? : (fuel : Nat) → List Word → Option (Constraint × List Word)
  | 0, _ => none
  | _, .tag name :: ws => some (.tag name, ws)
  | fuel + 1, .left :: ws =>
      match orExpr? fuel ws with
      | some (x, .right :: rest) => some (x, rest)
      | _ => none
  | _, _ => none

end

/- The condition that is written behind `//go:build`. -/
def parseExpr?
    (s : Bytes) : Option Constraint :=
  match words? s with
  | none => none
  | some ws =>
      match orExpr? (8 * ws.length + 8) ws with
      | some (x, []) => some x
      | _ => none

/- A tag of the old form; a text that is none reads as `ignore`. -/
def oldTag
    (s : Bytes) : Constraint :=
  if !s.isEmpty && s.glyphs.all isTagGlyph then
    .tag s
  else
    .tag (utf8 "ignore")

/- A tag of the old form, perhaps negated. -/
def oldLiteral
    (s : Bytes) : Constraint :=
  if s.startsWith (utf8 "!!") || s == utf8 "!" then
    .tag (utf8 "ignore")
  else
    match s with
    | 0x21 :: rest => .not (oldTag rest)
    | s => oldTag s

/- Combine conditions from the left. -/
def combine
    (op : Constraint → Constraint → Constraint) :
    List Constraint → Option Constraint
  | [] => none
  | x :: xs => some (xs.foldl op x)

/- The fields of a text, which white space separates. -/
def fields
    (s : Bytes) : List Bytes :=
  ((s.glyphs.splitBy fun a b => a.isSpace == b.isSpace).filter
    fun gs => gs.all fun g => !g.isSpace).map fun gs =>
      gs.flatMap Glyph.bytes

/- The condition that is written behind `// +build`. -/
def parseOld
    (s : Bytes) : Constraint :=
  let clauses := (fields s).filterMap fun clause =>
    combine .and ((clause.splitOn 0x2c).map oldLiteral)
  (combine .or clauses).getD (.tag (utf8 "ignore"))

/- The condition of a line in either form. -/
def parse?
    (line : Bytes) : Option Constraint :=
  match goBuild? line with
  | some s => parseExpr? s
  | none => (plusBuild? line).map parseOld

------------------------------------------------------------
-- The Old Form
------------------------------------------------------------

/- Move negations to the tags. -/
def pushNot
    (negated : Bool) : Constraint → Constraint
  | .tag name => if negated then .not (.tag name) else .tag name
  | .not x => pushNot (!negated) x
  | .and x y =>
      if negated then
        .or (pushNot negated x) (pushNot negated y)
      else
        .and (pushNot negated x) (pushNot negated y)
  | .or x y =>
      if negated then
        .and (pushNot negated x) (pushNot negated y)
      else
        .or (pushNot negated x) (pushNot negated y)

/- The members of a conjunction. -/
def splitAnd : Constraint → List Constraint
  | .and x y => splitAnd x ++ splitAnd y
  | x => [x]

/- The members of an alternative. -/
def splitOr : Constraint → List Constraint
  | .or x y => splitOr x ++ splitOr y
  | x => [x]

/- Is this a tag or a negated tag? -/
def isLiteral : Constraint → Bool
  | .tag _ => true
  | .not _ => true
  | _ => false

/-
  The lines of the old form of a condition.  Each line is an
  alternative of conjunctions of tags; there are none if the
  condition has no such form.
-/
def plusLines?
    (x : Constraint) : Option (List Bytes) :=
  let split := (splitAnd (pushNot false x)).map fun o =>
    (splitOr o).map splitAnd
  if split.any fun o => o.any fun a => a.any fun l => !l.isLiteral then
    none
  else
    let split :=
      if split.all fun o => o.length ≤ 1 then [[split.flatten.flatten]]
      else split
    some
      (split.map fun o =>
        utf8 "// +build" ++
          o.flatMap fun a => 0x20 :: Bytes.join [0x2c] (a.map text))

/- The lines of the old form, or a line that says there are none. -/
def plusLines
    (x : Constraint) : List Bytes :=
  (plusLines? x).getD
    [utf8 "// +build error: expression too complex for // +build lines"]

end Constraint

end Namesake
