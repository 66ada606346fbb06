import Namesake.Text.Letter

/-
  This file defines semantic versions, as far as it matters
  whether a text is one.

  Key definitions include:
    * `Version.number?`
    * `Version.isPreRelease`
    * `Version.isBuild`
    * `Version.isVersion`
-/

namespace Namesake

namespace Version

------------------------------------------------------------
-- Parts
------------------------------------------------------------

/- A decimal digit. -/
def isNumeral
    (b : UInt8) : Bool :=
  isAsciiDigit b.toNat

/- A letter, digit or hyphen. -/
def isIdentifierByte
    (b : UInt8) : Bool :=
  isAsciiLetter b.toNat || isNumeral b || b == 0x2d

/- A number with a superfluous leading zero. -/
def hasLeadingZero
    (s : Bytes) : Bool :=
  s.length > 1 && s.head? == some 0x30

/- Drop a decimal number without superfluous zeros. -/
def number?
    (s : Bytes) : Option Bytes :=
  let digits := s.takeWhile isNumeral
  if digits.isEmpty || hasLeadingZero digits then
    none
  else
    some (s.dropWhile isNumeral)

/- A non-empty identifier. -/
def isIdentifier
    (s : Bytes) : Bool :=
  !s.isEmpty && s.all isIdentifierByte

/- A build: identifiers between dots. -/
def isBuild
    (s : Bytes) : Bool :=
  (s.splitOn 0x2e).all isIdentifier

/- A pre-release: a build in which numbers have no superfluous zero. -/
def isPreRelease
    (s : Bytes) : Bool :=
  (s.splitOn 0x2e).all fun part =>
    isIdentifier part && !(part.all isNumeral && hasLeadingZero part)

------------------------------------------------------------
-- Versions
------------------------------------------------------------

/- What may follow the patch number. -/
def isSuffix
    (s : Bytes) : Bool :=
  match s with
  | [] => true
  | 0x2b :: build => isBuild build
  | 0x2d :: rest =>
      let pre := rest.takeWhile (· ≠ 0x2b)
      match rest.dropWhile (· ≠ 0x2b) with
      | [] => isPreRelease pre
      | _ :: build => isPreRelease pre && isBuild build
  | _ => false

/- What may follow the major number; `more` numbers may follow. -/
def isTail : (more : Nat) → Bytes → Bool
  | 0, s => isSuffix s
  | _ + 1, [] => true
  | more + 1, b :: s =>
      if b = 0x2e then
        match number? s with
        | some rest => isTail more rest
        | none => false
      else
        false

/- Is this a semantic version, with or without a leading `v`? -/
def isVersion
    (s : Bytes) : Bool :=
  let s := (List.isPrefixOf? [0x76] s).getD s
  match number? s with
  | some rest => isTail 2 rest
  | none => false

end Version

end Namesake
