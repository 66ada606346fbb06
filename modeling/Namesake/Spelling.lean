import Namesake.Text.LowerCase

/-
  This file defines spelling suggestions: the candidate that
  a misspelt word was most likely meant to be.

  Key definitions include:
    * `Spelling.nextRow`
    * `Spelling.distance`
    * `Spelling.closest?`
-/

namespace Namesake

namespace Spelling

------------------------------------------------------------
-- Edit Distance
------------------------------------------------------------

variable {α : Type} [DecidableEq α]

/-
  Continue a row of the distance table.  `diagonal` and `left`
  are the entries up and left of the next one and to its left.
-/
def continueRow
    (b : α) : List α → (above : List Nat) → (diagonal left : Nat) → List Nat
  | a :: s, up :: above, diagonal, left =>
      let entry :=
        min (min (up + 1) (left + 1))
          (diagonal + if a = b then 0 else 1)
      entry :: continueRow b s above up entry
  | _, _, _, _ => []

/- The row of the distance table below `above`. -/
def nextRow
    (s : List α)
    (above : List Nat)
    (b : α) : List Nat :=
  match above with
  | [] => []
  | first :: above =>
      (first + 1) :: continueRow b s above first (first + 1)

/-
  The least number of insertions, deletions and substitutions
  that turn one list into another.
-/
def distance
    (s t : List α) : Nat :=
  (t.foldl (nextRow s) (List.range (s.length + 1))).getLast?.getD 0

------------------------------------------------------------
-- Suggestions
------------------------------------------------------------

/- The largest distance of a suggestion. -/
def largestDistance : Nat :=
  2

/- The case-insensitive distance of two texts, in characters. -/
def textDistance
    (s t : Bytes) : Nat :=
  distance (s.toLower.glyphs.map Glyph.code)
    (t.toLower.glyphs.map Glyph.code)

/-
  Is a candidate at this distance a likely spelling?  At half
  the word or more it is a different word.
-/
def isEligible
    (word candidate : Bytes)
    (d : Nat) : Bool :=
  d ≤ largestDistance && d * 2 < max word.length candidate.length

/- Keep the better of the best candidate so far and a new one. -/
def better
    (word : Bytes)
    (best : Option (Bytes × Nat))
    (candidate : Bytes) : Option (Bytes × Nat) :=
  let d := textDistance word candidate
  if isEligible word candidate d then
    match best with
    | none => some (candidate, d)
    | some (c, e) => if d < e then some (candidate, d) else some (c, e)
  else
    best

/-
  The eligible candidate of least distance, the first of
  several; none if the word is itself a candidate.
-/
def closest?
    (word : Bytes)
    (candidates : List Bytes) : Option Bytes :=
  if candidates.contains word then
    none
  else
    (candidates.foldl (better word) none).map Prod.fst

end Spelling

end Namesake
