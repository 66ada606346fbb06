import Namesake.Position

/-
  This file defines requested aliases: the names under which
  a declaration is repeated, each with an optional
  deprecation.

  Key definitions include:
    * `Deprecation`
    * `Alias`
    * `Alias.names`
-/

namespace Namesake

------------------------------------------------------------
-- Aliases
------------------------------------------------------------

/-
  What is known about a deprecation.  An absent text differs
  from an empty one.
-/
structure Deprecation where
  since : Option Bytes := none
  note : Option Bytes := none
deriving DecidableEq, Repr

/- One requested duplicate; without a deprecation it is plain. -/
structure Alias where
  name : Bytes
  deprecation : Option Deprecation := none
  span : Span := {}
deriving DecidableEq, Repr

namespace Alias

/- The names of a list of aliases, in order. -/
def names
    (aliases : List Alias) : List Bytes :=
  aliases.map Alias.name

end Alias

end Namesake
