import Namesake.Text.Bytes

/-
  This file defines how the program names its own version.

  Key definitions include:
    * `Release.number`
    * `Release.description`
-/

namespace Namesake

namespace Release

/- The version number. -/
def number : Bytes :=
  utf8 "0.1.0"

/- The version with the state it was built from. -/
def description : Bytes :=
  utf8 "version: " ++ number ++
    utf8 ", commit: none, built at: unknown"

end Release

end Namesake
