import Namesake.Alias.Basic
import Namesake.Text.Quoted

/-
  This file defines the detailed listing of an alias list.

  Key definitions include:
    * `Dump.capacity`
    * `Dump.aliases`
-/

namespace Namesake

namespace Dump

/- The number of aliases for which there is space at each size. -/
def sizes : List Nat :=
  [1, 2, 4, 8, 17, 39, 78, 157, 315, 630]

/- The space that a list of a length takes. -/
def capacity
    (length : Nat) : Nat :=
  (sizes.find? (length ≤ ·)).getD length

/- A length in parentheses; none if it is zero. -/
def lengthText
    (n : Nat) : Bytes :=
  if n = 0 then [] else utf8 "(len=" ++ Bytes.ofNat n ++ utf8 ") "

/- What stands for the address of a value. -/
def address : Bytes :=
  utf8 "(0xADDR)"

/- A text that may be absent. -/
def optionalText : Option Bytes → Bytes
  | none => utf8 "(*string)(<nil>)"
  | some s =>
      utf8 "(*string)" ++ address ++ utf8 "(" ++ lengthText s.length ++
        Quoted.encode s ++ utf8 ")"

/- A deprecation that may be absent. -/
def deprecation : Option Deprecation → Bytes
  | none => utf8 "(*directive.Deprecation)(<nil>)"
  | some d =>
      utf8 "(*directive.Deprecation)" ++ address ++ utf8 "(\x7b\n" ++
        utf8 "   Since: " ++ optionalText d.since ++ utf8 ",\n" ++
        utf8 "   Note: " ++ optionalText d.note ++ utf8 "\n" ++
        utf8 "  \x7d)"

/- One alias. -/
def entry
    (a : Alias) : Bytes :=
  utf8 " (directive.AliasSpec) \x7b\n" ++
    utf8 "  Name: (string) " ++ lengthText a.name.length ++
    Quoted.encode a.name ++ utf8 ",\n" ++
    utf8 "  Deprecation: " ++ deprecation a.deprecation ++ utf8 ",\n" ++
    utf8 "  Span: (diagnostic.Span) " ++ a.span.text ++ utf8 "\n" ++
    utf8 " \x7d"

/- A list of aliases. -/
def aliases
    (list : List Alias) : Bytes :=
  utf8 "(directive.AliasList) (len=" ++ Bytes.ofNat list.length ++
    utf8 " cap=" ++ Bytes.ofNat (capacity list.length) ++
    utf8 ") \x7b\n" ++ Bytes.join (utf8 ",\n") (list.map entry) ++
    utf8 "\n\x7d\n"

end Dump

end Namesake
