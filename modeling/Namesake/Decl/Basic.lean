import Namesake.Text.Bytes

/-
  This file defines declarations as far as renaming is
  concerned: the names they introduce, the receiver of a
  method, and the comment lines in front of them.

  Key definitions include:
    * `TypeExpr`
    * `TypeExpr.leading?`
    * `TypeExpr.withLeading`
    * `Decl.Spec`
    * `Decl.Body`
    * `Decl`
-/

namespace Namesake

------------------------------------------------------------
-- Type Expressions
------------------------------------------------------------

/- The shape of a type that is not built from named types. -/
inductive TypeShape where
  | func
  | struct
  | interface
  | unknown
deriving DecidableEq, Repr

/- A type as written in a receiver or a type declaration. -/
inductive TypeExpr where
  | missing
  | ident (name : Bytes)
  | star (x : TypeExpr)
  | paren (x : TypeExpr)
  | index (x arg : TypeExpr)
  | indexList (x : TypeExpr) (args : List TypeExpr)
  | selector (x : TypeExpr) (name : Bytes)
  | array (elem : TypeExpr)
  | chan (elem : TypeExpr)
  | map (key value : TypeExpr)
  | other (shape : TypeShape)
deriving Inhabited

namespace TypeExpr

/-
  The leading name of a type, through pointers, parentheses,
  type arguments and the left sides of selectors.
-/
def leading? : TypeExpr → Option Bytes
  | .ident name => some name
  | .star x => leading? x
  | .paren x => leading? x
  | .index x _ => leading? x
  | .indexList x _ => leading? x
  | .selector x _ => leading? x
  | _ => none

/- Replace the leading name of a type that has one. -/
def withLeading
    (name : Bytes) : TypeExpr → TypeExpr
  | .ident _ => .ident name
  | .star x => .star (withLeading name x)
  | .paren x => .paren (withLeading name x)
  | .index x arg => .index (withLeading name x) arg
  | .indexList x args => .indexList (withLeading name x) args
  | .selector x sel => .selector (withLeading name x) sel
  | x => x

/- Is this a struct type? -/
def isStruct : TypeExpr → Bool
  | .other .struct => true
  | _ => false

/- Is this an interface type? -/
def isInterface : TypeExpr → Bool
  | .other .interface => true
  | _ => false

end TypeExpr

------------------------------------------------------------
-- Declarations
------------------------------------------------------------

namespace Decl

/- The word that opens a declaration other than a function. -/
inductive Keyword where
  | typeKeyword
  | constKeyword
  | varKeyword
  | importKeyword
  | unknown
deriving DecidableEq, Repr

/- How a keyword is shown in messages. -/
def Keyword.spelling : Keyword → Bytes
  | .typeKeyword => utf8 "type"
  | .constKeyword => utf8 "const"
  | .varKeyword => utf8 "var"
  | .importKeyword => utf8 "import"
  | .unknown => utf8 "ILLEGAL"

/- One item of a declaration. -/
inductive Spec where
  | typeSpec (name : Bytes) (assign : Bool) (expr : TypeExpr)
  | valueSpec (names : List Bytes)
  | importSpec (path : Bytes)

/- What is declared. -/
inductive Body where
  | func (name : Bytes) (receiver : Option (List TypeExpr))
  | general (keyword : Keyword) (specs : List Spec)
  | bad

/- The blank space in front of a declaration. -/
inductive Spacing where
  | none
  | newLine
  | emptyLine
deriving DecidableEq, Repr

/-
  The written form of a declaration.  If `tail` is present,
  the identifying name stands between `head` and `tail`.
-/
structure Written where
  head : Bytes := []
  tail : Option Bytes := none

end Decl

/-
  A declaration: what it declares, the comment lines in front
  of it, where a line feed alone stands for a blank line, the
  space in front of it, and its written form.
-/
structure Decl where
  body : Decl.Body
  start : List Bytes := []
  before : Decl.Spacing := .none
  written : Decl.Written := {}

namespace Decl

/- Can comment lines of the declaration be changed? -/
def isBad
    (d : Decl) : Bool :=
  match d.body with
  | .bad => true
  | _ => false

/- Replace the comment lines; a bad declaration keeps its own. -/
def withStart
    (d : Decl)
    (start : List Bytes) : Decl :=
  if d.isBad then d else { d with start }

/- Is this an import declaration? -/
def isImport
    (d : Decl) : Bool :=
  match d.body with
  | .general .importKeyword _ => true
  | _ => false

end Decl

end Namesake
