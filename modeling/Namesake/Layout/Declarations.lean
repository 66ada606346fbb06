import Namesake.Layout.Expressions
import Namesake.Text.Printable
import Namesake.Text.Quoted

/-
  This file defines the layout of declarations other than
  functions.

  Key definitions include:
    * `Layout.importPath`
    * `Layout.keepTypes`
    * `Layout.valueSpec`
    * `Layout.spec`
    * `Layout.genDecl`
-/

namespace Namesake

namespace Layout

open Source (Expr Spec GenDecl Ident Lit)

------------------------------------------------------------
-- Imports
------------------------------------------------------------

/- The bytes that stand in no import path. -/
def isIllegalInPath
    (g : Glyph) : Bool :=
  (utf8 "!\"#$%&'()*,:;<=>?[\\]^\x7b|\x7d`\uFFFD").glyphs.any
    fun h => h.code == g.code

/- May a character stand in an import path? -/
def isPathGlyph
    (g : Glyph) : Bool :=
  isPrintable g.code && !g.isSpace && !isIllegalInPath g

/- The standard form of an import path: in double quotes. -/
def importPath
    (value : Bytes) : Bytes :=
  match Quoted.decode? value with
  | some s =>
      if !s.isEmpty && s.glyphs.all isPathGlyph then
        Quoted.encode s
      else
        value
  | none => value

------------------------------------------------------------
-- Values
------------------------------------------------------------

/- Does an item give values? -/
def hasValues : Spec → Bool
  | .value _ _ _ values _ => !values.isEmpty
  | _ => false

/- Does an item give a type? -/
def hasType : Spec → Bool
  | .value _ _ type _ _ => type.isSome
  | _ => false

/-
  Which items keep a column for their type?  In a run of items
  with values all of them do if one has a type.
-/
def keepTypes
    (specs : List Spec) : List Bool :=
  (specs.splitBy fun a b => hasValues a == hasValues b).flatMap fun run =>
    run.map fun s => hasValues s && run.any hasType

/- The values of an item. -/
def valueList
    (g : Nodes)
    (values : List Expr) : Printer Unit := do
  token .assign
  blank
  exprList g none values 1 {} none

/- An item with values in a group, in columns. -/
def valueSpec
    (g : Nodes)
    (names : List Ident)
    (type : Option Expr)
    (values : List Expr)
    (commented keepType : Bool) : Printer Unit := do
  identList g names false
  let typed := type.isSome || keepType
  if typed then
    space .vtab
  if let some t := type then
    g.top t
  unless values.isEmpty do
    space .vtab
    valueList g values
  if commented then
    let used := (if typed then 1 else 0) + (if values.isEmpty then 0 else 1)
    (List.replicate (3 - used) Space.vtab).forM space

/- An item that stands alone, or in a group of `n` items. -/
def spec
    (g : Nodes)
    (n : Nat)
    (indent : Bool)
    (s : Spec) : Printer Unit := do
  match s with
  | .imported _ id path _ =>
      if let some id := id then
        ident id
        blank
      moveTo path.pos
      literal path.kind (importPath path.value)
      moveTo path.stop
  | .value _ names type values _ =>
      identList g names indent
      if let some t := type then
        blank
        g.top t
      unless values.isEmpty do
        blank
        valueList g values
  | .type _ id params assign t _ =>
      ident id
      if let some ps := params then
        parameters g ps .typeTypes
      if n = 1 then
        blank
      else
        space .vtab
      if assign.isSome then
        token .assign
        blank
      g.top t

/- An item of a group of constants or variables. -/
def groupedValue
    (g : Nodes)
    (s : Spec × Bool) : Printer Unit :=
  match s.1 with
  | .value _ names type values comment =>
      valueSpec g names type values comment.isSome s.2
  | other => spec g 2 false other

------------------------------------------------------------
-- Groups
------------------------------------------------------------

/- The items of a group. -/
def specGroup
    (g : Nodes)
    (d : GenDecl) : Printer Unit := do
  let n := d.specs.length
  unless n = 0 do
    space .indent
    space .formfeed
    if n > 1 && (d.keyword == .kwConst || d.keyword == .kwVar) then
      lineList (fun (s : Spec × Bool) => s.1.pos) (groupedValue g) none
        (d.specs.zip (keepTypes d.specs))
    else
      lineList Source.SpecOf.pos (spec g n false) none d.specs
    space .unindent
    space .formfeed

/- A declaration other than a function. -/
def genDecl
    (g : Nodes)
    (d : GenDecl) : Printer Unit := do
  moveTo d.pos
  token d.keyword
  blank
  match d.lparen, d.specs with
  | none, [s] => spec g 1 true s
  | lparen, _ =>
      moveTo? lparen
      token .leftParen
      specGroup g d
      moveTo? d.rparen
      token .rightParen

end Layout

end Namesake
