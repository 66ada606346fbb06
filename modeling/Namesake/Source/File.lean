import Namesake.Decl.Kind
import Namesake.Directive
import Namesake.Source.Gap
import Namesake.Source.Parser.File

/-
  This file defines source files as lists of declarations with
  their comments and positions, and the declarations in them
  that carry a directive.

  Key definitions include:
    * `Source.Item`
    * `Source.File`
    * `Source.File.parse`
    * `Source.Site`
    * `Source.File.sites`
-/

namespace Namesake

namespace Source

------------------------------------------------------------
-- Declarations
------------------------------------------------------------

/- The shape of an expression that is used as a type. -/
def Expr.toTypeExpr : Expr → TypeExpr
  | .ident id => .ident id.name
  | .star _ x => .star x.toTypeExpr
  | .paren _ x _ => .paren x.toTypeExpr
  | .index x _ args _ =>
      match toTypeExprs args with
      | [arg] => .index x.toTypeExpr arg
      | args => .indexList x.toTypeExpr args
  | .selector x sel => .selector x.toTypeExpr sel.name
  | .array _ _ elt => .array elt.toTypeExpr
  | .chan _ _ _ v => .chan v.toTypeExpr
  | .map _ k v => .map k.toTypeExpr v.toTypeExpr
  | .func _ => .other .func
  | .struct _ _ => .other .struct
  | .interface _ _ => .other .interface
  | _ => .other .unknown
where
  /- The shapes of several expressions. -/
  toTypeExprs : List Expr → List TypeExpr
    | [] => []
    | x :: xs => x.toTypeExpr :: toTypeExprs xs

/- The leading name of a type, where it is written. -/
def Expr.leading? : Expr → Option Ident
  | .ident id => some id
  | .star _ x => x.leading?
  | .paren _ x _ => x.leading?
  | .index x _ _ _ => x.leading?
  | .selector x _ => x.leading?
  | _ => none

/- The type of a field, if it is written. -/
def FieldOf.toTypeExpr
    (f : Field) : TypeExpr :=
  (f.type.map Expr.toTypeExpr).getD .missing

/- The item of a declaration as far as renaming is concerned. -/
def SpecOf.toSpec : Spec → Decl.Spec
  | .imported _ _ path _ => .importSpec path.value
  | .value _ names _ _ _ => .valueSpec (names.map Ident.name)
  | .type _ name _ assign t _ =>
      .typeSpec name.name assign.isSome t.toTypeExpr

/- The keyword of a declaration. -/
def keywordOf : TokenKind → Decl.Keyword
  | .kwType => .typeKeyword
  | .kwConst => .constKeyword
  | .kwVar => .varKeyword
  | .kwImport => .importKeyword
  | _ => .unknown

namespace TopDecl

/- What a declaration declares. -/
def toBody : TopDecl → Decl.Body
  | .bad _ _ => .bad
  | .gen d => .general (keywordOf d.keyword) (d.specs.map SpecOf.toSpec)
  | .func d =>
      .func d.name.name
        (d.recv.map fun r => r.list.map FieldOf.toTypeExpr)

/- The type of the receiver of a method. -/
def receiver? : TopDecl → Option Expr
  | .func d =>
      match d.recv with
      | some r => (r.list.head?).bind FieldOf.type
      | none => none
  | _ => none

/- The identifying name of a declaration, where it is written. -/
def identifier? : TopDecl → Option Ident
  | .bad _ _ => none
  | .gen d =>
      match d.keyword, d.specs with
      | .kwType, [.type _ name _ _ _ _] => some name
      | .kwConst, [.value _ [name] _ _ _] => some name
      | _, _ => none
  | .func d =>
      match d.recv with
      | none => some d.name
      | some r => ((r.list.head?).bind FieldOf.type).bind Expr.leading?

end TopDecl

/- The bytes of a text from one offset up to another. -/
def slice
    (src : Bytes)
    (pos stop : Nat) : Bytes :=
  (src.drop pos).take (stop - pos)

/- The written form of a declaration that reaches up to `stop`. -/
def TopDecl.written
    (d : TopDecl)
    (src : Bytes)
    (stop : Nat) : Decl.Written :=
  match d.identifier? with
  | some id =>
      { head := slice src d.pos id.pos
        tail := some (slice src id.stop stop) }
  | none => { head := slice src d.pos stop }

------------------------------------------------------------
-- Files
------------------------------------------------------------

/-
  A declaration of a file, the lines of its doc comment and
  the places of its parts.
-/
structure Item where
  decl : Decl
  doc : List DocLine
  locate : Decl.Locator

/-
  A source file: its path, the comment lines above its package
  clause, the text up to the end of that clause, the name of
  the package, whether the file says that it is generated, and
  its declarations.
-/
structure File where
  path : Bytes
  header : List Bytes
  preamble : Bytes
  package : Bytes
  generated : Bool
  items : List Item

/- Why a file cannot be read as source. -/
structure Failure where
  path : Bytes
  reason : Bytes
deriving DecidableEq, Repr

/- The wording of a failure. -/
def Failure.message
    (e : Failure) : Bytes :=
  utf8 "parsing " ++ e.path ++ utf8 ": " ++ e.reason

namespace File

/- The span between two offsets. -/
def spanOf
    (lines : Lines)
    (pos stop : Nat) : Span :=
  ⟨lines.position pos, lines.position stop⟩

/- The places of the parts of a declaration. -/
def locator
    (lines : Lines)
    (d : TopDecl) : Decl.Locator
  | .whole => spanOf lines d.pos d.stop
  | .receiver =>
      match d.receiver? with
      | some t => spanOf lines t.pos t.stop
      | none => {}

/- The lines of a doc comment. -/
def docLines
    (lines : Lines)
    (doc : Option CommentGroup) : List DocLine :=
  (doc.getD []).map fun c =>
    { text := c.text, position := lines.position c.pos }

/- The comments that start between two offsets. -/
def commentsIn
    (comments : List Comment)
    (pos stop : Nat) : List Comment :=
  comments.filter fun c => pos ≤ c.pos && c.pos < stop

/-
  The declarations of a file; `gap` is the space in front of
  the first of them.
-/
def itemsFrom
    (src : Bytes)
    (lines : Lines)
    (comments : List Comment)
    (gap : Gap) : List TopDecl → List Item
  | [] => []
  | d :: ds =>
      let next := ds.head?.map TopDecl.pos
      let between :=
        Gap.between lines
          (commentsIn comments d.stop (next.getD (src.length + 1)))
          d.stop next
      let item : Item :=
        { decl :=
            { body := d.toBody
              start := gap.start
              before := gap.before
              written := d.written src between.stop }
          doc := docLines lines d.doc
          locate := locator lines d }
      item :: itemsFrom src lines comments between ds

/- Does a line say that its file is generated? -/
def isGeneratedLine
    (line : Bytes) : Bool :=
  match (utf8 "// Code generated ").isPrefixOf? line with
  | some rest => Bytes.endsWith rest (utf8 " DO NOT EDIT.")
  | none => false

/- Do the comments above an offset say that a file is generated? -/
def isGenerated
    (comments : List Comment)
    (package : Nat) : Bool :=
  comments.any fun c =>
    c.pos ≤ package && c.text.lines.any isGeneratedLine

/- The file of a tree. -/
def ofTree
    (path src : Bytes)
    (lines : Lines)
    (tree : Tree) : File :=
  let comments := tree.comments.flatten
  let stop := tree.name.stop
  let next := tree.decls.head?.map TopDecl.pos
  let gap :=
    Gap.between lines
      (commentsIn comments stop (next.getD (src.length + 1))) stop next
  { path := path
    header :=
      Gap.startLines lines tree.package
        (commentsIn comments 0 tree.package)
    preamble := slice src 0 gap.stop
    package := tree.name.name
    generated := isGenerated comments tree.package
    items := itemsFrom src lines comments gap tree.decls }

/- Read a text as a source file. -/
def parse
    (path src : Bytes) : Except Failure File :=
  let parsed := Source.parse path src
  match parsed.tree, parsed.errors with
  | some tree, [] => .ok (ofTree path src parsed.lines tree)
  | _, errors => .error ⟨path, errorText errors⟩

/- The declarations of a file. -/
def decls
    (f : File) : List Decl :=
  f.items.map Item.decl

/- The import declarations of a file. -/
def imports
    (f : File) : List Decl :=
  f.decls.filter Decl.isImport

end File

------------------------------------------------------------
-- Sites
------------------------------------------------------------

/- A declaration with a directive, and its index in the file. -/
structure Site where
  index : Nat
  item : Item
  directive : Directive

namespace File

/- The sites among some declarations, and what is wrong with others. -/
def sitesFrom
    (name : Bytes)
    (index : Nat) : List Item → List Site × Diagnostics
  | [] => ([], {})
  | item :: items =>
      let (sites, diags) := sitesFrom name (index + 1) items
      match Directive.find name item.doc with
      | .error d => (sites, ({} : Diagnostics).add d |>.merge diags)
      | .ok none => (sites, diags)
      | .ok (some d) => (⟨index, item, d⟩ :: sites, diags)

/- The declarations of a file that carry a directive. -/
def sites
    (f : File)
    (name : Bytes) : List Site × Diagnostics :=
  sitesFrom name 0 f.items

end File

end Source

end Namesake
