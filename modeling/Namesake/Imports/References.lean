import Namesake.Source.Tree
import Namesake.Text.LowerCase

/-
  This file defines which packages a file refers to: the names
  in front of exported names that nothing in the file declares.

  Key definitions include:
    * `Imports.Scope`
    * `Imports.Walk`
    * `Imports.exprRefs`
    * `Imports.stmtRefs`
    * `Imports.references`
-/

namespace Namesake

namespace Imports

open Source (Expr Stmt Field Fields Signature Block Spec GenDecl Ident
  FuncDecl TopDecl Tree)

------------------------------------------------------------
-- Walks
------------------------------------------------------------

/- The names that are declared where an expression stands. -/
abbrev Scope :=
  List Bytes

/-
  The references of the parts that nest.  A statement also
  gives the scope of the statements behind it.
-/
structure Walk where
  expr : Scope → Expr → List Bytes
  stmt : Scope → Stmt → List Bytes × Scope

/- The walk at the depth that no file reaches. -/
def Walk.bottom : Walk :=
  { expr := fun _ _ => []
    stmt := fun scope _ => ([], scope) }

namespace Walk

/- The references of several expressions. -/
def exprs
    (w : Walk)
    (scope : Scope)
    (xs : List Expr) : List Bytes :=
  xs.flatMap (w.expr scope)

/- The references of an expression that may be missing. -/
def expr?
    (w : Walk)
    (scope : Scope)
    (x : Option Expr) : List Bytes :=
  w.exprs scope x.toList

/- The references of statements that follow each other. -/
def stmts
    (w : Walk) : Scope → List Stmt → List Bytes
  | _, [] => []
  | scope, s :: rest =>
      let (refs, scope) := w.stmt scope s
      refs ++ stmts w scope rest

/- The references of a statement that may be missing. -/
def stmt?
    (w : Walk)
    (scope : Scope) : Option Stmt → List Bytes × Scope
  | some s => w.stmt scope s
  | none => ([], scope)

end Walk

/- Is a name exported, by its first letter? -/
def isExported
    (name : Bytes) : Bool :=
  (name.firstCode?.map isUpper).getD false

------------------------------------------------------------
-- Types
------------------------------------------------------------

/- The names that fields declare. -/
def fieldNames
    (f : Fields) : List Bytes :=
  f.list.flatMap fun field => field.names.map Ident.name

/- The references of the types of fields. -/
def fieldRefs
    (w : Walk)
    (scope : Scope)
    (f : Fields) : List Bytes :=
  f.list.flatMap fun field => w.expr? scope field.type

/- The references of type parameters and the scope behind them. -/
def typeParamRefs
    (w : Walk)
    (scope : Scope) : Option Fields → List Bytes × Scope
  | some ps =>
      let scope := fieldNames ps ++ scope
      (fieldRefs w scope ps, scope)
  | none => ([], scope)

/- The references of a signature and the scope of its body. -/
def signatureRefs
    (w : Walk)
    (scope : Scope)
    (t : Signature) : List Bytes × Scope :=
  let (refs, scope) := typeParamRefs w scope t.typeParams
  let lists := t.params :: t.results.toList
  (refs ++ lists.flatMap (fieldRefs w scope),
    lists.flatMap fieldNames ++ scope)

------------------------------------------------------------
-- Expressions
------------------------------------------------------------

/- The references of an expression. -/
def exprRefs
    (w : Walk)
    (scope : Scope)
    (x : Expr) : List Bytes :=
  match x with
  | .selector (.ident id) sel =>
      if isExported sel.name && !scope.contains id.name then
        [id.name]
      else
        []
  | .selector e _ => w.expr scope e
  | .ellipsis _ elt => w.expr? scope elt
  | .funcLit t body =>
      let (refs, scope) := signatureRefs w scope t
      refs ++ w.stmts scope body.stmts
  | .composite t _ elts _ => w.expr? scope t ++ w.exprs scope elts
  | .paren _ e _ => w.expr scope e
  | .index e _ args _ => w.exprs scope (e :: args)
  | .slice e _ low high max _ _ =>
      w.exprs scope (e :: low.toList ++ high.toList ++ max.toList)
  | .typeAssert e _ t _ => w.exprs scope (e :: t.toList)
  | .call f _ args _ _ => w.exprs scope (f :: args)
  | .star _ e => w.expr scope e
  | .unary _ _ e => w.expr scope e
  | .binary a _ _ b => w.exprs scope [a, b]
  | .keyValue k _ v => w.exprs scope [k, v]
  | .array _ len elt => w.exprs scope (len.toList ++ [elt])
  | .struct _ fields => fieldRefs w scope fields
  | .func t => (signatureRefs w scope t).1
  | .interface _ methods => fieldRefs w scope methods
  | .map _ k v => w.exprs scope [k, v]
  | .chan _ _ _ v => w.expr scope v
  | _ => []

------------------------------------------------------------
-- Declarations and Statements
------------------------------------------------------------

/- The references of an item and the scope behind it. -/
def specRefs
    (w : Walk)
    (scope : Scope)
    (s : Spec) : List Bytes × Scope :=
  match s with
  | .imported _ _ _ _ => ([], scope)
  | .value _ names t values _ =>
      (w.expr? scope t ++ w.exprs scope values,
        names.map Ident.name ++ scope)
  | .type _ id params _ t _ =>
      let scope := id.name :: scope
      let (refs, inner) := typeParamRefs w scope params
      (refs ++ w.expr inner t, scope)

/- The references of items and the scope behind them. -/
def specsRefs
    (w : Walk) : Scope → List Spec → List Bytes × Scope
  | scope, [] => ([], scope)
  | scope, s :: rest =>
      let (refs, scope) := specRefs w scope s
      let (more, scope) := specsRefs w scope rest
      (refs ++ more, scope)

/- The names among some expressions. -/
def namesIn
    (xs : List Expr) : List Bytes :=
  xs.filterMap fun
    | .ident id => some id.name
    | _ => none

/- The references of an assignment and the scope behind it. -/
def assignRefs
    (w : Walk)
    (scope : Scope)
    (lhs : List Expr)
    (op : Option TokenKind)
    (rhs : List Expr) : List Bytes × Scope :=
  if op == some .define then
    (w.exprs scope rhs, namesIn lhs ++ scope)
  else
    (w.exprs scope (rhs ++ lhs), scope)

/- The references of a statement and the scope behind it. -/
def stmtRefs
    (w : Walk)
    (scope : Scope)
    (s : Stmt) : List Bytes × Scope :=
  let inside := fun (refs : List Bytes) => (refs, scope)
  match s with
  | .decl d => specsRefs w scope d.specs
  | .labeled _ _ body => w.stmt scope body
  | .expr x => inside (w.expr scope x)
  | .send c _ v => inside (w.exprs scope [c, v])
  | .incDec x _ _ => inside (w.expr scope x)
  | .assign lhs _ op rhs => assignRefs w scope lhs (some op) rhs
  | .go _ call => inside (w.expr scope call)
  | .defer _ call => inside (w.expr scope call)
  | .ret _ list => inside (w.exprs scope list)
  | .block b => inside (w.stmts scope b.stmts)
  | .cond _ init test body otherwise =>
      let (refs, inner) := w.stmt? scope init
      inside
        (refs ++ w.expr inner test ++ w.stmts inner body.stmts ++
          (w.stmt? inner otherwise).1)
  | .case _ _ list _ body =>
      inside (w.exprs scope list ++ w.stmts scope body)
  | .switch _ init tag body =>
      let (refs, inner) := w.stmt? scope init
      inside (refs ++ w.expr? inner tag ++ w.stmts inner body.stmts)
  | .typeSwitch _ init guard body =>
      let (refs, inner) := w.stmt? scope init
      let (more, inner) := w.stmt inner guard
      inside (refs ++ more ++ w.stmts inner body.stmts)
  | .comm _ comm _ body =>
      let (refs, inner) := w.stmt? scope comm
      inside (refs ++ w.stmts inner body)
  | .select _ body => inside (w.stmts scope body.stmts)
  | .loop _ init test post body =>
      let (refs, inner) := w.stmt? scope init
      inside
        (refs ++ w.expr? inner test ++ (w.stmt? inner post).1 ++
          w.stmts inner body.stmts)
  | .range _ key value _ op _ x body =>
      let lhs := key.toList ++ value.toList
      let (refs, inner) := assignRefs w scope lhs op [x]
      inside (refs ++ w.stmts inner body.stmts)
  | _ => inside []

/- The walk through parts that nest up to a depth. -/
def walk : (depth : Nat) → Walk
  | 0 => .bottom
  | depth + 1 =>
      let w := walk depth
      { expr := exprRefs w, stmt := stmtRefs w }

------------------------------------------------------------
-- Files
------------------------------------------------------------

/- The names that a declaration at the top level declares. -/
def declared : TopDecl → List Bytes
  | .gen d =>
      d.specs.flatMap fun
        | .imported _ _ _ _ => []
        | .value _ names _ _ _ => names.map Ident.name
        | .type _ id _ _ _ _ => [id.name]
  | .func d => if d.recv.isNone then [d.name.name] else []
  | .bad _ _ => []

/- The type parameters that the type of a receiver names. -/
def receiverParams : Expr → List Bytes
  | .star _ x => receiverParams x
  | .paren _ x _ => receiverParams x
  | .index _ _ args _ => namesIn args
  | _ => []

/- The references of a function. -/
def funcRefs
    (w : Walk)
    (scope : Scope)
    (d : FuncDecl) : List Bytes :=
  let recv : Fields := d.recv.getD {}
  let types := recv.list.filterMap Source.FieldOf.type
  let scope := types.flatMap receiverParams ++ scope
  let (refs, inner) := signatureRefs w scope d.type
  let body := (d.body.map fun b => b.stmts).getD []
  fieldRefs w scope recv ++ refs ++
    w.stmts (fieldNames recv ++ inner) body

/- The references of a declaration at the top level. -/
def declRefs
    (w : Walk)
    (scope : Scope) : TopDecl → List Bytes
  | .gen d => (specsRefs w scope d.specs).1
  | .func d => funcRefs w scope d
  | .bad _ _ => []

/- The names that a file uses for packages. -/
def references
    (tree : Tree) : List Bytes :=
  let w := walk (2 * tree.size + 16)
  let scope := tree.decls.flatMap declared
  tree.decls.flatMap (declRefs w scope)

end Imports

end Namesake
