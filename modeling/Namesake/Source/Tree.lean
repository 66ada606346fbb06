import Namesake.Token

/-
  This file defines the trees of source files.  Every place
  that the layout of a file depends on is kept as an offset
  into its text.

  Key definitions include:
    * `Source.Comment`
    * `Source.CommentGroup`
    * `Source.Ident`
    * `Source.Expr`
    * `Source.Stmt`
    * `Source.GenDecl`
    * `Source.FuncDecl`
    * `Source.TopDecl`
    * `Source.Tree`
-/

namespace Namesake

namespace Source

------------------------------------------------------------
-- Comments and Names
------------------------------------------------------------

/- A comment with its text, slashes included. -/
structure Comment where
  pos : Nat
  text : Bytes
deriving Repr, Inhabited

namespace Comment

/- The offset behind a comment. -/
def stop
    (c : Comment) : Nat :=
  c.pos + c.text.length

/- Is this a comment between slash and star? -/
def isBlock
    (c : Comment) : Bool :=
  c.text.startsWith [0x2f, 0x2a]

end Comment

/- Comments with nothing but line ends between them. -/
abbrev CommentGroup :=
  List Comment

namespace CommentGroup

/- The offset of the first comment. -/
def pos
    (g : CommentGroup) : Nat :=
  (g.head?.map Comment.pos).getD 0

/- The offset behind the last comment. -/
def stop
    (g : CommentGroup) : Nat :=
  (g.getLast?.map Comment.stop).getD 0

end CommentGroup

/- A name where it is written. -/
structure Ident where
  pos : Nat
  name : Bytes
deriving Repr, Inhabited

/- The offset behind a name. -/
def Ident.stop
    (id : Ident) : Nat :=
  id.pos + id.name.length

/- A literal where it is written. -/
structure Lit where
  pos : Nat
  kind : TokenKind
  value : Bytes
  stop : Nat
deriving Repr, Inhabited

/- The direction of a channel. -/
inductive ChanDir where
  | both
  | send
  | receive
deriving DecidableEq, Repr

------------------------------------------------------------
-- Parts Built from Expressions
------------------------------------------------------------

/- A field, parameter or method of an interface. -/
structure FieldOf (E : Type) where
  doc : Option CommentGroup := none
  names : List Ident := []
  type : Option E := none
  tag : Option Lit := none
  comment : Option CommentGroup := none

/- A list of fields; the brackets may be missing. -/
structure FieldsOf (E : Type) where
  opening : Option Nat := none
  list : List (FieldOf E) := []
  closing : Option Nat := none

/- Parameters and results; the keyword may be missing. -/
structure SignatureOf (E : Type) where
  keyword : Option Nat := none
  typeParams : Option (FieldsOf E) := none
  params : FieldsOf E
  results : Option (FieldsOf E) := none

/- Statements between braces; the closing one may be missing. -/
structure BlockOf (S : Type) where
  lbrace : Nat
  stmts : List S
  rbrace : Option Nat

/- One item of a declaration. -/
inductive SpecOf (E : Type) where
  | imported
      (doc : Option CommentGroup)
      (name : Option Ident)
      (path : Lit)
      (comment : Option CommentGroup)
  | value
      (doc : Option CommentGroup)
      (names : List Ident)
      (type : Option E)
      (values : List E)
      (comment : Option CommentGroup)
  | type
      (doc : Option CommentGroup)
      (name : Ident)
      (params : Option (FieldsOf E))
      (assign : Option Nat)
      (type : E)
      (comment : Option CommentGroup)

/- A declaration other than a function. -/
structure GenDeclOf (E : Type) where
  doc : Option CommentGroup
  pos : Nat
  keyword : TokenKind
  lparen : Option Nat
  specs : List (SpecOf E)
  rparen : Option Nat

------------------------------------------------------------
-- Expressions and Statements
------------------------------------------------------------

mutual

/- An expression or a type. -/
inductive Expr where
  | bad (pos stop : Nat)
  | ident (id : Ident)
  | ellipsis (pos : Nat) (elt : Option Expr)
  | lit (l : Lit)
  | funcLit (type : SignatureOf Expr) (body : BlockOf Stmt)
  | composite
      (type : Option Expr)
      (lbrace : Nat)
      (elts : List Expr)
      (rbrace : Nat)
  | paren (lparen : Nat) (x : Expr) (rparen : Nat)
  | selector (x : Expr) (sel : Ident)
  | index (x : Expr) (lbrack : Nat) (args : List Expr) (rbrack : Nat)
  | slice
      (x : Expr)
      (lbrack : Nat)
      (low high max : Option Expr)
      (three : Bool)
      (rbrack : Nat)
  | typeAssert
      (x : Expr)
      (lparen : Nat)
      (type : Option Expr)
      (rparen : Nat)
  | call
      (f : Expr)
      (lparen : Nat)
      (args : List Expr)
      (ellipsis : Option Nat)
      (rparen : Nat)
  | star (pos : Nat) (x : Expr)
  | unary (pos : Nat) (op : TokenKind) (x : Expr)
  | binary (x : Expr) (opPos : Nat) (op : TokenKind) (y : Expr)
  | keyValue (key : Expr) (colon : Nat) (value : Expr)
  | array (lbrack : Nat) (len : Option Expr) (elt : Expr)
  | struct (pos : Nat) (fields : FieldsOf Expr)
  | func (type : SignatureOf Expr)
  | interface (pos : Nat) (methods : FieldsOf Expr)
  | map (pos : Nat) (key value : Expr)
  | chan (pos : Nat) (arrow : Option Nat) (dir : ChanDir) (value : Expr)

/- A statement. -/
inductive Stmt where
  | bad (pos stop : Nat)
  | decl (d : GenDeclOf Expr)
  | empty (pos : Nat) (implied : Bool)
  | labeled (label : Ident) (colon : Nat) (body : Stmt)
  | expr (x : Expr)
  | send (chan : Expr) (arrow : Nat) (value : Expr)
  | incDec (x : Expr) (opPos : Nat) (op : TokenKind)
  | assign (lhs : List Expr) (opPos : Nat) (op : TokenKind) (rhs : List Expr)
  | go (pos : Nat) (call : Expr)
  | defer (pos : Nat) (call : Expr)
  | ret (pos : Nat) (results : List Expr)
  | branch (pos : Nat) (keyword : TokenKind) (label : Option Ident)
  | block (b : BlockOf Stmt)
  | cond
      (pos : Nat)
      (init : Option Stmt)
      (test : Expr)
      (body : BlockOf Stmt)
      (otherwise : Option Stmt)
  | case
      (pos : Nat)
      (isCase : Bool)
      (list : List Expr)
      (colon : Nat)
      (body : List Stmt)
  | switch
      (pos : Nat)
      (init : Option Stmt)
      (tag : Option Expr)
      (body : BlockOf Stmt)
  | typeSwitch
      (pos : Nat)
      (init : Option Stmt)
      (guard : Stmt)
      (body : BlockOf Stmt)
  | comm
      (pos : Nat)
      (comm : Option Stmt)
      (colon : Nat)
      (body : List Stmt)
  | select (pos : Nat) (body : BlockOf Stmt)
  | loop
      (pos : Nat)
      (init : Option Stmt)
      (test : Option Expr)
      (post : Option Stmt)
      (body : BlockOf Stmt)
  | range
      (pos : Nat)
      (key value : Option Expr)
      (opPos : Nat)
      (op : Option TokenKind)
      (rangePos : Nat)
      (x : Expr)
      (body : BlockOf Stmt)

end

instance : Inhabited Expr :=
  ⟨.bad 0 0⟩

instance : Inhabited Stmt :=
  ⟨.bad 0 0⟩

abbrev Field := FieldOf Expr

abbrev Fields := FieldsOf Expr

abbrev Signature := SignatureOf Expr

abbrev Block := BlockOf Stmt

abbrev Spec := SpecOf Expr

abbrev GenDecl := GenDeclOf Expr

------------------------------------------------------------
-- Extents
------------------------------------------------------------

namespace Expr

/- The offset of an expression. -/
def pos : Expr → Nat
  | .bad p _ => p
  | .ident id => id.pos
  | .ellipsis p _ => p
  | .lit l => l.pos
  | .funcLit t _ => (t.keyword.or t.params.opening).getD 0
  | .composite (some t) _ _ _ => t.pos
  | .composite none lbrace _ _ => lbrace
  | .paren p _ _ => p
  | .selector x _ => x.pos
  | .index x _ _ _ => x.pos
  | .slice x _ _ _ _ _ _ => x.pos
  | .typeAssert x _ _ _ => x.pos
  | .call f _ _ _ _ => f.pos
  | .star p _ => p
  | .unary p _ _ => p
  | .binary x _ _ _ => x.pos
  | .keyValue k _ _ => k.pos
  | .array p _ _ => p
  | .struct p _ => p
  | .func t => (t.keyword.or t.params.opening).getD 0
  | .interface p _ => p
  | .map p _ _ => p
  | .chan p _ _ _ => p

end Expr

/- The offset of a field. -/
def FieldOf.pos
    (f : Field) : Nat :=
  match f.names, f.type with
  | id :: _, _ => id.pos
  | [], some t => t.pos
  | [], none => 0

/- The offset of a list of fields. -/
def FieldsOf.pos
    (f : Fields) : Nat :=
  match f.opening, f.list with
  | some p, _ => p
  | none, field :: _ => field.pos
  | none, [] => 0

mutual

/- The offset behind an expression. -/
def Expr.stop : Expr → Nat
  | .bad _ s => s
  | .ident id => id.stop
  | .ellipsis _ (some elt) => elt.stop
  | .ellipsis p none => p + 3
  | .lit l => l.stop
  | .funcLit _ body => (body.rbrace.map (· + 1)).getD (body.lbrace + 1)
  | .composite _ _ _ rbrace => rbrace + 1
  | .paren _ _ rparen => rparen + 1
  | .selector _ sel => sel.stop
  | .index _ _ _ rbrack => rbrack + 1
  | .slice _ _ _ _ _ _ rbrack => rbrack + 1
  | .typeAssert _ _ _ rparen => rparen + 1
  | .call _ _ _ _ rparen => rparen + 1
  | .star _ x => x.stop
  | .unary _ _ x => x.stop
  | .binary _ _ _ y => y.stop
  | .keyValue _ _ v => v.stop
  | .array _ _ elt => elt.stop
  | .struct p ⟨_, _, closing⟩ => (closing.map (· + 1)).getD p
  | .func ⟨_, _, params, results⟩ =>
      match results with
      | some r => fieldsStop r
      | none => fieldsStop params
  | .interface p ⟨_, _, closing⟩ => (closing.map (· + 1)).getD p
  | .map _ _ v => v.stop
  | .chan _ _ _ v => v.stop

/- The offset behind a list of fields. -/
def fieldsStop : FieldsOf Expr → Nat
  | ⟨_, _, some p⟩ => p + 1
  | ⟨_, list, none⟩ => fieldListStop list

/- The offset behind the last of some fields. -/
def fieldListStop : List (FieldOf Expr) → Nat
  | [] => 0
  | [f] => fieldStop f
  | _ :: g :: fs => fieldListStop (g :: fs)

/- The offset behind a field. -/
def fieldStop : FieldOf Expr → Nat
  | ⟨_, _, _, some tag, _⟩ => tag.stop
  | ⟨_, _, some t, none, _⟩ => t.stop
  | ⟨_, names, none, none, _⟩ => (names.getLast?.map Ident.stop).getD 0

end

/- The offset behind a signature. -/
def SignatureOf.stop
    (t : Signature) : Nat :=
  match t.results with
  | some r => fieldsStop r
  | none => fieldsStop t.params

namespace SpecOf

/- The offset of an item. -/
def pos : Spec → Nat
  | .imported _ (some name) _ _ => name.pos
  | .imported _ none path _ => path.pos
  | .value _ names _ _ _ => (names.head?.map Ident.pos).getD 0
  | .type _ name _ _ _ _ => name.pos

/- The offset behind an item. -/
def stop : Spec → Nat
  | .imported _ _ path _ => path.stop
  | .value _ names t? values _ =>
      match values.getLast?, t? with
      | some v, _ => v.stop
      | none, some t => t.stop
      | none, none => (names.getLast?.map Ident.stop).getD 0
  | .type _ _ _ _ t _ => t.stop

/- The comment behind an item on its line. -/
def comment : Spec → Option CommentGroup
  | .imported _ _ _ c => c
  | .value _ _ _ _ c => c
  | .type _ _ _ _ _ c => c

/- The comment above an item. -/
def doc : Spec → Option CommentGroup
  | .imported d _ _ _ => d
  | .value d _ _ _ _ => d
  | .type d _ _ _ _ _ => d

end SpecOf

/- The offset behind a declaration other than a function. -/
def GenDeclOf.stop
    (d : GenDecl) : Nat :=
  match d.rparen with
  | some p => p + 1
  | none =>
      match d.specs with
      | spec :: _ => spec.stop
      | [] => d.pos

namespace Stmt

/- The offset of a statement. -/
def pos : Stmt → Nat
  | .bad p _ => p
  | .decl d => d.pos
  | .empty p _ => p
  | .labeled label _ _ => label.pos
  | .expr x => x.pos
  | .send c _ _ => c.pos
  | .incDec x _ _ => x.pos
  | .assign (x :: _) _ _ _ => x.pos
  | .assign [] p _ _ => p
  | .go p _ => p
  | .defer p _ => p
  | .ret p _ => p
  | .branch p _ _ => p
  | .block b => b.lbrace
  | .cond p _ _ _ _ => p
  | .case p _ _ _ _ => p
  | .switch p _ _ _ => p
  | .typeSwitch p _ _ _ => p
  | .comm p _ _ _ => p
  | .select p _ => p
  | .loop p _ _ _ _ => p
  | .range p _ _ _ _ _ _ _ => p

/- The offset behind a statement. -/
def stop : Stmt → Nat
  | .bad _ s => s
  | .decl d => GenDeclOf.stop d
  | .empty p implied => if implied then p else p + 1
  | .labeled _ _ s => s.stop
  | .expr x => x.stop
  | .send _ _ v => v.stop
  | .incDec _ p _ => p + 2
  | .assign _ p _ rhs => (rhs.getLast?.map Expr.stop).getD p
  | .go _ c => c.stop
  | .defer _ c => c.stop
  | .ret p results => (results.getLast?.map Expr.stop).getD (p + 6)
  | .branch p k label =>
      match label with
      | some id => id.stop
      | none => p + (utf8 k.spelling).length
  | .block ⟨l, stmts, r⟩ => blockEnd l r (lastStop stmts)
  | .cond _ _ _ ⟨l, stmts, r⟩ otherwise =>
      match otherwise with
      | some s => s.stop
      | none => blockEnd l r (lastStop stmts)
  | .case _ _ _ colon body => (lastStop body).getD (colon + 1)
  | .switch _ _ _ ⟨l, stmts, r⟩ => blockEnd l r (lastStop stmts)
  | .typeSwitch _ _ _ ⟨l, stmts, r⟩ => blockEnd l r (lastStop stmts)
  | .comm _ _ colon body => (lastStop body).getD (colon + 1)
  | .select _ ⟨l, stmts, r⟩ => blockEnd l r (lastStop stmts)
  | .loop _ _ _ _ ⟨l, stmts, r⟩ => blockEnd l r (lastStop stmts)
  | .range _ _ _ _ _ _ _ ⟨l, stmts, r⟩ => blockEnd l r (lastStop stmts)
where
  /- The offset behind a block with a known last statement. -/
  blockEnd
      (lbrace : Nat)
      (rbrace last : Option Nat) : Nat :=
    match rbrace with
    | some p => p + 1
    | none => last.getD (lbrace + 1)
  /- The offset behind the last of some statements. -/
  lastStop : List Stmt → Option Nat
    | [] => none
    | [s] => some s.stop
    | _ :: s :: rest => lastStop (s :: rest)

end Stmt

------------------------------------------------------------
-- Files
------------------------------------------------------------

/- A function or method. -/
structure FuncDecl where
  doc : Option CommentGroup
  recv : Option Fields
  name : Ident
  type : Signature
  body : Option Block

/- A declaration at the top level of a file. -/
inductive TopDecl where
  | bad (pos stop : Nat)
  | gen (d : GenDecl)
  | func (d : FuncDecl)

namespace TopDecl

/- The offset of a declaration, without its comments. -/
def pos : TopDecl → Nat
  | .bad p _ => p
  | .gen d => d.pos
  | .func d => d.type.keyword.getD d.name.pos

/- The offset behind a declaration. -/
def stop : TopDecl → Nat
  | .bad _ s => s
  | .gen d => d.stop
  | .func d =>
      match d.body with
      | some b => Stmt.stop (.block b)
      | none => d.type.stop

/- The comment right above a declaration. -/
def doc : TopDecl → Option CommentGroup
  | .bad _ _ => none
  | .gen d => d.doc
  | .func d => d.doc

/- Is this an import declaration? -/
def isImport : TopDecl → Bool
  | .gen d => d.keyword == .kwImport
  | _ => false

end TopDecl

/- The tree of a source file. -/
structure Tree where
  doc : Option CommentGroup
  package : Nat
  name : Ident
  decls : List TopDecl
  comments : List CommentGroup
  size : Nat

end Source

end Namesake
