import Namesake.Layout.Declarations

/-
  This file defines the layout of statements and of the bodies
  of functions.

  Key definitions include:
    * `Layout.stmtList`
    * `Layout.block`
    * `Layout.funcBody`
    * `Layout.statement`
    * `Layout.nodes`
-/

namespace Namesake

namespace Layout

open Source (Expr Stmt Block)

------------------------------------------------------------
-- Blocks
------------------------------------------------------------

/- Is this a statement without text? -/
def isEmptyStmt : Stmt → Bool
  | .empty _ _ => true
  | _ => false

/- The number of labels in front of a statement. -/
def labels : Stmt → Nat
  | .labeled _ _ s => labels s + 1
  | _ => 0

/-
  Statements, each on its own line: `index` statements came
  before, of `total` in the list, and `line` is the output line
  of the last of them.
-/
def stmtLines
    (g : Nodes)
    (indented beforeBrace : Bool)
    (total : Nat) : (index line : Nat) → List Stmt → Printer Unit
  | _, _, [] => return ()
  | index, line, s :: rest => do
      if isEmptyStmt s then
        stmtLines g indented beforeBrace total index line rest
      else
        if (← get).size > 0 then
          let long := (← linesFrom line) > 0
          let _ ← linebreak (← lineOf s.pos) 1 .ignore
            (index = 0 || !indented || long)
        let line ←
          recordLine (g.stmt s (beforeBrace && index + 1 = total))
        stmtLines g indented beforeBrace total (index + 1)
          (line + labels s) rest

/- The statements of a block or of a case. -/
def stmtList
    (g : Nodes)
    (list : List Stmt)
    (indented beforeBrace : Bool) : Printer Unit := do
  if indented then
    space .indent
  stmtLines g indented beforeBrace list.length 0 0 list
  if indented then
    space .unindent

/- The offset of the closing brace of a block. -/
def closing
    (b : Block) : Nat :=
  b.rbrace.getD b.lbrace

/- A block on several lines. -/
def block
    (g : Nodes)
    (b : Block)
    (indented : Bool) : Printer Unit := do
  moveTo b.lbrace
  token .leftBrace
  stmtList g b.stmts indented true
  let _ ← linebreak (← lineOf (closing b)) 1 .ignore true
  moveTo (closing b)
  token .rightBrace

------------------------------------------------------------
-- Bodies
------------------------------------------------------------

/- The size up to which a function is written on one line. -/
def bodyLimit : Nat :=
  100

/- The size of some statements on one line. -/
def stmtsSize
    (g : Nodes)
    (size : Nat) : (first : Bool) → List Stmt → Printer Nat
  | _, [] => return size
  | first, s :: rest => do
      if size > bodyLimit then
        return size
      let own ← measure bodyLimit (g.stmt s false)
      stmtsSize g (size + (if first then 0 else 2) + own) false rest

/- The size of a body on one line. -/
def bodySize
    (g : Nodes)
    (b : Block) : Printer Nat := do
  let stop ← placeOf (closing b)
  if (← lineOf b.lbrace) ≠ stop.line || b.stmts.length > 5 then
    return bodyLimit + 1
  stmtsSize g (← commentSizeBefore stop) true b.stmts

/- Statements on one line. -/
def inlineStmts
    (g : Nodes) : (first : Bool) → List Stmt → Printer Unit
  | _, [] => return ()
  | first, s :: rest => do
      unless first do
        token .semicolon
        blank
      g.stmt s rest.isEmpty
      inlineStmts g false rest

/-
  The body of a function behind a header of a known size.  It
  is on one line if it was written so and is small enough.
-/
def funcBody
    (g : Nodes)
    (headerSize : Nat)
    (separator : Space)
    (b : Block) : Printer Unit := do
  let level := (← get).level
  modify fun s => { s with level := 0 }
  if headerSize + (← bodySize g b) ≤ bodyLimit then
    space separator
    moveTo b.lbrace
    token .leftBrace
    unless b.stmts.isEmpty do
      blank
      inlineStmts g true b.stmts
      blank
    let toggle := fun (s : State) =>
      { s with noExtraBreak := !s.noExtraBreak }
    noteOpening
    modify toggle
    moveTo (closing b)
    token .rightBrace
    noteOpening
    modify toggle
  else
    blank
    block g b true
  modify fun s => { s with level := level }

------------------------------------------------------------
-- Clauses
------------------------------------------------------------

/- Is this the name of a type? -/
def isTypeName : Expr → Bool
  | .ident _ => true
  | .selector x _ => isTypeName x
  | _ => false

mutual

/-
  Would an expression without parentheses around it show a
  literal that starts with the name of a type?
-/
def showsLiteral : Expr → Bool
  | .composite (some t) _ _ _ => isTypeName t
  | .selector x _ => showsLiteral x
  | .index x _ args _ => showsLiteral x || showLiterals args
  | .slice x _ low high max _ _ =>
      showsLiteral x || showsLiteral? low || showsLiteral? high ||
        showsLiteral? max
  | .typeAssert x _ _ _ => showsLiteral x
  | .call f _ args _ _ => showsLiteral f || showLiterals args
  | .star _ x => showsLiteral x
  | .unary _ _ x => showsLiteral x
  | .binary x _ _ y => showsLiteral x || showsLiteral y
  | .keyValue k _ v => showsLiteral k || showsLiteral v
  | _ => false

/- Does one of some expressions show a literal? -/
def showLiterals : List Expr → Bool
  | [] => false
  | x :: xs => showsLiteral x || showLiterals xs

/- Does an expression, if it is there, show a literal? -/
def showsLiteral? : Option Expr → Bool
  | some x => showsLiteral x
  | none => false

end

/- An expression without the parentheses that it does not need. -/
def unwrap : Expr → Expr
  | .paren p x r => if showsLiteral x then .paren p x r else unwrap x
  | x => x

/- The clause between a keyword and its block. -/
def controlClause
    (g : Nodes)
    (isLoop : Bool)
    (init : Option Stmt)
    (test : Option Expr)
    (post : Option Stmt) : Printer Unit := do
  blank
  let mut spaced := false
  if init.isNone && post.isNone then
    if let some x := test then
      g.top (unwrap x)
      spaced := true
  else
    if let some s := init then
      g.stmt s false
    token .semicolon
    blank
    if let some x := test then
      g.top (unwrap x)
      spaced := true
    if isLoop then
      token .semicolon
      blank
      spaced := false
      if let some s := post then
        g.stmt s false
        spaced := true
  if spaced then
    blank

/- The elements of a list that are on other lines, seen from one line. -/
def linesOf
    (list : List Expr) : Printer (List (Nat × Nat)) :=
  list.mapM fun x => do
    return (← lineOf x.pos, ← lineOf x.stop)

/-
  Does an element start below the end of the one before it?
  `line` is the line where the one before it ended.
-/
def startsBelow
    (line : Nat) : List (Nat × Nat) → Bool
  | [] => false
  | (start, stop) :: rest => line < start || startsBelow stop rest

/- Is a list better indented as a whole? -/
def indentsList
    (list : List Expr) : Printer Bool := do
  let lines ← linesOf list
  match lines, lines.getLast? with
  | (start, _) :: _ :: _, some (_, stop) =>
      let tall := (lines.filter fun l => l.1 < l.2).length
      return start < stop && (startsBelow start lines || tall > 1)
  | _, _ => return false

------------------------------------------------------------
-- Statements
------------------------------------------------------------

/- The statement behind a label. -/
def labeledStmt
    (g : Nodes)
    (label : Source.Ident)
    (colon : Nat)
    (s : Stmt)
    (beforeBrace : Bool) : Printer Unit := do
  space .unindent
  ident label
  moveTo colon
  token .colon
  space .indent
  match s with
  | .empty p _ =>
      unless beforeBrace do
        space .newline
        moveTo p
        token .semicolon
  | s =>
      let _ ← linebreak (← lineOf s.pos) 1 .ignore true
      g.stmt s beforeBrace

/- The results behind the keyword of a return. -/
def results
    (g : Nodes)
    (list : List Expr) : Printer Unit := do
  unless list.isEmpty do
    blank
    if ← indentsList list then
      space .indent
      exprList g none list 1 { noIndent := true } none
      space .unindent
    else
      exprList g none list 1 {} none

/- A case with its statements. -/
def clause
    (g : Nodes)
    (isCase : Bool)
    (head : Printer Unit)
    (colon : Nat)
    (body : List Stmt)
    (beforeBrace : Bool) : Printer Unit := do
  if isCase then
    token .kwCase
    blank
    head
  else
    token .kwDefault
  moveTo colon
  token .colon
  stmtList g body true beforeBrace

/- A loop over a range. -/
def rangeHead
    (g : Nodes)
    (key value : Option Expr)
    (opPos : Nat)
    (op : Option TokenKind)
    (x : Expr) : Printer Unit := do
  token .kwFor
  blank
  if let some k := key then
    g.top k
    if let some v := value then
      moveTo v.pos
      token .comma
      blank
      g.top v
    blank
    moveTo opPos
    token (op.getD .define)
    blank
  token .kwRange
  blank
  g.top (unwrap x)
  blank

/- A select statement. -/
def selectStmt
    (g : Nodes)
    (b : Block) : Printer Unit := do
  token .kwSelect
  blank
  if b.stmts.isEmpty && !(← commentBefore (← placeOf (closing b))) then
    moveTo b.lbrace
    token .leftBrace
    moveTo (closing b)
    token .rightBrace
  else
    block g b false

/- A statement. -/
def statement
    (g : Nodes)
    (s : Stmt)
    (beforeBrace : Bool) : Printer Unit := do
  moveTo s.pos
  match s with
  | .bad _ _ => literal .string (utf8 "BadStmt")
  | .decl d => genDecl g d
  | .empty _ _ => return ()
  | .labeled label colon body => labeledStmt g label colon body beforeBrace
  | .expr x => g.top x
  | .send c arrow v =>
      g.top c
      blank
      moveTo arrow
      token .arrow
      blank
      g.top v
  | .incDec x opPos op =>
      g.expr0 x 2
      moveTo opPos
      token op
  | .assign lhs opPos op rhs =>
      let depth := if lhs.length > 1 && rhs.length > 1 then 2 else 1
      exprList g (some s.pos) lhs depth {} (some opPos)
      blank
      moveTo opPos
      token op
      blank
      exprList g (some opPos) rhs depth {} none
  | .go _ call =>
      token .kwGo
      blank
      g.top call
  | .defer _ call =>
      token .kwDefer
      blank
      g.top call
  | .ret _ list =>
      token .kwReturn
      results g list
  | .branch _ keyword label =>
      token keyword
      if let some id := label then
        blank
        ident id
  | .block b => block g b true
  | .cond _ init test body otherwise =>
      token .kwIf
      controlClause g false init (some test) none
      block g body true
      if let some e := otherwise then
        blank
        token .kwElse
        blank
        g.stmt e beforeBrace
  | .case p isCase list colon body =>
      let head := exprList g (some p) list 1 {} (some colon)
      clause g isCase head colon body beforeBrace
  | .switch _ init tag body =>
      token .kwSwitch
      controlClause g false init tag none
      block g body false
  | .typeSwitch _ init guard body =>
      token .kwSwitch
      if let some i := init then
        blank
        g.stmt i false
        token .semicolon
      blank
      g.stmt guard false
      blank
      block g body false
  | .comm _ comm colon body =>
      let head :=
        match comm with
        | some c => g.stmt c false
        | none => pure ()
      clause g comm.isSome head colon body beforeBrace
  | .select _ body => selectStmt g body
  | .loop _ init test post body =>
      token .kwFor
      controlClause g true init test post
      block g body true
  | .range _ key value opPos op _ x body =>
      rangeHead g key value opPos op x
      block g body true

------------------------------------------------------------
-- Nesting
------------------------------------------------------------

/- The layouts of parts that nest up to a depth. -/
def nodes : (depth : Nat) → Nodes
  | 0 => .bottom
  | depth + 1 =>
      let g := nodes depth
      { expr := expression g
        body := funcBody g
        stmt := statement g }

end Layout

end Namesake
