import Namesake.Source.Parser.Expressions

/-
  This file defines the parsers of declarations and
  statements.

  Key definitions include:
    * `Source.Parser.spec`
    * `Source.Parser.genDecl`
    * `Source.Parser.simpleStmt`
    * `Source.Parser.statement`
    * `Source.Parser.grammar`
-/

namespace Namesake

namespace Source

namespace Parser

variable {i : Input}

------------------------------------------------------------
-- Declarations
------------------------------------------------------------

/- An import. -/
def importSpec
    (doc : Option CommentGroup) : Parser i Spec := do
  let name ← match ← kind with
    | .ident => pure (some (← ident))
    | .period => do
        let p ← offset
        advance
        pure (some ⟨p, utf8 "."⟩)
    | _ => pure none
  let p ← offset
  let k ← kind
  let path ←
    if k == .string then
      literal
    else if k.isLiteral then do
      complain p (utf8 "import path must be a string")
      advance
      pure ⟨p, .string, [], p⟩
    else do
      complain p (utf8 "missing import path")
      skipTo exprEnd
      pure ⟨p, .string, [], p⟩
  let comment ← expectSemi
  return .imported doc name path comment

/- The values of a declaration behind an equals sign. -/
def values
    (g : Grammar i) : Parser i (List Expr) := do
  if ← at? .assign then
    advance
    withRhs true g.exprList
  else
    return []

/- Constants or variables. -/
def valueSpec
    (g : Grammar i)
    (keyword : TokenKind)
    (doc : Option CommentGroup) : Parser i Spec := do
  let name ← ident
  let names := name :: (← moreNames)
  let k ← kind
  let (t, vs) ←
    if keyword == .kwConst then
      if k == .eof || k == .semicolon || k == .rightParen then
        pure (none, [])
      else do
        let t ← g.type?
        pure (t, ← values g)
    else do
      let t ← if k == .assign then pure none else pure (some (← g.type))
      pure (t, ← values g)
  let comment ← expectSemi
  return .value doc names t vs comment

/- Can this only be a type? -/
def isTypeElement : Expr → Bool
  | .array _ _ _ | .struct _ _ | .func _ | .interface _ _ => true
  | .map _ _ _ | .chan _ _ _ _ => true
  | .binary x _ _ y => isTypeElement x || isTypeElement y
  | .unary _ op _ => op == .tilde
  | .paren _ x _ => isTypeElement x
  | _ => false

/-
  Split an expression into the name of a type parameter and
  its constraint.  An expression that could also be the length
  of an array counts only if `force` is set.
-/
def splitParam
    (force : Bool) : Expr → Option (Ident × Option Expr)
  | .ident id => some (id, none)
  | .binary x p op y =>
      if op == .mul then
        match x with
        | .ident id =>
            if force || isTypeElement y then
              some (id, some (.star p y))
            else
              none
        | _ => none
      else if op == .or then
        match splitParam (force || isTypeElement y) x with
        | some (id, some lhs) => some (id, some (.binary lhs p op y))
        | _ => none
      else
        none
  | .call (.ident id) lparen [arg] none rparen =>
      if force || isTypeElement arg then
        some (id, some (.paren lparen arg rparen))
      else
        none
  | _ => none

/- The type behind type parameters, with the sign of an alias. -/
def aliasedType
    (g : Grammar i) : Parser i (Option Nat × Expr) := do
  let assign ←
    if ← at? .assign then do
      let p ← offset
      advance
      pure (some p)
    else
      pure none
  return (assign, ← g.type)

/- What follows the name of a type and a bracket. -/
def bracketedType
    (g : Grammar i) : Parser i (Option Fields × Option Nat × Expr) := do
  let lbrack ← offset
  advance
  if ← at? .ident then
    let id ← ident
    let x ←
      if ← at? .leftBracket then
        pure (.ident id)
      else
        nested do
          let lhs ← primary g (some (.ident id))
          binaryTail g 1 lhs (← budget)
    let comma ← at? .comma
    let closes ← at? .rightBracket
    match splitParam comma x with
    | some (name, t) =>
        if t.isSome || !closes then
          let list ←
            paramFields g (some ⟨some name, t⟩) .rightBracket false
          let closing ← expect .rightBracket
          let ps : Fields :=
            { opening := some lbrack
              list := list
              closing := some closing }
          return (some ps, ← aliasedType g)
        else
          return (none, none, ← arrayType g lbrack (some x))
    | none => return (none, none, ← arrayType g lbrack (some x))
  else
    return (none, none, ← arrayType g lbrack none)

/- A type declaration. -/
def typeSpec
    (g : Grammar i)
    (doc : Option CommentGroup) : Parser i Spec := do
  let name ← ident
  let (ps, assign, t) ←
    if ← at? .leftBracket then
      bracketedType g
    else do
      pure (none, ← aliasedType g)
  let comment ← expectSemi
  return .type doc name ps assign t comment

/- One item of a declaration. -/
def spec
    (g : Grammar i)
    (keyword : TokenKind)
    (doc : Option CommentGroup) : Parser i Spec :=
  match keyword with
  | .kwImport => importSpec doc
  | .kwType => typeSpec g doc
  | _ => valueSpec g keyword doc

/- A declaration other than a function. -/
def genDecl
    (g : Grammar i)
    (keyword : TokenKind) : Parser i GenDecl := do
  let doc ← leadDoc
  let p ← expect keyword
  if ← at? .leftParen then
    let lparen ← offset
    advance
    let specs ← many
      (do
        let k ← kind
        return !(k == .rightParen || k == .eof))
      (do
        let doc ← leadDoc
        spec g keyword doc)
    let rparen ← expect .rightParen
    let _ ← expectSemi
    return ⟨doc, p, keyword, some lparen, specs, some rparen⟩
  else
    let s ← spec g keyword none
    return ⟨doc, p, keyword, none, [s], none⟩

------------------------------------------------------------
-- Simple Statements
------------------------------------------------------------

/- What a simple statement may be. -/
inductive StmtMode where
  | basic
  | label
  | range
deriving DecidableEq

/- The operators of assignments. -/
def isAssignment : TokenKind → Bool
  | .define | .assign | .addAssign | .subAssign | .mulAssign => true
  | .quoAssign | .remAssign | .andAssign | .orAssign => true
  | .xorAssign | .shlAssign | .shrAssign | .andNotAssign => true
  | _ => false

/-
  A simple statement.  The second result tells whether it is
  the clause of a loop over a range.
-/
def simpleStmt
    (g : Grammar i)
    (mode : StmtMode) : Parser i (Stmt × Bool) := do
  let xs ← withRhs false g.exprList
  let first := xs.headD default
  let op ← kind
  let p ← offset
  if isAssignment op then
    advance
    let isRange ← at? .kwRange
    if mode = .range && isRange && (op == .define || op == .assign) then
      let rangePos ← offset
      advance
      let x ← g.rhs
      return (.assign xs p op [.unary rangePos .kwRange x], true)
    else
      return (.assign xs p op (← withRhs true g.exprList), false)
  if xs.length > 1 then
    complainExpected first.pos (utf8 "1 expression")
  match op with
  | .colon =>
      advance
      match first, mode == .label with
      | .ident id, true => return (.labeled id p (← g.stmt), false)
      | _, _ =>
          complain p (utf8 "illegal label declaration")
          return (.bad first.pos (p + 1), false)
  | .arrow =>
      advance
      return (.send first p (← g.rhs), false)
  | .increment | .decrement =>
      advance
      return (.incDec first p op, false)
  | _ => return (.expr first, false)

/- A simple statement as an expression. -/
def asExpr
    (s : Stmt)
    (want : String) : Parser i Expr := do
  match s with
  | .expr x => return x
  | s =>
      let found :=
        match s with
        | .assign _ _ _ _ => utf8 "assignment"
        | _ => utf8 "simple statement"
      complain s.pos
        (utf8 "expected " ++ utf8 want ++ utf8 ", found " ++ found ++
          utf8 " (missing parentheses around composite literal?)")
      return .bad s.pos s.stop

------------------------------------------------------------
-- Statements
------------------------------------------------------------

/- The call behind a keyword. -/
def calledBy
    (g : Grammar i)
    (keyword : String) : Parser i (Option Expr) := do
  let x ← g.rhs
  if isParen x then
    complain x.pos
      (utf8 "expression in " ++ utf8 keyword ++
        utf8 " must not be parenthesized")
  match unparen x with
  | .call f l as e r => return some (.call f l as e r)
  | .bad _ _ => return none
  | y =>
      complain y.stop
        (utf8 "expression in " ++ utf8 keyword ++
          utf8 " must be function call")
      return none

/- A statement that calls a function. -/
def callStmt
    (g : Grammar i)
    (keyword : TokenKind) : Parser i Stmt := do
  let p ← expect keyword
  let call ← calledBy g keyword.spelling
  let _ ← expectSemi
  match call with
  | some x =>
      return if keyword == .kwGo then .go p x else .defer p x
  | none => return .bad p (p + (utf8 keyword.spelling).length)

/- A return statement. -/
def returnStmt
    (g : Grammar i) : Parser i Stmt := do
  let p ← expect .kwReturn
  let k ← kind
  let results ←
    if k == .semicolon || k == .rightBrace then
      pure []
    else
      withRhs true g.exprList
  let _ ← expectSemi
  return .ret p results

/- A branch statement. -/
def branchStmt
    (keyword : TokenKind) : Parser i Stmt := do
  let p ← expect keyword
  let named ← at? .ident
  let label ←
    if keyword == .kwGoto ||
        ((keyword == .kwContinue || keyword == .kwBreak) && named) then
      pure (some (← ident))
    else
      pure none
  let _ ← expectSemi
  return .branch p keyword label

/- The header of an if statement. -/
def ifHeader
    (g : Grammar i) : Parser i (Option Stmt × Expr) := do
  let here ← offset
  if ← at? .leftBrace then
    complain here (utf8 "missing condition in if statement")
    return (none, .bad here here)
  inHeader do
    let first ←
      if ← at? .semicolon then
        pure none
      else do
        if ← at? .kwVar then
          advance
          complain (← offset)
            (utf8 "var declaration not allowed in if initializer")
        pure (some (← simpleStmt g .basic).1)
    if ← at? .leftBrace then
      match first with
      | some s => return (none, ← asExpr s "boolean expression")
      | none =>
          let p ← offset
          return (none, .bad p p)
    else
      let t := (← get).token
      let semi ←
        if t.kind == .semicolon then do
          advance
          pure (some t)
        else do
          let _ ← expect .semicolon
          pure none
      if ← at? .leftBrace then
        match semi with
        | some t =>
            if t.isImplied then
              complain t.offset
                (utf8
                  "unexpected newline, expecting \x7b after if clause")
            else
              complain t.offset (utf8 "missing condition in if statement")
        | none => pure ()
        let p ← offset
        return (first, .bad p p)
      else
        let s := (← simpleStmt g .basic).1
        return (first, ← asExpr s "boolean expression")

/- An if statement. -/
def ifStatement
    (g : Grammar i) : Parser i Stmt := do
  let p ← expect .kwIf
  let (init, test) ← ifHeader g
  let body ← block g
  if ← at? .kwElse then
    advance
    match ← kind with
    | .kwIf => return .cond p init test body (some (← g.ifStmt))
    | .leftBrace =>
        let other ← block g
        let _ ← expectSemi
        return .cond p init test body (some (.block other))
    | _ =>
        let here ← offset
        complainExpected here (utf8 "if statement or block")
        return .cond p init test body (some (.bad here here))
  else
    let _ ← expectSemi
    return .cond p init test body none

/- Is the current token one that starts a clause? -/
def atClause : Parser i Bool := do
  let k ← kind
  return k == .kwCase || k == .kwDefault

/- A clause of a switch statement. -/
def caseClause
    (g : Grammar i) : Parser i Stmt := do
  let p ← offset
  let isCase ← at? .kwCase
  let list ←
    if isCase then do
      advance
      withRhs true g.exprList
    else do
      let _ ← expect .kwDefault
      pure []
  let colon ← expect .colon
  let body ← stmtList g
  return .case p isCase list colon body

/- Does the statement guard a switch on types? -/
def isTypeGuard : Stmt → Parser i Bool
  | .expr (.typeAssert _ _ none _) => return true
  | .assign [_] p op [.typeAssert _ _ none _] => do
      if op == .assign then
        complain p (utf8 "expected ':=', found '='")
        return true
      else
        return op == .define
  | _ => return false

/- A switch statement. -/
def switchStmt
    (g : Grammar i) : Parser i Stmt := do
  let p ← expect .kwSwitch
  let (init, tag) ←
    if ← at? .leftBrace then
      pure (none, none)
    else
      inHeader do
        let s ←
          if ← at? .semicolon then
            pure none
          else
            pure (some (← simpleStmt g .basic).1)
        if ← at? .semicolon then
          advance
          if ← at? .leftBrace then
            return (s, none)
          else
            return (s, some (← simpleStmt g .basic).1)
        else
          return (none, s)
  let guarded ← match tag with
    | some s => isTypeGuard s
    | none => pure false
  let lbrace ← expect .leftBrace
  let clauses ← many atClause (caseClause g)
  let rbrace ← expect .rightBrace
  let _ ← expectSemi
  let body : Block := ⟨lbrace, clauses, some rbrace⟩
  match tag, guarded with
  | some s, true => return .typeSwitch p init s body
  | some s, false =>
      return .switch p init (some (← asExpr s "switch expression")) body
  | none, _ => return .switch p init none body

/- The operation of a clause of a select statement. -/
def commOperation
    (g : Grammar i) : Parser i Stmt := do
  let xs ← withRhs false g.exprList
  let first := xs.headD default
  let op ← kind
  let p ← offset
  if op == .arrow then
    if xs.length > 1 then
      complainExpected first.pos (utf8 "1 expression")
    advance
    return .send first p (← g.rhs)
  else if op == .assign || op == .define then
    if xs.length > 2 then
      complainExpected first.pos (utf8 "1 or 2 expressions")
    advance
    return .assign (xs.take 2) p op [← g.rhs]
  else
    if xs.length > 1 then
      complainExpected first.pos (utf8 "1 expression")
    return .expr first

/- A clause of a select statement. -/
def commClause
    (g : Grammar i) : Parser i Stmt := do
  let p ← offset
  let comm ←
    if ← at? .kwCase then do
      advance
      pure (some (← commOperation g))
    else do
      let _ ← expect .kwDefault
      pure none
  let colon ← expect .colon
  let body ← stmtList g
  return .comm p comm colon body

/- A select statement. -/
def selectStmt
    (g : Grammar i) : Parser i Stmt := do
  let p ← expect .kwSelect
  let lbrace ← expect .leftBrace
  let clauses ← many atClause (commClause g)
  let rbrace ← expect .rightBrace
  let _ ← expectSemi
  return .select p ⟨lbrace, clauses, some rbrace⟩

/- The header of a loop. -/
inductive LoopHeader where
  | plain (init test post : Option Stmt)
  | range
      (lhs : List Expr)
      (opPos : Nat)
      (op : Option TokenKind)
      (rangePos : Nat)
      (x : Expr)

/- Read the header of a loop. -/
def loopHeader
    (g : Grammar i) : Parser i LoopHeader := do
  if ← at? .kwRange then
    let rangePos ← offset
    advance
    return .range [] rangePos none rangePos (← g.rhs)
  let first ←
    if ← at? .semicolon then
      pure none
    else do
      let r ← simpleStmt g .range
      match r with
      | (.assign lhs p op [.unary rangePos _ x], true) =>
          return .range lhs p (some op) rangePos x
      | (s, _) => pure (some s)
  if ← at? .semicolon then
    advance
    let test ←
      if ← at? .semicolon then
        pure none
      else
        pure (some (← simpleStmt g .basic).1)
    let _ ← expectSemi
    let post ←
      if ← at? .leftBrace then
        pure none
      else
        pure (some (← simpleStmt g .basic).1)
    return .plain first test post
  else
    return .plain none first none

/- A loop. -/
def forStmt
    (g : Grammar i) : Parser i Stmt := do
  let p ← expect .kwFor
  let header ←
    if ← at? .leftBrace then
      pure (.plain none none none)
    else
      inHeader (loopHeader g)
  let body ← block g
  let _ ← expectSemi
  match header with
  | .plain init test post =>
      let test ← match test with
        | some s => pure (some (← asExpr s "boolean or range expression"))
        | none => pure none
      return .loop p init test post body
  | .range lhs opPos op rangePos x =>
      match lhs with
      | [] => return .range p none none opPos op rangePos x body
      | [k] => return .range p (some k) none opPos op rangePos x body
      | [k, v] =>
          return .range p (some k) (some v) opPos op rangePos x body
      | lhs =>
          complainExpected (lhs.getLastD default).pos
            (utf8 "at most 2 expressions")
          return .bad p (Stmt.stop (.block body))

/- A statement. -/
def statement
    (g : Grammar i) : Parser i Stmt := do
  let t := (← get).token
  match t.kind with
  | .kwConst | .kwType | .kwVar => return .decl (← genDecl g t.kind)
  | .ident | .int | .float | .imag | .char | .string | .kwFunc
  | .leftParen | .leftBracket | .kwStruct | .kwMap | .kwChan
  | .kwInterface | .add | .sub | .mul | .and | .xor | .arrow
  | .negation =>
      let s := (← simpleStmt g .label).1
      match s with
      | .labeled _ _ _ => return s
      | s =>
          let _ ← expectSemi
          return s
  | .kwGo | .kwDefer => callStmt g t.kind
  | .kwReturn => returnStmt g
  | .kwBreak | .kwContinue | .kwGoto | .kwFallthrough => branchStmt t.kind
  | .leftBrace =>
      let b ← block g
      let _ ← expectSemi
      return .block b
  | .kwIf => ifStatement g
  | .kwSwitch => switchStmt g
  | .kwSelect => selectStmt g
  | .kwFor => forStmt g
  | .semicolon =>
      advance
      return .empty t.offset t.isImplied
  | .rightBrace => return .empty t.offset true
  | _ =>
      complainExpected t.offset (utf8 "statement")
      skipTo stmtStart
      return .bad t.offset (← offset)

------------------------------------------------------------
-- The Grammar
------------------------------------------------------------

/- The parsers that may nest to a given depth. -/
def grammar : (depth : Nat) → Grammar i
  | 0 => .bottom
  | depth + 1 =>
      let g := grammar depth
      { binary := binaryExpr g
        unary := unaryExpr g
        type? := tryType g
        literalValue := compositeBody g
        stmt := statement g
        ifStmt := ifStatement g }

end Parser

end Source

end Namesake
