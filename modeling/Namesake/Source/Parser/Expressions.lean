import Namesake.Source.Parser.Types

/-
  This file defines the parsers of expressions.

  Key definitions include:
    * `Source.Parser.operand`
    * `Source.Parser.primary`
    * `Source.Parser.unaryExpr`
    * `Source.Parser.binaryExpr`
    * `Source.Parser.compositeBody`
-/

namespace Namesake

namespace Source

namespace Parser

variable {i : Input}

------------------------------------------------------------
-- Operands
------------------------------------------------------------

/- Statements up to a closing brace or the next case. -/
def stmtList
    (g : Grammar i) : Parser i (List Stmt) :=
  many
    (do
      let k ← kind
      return !(k == .kwCase || k == .kwDefault || k == .rightBrace ||
        k == .eof))
    g.stmt

/- Statements between braces. -/
def block
    (g : Grammar i) : Parser i Block := do
  let lbrace ← expect .leftBrace
  let stmts ← stmtList g
  let rbrace ← expect? .rightBrace
  return ⟨lbrace, stmts, rbrace⟩

/- A function type or a function literal. -/
def funcTypeOrLit
    (g : Grammar i) : Parser i Expr := do
  let t ← signature g
  if ← at? .leftBrace then
    let body ← nested (block g)
    return .funcLit t body
  else
    return .func t

/- An operand. -/
def operand
    (g : Grammar i) : Parser i Expr := do
  match ← kind with
  | .ident => return .ident (← ident)
  | .int | .float | .imag | .char | .string => return .lit (← literal)
  | .leftParen =>
      let lparen ← offset
      advance
      let x ← nested g.rhs
      let rparen ← expect .rightParen
      return .paren lparen x rparen
  | .kwFunc => funcTypeOrLit g
  | _ =>
      match ← g.type? with
      | some t => return t
      | none =>
          let p ← offset
          complainExpected p (utf8 "operand")
          skipTo stmtStart
          return .bad p (← offset)

------------------------------------------------------------
-- Composite Literals
------------------------------------------------------------

/- The value of an element of a composite literal. -/
def elementValue
    (g : Grammar i) : Parser i Expr := do
  if ← at? .leftBrace then
    g.literalValue none
  else
    g.expr

/- An element of a composite literal. -/
def elementExpr
    (g : Grammar i) : Parser i Expr := do
  let x ← elementValue g
  if ← at? .colon then
    let colon ← offset
    advance
    return .keyValue x colon (← elementValue g)
  else
    return x

/- The elements of a composite literal. -/
def elementList
    (g : Grammar i) : (fuel : Nat) → Parser i (List Expr)
  | 0 => return []
  | fuel + 1 => do
      let k ← kind
      if k == .rightBrace || k == .eof then
        return []
      else
        let x ← elementExpr g
        if ← atComma "composite literal" .rightBrace then
          advance
          return x :: (← elementList g fuel)
        else
          return [x]

/- A composite literal from its brace on. -/
def compositeBody
    (g : Grammar i)
    (t : Option Expr) : Parser i Expr := do
  let lbrace ← expect .leftBrace
  let elts ← nested (do elementList g (← budget))
  let rbrace ← expectClosing .rightBrace "composite literal"
  return .composite t lbrace elts rbrace

------------------------------------------------------------
-- Primary Expressions
------------------------------------------------------------

/- A type assertion from its parenthesis on. -/
def typeAssertion
    (g : Grammar i)
    (x : Expr) : Parser i Expr := do
  let lparen ← expect .leftParen
  let t ←
    if ← at? .kwType then do
      advance
      pure none
    else
      pure (some (← g.type))
  let rparen ← expect .rightParen
  return .typeAssert x lparen t rparen

/- What follows a point. -/
def selection
    (g : Grammar i)
    (x : Expr) : Parser i Expr := do
  match ← kind with
  | .ident => return .selector x (← ident)
  | .leftParen => typeAssertion g x
  | k =>
      let p ← offset
      complainExpected p (utf8 "selector or type assertion")
      if k ≠ .rightBrace then
        advance
      return .selector x ⟨p, utf8 "_"⟩

/- The indices behind the colons of a slice expression. -/
def sliceIndices
    (g : Grammar i) : (count : Nat) → Parser i (List (Nat × Option Expr))
  | 0 => return []
  | count + 1 => do
      if ← at? .colon then
        let colon ← offset
        advance
        let k ← kind
        let x ←
          if k == .colon || k == .rightBracket || k == .eof then
            pure none
          else
            pure (some (← g.rhs))
        return (colon, x) :: (← sliceIndices g count)
      else
        return []

/- Further type arguments of an instance. -/
def moreArguments
    (g : Grammar i) : (fuel : Nat) → Parser i (List Expr)
  | 0 => return []
  | fuel + 1 => do
      if ← at? .comma then
        advance
        let k ← kind
        if k == .rightBracket || k == .eof then
          moreArguments g fuel
        else
          let t ← g.type
          return t :: (← moreArguments g fuel)
      else
        return []

/- An index, slice or instance expression from its bracket on. -/
def indexOrSlice
    (g : Grammar i)
    (x : Expr) : Parser i Expr := do
  let lbrack ← expect .leftBracket
  if ← at? .rightBracket then
    let p ← offset
    complainExpected p (utf8 "operand")
    advance
    return .index x lbrack [.bad p p] p
  modify fun s => { s with level := s.level + 1 }
  let first ←
    if ← at? .colon then
      pure none
    else
      pure (some (← g.rhs))
  let slices ← sliceIndices g 2
  let comma ← at? .comma
  let instances := slices.isEmpty && comma
  let args ←
    if instances then
      moreArguments g (← budget)
    else
      pure []
  modify fun s => { s with level := s.level - 1 }
  let rbrack ← expect .rightBracket
  match slices with
  | [] => return .index x lbrack (first.toList ++ args) rbrack
  | [(_, high)] => return .slice x lbrack first high none false rbrack
  | (c₁, high) :: (c₂, max) :: _ =>
      if high.isNone then
        complain c₁ (utf8 "middle index required in 3-index slice")
      if max.isNone then
        complain c₂ (utf8 "final index required in 3-index slice")
      return .slice x lbrack first
        (some (high.getD (.bad (c₁ + 1) c₂)))
        (some (max.getD (.bad (c₂ + 1) rbrack))) true rbrack

/- The arguments of a call and the offset of three dots. -/
def arguments
    (g : Grammar i) : (fuel : Nat) → Parser i (List Expr × Option Nat)
  | 0 => return ([], none)
  | fuel + 1 => do
      let k ← kind
      if k == .rightParen || k == .eof then
        return ([], none)
      else
        let x ← g.rhs
        let dots ←
          if ← at? .ellipsis then do
            let p ← offset
            advance
            pure (some p)
          else
            pure none
        if ← atComma "argument list" .rightParen then
          advance
          if dots.isSome then
            return ([x], dots)
          else
            let r ← arguments g fuel
            return (x :: r.1, r.2)
        else
          return ([x], dots)

/- A call or conversion from its parenthesis on. -/
def callTail
    (g : Grammar i)
    (f : Expr) : Parser i Expr := do
  let lparen ← expect .leftParen
  let (args, dots) ← nested (do arguments g (← budget))
  let rparen ← expectClosing .rightParen "argument list"
  return .call f lparen args dots rparen

/- An expression without the parentheses around it. -/
def unparen : Expr → Expr
  | .paren _ x _ => unparen x
  | x => x

/- Is this an expression in parentheses? -/
def isParen : Expr → Bool
  | .paren _ _ _ => true
  | _ => false

/- Can a brace behind the expression start a composite literal? -/
def startsComposite
    (level : Int)
    (x : Expr) : Bool :=
  match unparen x with
  | .bad _ _ | .ident _ | .selector _ _ | .index _ _ _ _ => level ≥ 0
  | .array _ _ _ | .struct _ _ | .map _ _ _ => true
  | _ => false

/- What follows an operand. -/
def primaryTail
    (g : Grammar i)
    (x : Expr) : (fuel : Nat) → Parser i Expr
  | 0 => return x
  | fuel + 1 => do
      match ← kind with
      | .period =>
          advance
          primaryTail g (← selection g x) fuel
      | .leftBracket => primaryTail g (← indexOrSlice g x) fuel
      | .leftParen => primaryTail g (← callTail g x) fuel
      | .leftBrace =>
          if startsComposite (← get).level x then
            if isParen x then
              complain (unparen x).pos
                (utf8 "cannot parenthesize type in composite literal")
            primaryTail g (← g.literalValue (some x)) fuel
          else
            return x
      | _ => return x

/- A primary expression, of which the operand may be known. -/
def primary
    (g : Grammar i)
    (given : Option Expr) : Parser i Expr := do
  let x ← match given with
    | some x => pure x
    | none => operand g
  primaryTail g x (← budget)

------------------------------------------------------------
-- Unary and Binary Expressions
------------------------------------------------------------

/-
  A channel type behind an arrow.  The arrow moves into the
  type; a type that has one already hands it on.
-/
def receiveType
    (arrow : Nat) : Expr → Parser i Expr
  | .chan _ old dir value => do
      if dir = .receive then
        complainExpected (old.getD arrow) (utf8 "'chan'")
      let value' ←
        if dir = .send then
          match value with
          | .chan _ _ _ _ => receiveType (old.getD arrow) value
          | _ => do
              complainExpected (old.getD arrow) (utf8 "channel type")
              pure value
        else
          pure value
      return .chan arrow (some arrow) .receive value'
  | x => return x

/- A unary expression. -/
def unaryExpr
    (g : Grammar i) : Parser i Expr := do
  let op ← kind
  let p ← offset
  match op with
  | .add | .sub | .negation | .xor | .and | .tilde =>
      advance
      return .unary p op (← g.unary)
  | .arrow =>
      advance
      let x ← g.unary
      match x with
      | .chan _ _ _ _ => receiveType p x
      | x => return .unary p .arrow x
  | .mul =>
      advance
      return .star p (← g.unary)
  | _ => primary g none

/- The operator at the current token and its strength. -/
def currentOperator : Parser i (TokenKind × Nat) := do
  let s ← get
  let k :=
    if s.inRhs && s.token.kind == .assign then .equal else s.token.kind
  return (k, k.precedence)

/- The operators of at least a given strength behind an operand. -/
def binaryTail
    (g : Grammar i)
    (least : Nat)
    (x : Expr) : (fuel : Nat) → Parser i Expr
  | 0 => return x
  | fuel + 1 => do
      let (op, strength) ← currentOperator
      if strength < least then
        return x
      else
        let p ← expect op
        let y ← g.binary (strength + 1)
        binaryTail g least (.binary x p op y) fuel

/- A binary expression of operators of at least a given strength. -/
def binaryExpr
    (g : Grammar i)
    (least : Nat) : Parser i Expr := do
  let x ← g.unary
  binaryTail g least x (← budget)

end Parser

end Source

end Namesake
