import Namesake.Layout.Comments

/-
  This file defines the layout of expressions and types.

  Parts that nest are laid out through a record of layouts,
  which is built up to a depth that no file exceeds.

  Key definitions include:
    * `Layout.Nodes`
    * `Layout.exprList`
    * `Layout.parameters`
    * `Layout.signature`
    * `Layout.fieldList`
    * `Layout.binaryExpr`
    * `Layout.expression`
-/

namespace Namesake

namespace Layout

open Source (Expr Stmt Field Fields Signature Block Ident Lit)

------------------------------------------------------------
-- Nesting
------------------------------------------------------------

/-
  The layouts of the parts that nest: expressions, with the
  binding strength that needs no parentheses and the depth in
  operators, function literals, and statements, with whether
  the end of a block follows.
-/
structure Nodes where
  expr : Expr → (strength depth : Nat) → Printer Unit
  body : (headerSize : Nat) → Space → Block → Printer Unit
  stmt : Stmt → (beforeBrace : Bool) → Printer Unit

/- The layouts at the depth that no file reaches. -/
def Nodes.bottom : Nodes :=
  { expr := fun _ _ _ => return ()
    body := fun _ _ _ => return ()
    stmt := fun _ _ => return () }

/- The strength that no operator has. -/
def lowest : Nat :=
  0

/- The strength of operators with one operand. -/
def unaryStrength : Nat :=
  6

/- The strength of selectors, indices and calls. -/
def highest : Nat :=
  7

namespace Nodes

/- An expression at a depth. -/
def expr0
    (g : Nodes)
    (x : Expr)
    (depth : Nat) : Printer Unit :=
  g.expr x lowest depth

/- An expression that stands alone. -/
def top
    (g : Nodes)
    (x : Expr) : Printer Unit :=
  g.expr x lowest 1

end Nodes

/- A name at its place. -/
def ident
    (id : Ident) : Printer Unit := do
  moveTo id.pos
  name id.name

------------------------------------------------------------
-- Lists of Expressions
------------------------------------------------------------

/-
  How a list is laid out: with a comma behind its last member
  if the closing bracket is on another line, and without
  indentation of its own.
-/
structure ListMode where
  comma : Bool := false
  noIndent : Bool := false

/- A size that no source line has. -/
def lineLimit : Nat :=
  1000000

/- The key of a pair, and the other parts. -/
def pair? : Expr → Option (Expr × Nat × Expr)
  | .keyValue k colon v => some (k, colon, v)
  | _ => none

/- What has been seen of a list on its way. -/
structure ListState where
  before : Space
  previousBreak : Option Nat := none
  size : Nat := 0
  product : Nat := 1
  count : Nat := 0
  previousLine : Nat := 0

/-
  Do the sizes of two members of a list differ so much that
  they are not aligned?  The later one is compared with the
  geometric mean of the earlier ones: if neither is larger than
  two and a half times the other they are aligned.
-/
def differs
    (s : ListState)
    (size : Nat) : Bool :=
  if s.size = 0 || size = 0 then
    true
  else if s.count = 0 || (s.size ≤ 40 && size ≤ 40) then
    false
  else
    Nat.pow (5 * size) s.count ≤ Nat.pow 2 s.count * s.product ||
      Nat.pow 5 s.count * s.product ≤ Nat.pow (2 * size) s.count

/- The size of a member of a list; zero if it has several lines. -/
def memberSize
    (g : Nodes)
    (placed : Bool)
    (x : Expr) : Printer Nat := do
  let size ← measure lineLimit (g.top x)
  if size ≤ lineLimit && placed then
    match pair? x with
    | some (key, _, _) => measure lineLimit (g.top key)
    | none => return size
  else
    return 0

/- The separator in front of a member of a list. -/
def separate
    (s : ListState)
    (index : Nat)
    (x : Expr)
    (line : Nat)
    (newSection needsBreak : Bool) : Printer ListState := do
  unless needsBreak do
    moveTo x.pos
  token .comma
  if !needsBreak then
    blank
    return s
  let crowded :=
    match s.previousBreak with
    | some i => decide (i + 1 < index)
    | none => decide (0 < index)
  let n ← linebreak line 0 s.before (newSection || crowded)
  if n = 0 then
    blank
    return s
  let s := { s with before := .ignore, previousBreak := some index }
  return if n > 1 then { s with product := 1, count := 0 } else s

/- The members of a list from an index on. -/
def members
    (g : Nodes)
    (depth : Nat)
    (placed several : Bool) :
    (index : Nat) → ListState → List Expr → Printer ListState
  | _, s, [] => return s
  | index, s, x :: xs => do
      let line ← lineOf x.pos
      let size ← memberSize g placed x
      let newSection := differs s size
      let s := { s with size }
      let needsBreak := 0 < s.previousLine && s.previousLine < line
      let s ←
        if index > 0 then separate s index x line newSection needsBreak
        else pure s
      match pair? x with
      | some (key, colon, value) =>
          if several && size > 0 && needsBreak then
            g.top key
            moveTo colon
            token .colon
            space .vtab
            g.top value
          else
            g.expr0 x depth
      | none => g.expr0 x depth
      let s :=
        if size > 0 then
          { s with product := s.product * size, count := s.count + 1 }
        else
          s
      members g depth placed several (index + 1)
        { s with previousLine := line } xs

/- The members of a list on one line. -/
def inlineMembers
    (g : Nodes)
    (depth : Nat) : (first : Bool) → List Expr → Printer Unit
  | _, [] => return ()
  | first, x :: xs => do
      unless first do
        moveTo x.pos
        token .comma
        blank
      g.expr0 x depth
      inlineMembers g depth false xs

/-
  A list of expressions between two offsets, if they are known.
  Line ends between its members are kept.
-/
def exprList
    (g : Nodes)
    (from? : Option Nat)
    (list : List Expr)
    (depth : Nat)
    (mode : ListMode)
    (to? : Option Nat) : Printer Unit := do
  match list, list.getLast? with
  | first :: _, some last =>
      let before ← placeOf? from?
      let after ← placeOf? to?
      let line ← lineOf first.pos
      let endLine ← lineOf last.stop
      if before.line = line && line = endLine then
        inlineMembers g depth true list
      else
        let margin : Space := if mode.noIndent then .ignore else .indent
        let start : ListState :=
          { before := margin, previousLine := before.line }
        let start ←
          if 0 < before.line && before.line < line then do
            let n ← linebreak line 0 margin true
            if n > 0 then
              pure
                { start with before := .ignore, previousBreak := some 0 }
            else
              pure start
          else
            pure start
        let placed := from?.isSome && to?.isSome
        let s ← members g depth placed (list.length > 1) 0 start list
        let indented := s.before == .ignore && !mode.noIndent
        if mode.comma && 0 < after.line &&
            (← get).pos.line < after.line then
          token .comma
          if indented then
            space .unindent
          space .formfeed
        else if indented then
          space .unindent
  | _, _ => return ()

/- A list of names. -/
def identList
    (g : Nodes)
    (names : List Ident)
    (indent : Bool) : Printer Unit :=
  exprList g none (names.map Expr.ident) 1
    { noIndent := !indent } none

------------------------------------------------------------
-- Parameters
------------------------------------------------------------

/- An expression without parentheses around it. -/
def bare : Expr → Expr
  | .paren _ x _ => bare x
  | x => x

/- Can an expression only be a type? -/
def isTypeElement : Expr → Bool
  | .array _ _ _ | .struct _ _ | .func _ | .interface _ _
  | .map _ _ _ | .chan _ _ _ _ => true
  | .unary _ op _ => op == .tilde
  | .binary x _ _ y => isTypeElement x || isTypeElement y
  | .paren _ x _ => isTypeElement x
  | _ => false

/- Does a name in front of an expression read as one with it? -/
def combinesWithName : Expr → Bool
  | .star _ x => !isTypeElement x
  | .binary x _ _ y => combinesWithName x && !isTypeElement y
  | _ => false

/- The kinds of parameter lists. -/
inductive ParamMode where
  | func
  | funcTypes
  | typeTypes
deriving DecidableEq, Repr

/- The number of parameters in a list of fields. -/
def numFields
    (fields : Fields) : Nat :=
  total (fields.list.map fun f =>
    if f.names.isEmpty then 1 else f.names.length)

/- The type of a field. -/
def fieldType
    (f : Field) : Expr :=
  f.type.getD default

/- Parameters; the result says whether they are indented. -/
def paramList
    (g : Nodes) :
    (first : Bool) → (previousLine : Nat) → Space → List Field →
    Printer (Nat × Space)
  | _, previousLine, before, [] => return (previousLine, before)
  | first, previousLine, before, f :: fs => do
      let start ← lineOf f.pos
      let stop ← lineOf (Source.fieldStop f)
      let needsBreak := 0 < previousLine && previousLine < start
      unless first do
        unless needsBreak do
          moveTo f.pos
        token .comma
      let n ← if needsBreak then linebreak start 0 before true else pure 0
      let before := if n > 0 then .ignore else before
      if n = 0 && !first then
        blank
      unless f.names.isEmpty do
        identList g f.names (before == .indent)
        blank
      g.top (bare (fieldType f))
      paramList g false stop before fs

/- A list of parameters in its brackets. -/
def parameters
    (g : Nodes)
    (fields : Fields)
    (mode : ParamMode) : Printer Unit := do
  let isFunc := mode == .func
  moveTo? fields.opening
  token (if isFunc then .leftParen else .leftBracket)
  unless fields.list.isEmpty do
    let opening := (← placeOf? fields.opening).line
    let (previousLine, before) ←
      paramList g true opening .indent fields.list
    let closing := (← placeOf? fields.closing).line
    let ambiguous :=
      match fields.list with
      | [f] => combinesWithName (bare (fieldType f))
      | _ => false
    if 0 < previousLine && previousLine < closing then
      token .comma
      let _ ← linebreak closing 0 .ignore true
    else if mode == .typeTypes && numFields fields = 1 && ambiguous then
      token .comma
    if before == .ignore then
      space .unindent
  moveTo? fields.closing
  token (if isFunc then .rightParen else .rightBracket)

/- The parameters and results of a function. -/
def signature
    (g : Nodes)
    (t : Signature) : Printer Unit := do
  if let some tps := t.typeParams then
    parameters g tps .funcTypes
  parameters g t.params .func
  if let some results := t.results then
    if numFields results > 0 then
      blank
      match results.list with
      | [f] =>
          if f.names.isEmpty then
            g.top (bare (fieldType f))
          else
            parameters g results .func
      | _ => parameters g results .func

------------------------------------------------------------
-- Fields
------------------------------------------------------------

/- Is a list of fields small enough for one line? -/
def isOneLine
    (g : Nodes)
    (list : List Field) : Printer Bool := do
  match list with
  | [f] =>
      if f.tag.isSome || f.comment.isSome then
        return false
      let names := if f.names.isEmpty then 0 else 1
      let size ← measure 30 (g.top (fieldType f))
      return names + size ≤ 30
  | _ => return false

/- A literal at its place. -/
def litExpr
    (l : Lit) : Printer Unit := do
  moveTo l.pos
  literal l.kind l.value

/- The name and signature of a method, or an embedded type. -/
def method
    (g : Nodes)
    (f : Field) : Printer Unit := do
  match f.names, f.type with
  | id :: _, some (.func t) =>
      ident id
      signature g t
  | _, _ => g.top (fieldType f)

/- The only field of a struct or interface on one line. -/
def oneLineField
    (g : Nodes)
    (isStruct : Bool)
    (f : Field) : Printer Unit := do
  if isStruct then
    inlineMembers g 1 true (f.names.map Expr.ident)
    unless f.names.isEmpty do
      blank
    g.top (fieldType f)
  else
    method g f

/- A field of a struct, with its columns. -/
def structField
    (g : Nodes)
    (separator : Space)
    (f : Field) : Printer Unit := do
  let named := !f.names.isEmpty
  if named then
    identList g f.names false
    space separator
  g.top (fieldType f)
  match f.tag with
  | some tag =>
      if named && separator == .vtab then
        space separator
      space separator
      litExpr tag
  | none =>
      if f.comment.isSome then
        space separator
        unless named do
          space separator

/-
  Lines of a list, each on its own line.  A line behind one
  that takes several lines starts new columns.
-/
def lineList {α : Type}
    (pos : α → Nat)
    (body : α → Printer Unit) :
    (previous : Option Nat) → List α → Printer Unit
  | _, [] => return ()
  | previous, x :: xs => do
      if let some line := previous then
        let newSection := (← linesFrom line) > 0
        let _ ← linebreak (← lineOf (pos x)) 1 .ignore newSection
      let line ← recordLine (body x)
      lineList pos body (some line) xs

/- The fields of a struct or the methods of an interface. -/
def fieldList
    (g : Nodes)
    (fields : Fields)
    (isStruct : Bool) : Printer Unit := do
  let opening := fields.opening
  let closing := fields.closing
  let list := fields.list
  let openPlace ← placeOf? opening
  let closePlace ← placeOf? closing
  let hasComments ← commentBefore closePlace
  let oneLine := !hasComments && openPlace.line = closePlace.line
  if oneLine && list.isEmpty then
    moveTo? opening
    token .leftBrace
    moveTo? closing
    token .rightBrace
  else if oneLine && (← isOneLine g list) then
    moveTo? opening
    token .leftBrace
    blank
    list.forM (oneLineField g isStruct)
    blank
    moveTo? closing
    token .rightBrace
  else
    blank
    moveTo? opening
    token .leftBrace
    space .indent
    if hasComments || !list.isEmpty then
      space .formfeed
    let separator : Space := if list.length = 1 then .blank else .vtab
    lineList Source.FieldOf.pos
      (if isStruct then structField g separator else method g)
      none list
    space .unindent
    space .formfeed
    moveTo? closing
    token .rightBrace

------------------------------------------------------------
-- Operators
------------------------------------------------------------

/- The operators of strength four and five in an expression, and problems. -/
structure Operators where
  four : Bool := false
  five : Bool := false
  problem : Nat := 0

/- Join what is known of two expressions. -/
def Operators.join
    (a b : Operators) : Operators :=
  ⟨a.four || b.four, a.five || b.five, max a.problem b.problem⟩

/-
  The strength of operators around which a right operand needs
  blanks, since the two would read as another token.
-/
def clash
    (op : TokenKind)
    (y : Expr) : Nat :=
  match y with
  | .star _ _ => if op == .quo then 5 else 0
  | .unary _ inner _ =>
      match op, inner with
      | .quo, .mul => 5
      | .and, .and => 5
      | .and, .xor => 5
      | .add, .add => 4
      | .sub, .sub => 4
      | _, _ => 0
  | _ => 0

/- The operators of an expression, as far as no parentheses stand. -/
def operators : Expr → Operators
  | .binary x _ op y =>
      let own := op.precedence
      let self : Operators :=
        ⟨own == 4, own == 5, clash op y⟩
      let left : Operators :=
        match x with
        | .binary _ _ op' _ =>
            if op'.precedence < own then {} else operators x
        | _ => {}
      let right : Operators :=
        match y with
        | .binary _ _ op' _ =>
            if op'.precedence ≤ own then {} else operators y
        | _ => {}
      self.join (left.join right)
  | _ => {}

/- The strength from which on operators have no blanks around them. -/
def cutoff
    (x : Expr)
    (depth : Nat) : Nat :=
  let o := operators x
  if o.problem > 0 then o.problem + 1
  else if o.four && o.five then (if depth = 1 then 5 else 4)
  else if depth = 1 then 6
  else 4

/- How much deeper a left operand is. -/
def deeper
    (x : Expr)
    (strength : Nat) : Nat :=
  match x with
  | .binary _ _ op _ => if op.precedence = strength then 0 else 1
  | _ => 1

/- The depth inside parentheses. -/
def shallower
    (depth : Nat) : Nat :=
  max (depth - 1) 1

/- An operator and its operands. -/
def binaryOperands
    (g : Nodes)
    (x : Expr)
    (opPos : Nat)
    (op : TokenKind)
    (y : Expr)
    (limit depth : Nat) : Printer Unit := do
  let own := op.precedence
  let spaced := own < limit
  g.expr x own (depth + deeper x own)
  if spaced then
    blank
  let xLine := (← get).pos.line
  let yLine ← lineOf y.pos
  moveTo opPos
  token op
  let n ←
    if xLine ≠ yLine && xLine > 0 && yLine > 0 then
      linebreak yLine 1 .indent true
    else
      pure 0
  if spaced && n = 0 then
    blank
  g.expr y (own + 1) (depth + 1)
  if n > 0 then
    space .unindent

/- An expression with an operator between two operands. -/
def binaryExpr
    (g : Nodes)
    (x : Expr)
    (opPos : Nat)
    (op : TokenKind)
    (y : Expr)
    (strength depth : Nat) : Printer Unit := do
  let whole := Expr.binary x opPos op y
  if op.precedence < strength then
    token .leftParen
    g.expr0 whole (shallower depth)
    token .rightParen
  else
    binaryOperands g x opPos op y (cutoff whole depth) depth

------------------------------------------------------------
-- Selectors and Literals
------------------------------------------------------------

/-
  A selector; the result says whether it went to another line
  and is still indented.
-/
def selectorExpr
    (g : Nodes)
    (x : Expr)
    (sel : Ident)
    (depth : Nat)
    (isCall : Bool) : Printer Bool := do
  g.expr x highest depth
  token .period
  let line ← lineOf sel.pos
  if (← get).pos.line < line then
    space .indent
    space .newline
    ident sel
    unless isCall do
      space .unindent
    return true
  else
    ident sel
    return false

/- Replace the last occurrence of a byte. -/
def replaceLast
    (b c : UInt8)
    (s : Bytes) : Bytes :=
  let rest := s.reverse.dropWhile (· ≠ b)
  if rest.isEmpty then
    s
  else
    rest.tail.reverse ++ [c] ++ (s.reverse.takeWhile (· ≠ b)).reverse

/-
  The standard form of a number: small letters for its base
  and exponent, and no zeros in front of an imaginary one.
-/
def normalNumber
    (s : Bytes) : Bytes :=
  match s with
  | 0x30 :: 0x58 :: rest => replaceLast 0x50 0x70 (0x30 :: 0x78 :: rest)
  | 0x30 :: 0x78 :: _ => replaceLast 0x50 0x70 s
  | 0x30 :: 0x4f :: rest => 0x30 :: 0x6f :: rest
  | 0x30 :: 0x42 :: rest => 0x30 :: 0x62 :: rest
  | 0x30 :: 0x6f :: _ => s
  | 0x30 :: 0x62 :: _ => s
  | _ =>
      if s.length < 2 then
        s
      else if s.contains 0x45 then
        replaceLast 0x45 0x65 s
      else if s.getLast? == some 0x69 && !s.contains 0x2e &&
          !s.contains 0x65 then
        let digits := s.dropWhile fun b => b == 0x30 || b == 0x5f
        if digits == [0x69] then [0x30, 0x69] else digits
      else
        s

/- A literal in its standard form. -/
def litForm
    (l : Lit) : Bytes :=
  match l.kind with
  | .int | .float | .imag => normalNumber l.value
  | _ => l.value

/- Is this an expression with two operands? -/
def isBinary : Expr → Bool
  | .binary _ _ _ _ => true
  | _ => false

/- The parts of a slice, with colons between them. -/
def sliceParts
    (g : Nodes)
    (spaced : Bool)
    (depth : Nat) : (previous : Option Bool) → List (Option Expr) → Printer Unit
  | _, [] => return ()
  | previous, x :: xs => do
      if let some had := previous then
        if had && spaced then
          blank
        token .colon
        if x.isSome && spaced then
          blank
      if let some e := x then
        g.expr0 e (depth + 1)
      sliceParts g spaced depth (some x.isSome) xs

------------------------------------------------------------
-- Calls and Composite Literals
------------------------------------------------------------

/- Does a called type need parentheses? -/
def needsParens : Expr → Bool
  | .func _ => true
  | .chan _ _ dir _ => dir == .receive
  | _ => false

/- A call. -/
def callExpr
    (g : Nodes)
    (f : Expr)
    (lparen : Nat)
    (args : List Expr)
    (ellipsis : Option Nat)
    (rparen : Nat)
    (depth : Nat) : Printer Unit := do
  let depth := if args.length > 1 then depth + 1 else depth
  let parens := needsParens f
  if parens then
    token .leftParen
  let indented ←
    match f with
    | .selector x sel => selectorExpr g x sel depth true
    | f => do
        g.expr f highest depth
        pure false
  if parens then
    token .rightParen
  moveTo lparen
  token .leftParen
  match ellipsis with
  | some p =>
      exprList g (some lparen) args depth {} (some p)
      moveTo p
      token .ellipsis
      if (← lineOf p) < (← lineOf rparen) then
        token .comma
        space .formfeed
  | none =>
      exprList g (some lparen) args depth { comma := true } (some rparen)
  moveTo rparen
  token .rightParen
  if indented then
    space .unindent

/- A composite literal. -/
def compositeLit
    (g : Nodes)
    (type : Option Expr)
    (lbrace : Nat)
    (elts : List Expr)
    (rbrace : Nat)
    (depth : Nat) : Printer Unit := do
  if let some t := type then
    g.expr t highest depth
  modify fun s => { s with level := s.level + 1 }
  moveTo lbrace
  token .leftBrace
  exprList g (some lbrace) elts 1 { comma := true } (some rbrace)
  space .indent
  space .unindent
  noteOpening
  let toggle := fun (s : State) =>
    { s with
      noExtraBreak := !s.noExtraBreak
      noExtraBlank :=
        if elts.isEmpty then s.noExtraBlank else !s.noExtraBlank }
  modify toggle
  moveTo rbrace
  token .rightBrace
  noteOpening
  modify toggle
  modify fun s => { s with level := s.level - 1 }

/- The output columns since a column, if the line is still the same. -/
def distanceFrom
    (start : Nat)
    (column : Nat) : Printer Nat := do
  let s ← get
  if (← lineOf start) = s.pos.line then
    return s.outColumn - column
  else
    return infinity

------------------------------------------------------------
-- Expressions
------------------------------------------------------------

/- A slice of an expression. -/
def sliceExpr
    (g : Nodes)
    (x : Expr)
    (lbrack : Nat)
    (parts : List (Option Expr))
    (rbrack : Nat)
    (depth : Nat) : Printer Unit := do
  g.expr x highest 1
  moveTo lbrack
  token .leftBracket
  let known := parts.filterMap id
  let spaced := depth ≤ 1 && known.length > 1 && known.any isBinary
  sliceParts g spaced depth none parts
  moveTo rbrack
  token .rightBracket

/- A type that is built from other types. -/
def typeExpr
    (g : Nodes)
    (x : Expr) : Printer Unit := do
  match x with
  | .ellipsis _ elt =>
      token .ellipsis
      if let some e := elt then
        g.top e
  | .array _ len elt =>
      token .leftBracket
      if let some l := len then
        g.top l
      token .rightBracket
      g.top elt
  | .struct _ fields =>
      token .kwStruct
      fieldList g fields true
  | .func t =>
      token .kwFunc
      signature g t
  | .interface _ methods =>
      token .kwInterface
      fieldList g methods false
  | .map _ k v =>
      token .kwMap
      token .leftBracket
      g.top k
      token .rightBracket
      g.top v
  | .chan _ arrow dir v =>
      match dir with
      | .both => token .kwChan
      | .receive =>
          token .arrow
          token .kwChan
      | .send =>
          token .kwChan
          moveTo? arrow
          token .arrow
      blank
      g.top v
  | _ => return ()

/- An expression. -/
def expression
    (g : Nodes)
    (x : Expr)
    (strength depth : Nat) : Printer Unit := do
  moveTo x.pos
  match x with
  | .bad _ _ => literal .string (utf8 "BadExpr")
  | .ident id => name id.name
  | .binary a opPos op b => binaryExpr g a opPos op b strength depth
  | .keyValue k colon v =>
      g.top k
      moveTo colon
      token .colon
      space .blank
      g.top v
  | .star _ e =>
      if unaryStrength < strength then
        token .leftParen
        token .mul
        g.top e
        token .rightParen
      else
        token .mul
        g.top e
  | .unary _ op e =>
      if unaryStrength < strength then
        token .leftParen
        g.top x
        token .rightParen
      else
        token op
        g.expr e unaryStrength depth
  | .lit l => literal l.kind (litForm l)
  | .funcLit t body =>
      token .kwFunc
      let column := (← get).outColumn - 4
      signature g t
      g.body (← distanceFrom x.pos column) .blank body
  | .paren _ e rparen =>
      match e with
      | .paren _ _ _ => g.expr0 e depth
      | e =>
          token .leftParen
          g.expr0 e (shallower depth)
          moveTo rparen
          token .rightParen
  | .selector e sel =>
      let _ ← selectorExpr g e sel depth false
  | .typeAssert e lparen t rparen =>
      g.expr e highest depth
      token .period
      moveTo lparen
      token .leftParen
      match t with
      | some t => g.top t
      | none => token .kwType
      moveTo rparen
      token .rightParen
  | .index e lbrack args rbrack =>
      g.expr e highest 1
      moveTo lbrack
      token .leftBracket
      match args with
      | [arg] => g.expr0 arg (depth + 1)
      | args =>
          exprList g (some lbrack) args (depth + 1) { comma := true }
            (some rbrack)
      moveTo rbrack
      token .rightBracket
  | .slice e lbrack low high max _ rbrack =>
      let parts := [low, high] ++ (max.map some).toList
      sliceExpr g e lbrack parts rbrack depth
  | .call f lparen args ellipsis rparen =>
      callExpr g f lparen args ellipsis rparen depth
  | .composite t lbrace elts rbrace =>
      compositeLit g t lbrace elts rbrace depth
  | x => typeExpr g x

end Layout

end Namesake
