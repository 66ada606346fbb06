import Namesake.Source.Lines
import Namesake.Source.Tree

/-
  This file defines the state of a parser of source files:
  the current token, the comments next to it and the errors
  found so far, with the moves that all parts of the parser
  share.

  After an error the parser skips to a token at which it can
  go on.  An error on the line of the error before it is
  dropped, and after more than ten errors parsing stops.

  Key definitions include:
    * `Source.Parser.Input`
    * `Source.Parser.State`
    * `Source.Parser`
    * `Source.Parser.advance`
    * `Source.Parser.complain`
    * `Source.Parser.expect`
    * `Source.Parser.skipTo`
    * `Source.Parser.Grammar`
-/

namespace Namesake

namespace Source

------------------------------------------------------------
-- States
------------------------------------------------------------

/- An error in a source file. -/
structure ParseError where
  position : Position
  message : Bytes
deriving Repr

/- What is wrong at an offset of a text. -/
structure Parser.Complaint where
  offset : Nat
  message : Bytes
deriving Repr

/- What a parser reads: the lines of a text and its tokens. -/
structure Parser.Input where
  lines : Lines
  tokens : List Scanner.Lexed

namespace Parser.Input

/- The comment is a token of the text. -/
def Holds
    (i : Input)
    (c : Comment) : Prop :=
  ∃ t ∈ i.tokens, t.token = ⟨.comment, c.pos, c.text⟩

/- Comments of the text that follow one another. -/
abbrev Group
    (i : Input) :=
  List { c : Comment // i.Holds c }

/- The comments themselves. -/
def Group.comments
    {i : Input}
    (g : i.Group) : CommentGroup :=
  g.map Subtype.val

end Parser.Input

/-
  The state of a parser.  The tokens not yet taken are tokens
  of the text, and so is a comment that was taken.
-/
structure Parser.State
    (i : Parser.Input) where
  rest : List Scanner.Lexed
  rest_subset : ∀ t ∈ rest, t ∈ i.tokens
  token : Token := ⟨.eof, 0, []⟩
  token_mem :
    token.kind = .comment → ∃ t ∈ i.tokens, t.token = token
  tokenStop : Nat := 0
  started : Bool := false
  errors : List Complaint := []
  comments : List CommentGroup := []
  leadComment : Option i.Group := none
  lineComment : Option i.Group := none
  level : Int := 0
  inRhs : Bool := false
  syncOffset : Option Nat := none
  syncCount : Nat := 0

namespace Parser.State

/- The state in front of the first token. -/
def start
    (i : Input) : State i :=
  { rest := i.tokens
    rest_subset := fun _ h => h
    token_mem := by
      intro h
      cases h }

/- The comment that was taken. -/
def comment
    {i : Input}
    (s : State i)
    (h : s.token.kind = .comment) : { c : Comment // i.Holds c } :=
  ⟨⟨s.token.offset, s.token.text⟩, by
    rcases s.token_mem h with ⟨t, hMem, hToken⟩
    refine ⟨t, hMem, ?_⟩
    rw [hToken, ← h]⟩

end Parser.State

/- A parser may stop early, when there are too many errors. -/
abbrev Parser
    (i : Parser.Input) :=
  EStateM Unit (Parser.State i)

namespace Parser

variable {i : Input}

/- The kind of the current token. -/
def kind : Parser i TokenKind := do
  return (← get).token.kind

/- The offset of the current token. -/
def offset : Parser i Nat := do
  return (← get).token.offset

/- Is the current token of this kind? -/
def at?
    (k : TokenKind) : Parser i Bool := do
  return (← get).token.kind == k

/- A bound for the steps that any loop can still take. -/
def budget : Parser i Nat := do
  return (← get).rest.length + 2

/-
  Repeat a parser while a test holds.  Every round takes a
  token, so the bound is never reached.
-/
def repeatWhile {α : Type}
    (test : Parser i Bool)
    (body : Parser i α) : (fuel : Nat) → Parser i (List α)
  | 0 => return []
  | fuel + 1 => do
      if ← test then
        let x ← body
        let xs ← repeatWhile test body fuel
        return x :: xs
      else
        return []

/- Repeat a parser while a test holds. -/
def many {α : Type}
    (test : Parser i Bool)
    (body : Parser i α) : Parser i (List α) := do
  repeatWhile test body (← budget)

------------------------------------------------------------
-- Errors
------------------------------------------------------------

/- The largest number of errors before parsing stops. -/
def errorLimit : Nat :=
  10

/- Report an error at an offset. -/
def complain
    (at₀ : Nat)
    (message : Bytes) : Parser i Unit := do
  let s ← get
  match s.errors with
  | [] => set { s with errors := [⟨at₀, message⟩] }
  | e :: _ =>
      if (i.lines.position e.offset).line =
          (i.lines.position at₀).line then
        return ()
      else if s.errors.length > errorLimit then
        throw ()
      else
        set { s with errors := ⟨at₀, message⟩ :: s.errors }

/- Report what was expected at an offset. -/
def complainExpected
    (at₀ : Nat)
    (what : Bytes) : Parser i Unit := do
  let t := (← get).token
  let found :=
    if at₀ = t.offset then
      if t.isImplied then
        utf8 ", found newline"
      else if t.kind.isLiteral then
        utf8 ", found " ++ t.text
      else
        utf8 ", found '" ++ utf8 t.kind.spelling ++ utf8 "'"
    else
      []
  complain at₀ (utf8 "expected " ++ what ++ found)

/- A token kind between quotes. -/
def quoted
    (k : TokenKind) : Bytes :=
  utf8 "'" ++ utf8 k.spelling ++ utf8 "'"

------------------------------------------------------------
-- Tokens
------------------------------------------------------------

/- Take the next token of any kind, with its faults. -/
def shift : Parser i Unit := do
  let s ← get
  match h : s.rest with
  | [] => return ()
  | t :: rest =>
      let errors :=
        t.faults.map fun f =>
          (⟨f.offset, f.cause.message⟩ : Complaint)
      have hTaken : ∀ t' ∈ t :: rest, t' ∈ i.tokens := by
        rw [← h]
        exact s.rest_subset
      set
        { s with
          token := t.token
          token_mem := fun _ => ⟨t, hTaken t (by simp), rfl⟩
          tokenStop := t.stop
          rest := rest
          rest_subset := fun t' hMem => hTaken t' (by simp [hMem])
          errors := errors.reverse ++ s.errors }

/- The number of line ends in a comment. -/
def innerLines
    (text : Bytes) : Nat :=
  if text.startsWith [0x2f, 0x2a] then text.count 0x0a else 0

/-
  Collect the comments of which each starts at most `gap`
  lines behind the line on which the one before it ends.
-/
def collectGroup
    (gap : Nat) : (fuel : Nat) → (endLine : Nat) → Parser i (i.Group × Nat)
  | 0, endLine => return ([], endLine)
  | fuel + 1, endLine => do
      let s ← get
      let line := i.lines.lineOf s.token.offset
      if h : s.token.kind = .comment ∧ line ≤ endLine + gap then
        let c := s.comment h.1
        shift
        let r ← collectGroup gap fuel (line + innerLines c.val.text)
        return (c :: r.1, r.2)
      else
        return ([], endLine)

/- Take a group of comments. -/
def group
    (gap : Nat) : Parser i (i.Group × Nat) := do
  let s ← get
  let r ← collectGroup gap (← budget) (i.lines.lineOf s.token.offset)
  modify fun s => { s with comments := r.1.comments :: s.comments }
  return r

/- Take all comment groups up to the next token. -/
def groups : (fuel : Nat) →
    Option (i.Group × Nat) → Parser i (Option (i.Group × Nat))
  | 0, last => return last
  | fuel + 1, last => do
      if ← at? .comment then
        groups fuel (some (← group 1))
      else
        return last

/-
  Take the next token.  A comment group that ends on the line
  above the new token leads it; one that starts on the line of
  the old token and ends a line is a line comment.
-/
def advance : Parser i Unit := do
  let s ← get
  let oldLine := i.lines.lineOf s.token.offset
  set { s with leadComment := none, lineComment := none }
  shift
  if ← at? .comment then
    let s ← get
    if s.started && i.lines.lineOf s.token.offset == oldLine then
      let r ← group 0
      let s ← get
      let ends :=
        i.lines.lineOf s.token.offset ≠ r.2 ||
          s.token.kind == .semicolon || s.token.kind == .eof
      if ends then
        modify fun s => { s with lineComment := some r.1 }
    let last ← groups (← budget) none
    match last with
    | some (g, endLine) =>
        let s ← get
        if endLine + 1 = i.lines.lineOf s.token.offset then
          modify fun s => { s with leadComment := some g }
    | none => return ()
  modify fun s => { s with started := true }

/- The comments that lead the current token. -/
def leadDoc : Parser i (Option CommentGroup) := do
  return (← get).leadComment.map Input.Group.comments

/- The comments behind the last token on its line. -/
def lineDoc : Parser i (Option CommentGroup) := do
  return (← get).lineComment.map Input.Group.comments

/- Take a token of a kind; another one is an error. -/
def expect
    (k : TokenKind) : Parser i Nat := do
  let p ← offset
  unless ← at? k do
    complainExpected p (quoted k)
  advance
  return p

/- Like `expect`, without an offset if the token is another one. -/
def expect?
    (k : TokenKind) : Parser i (Option Nat) := do
  let p ← offset
  let found ← at? k
  unless found do
    complainExpected p (quoted k)
  advance
  return if found then some p else none

/- Take a closing token; a line end before it lacks a comma. -/
def expectClosing
    (k : TokenKind)
    (context : String) : Parser i Nat := do
  let t := (← get).token
  if t.kind ≠ k && t.isImplied then
    complain t.offset
      (utf8 "missing ',' before newline in " ++ utf8 context)
    advance
  expect k

/-
  Is there a comma, or should there be one?  Only the closing
  token may follow without a comma.
-/
def atComma
    (context : String)
    (closing : TokenKind) : Parser i Bool := do
  let t := (← get).token
  if t.kind == .comma then
    return true
  else if t.kind ≠ closing then
    let before :=
      if t.isImplied then utf8 " before newline" else []
    complain t.offset
      (utf8 "missing ','" ++ before ++ utf8 " in " ++ utf8 context)
    return true
  else
    return false

------------------------------------------------------------
-- Going on after Errors
------------------------------------------------------------

/- The tokens that start a statement. -/
def stmtStart : List TokenKind :=
  [
    .kwBreak, .kwConst, .kwContinue, .kwDefer, .kwFallthrough,
    .kwFor, .kwGo, .kwGoto, .kwIf, .kwReturn, .kwSelect,
    .kwSwitch, .kwType, .kwVar
  ]

/- The tokens that start a declaration. -/
def declStart : List TokenKind :=
  [.kwImport, .kwConst, .kwType, .kwVar]

/- The tokens that end an expression. -/
def exprEnd : List TokenKind :=
  [.comma, .colon, .semicolon, .rightParen, .rightBracket, .rightBrace]

/-
  Skip to one of some tokens.  Stopping more than ten times at
  one place is not allowed, so that parsing always ends.
-/
def skipToFuel
    (targets : List TokenKind) : (fuel : Nat) → Parser i Unit
  | 0 => return ()
  | fuel + 1 => do
      let s ← get
      if s.token.kind == .eof then
        return ()
      else if targets.contains s.token.kind then
        let here := s.token.offset
        let ahead :=
          match s.syncOffset with
          | none => true
          | some o => o < here
        if s.syncOffset == some here && s.syncCount < 10 then
          set { s with syncCount := s.syncCount + 1 }
        else if ahead then
          set { s with syncOffset := some here, syncCount := 0 }
        else
          advance
          skipToFuel targets fuel
      else
        advance
        skipToFuel targets fuel

/- Skip to one of some tokens. -/
def skipTo
    (targets : List TokenKind) : Parser i Unit := do
  skipToFuel targets (← budget)

/- Take the end of a statement and give the comment that goes with it. -/
def expectSemi : Parser i (Option CommentGroup) := do
  let t := (← get).token
  if t.kind == .rightParen || t.kind == .rightBrace then
    return none
  else if t.kind == .comma || t.kind == .semicolon then
    if t.kind == .comma then
      complainExpected t.offset (utf8 "';'")
    if t.text == [0x3b] then
      advance
      lineDoc
    else
      let comment ← lineDoc
      advance
      return comment
  else
    complainExpected t.offset (utf8 "';'")
    skipTo stmtStart
    return none

/- Take a name; something else counts as a blank name. -/
def ident : Parser i Ident := do
  let t := (← get).token
  if t.kind == .ident then
    advance
    return ⟨t.offset, t.text⟩
  else
    let _ ← expect .ident
    return ⟨t.offset, utf8 "_"⟩

/- Run a parser one level deeper inside brackets. -/
def nested {α : Type}
    (p : Parser i α) : Parser i α := do
  modify fun s => { s with level := s.level + 1 }
  let x ← p
  modify fun s => { s with level := s.level - 1 }
  return x

/- Run a parser with or without the rules for right sides. -/
def withRhs {α : Type}
    (inRhs : Bool)
    (p : Parser i α) : Parser i α := do
  let old := (← get).inRhs
  modify fun s => { s with inRhs := inRhs }
  let x ← p
  modify fun s => { s with inRhs := old }
  return x

/- Run a parser for the header of a control statement. -/
def inHeader {α : Type}
    (p : Parser i α) : Parser i α := do
  let old := (← get).level
  modify fun s => { s with level := -1 }
  let x ← p
  modify fun s => { s with level := old }
  return x

------------------------------------------------------------
-- Recursion
------------------------------------------------------------

/-
  The parsers that call each other.  Each part of the grammar
  is written against such a record, and the parser of a file
  uses one that is nested as deeply as the file has tokens.
-/
structure Grammar
    (i : Input) where
  binary : Nat → Parser i Expr
  unary : Parser i Expr
  type? : Parser i (Option Expr)
  literalValue : Option Expr → Parser i Expr
  stmt : Parser i Stmt
  ifStmt : Parser i Stmt

/- The record at the bottom, which is never reached. -/
def Grammar.bottom : Grammar i :=
  { binary := fun _ => return default
    unary := return default
    type? := return none
    literalValue := fun _ => return default
    stmt := return default
    ifStmt := return default }

namespace Grammar

/- An expression. -/
def expr
    (g : Grammar i) : Parser i Expr :=
  g.binary 1

/- An expression on a right side. -/
def rhs
    (g : Grammar i) : Parser i Expr :=
  withRhs true g.expr

/- Expressions between commas. -/
def exprList
    (g : Grammar i) : Parser i (List Expr) := do
  let x ← g.expr
  let xs ← many (at? .comma) do
    advance
    g.expr
  return x :: xs

/- A type. -/
def type
    (g : Grammar i) : Parser i Expr := do
  match ← g.type? with
  | some t => return t
  | none =>
      let p ← offset
      complainExpected p (utf8 "type")
      skipTo exprEnd
      return .bad p (← offset)

end Grammar

end Parser

end Source

end Namesake
