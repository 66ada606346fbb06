import Namesake.Source.Parser.Statements

/-
  This file defines the parser of source files.

  Key definitions include:
    * `Source.Parser.funcDecl`
    * `Source.Parser.topDecl`
    * `Source.Parser.file`
    * `Source.Parsed`
    * `Source.parse`
    * `Source.parseUnchecked`
-/

namespace Namesake

namespace Source

namespace Parser

variable {i : Input}

------------------------------------------------------------
-- Declarations
------------------------------------------------------------

/- The body of a function, if there is one. -/
def funcBody
    (g : Grammar i) : Parser i (Option Block) := do
  match ← kind with
  | .leftBrace =>
      let b ← block g
      let _ ← expectSemi
      return some b
  | .semicolon =>
      advance
      if ← at? .leftBrace then
        complain (← offset)
          (utf8 "unexpected semicolon or newline before \x7b")
        let b ← block g
        let _ ← expectSemi
        return some b
      else
        return none
  | _ =>
      let _ ← expectSemi
      return none

/- A function or method. -/
def funcDecl
    (g : Grammar i) : Parser i FuncDecl := do
  let doc ← leadDoc
  let p ← expect .kwFunc
  let recv ←
    if ← at? .leftParen then
      pure (some (← params g true))
    else
      pure none
  let name ← ident
  let tps ←
    if ← at? .leftBracket then do
      let tps ← typeParams g
      match recv, tps with
      | some _, some ps =>
          complain (ps.opening.getD p)
            (utf8 "method must have no type parameters")
          pure none
      | _, tps => pure tps
    else
      pure none
  let ps ← params g true
  let rs ← results g
  let body ← funcBody g
  let type : Signature :=
    { keyword := some p, typeParams := tps, params := ps, results := rs }
  return { doc, recv, name, type, body }

/- A declaration at the top level. -/
def topDecl
    (g : Grammar i) : Parser i TopDecl := do
  match ← kind with
  | .kwImport => return .gen (← genDecl g .kwImport)
  | .kwConst => return .gen (← genDecl g .kwConst)
  | .kwVar => return .gen (← genDecl g .kwVar)
  | .kwType => return .gen (← genDecl g .kwType)
  | .kwFunc => return .func (← funcDecl g)
  | _ =>
      let p ← offset
      complainExpected p (utf8 "declaration")
      skipTo declStart
      return .bad p (← offset)

/- The declarations of a file; `last` is how the one before started. -/
def topDecls
    (g : Grammar i) : (fuel : Nat) → (last : TokenKind) → Parser i (List TopDecl)
  | 0, _ => return []
  | fuel + 1, last => do
      let k ← kind
      if k == .eof then
        return []
      else
        if k == .kwImport && last ≠ .kwImport then
          complain (← offset)
            (utf8 "imports must appear before other declarations")
        let d ← topDecl g
        return d :: (← topDecls g fuel k)

/-
  A file.  Nothing is parsed behind errors in the first token
  or in the package clause.
-/
def file : Parser i (Option Tree) := do
  advance
  unless (← get).errors.isEmpty do
    return none
  let doc ← leadDoc
  let package ← expect .kwPackage
  let name ← ident
  let _ ← expectSemi
  unless (← get).errors.isEmpty do
    return none
  let depth := 12 * (← budget) + 24
  let decls ← topDecls (grammar depth) (← budget) .kwImport
  let s ← get
  let comments := s.comments.reverse
  return some { doc, package, name, decls, comments, size := i.lines.size }

end Parser

------------------------------------------------------------
-- Parsing
------------------------------------------------------------

/- The order of errors: by file, line, column and message. -/
def ParseError.le
    (a b : ParseError) : Bool :=
  let p := a.position
  let q := b.position
  if p.file ≠ q.file then
    Bytes.lt p.file q.file
  else if p.line ≠ q.line then
    p.line < q.line
  else if p.column ≠ q.column then
    p.column < q.column
  else
    Bytes.le a.message b.message

/- The outcome of parsing: the tree, if any, the lines and the errors. -/
structure Parsed where
  tree : Option Tree
  lines : Lines
  errors : List ParseError

/- Read the tokens of a text, which has no name. -/
def readTokens
    (src : Bytes)
    (tokens : List Scanner.Lexed) :
    Option Tree × List Parser.Complaint :=
  let input : Parser.Input := ⟨Lines.ofText [] src tokens, tokens⟩
  match Parser.file.run (Parser.State.start input) with
  | .ok tree s => (tree, s.errors.reverse)
  | .error _ s => (none, s.errors.reverse)

/-
  Parse the tokens of a text; the name is that of its file and
  counts only for positions.
-/
def parseTokens
    (name src : Bytes)
    (tokens : List Scanner.Lexed) : Parsed :=
  let lines := Lines.ofText name src tokens
  let (tree, complaints) := readTokens src tokens
  let errors :=
    complaints.map fun c =>
      (⟨lines.position c.offset, c.message⟩ : ParseError)
  { tree := tree
    lines := lines
    errors := errors.mergeSort ParseError.le }

/- Parse a text; the name is that of its file. -/
def parse
    (name src : Bytes) : Parsed :=
  parseTokens name src (Scanner.tokens src)

/-
  Parse a text in which any characters may occur, as they do
  in comments that are not yet checked.
-/
def parseUnchecked
    (name src : Bytes) : Parsed :=
  parseTokens name src
    ((Scanner.tokens src).map fun t => { t with faults := [] })

/- The text of a list of errors: the first one and how many follow. -/
def errorText
    (errors : List ParseError) : Bytes :=
  match errors with
  | [] => utf8 "no errors"
  | e :: rest =>
      let place :=
        if e.position.isValid || !e.position.file.isEmpty then
          e.position.text ++ utf8 ": "
        else
          []
      let more :=
        if rest.isEmpty then
          []
        else
          utf8 " (and " ++ Bytes.ofNat rest.length ++ utf8 " more errors)"
      place ++ e.message ++ more

end Source

end Namesake
